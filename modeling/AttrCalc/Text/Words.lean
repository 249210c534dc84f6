import AttrCalc.Unicode.WhiteSpace

/-!
# White space in texts

Texts are trimmed, cut at separators and reduced to their words before anything else looks at
them.  The work is done on lists of characters; the functions on `String` wrap it.

## Main definitions

* `trim` : a text without the white space at both ends.
* `words` : the maximal runs of characters other than white space.
* `normalize` : the words of a text with one blank between neighbours.
* `splitOnce?` : a text cut at the first occurrence of a character.
* `splitAll` : a text cut at every occurrence of a character.
-/

namespace AttrCalc.Text

open Unicode

/-- The characters without the white space at both ends. -/
def trimChars (cs : List Char) : List Char :=
  ((cs.dropWhile isWhiteSpace).reverse.dropWhile isWhiteSpace).reverse

/-- The text without the white space at both ends. -/
def trim (s : String) : String :=
  String.ofList (trimChars s.toList)

/-- The maximal runs of characters other than white space. -/
def words (cs : List Char) : List (List Char) :=
  (cs.splitOnP isWhiteSpace).filter (!·.isEmpty)

/-- The words of `cs` with one blank between neighbours. -/
def normalizeChars (cs : List Char) : List Char :=
  [' '].intercalate (words cs)

/-- The words of the text with one blank between neighbours. -/
def normalize (s : String) : String :=
  String.ofList (normalizeChars s.toList)

/-- The characters before and after the first `sep`. -/
def splitCharsOnce? (sep : Char) (cs : List Char) : Option (List Char × List Char) :=
  match cs.dropWhile (· != sep) with
  | [] => none
  | _ :: after => some (cs.takeWhile (· != sep), after)

/-- The texts before and after the first `sep`, or nothing if `sep` does not occur. -/
def splitOnce? (sep : Char) (s : String) : Option (String × String) :=
  (splitCharsOnce? sep s.toList).map fun (before, after) =>
    (String.ofList before, String.ofList after)

/-- The pieces of the text between the occurrences of `sep`. -/
def splitAll (sep : Char) (s : String) : List String :=
  (s.toList.splitOnP (· == sep)).map String.ofList

end AttrCalc.Text
