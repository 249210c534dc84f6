import AttrCalc.Unicode.Alphabetic
import AttrCalc.Unicode.Numeric

/-!
# Names

A name starts with a letter or `_` and goes on with letters, numbers and `_`.  Variables and
assignment targets are names.

## Main definitions

* `isNameStart`, `isNamePart` : the characters a name starts and goes on with.
* `isName` : whether a text is a name.
-/

namespace AttrCalc.Text

open Unicode

/-- A character that can start a name. -/
def isNameStart (c : Char) : Bool :=
  isAlphabetic c || c == '_'

/-- A character that can stand inside a name. -/
def isNamePart (c : Char) : Bool :=
  isAlphabetic c || isNumeric c || c == '_'

/-- Whether the characters spell a name. -/
def isNameChars : List Char → Bool
  | [] => false
  | c :: cs => isNameStart c && cs.all isNamePart

/-- Whether the text is a name. -/
def isName (s : String) : Bool :=
  isNameChars s.toList

end AttrCalc.Text
