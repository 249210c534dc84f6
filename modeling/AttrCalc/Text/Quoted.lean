import AttrCalc.Unicode.GraphemeExtend
import AttrCalc.Unicode.Printable

/-!
# Quoted texts

A quoted text stands between double quotes.  Quotes, backslashes and the common controls are
escaped by a letter, and every other character that cannot be seen on its own by its code point.

## Main definitions

* `escape` : how one character is written inside quotes.
* `quote` : a text between double quotes.
-/

namespace AttrCalc.Text

open Unicode

/-- A character given by its code point in hexadecimal, such as `\u{301}`. -/
def codePointEscape (c : Char) : List Char :=
  ['\\', 'u', '\x7b'] ++ Nat.toDigits 16 c.toNat ++ ['\x7d']

/-- How a character is written inside quotes.  A mark that is drawn on top of the character before
it is escaped wherever it stands. -/
def escape (c : Char) : List Char :=
  match c with
  | '\x00' => ['\\', '0']
  | '\t' => ['\\', 't']
  | '\r' => ['\\', 'r']
  | '\n' => ['\\', 'n']
  | '\\' => ['\\', '\\']
  | '"' => ['\\', '"']
  | c => if isCombining c || !isPrintable c then codePointEscape c else [c]

/-- The text between double quotes. -/
def quote (s : String) : String :=
  "\"" ++ String.ofList (s.toList.flatMap escape) ++ "\""

example : quote "a'b\x07" = "\"a'b\\u\x7b7\x7d\"" := by decide +kernel

end AttrCalc.Text
