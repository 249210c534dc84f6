/-!
# Read numbers

The texts that are read as numbers: an optional sign, then either digits with at most one point
and an optional power of ten, or one of the words `inf`, `infinity` and `nan` in any case.

## Main definitions

* `readUnsigned?` : the decimal that unsigned characters spell.
* `readWord?` : the number that a word stands for.
* `read?` : the double that a text spells, correctly rounded.
-/

namespace AttrCalc.Decimal

/-- The number that ASCII digits spell. -/
def digitsValue (ds : List Char) : Nat :=
  ds.foldl (fun n d => 10 * n + (d.toNat - '0'.toNat)) 0

/-- The exponent that ASCII digits spell.  Digits are left out once `65536` is reached, beyond
which an exponent decides a number alone. -/
def exponentValue (ds : List Char) : Nat :=
  ds.foldl (fun n d => if n < 0x10000 then 10 * n + (d.toNat - '0'.toNat) else n) 0

/-- Takes a sign off the front; true stands for a minus sign. -/
def takeSign : List Char → Bool × List Char
  | '-' :: cs => (true, cs)
  | '+' :: cs => (false, cs)
  | cs => (false, cs)

/-- The exponent of a number, up to the end of the characters: nothing, or `e` with an optional
sign and at least one digit. -/
def readExponent? : List Char → Option Int
  | [] => some 0
  | c :: cs =>
    if c = 'e' ∨ c = 'E' then
      let (negative, ds) := takeSign cs
      if ds.isEmpty || !ds.all Char.isDigit then none
      else if negative then some (-exponentValue ds) else some (exponentValue ds)
    else none

/-- The digits after a point, if there is a point, and the characters after them. -/
def takeFraction : List Char → List Char × List Char
  | '.' :: cs => (cs.takeWhile Char.isDigit, cs.dropWhile Char.isDigit)
  | cs => ([], cs)

/-- The magnitude that unsigned characters spell. -/
def readUnsigned? (cs : List Char) : Option Float :=
  let whole := cs.takeWhile Char.isDigit
  let (fraction, rest) := takeFraction (cs.dropWhile Char.isDigit)
  if whole.isEmpty && fraction.isEmpty then none
  else
    (readExponent? rest).map fun exponent =>
      let scale : Int := exponent - fraction.length
      Float.ofScientific (digitsValue (whole ++ fraction)) (scale < 0) scale.natAbs

/-- The number that a word stands for, whatever the case of its letters. -/
def readWord? (cs : List Char) : Option Float :=
  match String.ofList (cs.map Char.toLower) with
  | "inf" => some (1 / 0)
  | "infinity" => some (1 / 0)
  | "nan" => some (0 / 0)
  | _ => none

/-- The double that the characters spell, correctly rounded. -/
def readChars? (cs : List Char) : Option Float :=
  let (negative, unsigned) := takeSign cs
  ((readUnsigned? unsigned).or (readWord? unsigned)).map fun x => if negative then -x else x

/-- The double that a text spells, correctly rounded. -/
def read? (s : String) : Option Float :=
  readChars? s.toList

end AttrCalc.Decimal
