import AttrCalc.Decimal.Shortest

/-!
# Written numbers

Numbers are written with their shortest digits, either positionally or with a power of ten.

## Main definitions

* `Style` : which numbers are written positionally, and how whole numbers end.
* `write` : a double as text.
* `valueText` : a value as all listings show it.
-/

namespace AttrCalc.Decimal

/-- The choices left open by the digits of a number.  The point of a number is the power of ten
just above it: `0.5` has point 0 and `12` has point 2. -/
structure Style where
  /-- Which points are written positionally. -/
  positional : Int → Bool
  /-- What ends a number without a fractional part. -/
  wholeEnd : String

/-- Values: positional from `0.0001` up to below `10 ^ 16`, and a point in every such number. -/
def Style.value : Style where
  positional point := -4 < point && point ≤ 16
  wholeEnd := ".0"

/-- Plain numbers: always positional, whole numbers without a point. -/
def Style.plain : Style where
  positional _ := true
  wholeEnd := ""

/-- The digits with the point after the first `point` of them, filled up with zeros. -/
def positionalText (wholeEnd : String) (digits : List Char) (point : Int) : String :=
  if point ≤ 0 then
    "0." ++ String.ofList (List.replicate (-point).toNat '0' ++ digits)
  else if digits.length ≤ point.toNat then
    String.ofList (digits ++ List.replicate (point.toNat - digits.length) '0') ++ wholeEnd
  else
    String.ofList (digits.take point.toNat) ++ "." ++ String.ofList (digits.drop point.toNat)

/-- One digit before the point, and the power of ten that this leaves. -/
def exponentText (digits : List Char) (point : Int) : String :=
  String.ofList (digits.take 1) ++
    (if digits.length ≤ 1 then "" else "." ++ String.ofList (digits.drop 1)) ++
    "e" ++ toString (point - 1)

/-- A decimal in the given style. -/
def Scientific.text (style : Style) (d : Scientific) : String :=
  let digits := Nat.toDigits 10 d.digits
  let point := d.exponent + digits.length
  if style.positional point then positionalText style.wholeEnd digits point
  else exponentText digits point

/-- The sign of a number as it is written. -/
def signText (negative : Bool) : String :=
  if negative then "-" else ""

/-- A double in the given style.  Not-a-number has no sign. -/
def write (style : Style) (x : Float) : String :=
  match Parts.ofFloat x with
  | .nan => "NaN"
  | .infinite negative => signText negative ++ "inf"
  | .finite negative mantissa exponent =>
    signText negative ++ (shortest mantissa exponent).text style

/-- A value as all listings show it. -/
def valueText (x : Float) : String :=
  write .value x

/-- The positional notation ends at `1e16`. -/
example : valueText 9999999999999998 = "9999999999999998.0" ∧ valueText 1e16 = "1e16" := by
  decide +kernel

end AttrCalc.Decimal
