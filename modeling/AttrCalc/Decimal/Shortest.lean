/-!
# Shortest decimals

A double stands for every real number that rounds to it.  Its shortest decimal is the decimal of
fewest digits among those, and of these the one closest to the double; of two that are equally
close it is the larger.  The search is in exact natural arithmetic: from a grid of powers of ten
that is too coarse down to the first grid with a point in the interval.

## Main definitions

* `Parts` : what the 64 bits of a double stand for.
* `Scientific` : a decimal `digits * 10 ^ exponent`.
* `Interval` : the numbers that round to a given double.
* `shortest` : the shortest decimal of a positive double.
-/

namespace AttrCalc.Decimal

/-- A decimal `digits * 10 ^ exponent`. -/
structure Scientific where
  digits : Nat
  exponent : Int
deriving DecidableEq, Repr

/-- What the 64 bits of a double stand for. -/
inductive Parts where
  | nan
  | infinite (negative : Bool)
  | finite (negative : Bool) (mantissa : Nat) (exponent : Int)
deriving DecidableEq, Repr

/-- The least binary exponent, that of the subnormal doubles. -/
def leastExponent : Int := -1074

/-- Takes a double apart into sign, mantissa and binary exponent. -/
def Parts.ofFloat (x : Float) : Parts :=
  let bits := x.toBits.toNat
  let negative := Nat.pow 2 63 ≤ bits
  let fraction := bits % Nat.pow 2 52
  match bits / Nat.pow 2 52 % Nat.pow 2 11 with
  | 0 => .finite negative fraction leastExponent
  | 2047 => if fraction = 0 then .infinite negative else .nan
  | e => .finite negative (Nat.pow 2 52 + fraction) (leastExponent + e - 1)

/-- The interval of the numbers that round to a double, around the double itself.  The three
numbers count units of `2 ^ exponent`; the ends belong to the interval if it is closed. -/
structure Interval where
  lower : Nat
  middle : Nat
  upper : Nat
  exponent : Int
  closed : Bool

/-- The numbers that round to `mantissa * 2 ^ exponent`, in quarters of the last place.  Below a
power of two the doubles lie twice as close.  A tie rounds to the even mantissa. -/
def Interval.around (mantissa : Nat) (exponent : Int) : Interval where
  lower := 4 * mantissa - (if mantissa = Nat.pow 2 52 ∧ leastExponent < exponent then 1 else 2)
  middle := 4 * mantissa
  upper := 4 * mantissa + 2
  exponent := exponent - 2
  closed := mantissa % 2 = 0

/-- The point of the interval on the grid of multiples of `10 ^ k` that is closest to the middle,
counted in grid steps.  Of two equally close ones it is the upper. -/
def Interval.onGrid? (i : Interval) (k : Int) : Option Nat :=
  let unit := Nat.pow 2 i.exponent.toNat * Nat.pow 10 (-k).toNat
  let step := Nat.pow 2 (-i.exponent).toNat * Nat.pow 10 k.toNat
  let inside (c : Nat) : Bool :=
    if i.closed then i.lower * unit ≤ c * step && c * step ≤ i.upper * unit
    else i.lower * unit < c * step && c * step < i.upper * unit
  let below := i.middle * unit / step
  let above := below + 1
  if inside below && (!inside above || 2 * (i.middle * unit) < (below + above) * step) then
    some below
  else if inside above then some above
  else none

/-- The point of the first grid that has one, from the grid of `10 ^ k` downwards. -/
def Interval.firstOnGrid (i : Interval) : Nat → Int → Scientific
  | 0, k => ⟨0, k⟩
  | steps + 1, k =>
    match i.onGrid? k with
    | some c => ⟨c, k⟩
    | none => i.firstOnGrid steps (k - 1)

/-- A power of ten above `mantissa * 2 ^ exponent`, by at most two orders of magnitude too large:
`30103 / 100000` is just above the decimal logarithm of two. -/
def magnitudeBound (mantissa : Nat) (exponent : Int) : Int :=
  (mantissa.log2 + 1 + exponent) * 30103 / 100000 + 2

/-- The shortest decimal of `mantissa * 2 ^ exponent`.  Seventeen digits always suffice. -/
def shortest (mantissa : Nat) (exponent : Int) : Scientific :=
  if mantissa = 0 then ⟨0, 0⟩
  else (Interval.around mantissa exponent).firstOnGrid 21 (magnitudeBound mantissa exponent)

end AttrCalc.Decimal
