/-!
# Operators

The four binary operators of arithmetic, each on one of two levels of precedence.

## Main definitions

* `Operator` : the operators, with their character, their name and the operation they stand for.
* `Level` : sums bind less tightly than products.
-/

namespace AttrCalc

/-- A binary operator. -/
inductive Operator where
  | add
  | sub
  | mul
  | div
deriving DecidableEq, Repr

/-- The levels of precedence of the operators, the looser one first. -/
inductive Level where
  | sum
  | product
deriving DecidableEq, Repr

namespace Operator

/-- The character that stands for the operator. -/
def symbol : Operator → Char
  | add => '+'
  | sub => '-'
  | mul => '*'
  | div => '/'

/-- The name of the operator in outlines. -/
def name : Operator → String
  | add => "Add"
  | sub => "Sub"
  | mul => "Mul"
  | div => "Div"

/-- The level on which the operator binds. -/
def level : Operator → Level
  | add => .sum
  | sub => .sum
  | mul => .product
  | div => .product

/-- The operation on doubles.  Division by zero gives an infinity or not-a-number. -/
def apply : Operator → Float → Float → Float
  | add, l, r => l + r
  | sub, l, r => l - r
  | mul, l, r => l * r
  | div, l, r => l / r

end Operator

end AttrCalc
