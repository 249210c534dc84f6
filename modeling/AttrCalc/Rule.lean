import AttrCalc.Grammar.Arithmetic
import AttrCalc.Operator

/-!
# Attribute rules

Every production of the arithmetic grammar has a rule that says how the value of its left-hand side
is computed from the values of its body.  An evaluation records the rules in the order in which it
applies them.

## Main definitions

* `Rule`, `Rule.production`, `Rule.text` : the rules, their productions and how they are listed.
* `Operator.rule`, `Level.rule` : the rules of an operation and of a level without operation.
* `Trace` : a record of rules.
-/

namespace AttrCalc

/-- An attribute rule, named for the production it belongs to. -/
inductive Rule where
  | add
  | sub
  | ofTerm
  | mul
  | div
  | ofFactor
  | group
  | ident
  | num
deriving DecidableEq, Repr

namespace Rule

/-- The production that a rule belongs to. -/
def production : Rule → Production
  | add => ⟨"E", "E", ["+", "T"]⟩
  | sub => ⟨"E", "E", ["-", "T"]⟩
  | ofTerm => ⟨"E", "T", []⟩
  | mul => ⟨"T", "T", ["*", "F"]⟩
  | div => ⟨"T", "T", ["/", "F"]⟩
  | ofFactor => ⟨"T", "F", []⟩
  | group => ⟨"F", "(", ["E", ")"]⟩
  | ident => ⟨"F", "id", []⟩
  | num => ⟨"F", "num", []⟩

/-- A rule as it is listed: its production, and the equation for the value. -/
def text : Rule → String
  | add => "E → E1 + T\t\x7b E.val = E1.val + T.val \x7d"
  | sub => "E → E1 - T\t\x7b E.val = E1.val - T.val \x7d"
  | ofTerm => "E → T\t\x7b E.val = T.val \x7d"
  | mul => "T → T1 * F\t\x7b T.val = T1.val * F.val \x7d"
  | div => "T → T1 / F\t\x7b T.val = T1.val / F.val \x7d"
  | ofFactor => "T → F\t\x7b T.val = F.val \x7d"
  | group => "F → (E)\t\x7b F.val = E.val \x7d"
  | ident => "F → id\t\x7b F.val = lookup(id) \x7d"
  | num => "F → num\t\x7b F.val = num.lexval \x7d"

/-- The rules belong to the productions of the arithmetic grammar, one to each. -/
theorem map_production_eq :
    [add, sub, ofTerm, mul, div, ofFactor, group, ident, num].map production =
      arithmetic.productions :=
  rfl

end Rule

/-- The rule of an operation. -/
def Operator.rule : Operator → Rule
  | add => .add
  | sub => .sub
  | mul => .mul
  | div => .div

/-- The rule of a level that holds no operation. -/
def Level.rule : Level → Rule
  | sum => .ofTerm
  | product => .ofFactor

/-- The rules of an evaluation in the order in which they are applied. -/
abbrev Trace := Array Rule

/-- A trace as it is listed, a line for each rule. -/
def Trace.listing (trace : Trace) : String :=
  String.join <| trace.toList.map fun rule => rule.text ++ "\n"

end AttrCalc
