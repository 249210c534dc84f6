import AttrCalc.Text.Name
import AttrCalc.Text.Words

/-!
# Assignments

An assignment `name = expression` names the target of its value.

## Main definitions

* `Assignment.read` : reads an assignment, with `AssignError` naming what is wrong.
-/

namespace AttrCalc

open Text

/-- What can be wrong with an assignment before its expression is looked at. -/
inductive AssignError where
  | missingAssignment
  | badTarget (target : String)
deriving DecidableEq, Repr

/-- The wording of an assignment error. -/
def AssignError.message : AssignError → String
  | missingAssignment => "the expression must contain an assignment (e.g. `c = a * b + 2`)"
  | badTarget target => s!"`{target}` is not a valid assignment target"

/-- The target of an assignment and the expression assigned to it. -/
structure Assignment where
  target : String
  expression : String
deriving DecidableEq, Repr

/-- Reads an assignment.  It is cut at the first `=`; any further one is left to the expression,
whose white space is normalised. -/
def Assignment.read (line : String) : Except AssignError Assignment :=
  match splitOnce? '=' line with
  | none => .error .missingAssignment
  | some (left, right) =>
    let target := trim left
    if isName target then .ok ⟨target, normalize right⟩ else .error (.badTarget target)

end AttrCalc
