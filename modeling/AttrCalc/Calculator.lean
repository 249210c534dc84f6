import AttrCalc.Error
import AttrCalc.Eval.Parser
import AttrCalc.Token.Scanner

/-!
# Running assignments

Running an assignment reads it, scans and evaluates its expression, and writes the value back under
its target.

## Main definitions

* `SymbolTable.assign` : the table after a value is assigned.
* `SymbolTable.run` : runs an assignment line.
-/

namespace AttrCalc

/-- What running an assignment gives: the target, the evaluation and the new table. -/
structure Completed where
  target : String
  evaluation : Evaluation
  table : SymbolTable

namespace SymbolTable

/-- The table after the value of an evaluation is assigned to a name. -/
def assign (t : SymbolTable) (target : String) (evaluation : Evaluation) : SymbolTable :=
  t.write target ⟨evaluation.value, .real⟩

/-- Runs an assignment line.  The first error ends it. -/
def run (t : SymbolTable) (division : DivisionPolicy) (line : String) : Except Error Completed :=
  match Assignment.read line with
  | .error e => .error (.assign e)
  | .ok ⟨target, expression⟩ =>
    match tokenize expression with
    | .error e => .error (.lex e)
    | .ok tokens =>
      match evaluate ⟨t, division⟩ tokens with
      | .error e => .error (.eval e)
      | .ok evaluation => .ok ⟨target, evaluation, t.assign target evaluation⟩

end SymbolTable

end AttrCalc
