import AttrCalc.Expr.Basic
import AttrCalc.Rule
import AttrCalc.Token.Basic

/-!
# Evaluation: settings, errors and state

## Main definitions

* `DivisionPolicy`, `Env` : what an evaluation may divide by, and what names stand for.
* `EvalError` : what can be wrong with an expression, with its wording and its place.
* `SymbolTable.resolve` : what a name in an expression stands for.
* `Eval.State` : the lexemes not yet read, the next node identifier and the rules applied so far.
-/

namespace AttrCalc

/-- What happens to a division by zero. -/
inductive DivisionPolicy where
  | fail
  | ieee
deriving DecidableEq, Repr

/-- The value of an operation, unless the policy refuses its zero divisor. -/
def DivisionPolicy.apply? (policy : DivisionPolicy) (o : Operator) (l r : Float) : Option Float :=
  if policy = .fail ∧ o = .div ∧ r == 0 then none else some (o.apply l r)

/-- What an expression is evaluated in. -/
structure Env where
  table : SymbolTable
  division : DivisionPolicy

/-- What can be wrong with an expression. -/
inductive EvalError where
  | unresolved (name : String) (offset : Nat)
  | unexpectedToken (found : String) (offset : Nat)
  | unexpectedEnd
  | unclosedParen (offset : Nat)
  | trailingInput (found : String) (offset : Nat)
  | tooDeep (offset : Nat) (limit : Nat)
  | divisionByZero (offset : Nat)
  | badNumber (text : String) (offset : Nat)
deriving DecidableEq, Repr

namespace EvalError

/-- The wording of an evaluation error. -/
def message : EvalError → String
  | unresolved name _ => s!"variable `{name}` is not defined"
  | unexpectedToken found offset => s!"unexpected `{found}` at {offset}"
  | unexpectedEnd => "unexpected end of expression"
  | unclosedParen offset => s!"parenthesis opened at {offset} is never closed"
  | trailingInput found offset =>
    s!"unexpected `{found}` after a complete expression at {offset}"
  | tooDeep offset limit => s!"parentheses nested deeper than {limit} levels at {offset}"
  | divisionByZero offset => s!"division by zero at {offset}"
  | badNumber text _ => s!"`{text}` is not a number"

/-- The characters that an evaluation error is about.  The end of the expression is no place. -/
def span? : EvalError → Option Span
  | unresolved name offset => some ⟨offset, name.length⟩
  | unexpectedToken found offset => some ⟨offset, found.length⟩
  | unexpectedEnd => none
  | unclosedParen offset => some ⟨offset, 1⟩
  | trailingInput found offset => some ⟨offset, found.length⟩
  | tooDeep offset _ => some ⟨offset, 1⟩
  | divisionByZero offset => some ⟨offset, 1⟩
  | badNumber text offset => some ⟨offset, text.length⟩

end EvalError

/-- The entry of a name that stands at `offset`. -/
def SymbolTable.resolve (t : SymbolTable) (name : String) (offset : Nat) :
    Except EvalError Entry :=
  match t.get? name with
  | some entry => .ok entry
  | none => .error (.unresolved name offset)

theorem SymbolTable.resolve_eq_ok_iff {t : SymbolTable} {name : String} {offset : Nat}
    {entry : Entry} : t.resolve name offset = .ok entry ↔ t.get? name = some entry := by
  unfold resolve
  split <;> simp_all

theorem SymbolTable.resolve_eq_error_iff {t : SymbolTable} {name : String} {offset : Nat}
    {err : EvalError} :
    t.resolve name offset = .error err ↔ t.get? name = none ∧ err = .unresolved name offset := by
  unfold resolve
  split
  · next entry hentry => simp [hentry]
  · next hname => simp [hname, eq_comm]

namespace Eval

/-- How far an evaluation has come. -/
structure State where
  rest : List Lexeme
  nextId : Nat
  trace : Trace

namespace State

/-- The state in front of the first lexeme. -/
def start (tokens : List Lexeme) : State :=
  ⟨tokens, 0, #[]⟩

/-- The state after a rule is applied. -/
def fire (s : State) (rule : Rule) : State :=
  { s with trace := s.trace.push rule }

/-- The state after a lexeme is read, which leaves `rest`, and a rule is applied. -/
def read (s : State) (rest : List Lexeme) (rule : Rule) : State :=
  { s with rest := rest, trace := s.trace.push rule }

/-- The state after the next node identifier is given away. -/
def numbered (s : State) : State :=
  { s with nextId := s.nextId + 1 }

end State

/-- What a parser answers: an expression or an error, and how far it has come. -/
abbrev Reply := Except EvalError Expr × State

end Eval

end AttrCalc
