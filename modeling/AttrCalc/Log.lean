import AttrCalc.Calculator
import AttrCalc.Grammar.Follow

/-!
# Log messages

What the calculator does can be followed in a log.  The messages are derived from what its parts
return, so nothing else depends on them.

## Main definitions

* `Log.Level`, `Log.Entry` : messages and how important they are.
* `Log.ofScan`, `Log.ofTrace`, `Log.ofRounds` : the messages of each part.
* `Log.ofDeclare`, `Log.ofReadings` : the messages of one declaration and of a line of them.
* `Log.ofEvaluation`, `Log.ofAssignment` : the messages of an evaluation and of an assignment.
-/

namespace AttrCalc.Log

/-- How important a message is, the most important level first. -/
inductive Level where
  | warn
  | debug
  | trace
deriving DecidableEq, Repr

/-- The rank of a level: a log of some level shows the messages of no higher rank. -/
def Level.rank : Level → Nat
  | warn => 0
  | debug => 1
  | trace => 2

/-- A level as it is shown. -/
def Level.text : Level → String
  | warn => "WARN"
  | debug => "DEBUG"
  | trace => "TRACE"

/-- A message. -/
structure Entry where
  level : Level
  text : String
deriving DecidableEq, Repr

/-- The messages that a log of the given level shows. -/
def upTo (level : Level) (entries : List Entry) : List Entry :=
  entries.filter fun e => e.level.rank ≤ level.rank

/-- The message of a lexeme that is read. -/
def ofLexeme (l : Lexeme) : Entry :=
  ⟨.trace, "lex " ++ l.token.listing ++ " at " ++ toString l.offset⟩

/-- The messages of a scan. -/
def ofScan (s : Scan) : List Entry :=
  s.lexemes.map ofLexeme

/-- The messages of the rules that are applied, numbered from zero. -/
def ofTrace (trace : Trace) : List Entry :=
  trace.toList.zipIdx.map fun (rule, i) => ⟨.trace, s!"rule #{i}: " ++ rule.text⟩

/-- The message of a declaration that is entered into a table. -/
def ofDeclaration (d : Declaration) : Entry :=
  ⟨.debug, "declare " ++ d.name ++ " = " ++ Decimal.write .plain d.value⟩

/-- The messages of a single declaration.  One that cannot be read is left to its caller. -/
def ofDeclare (text : String) : List Entry :=
  match Declaration.read text with
  | .ok d => [ofDeclaration d]
  | .error _ => []

/-- The messages of the pieces of a line. -/
def ofReadings (readings : List (Except DeclError Declaration)) : List Entry :=
  readings.map fun
    | .ok d => ofDeclaration d
    | .error e => ⟨.warn, e.message⟩

/-- The messages of the rounds for the named sets, numbered from one. -/
def ofRounds (name : String) (reports : List Bool) : List Entry :=
  (reports.zipIdx 1).map fun (changed, i) => ⟨.debug, name ++ s!" pass {i}: changed = {changed}"⟩

/-- The messages of an evaluation. -/
def ofEvaluation (env : Env) (tokens : List Lexeme) : List Entry :=
  ofTrace (Eval.fired env tokens)

/-- The messages of scanning a source and, if that succeeds, evaluating it. -/
def ofSource (env : Env) (source : String) : List Entry :=
  let s := scan source
  ofScan s ++ (if s.error?.isNone then ofEvaluation env s.lexemes else [])

/-- The messages of running an assignment line. -/
def ofAssignment (env : Env) (line : String) : List Entry :=
  match Assignment.read line with
  | .ok a => ofSource env a.expression
  | .error _ => []

end AttrCalc.Log
