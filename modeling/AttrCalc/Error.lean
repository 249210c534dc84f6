import AttrCalc.Assignment
import AttrCalc.Eval.Basic
import AttrCalc.Grammar.Basic
import AttrCalc.Table.Declaration
import AttrCalc.Token.Basic

/-!
# Errors

The errors of all parts of the calculator as one type.

## Main definitions

* `Error`, `Error.message`, `Error.span?` : any error, its wording and its place.
-/

namespace AttrCalc

/-- Any error.  Those of drawing and of the file system come with their text. -/
inductive Error where
  | grammar (e : GrammarError)
  | lex (e : LexError)
  | assign (e : AssignError)
  | decl (e : DeclError)
  | eval (e : EvalError)
  | render (text : String)
  | io (text : String)
deriving DecidableEq, Repr

namespace Error

/-- The wording of an error. -/
def message : Error → String
  | grammar e => e.message
  | lex e => e.message
  | assign e => e.message
  | decl e => e.message
  | eval e => e.message
  | render text => s!"render failed: {text}"
  | io text => text

/-- The characters that an error is about, if it is about characters of an expression. -/
def span? : Error → Option Span
  | lex e => some e.span
  | eval e => e.span?
  | _ => none

end Error

end AttrCalc
