import AttrCalc.Operator

/-!
# Tokens

The tokens of an expression are operators, parentheses, numerals and names.  A lexeme is a token
at a place of the source.

## Main definitions

* `Token`, `Token.spelling` : tokens, and how the source spells them.
* `Lexeme` : a token with its offset, counted in characters.
* `LexError` : what a source can contain besides tokens.
-/

namespace AttrCalc

/-- A token.  Numerals and names keep their text. -/
inductive Token where
  | op (o : Operator)
  | leftParen
  | rightParen
  | num (text : String)
  | ident (name : String)
deriving DecidableEq, Repr

namespace Token

/-- The text of a token in the source. -/
def spelling : Token → String
  | op o => String.singleton o.symbol
  | leftParen => "("
  | rightParen => ")"
  | num text => text
  | ident name => name

/-- A token as token listings show it: its kind, and its text unless the kind says it all. -/
def listing : Token → String
  | op .add => "(Plus, )"
  | op .sub => "(Minus, )"
  | op .mul => "(Mul, )"
  | op .div => "(Div, )"
  | leftParen => "(LeftC, )"
  | rightParen => "(RightC, )"
  | num text => "(Num, \"" ++ text ++ "\")"
  | ident name => "(Identity, \"" ++ name ++ "\")"

end Token

/-- A token and where it starts, counted in characters from the start of the source. -/
structure Lexeme where
  token : Token
  offset : Nat
deriving DecidableEq, Repr

/-- A place of a source: where it starts and how many characters it covers. -/
structure Span where
  offset : Nat
  length : Nat
deriving DecidableEq, Repr

/-- What stops a scan. -/
inductive LexError where
  | unknownChar (char : Char) (offset : Nat)
  | malformedNumber (text : String) (offset : Nat)
deriving DecidableEq, Repr

namespace LexError

/-- The wording of a lexical error. -/
def message : LexError → String
  | unknownChar char offset => s!"unknown character `{char}` at {offset}"
  | malformedNumber text offset => s!"malformed number `{text}` at {offset}"

/-- The characters that a lexical error is about. -/
def span : LexError → Span
  | unknownChar _ offset => ⟨offset, 1⟩
  | malformedNumber text offset => ⟨offset, text.length⟩

end LexError

end AttrCalc
