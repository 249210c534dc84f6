import Std.Data.ExtTreeSet

/-!
# Context-free grammars

A grammar is a list of productions with a start symbol.  The symbols that stand on the left of a
production are its nonterminals; all other symbols of the bodies are terminals, among them `ε`,
which marks an empty body.  A grammar is built from plain rules by `Grammar.ofRules`, which
refuses the rules that make no sense.

## Main definitions

* `Symbol`, `epsilon`, `endMarker` : symbols, and the two with a meaning of their own.
* `Production`, `Grammar` : productions with a first body symbol, and checked lists of them.
* `Grammar.ofRules` : checks rules, with `GrammarError` naming what is wrong.
* `Grammar.nonterminals`, `Grammar.terminals`, `Grammar.alternatives` : the parts of a grammar.

## Main results

* `Grammar.mem_nonterminals_iff`, `Grammar.isNonterminal_iff` : a nonterminal is a left-hand side.
-/

namespace AttrCalc

/-- A grammar symbol. -/
abbrev Symbol := String

/-- A set of symbols, listed in the order of their code points. -/
abbrev SymbolSet := Std.ExtTreeSet Symbol

/-- The empty string. -/
def epsilon : Symbol := "ε"

/-- The end of the input. -/
def endMarker : Symbol := "$"

/-- A production.  Its body has at least one symbol. -/
structure Production where
  lhs : Symbol
  head : Symbol
  tail : List Symbol
deriving DecidableEq, Repr

namespace Production

/-- The body of a production. -/
def body (p : Production) : List Symbol :=
  p.head :: p.tail

/-- The body as it is listed, with a blank between symbols. -/
def bodyText (p : Production) : String :=
  " ".intercalate p.body

/-- A production as it is listed. -/
def text (p : Production) : String :=
  p.lhs ++ " → " ++ p.bodyText

end Production

/-- A grammar.  The start symbol has a production, the symbols with a meaning of their own stand on
no left-hand side, and the end marker stands in no body. -/
structure Grammar where
  start : Symbol
  productions : List Production
  start_mem : start ∈ productions.map (·.lhs)
  lhs_ne : ∀ p ∈ productions, p.lhs ≠ epsilon ∧ p.lhs ≠ endMarker
  endMarker_notMem : ∀ p ∈ productions, endMarker ∉ p.body

/-- What can be wrong with the rules of a grammar. -/
inductive GrammarError where
  | empty
  | emptyBody (lhs : Symbol)
  | unknownStart (start : Symbol)
  | reservedLhs (symbol : Symbol)
  | reservedInBody (lhs : Symbol) (symbol : Symbol)
deriving DecidableEq, Repr

/-- The wording of a grammar error. -/
def GrammarError.message : GrammarError → String
  | .empty => "grammar has no productions"
  | .emptyBody lhs => s!"production for `{lhs}` has an empty body"
  | .unknownStart start => s!"start symbol `{start}` is not a nonterminal of the grammar"
  | .reservedLhs symbol => s!"reserved symbol `{symbol}` cannot be a left-hand side"
  | .reservedInBody lhs symbol => s!"end marker `{symbol}` used inside the body of `{lhs}`"

/-- What can stand in a grammar: no reserved left-hand side and no end marker in the body. -/
def Production.Admissible (p : Production) : Prop :=
  (p.lhs ≠ epsilon ∧ p.lhs ≠ endMarker) ∧ endMarker ∉ p.body

instance (p : Production) : Decidable p.Admissible :=
  inferInstanceAs (Decidable (_ ∧ _))

/-- A plain rule, whose body may be anything: a left-hand side and a list of symbols. -/
abbrev PlainRule := Symbol × List Symbol

/-- Checks one rule.  The left-hand side is looked at first, then the body. -/
def Production.ofRule (rule : PlainRule) :
    Except GrammarError { p : Production // p.Admissible } :=
  if hlhs : rule.1 = epsilon ∨ rule.1 = endMarker then .error (.reservedLhs rule.1)
  else
    match rule.2 with
    | [] => .error (.emptyBody rule.1)
    | head :: tail =>
      if hbody : endMarker ∈ head :: tail then .error (.reservedInBody rule.1 endMarker)
      else .ok ⟨⟨rule.1, head, tail⟩, ⟨not_or.mp hlhs, hbody⟩⟩

namespace Grammar

/-- Checks rules one after the other, then the start symbol, and builds the grammar. -/
def ofRules (start : Symbol) (rules : List PlainRule) : Except GrammarError Grammar := do
  if rules.isEmpty then throw .empty
  let productions ← rules.mapM Production.ofRule
  if h : start ∈ (productions.map (·.1)).map (·.lhs) then
    return {
      start
      productions := productions.map (·.1)
      start_mem := h
      lhs_ne := by
        intro p hp
        obtain ⟨q, -, rfl⟩ := List.mem_map.mp hp
        exact q.2.1
      endMarker_notMem := by
        intro p hp
        obtain ⟨q, -, rfl⟩ := List.mem_map.mp hp
        exact q.2.2 }
  else throw (.unknownStart start)

variable (g : Grammar)

/-- The nonterminals, in the order in which they first stand on the left. -/
def nonterminals : List Symbol :=
  (g.productions.map (·.lhs)).eraseDups

/-- Whether a symbol is a nonterminal. -/
def isNonterminal (s : Symbol) : Bool :=
  g.productions.any (·.lhs == s)

/-- The terminals that stand in a body, `ε` among them. -/
def terminals : SymbolSet :=
  .ofList ((g.productions.flatMap (·.body)).filter (!g.isNonterminal ·))

/-- The productions of a nonterminal. -/
def alternatives (a : Symbol) : List Production :=
  g.productions.filter (·.lhs == a)

/-- The grammar as it is listed: a line for each nonterminal with all its bodies. -/
def listing : String :=
  String.join <| g.nonterminals.map fun a =>
    a ++ " → " ++ " | ".intercalate ((g.alternatives a).map (·.bodyText)) ++ "\n"

theorem isNonterminal_iff {g : Grammar} {s : Symbol} :
    g.isNonterminal s ↔ ∃ p ∈ g.productions, p.lhs = s := by
  simp [isNonterminal]

theorem mem_nonterminals_iff {g : Grammar} {s : Symbol} :
    s ∈ g.nonterminals ↔ g.isNonterminal s := by
  simp [nonterminals, isNonterminal_iff]

end Grammar

end AttrCalc
