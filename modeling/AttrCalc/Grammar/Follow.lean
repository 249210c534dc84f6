import AttrCalc.Grammar.First

/-!
# FOLLOW

The FOLLOW set of a nonterminal holds the terminals that can stand right after it in a sentential
form, and the end marker if it can stand last.

## Main definitions

* `Grammar.followInclusions` : the inclusions that FOLLOW has to satisfy, given FIRST.
* `Grammar.followFrom` : their least solution above a seed, with the reports of its rounds.
* `Grammar.follow` : their least solution.
-/

namespace AttrCalc.Grammar

variable (g : Grammar)

/-- What can come after a symbol of a body of `lhs` when the symbols `after` stand behind it.  The
empty string demands nothing. -/
def afterSource (first : SetMap) (lhs : Symbol) : List Symbol → Source
  | [] => .setOf lhs
  | next :: _ =>
    if g.isNonterminal next then .symbols ((first.get next).erase epsilon)
    else if next = epsilon then .symbols ∅
    else .symbols {next}

/-- The inclusions of the nonterminals in the body of `lhs`, from left to right. -/
def bodyInclusions (first : SetMap) (lhs : Symbol) : List Symbol → List Inclusion
  | [] => []
  | s :: after =>
    let rest := bodyInclusions first lhs after
    if g.isNonterminal s then ⟨s, g.afterSource first lhs after⟩ :: rest else rest

/-- What can come after a nonterminal in a body, follows it. -/
def followInclusions (first : SetMap) : List Inclusion :=
  g.productions.flatMap fun p => g.bodyInclusions first p.lhs p.body

/-- The sets that the rounds for FOLLOW start from: the end marker can follow the start symbol. -/
def followStart (seed : SetMap) : SetMap :=
  let covered := g.cover seed
  covered.insert g.start ((covered.get g.start).insert endMarker)

/-- Solves for FOLLOW from a seed. -/
def settleFollow (first seed : SetMap) : SetMap × List Bool :=
  SetMap.settle (g.followInclusions first) (g.followStart seed)

/-- The FOLLOW sets above a seed. -/
def followFrom (first seed : SetMap) : SetMap :=
  (g.settleFollow first seed).1

/-- The FOLLOW sets. -/
def follow (first : SetMap) : SetMap :=
  g.followFrom first ∅

end AttrCalc.Grammar
