import AttrCalc.Grammar.Inclusion

/-!
# FIRST

The FIRST set of a nonterminal holds the terminals its sentential forms can begin with, and `ε` if
it derives the empty string.  Only the first symbol of a body is looked at: a body is taken not to
begin with a nonterminal that derives the empty string.

## Main definitions

* `Grammar.firstInclusions` : the inclusions that FIRST has to satisfy.
* `Grammar.firstFrom` : their least solution above a seed, with the reports of its rounds.
* `Grammar.first` : their least solution.
-/

namespace AttrCalc.Grammar

variable (g : Grammar)

/-- The symbols that a body can begin with, seen from its first symbol. -/
def headSource (s : Symbol) : Source :=
  if g.isNonterminal s then .setOf s else .symbols {s}

/-- What a body begins with, its nonterminal begins with. -/
def firstInclusions : List Inclusion :=
  g.productions.map fun p => ⟨p.lhs, g.headSource p.head⟩

/-- Solves for FIRST from a seed. -/
def settleFirst (seed : SetMap) : SetMap × List Bool :=
  SetMap.settle g.firstInclusions (g.cover seed)

/-- The FIRST sets above a seed. -/
def firstFrom (seed : SetMap) : SetMap :=
  (g.settleFirst seed).1

/-- The FIRST sets. -/
def first : SetMap :=
  g.firstFrom ∅

end AttrCalc.Grammar
