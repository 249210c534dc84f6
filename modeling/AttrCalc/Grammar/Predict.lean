import AttrCalc.Grammar.Follow

/-!
# PREDICT and LL(1) conflicts

The PREDICT set of a production holds the terminals on which a top-down parser chooses it.  Two
alternatives of one nonterminal conflict when their PREDICT sets share a terminal.

## Main definitions

* `Prediction`, `Grammar.predict` : productions with their PREDICT sets.
* `Conflict`, `conflicts` : pairs of alternatives that share terminals, in lexicographic order.
* `Analysis` : all three kinds of sets of a grammar.
-/

namespace AttrCalc

/-- A production with its PREDICT set. -/
structure Prediction where
  production : Production
  set : SymbolSet

/-- Two productions of one nonterminal and the terminals their PREDICT sets share. -/
structure Conflict where
  left : Production
  right : Production
  common : SymbolSet

/-- The PREDICT set of a production: what its body begins with, where the empty string stands for
what follows the nonterminal. -/
def Grammar.predictSet (g : Grammar) (first follow : SetMap) (p : Production) : SymbolSet :=
  let set := first.members (g.headSource p.head)
  if epsilon ∈ set then set.erase epsilon ∪ follow.get p.lhs else set

/-- The PREDICT sets of all productions, in the order of the grammar. -/
def Grammar.predict (g : Grammar) (first follow : SetMap) : List Prediction :=
  g.productions.map fun p => ⟨p, g.predictSet first follow p⟩

/-- The conflict between two productions, if there is one. -/
def conflict? (p q : Prediction) : Option Conflict :=
  let common := p.set ∩ q.set
  if p.production.lhs = q.production.lhs ∧ common ≠ ∅ then
    some ⟨p.production, q.production, common⟩
  else none

/-- All conflicts between a production and a later one. -/
def conflicts : List Prediction → List Conflict
  | [] => []
  | p :: ps => ps.filterMap (conflict? p) ++ conflicts ps

/-- The PREDICT set of a production given by its two sides. -/
def predictSet? (ps : List Prediction) (lhs : Symbol) (body : List Symbol) : Option SymbolSet :=
  (ps.find? fun p => p.production.lhs == lhs && p.production.body == body).map (·.set)

/-- The PREDICT sets as they are listed. -/
def predictListing (ps : List Prediction) : String :=
  String.join <| ps.map fun p =>
    "PREDICT(" ++ p.production.text ++ ") = " ++ SymbolSet.text p.set ++ "\n"

/-- All three kinds of sets of a grammar. -/
structure Analysis where
  first : SetMap
  follow : SetMap
  predictions : List Prediction

/-- Computes FIRST, then FOLLOW from it, then PREDICT from both. -/
def Grammar.analyse (g : Grammar) : Analysis :=
  let first := g.first
  let follow := g.follow first
  ⟨first, follow, g.predict first follow⟩

end AttrCalc
