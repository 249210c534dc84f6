import AttrCalc.Grammar.Basic
import Std.Data.ExtTreeMap

/-!
# Inclusions between named sets

FIRST and FOLLOW are both least solutions of a system of inclusions.  An inclusion demands that
some symbols, or all members of another set, belong to the set of a nonterminal.  A system is
solved in rounds: a round goes through the inclusions in order and enlarges the target of each, so
later inclusions see what earlier ones of the same round have added.  The rounds end with the first
one that changes nothing.

## Main definitions

* `SetMap` : the sets of the nonterminals.
* `Inclusion` : a demand on one of the sets.
* `SetMap.round` : one round over a system, with a report whether any set grew.
* `SetMap.settle` : rounds until nothing changes, with the reports of all rounds.
-/

namespace AttrCalc

/-- Sets of symbols under the names of nonterminals. -/
abbrev SetMap := Std.ExtTreeMap Symbol SymbolSet

/-- What flows into a set: given symbols, or all members of another set. -/
inductive Source where
  | symbols (set : SymbolSet)
  | setOf (a : Symbol)

/-- The demand that the set of `target` includes `source`. -/
structure Inclusion where
  target : Symbol
  source : Source

namespace SetMap

/-- The set of a symbol, empty if it has none. -/
def get (m : SetMap) (a : Symbol) : SymbolSet :=
  m.getD a ∅

/-- The symbols that a source stands for. -/
def members (m : SetMap) : Source → SymbolSet
  | .symbols set => set
  | .setOf a => m.get a

/-- Enlarges the target of an inclusion by its source, and reports whether it grew. -/
def enlarge (m : SetMap) (i : Inclusion) : SetMap × Bool :=
  let old := m.get i.target
  let new := m.members i.source
  (m.insert i.target (old ∪ new), new.toList.any fun s => !old.contains s)

/-- One round over the inclusions, with the report whether any set grew. -/
def round (system : List Inclusion) (m : SetMap) : SetMap × Bool :=
  system.foldl
    (fun (m, changed) i =>
      let (m', grew) := enlarge m i
      (m', changed || grew))
    (m, false)

/-- At most `limit` rounds, up to the first that changes nothing, with all their reports. -/
def settleWithin (system : List Inclusion) : Nat → SetMap → SetMap × List Bool
  | 0, m => (m, [])
  | limit + 1, m =>
    let (m', changed) := round system m
    if changed then
      let (settled, reports) := settleWithin system limit m'
      (settled, changed :: reports)
    else (m', [changed])

/-- Rounds up to the first that changes nothing, with all their reports.  A symbol passes at least
one more inclusion in every round, so there are no more rounds than inclusions and one. -/
def settle (system : List Inclusion) (m : SetMap) : SetMap × List Bool :=
  settleWithin system (system.length + 1) m

end SetMap

/-- Gives every nonterminal a set, an empty one if it has none. -/
def Grammar.cover (g : Grammar) (m : SetMap) : SetMap :=
  g.nonterminals.foldl (fun m a => m.insertIfNew a ∅) m

/-- A set as it is listed. -/
def SymbolSet.text (s : SymbolSet) : String :=
  "\x7b" ++ ", ".intercalate s.toList ++ "\x7d"

/-- The sets of the nonterminals as they are listed, in the order of the grammar. -/
def SetMap.listing (name : String) (g : Grammar) (m : SetMap) : String :=
  String.join <| g.nonterminals.filterMap fun a =>
    (m[a]?).map fun set => name ++ "(" ++ a ++ ") = " ++ SymbolSet.text set ++ "\n"

end AttrCalc
