import AttrCalc.Proofs.Grammar.Conflict

/-!
# Left recursion and LL(1) conflicts

A cycle of nonterminals each of which begins a body of the one before makes their FIRST sets equal.
A symbol gets into these sets from outside: through a body that begins with no member of the cycle.
The nonterminal of this body has another body, which begins with the next member of the cycle, and
the PREDICT sets of both hold the symbol.  So a grammar with left recursion is not LL(1), unless
nothing at all begins with the nonterminals on the cycle.

## Main definitions

* `Grammar.LeftCycle` : a cycle of nonterminals, each beginning a body of the one before.

## Main results

* `Grammar.LeftCycle.exists_entry` : where a symbol enters the FIRST sets of a cycle.
* `Grammar.LeftCycle.exists_conflict` : left recursion shows up as a conflict.
-/

namespace AttrCalc

/-! ### Predictions that conflict -/

/-- Of two different members of a list one stands before the other. -/
theorem pair_sublist_of_mem {α : Type*} {l : List α} {a b : α} (ha : a ∈ l) (hb : b ∈ l)
    (hne : a ≠ b) : [a, b].Sublist l ∨ [b, a].Sublist l := by
  induction l with
  | nil => exact absurd ha List.not_mem_nil
  | cons c l ih =>
    rcases List.mem_cons.mp ha with rfl | hal
    · have hbl : b ∈ l := (List.mem_cons.mp hb).resolve_left hne.symm
      exact .inl ((List.singleton_sublist.mpr hbl).cons_cons a)
    · rcases List.mem_cons.mp hb with rfl | hbl
      · exact .inr ((List.singleton_sublist.mpr hal).cons_cons b)
      · exact (ih hal hbl).imp (.cons c) (.cons c)

/-- Two predictions for different productions of one nonterminal conflict if they share a
symbol. -/
theorem exists_conflict_of_mem {ps : List Prediction} {p q : Prediction} {x : Symbol} (hp : p ∈ ps)
    (hq : q ∈ ps) (hne : p.production ≠ q.production) (hlhs : p.production.lhs = q.production.lhs)
    (hx : x ∈ p.set) (hx' : x ∈ q.set) :
    ∃ c ∈ conflicts ps, c.left.lhs = p.production.lhs ∧ c.right.lhs = p.production.lhs ∧
      x ∈ c.common := by
  have hmem {p q : Prediction} (hx : x ∈ p.set) (hx' : x ∈ q.set) : x ∈ p.set ∩ q.set :=
    Std.ExtTreeSet.mem_inter_iff.mpr ⟨hx, hx'⟩
  have hcommon {p q : Prediction} (hx : x ∈ p.set) (hx' : x ∈ q.set) : p.set ∩ q.set ≠ ∅ := by
    intro hempty
    exact Std.ExtTreeSet.not_mem_empty (hempty ▸ hmem hx hx')
  rcases pair_sublist_of_mem hp hq (fun h => hne (congrArg _ h)) with hpq | hqp
  · exact ⟨_, mem_conflicts_iff.mpr
      ⟨p, q, hpq, conflict?_eq_some_iff.mpr ⟨hlhs, hcommon hx hx', rfl⟩⟩, rfl, hlhs.symm,
      hmem hx hx'⟩
  · exact ⟨_, mem_conflicts_iff.mpr
      ⟨q, p, hqp, conflict?_eq_some_iff.mpr ⟨hlhs.symm, hcommon hx' hx, rfl⟩⟩, hlhs.symm, rfl,
      hmem hx' hx⟩

namespace Grammar

variable {g : Grammar} {x : Symbol} {p : Production}

/-! ### Cycles -/

/-- A cycle of nonterminals, each of which has a body that begins with the next one. -/
structure LeftCycle (g : Grammar) where
  length : Nat
  symbol : Nat → Symbol
  length_pos : 0 < length
  closed : symbol length = symbol 0
  exists_production : ∀ i < length, ∃ p ∈ g.productions, p.lhs = symbol i ∧ p.head = symbol (i + 1)

namespace LeftCycle

variable {k : g.LeftCycle}

/-- The nonterminal is on the cycle. -/
def Passes (k : g.LeftCycle) (a : Symbol) : Prop :=
  ∃ i < k.length, k.symbol i = a

theorem isNonterminal_of_passes {a : Symbol} (h : k.Passes a) : g.isNonterminal a := by
  obtain ⟨i, hi, rfl⟩ := h
  obtain ⟨p, hp, hlhs, -⟩ := k.exists_production i hi
  exact isNonterminal_iff.mpr ⟨p, hp, hlhs⟩

theorem passes_symbol {i : Nat} (hi : i ≤ k.length) : k.Passes (k.symbol i) := by
  rcases Nat.lt_or_eq_of_le hi with hi | rfl
  · exact ⟨i, hi, rfl⟩
  · exact ⟨0, k.length_pos, k.closed.symm⟩

theorem isNonterminal_symbol {i : Nat} (hi : i ≤ k.length) : g.isNonterminal (k.symbol i) :=
  isNonterminal_of_passes (passes_symbol hi)

/-- Each FIRST set of a cycle includes the next one. -/
theorem mem_first_of_succ {i : Nat} (hi : i < k.length) (h : x ∈ g.first.get (k.symbol (i + 1))) :
    x ∈ g.first.get (k.symbol i) := by
  obtain ⟨p, hp, hlhs, hhead⟩ := k.exists_production i hi
  rw [← hlhs]
  refine mem_first_of_head hp (mem_headSource_iff.mpr ?_)
  rwa [hhead, if_pos (isNonterminal_symbol hi)]

/-- The FIRST sets of a cycle are equal. -/
theorem mem_first_symbol (h : x ∈ g.first.get (k.symbol 0)) {i : Nat} (hi : i ≤ k.length) :
    x ∈ g.first.get (k.symbol i) := by
  induction hi using Nat.decreasingInduction with
  | self => rwa [k.closed]
  | of_succ i hi ih => exact mem_first_of_succ hi ih

/-- A symbol enters the FIRST sets of a cycle through a body that begins with none of its
nonterminals. -/
theorem exists_entry (h : x ∈ g.first.get (k.symbol 0)) :
    ∃ p ∈ g.productions, k.Passes p.lhs ∧ ¬ k.Passes p.head ∧
      x ∈ g.first.members (g.headSource p.head) := by
  have hentered : k.Passes (k.symbol 0) → ∃ p ∈ g.productions, k.Passes p.lhs ∧
      ¬ k.Passes p.head ∧ x ∈ g.first.members (g.headSource p.head) := by
    -- By leastness: along the productions through which the symbol has come to be in FIRST.
    refine first_induction (P := fun a => k.Passes a → ∃ p ∈ g.productions, k.Passes p.lhs ∧
      ¬ k.Passes p.head ∧ x ∈ g.first.members (g.headSource p.head)) ?_ ?_ h
    · intro p hp hterminal hhead hlhs
      refine ⟨p, hp, hlhs, fun hpass => hterminal (isNonterminal_of_passes hpass), ?_⟩
      rwa [mem_headSource_iff, if_neg hterminal]
    · intro p hp hnonterminal hmem ih hlhs
      by_cases hpass : k.Passes p.head
      · exact ih hpass
      · exact ⟨p, hp, hlhs, hpass, by rwa [mem_headSource_iff, if_pos hnonterminal]⟩
  exact hentered (passes_symbol (Nat.zero_le _))

end LeftCycle

/-- **Left recursion shows up as a conflict.** If a terminal begins what a nonterminal on a cycle
derives, two alternatives of a nonterminal on the cycle conflict on it. -/
theorem LeftCycle.exists_conflict (k : g.LeftCycle) (t : Symbol) (hne : t ≠ epsilon)
    (ht : t ∈ g.analyse.first.get (k.symbol 0)) :
    ∃ c ∈ conflicts g.analyse.predictions, ∃ i < k.length,
      c.left.lhs = k.symbol i ∧ c.right.lhs = k.symbol i ∧ t ∈ c.common := by
  obtain ⟨p, hp, ⟨i, hi, hlhs⟩, hout, hx⟩ := exists_entry ht
  obtain ⟨q, hq, hqlhs, hqhead⟩ := k.exists_production i hi
  have hdiffer : p ≠ q := by
    rintro rfl
    rw [hqhead] at hout
    exact hout (passes_symbol hi)
  have hxq : t ∈ g.first.members (g.headSource q.head) := by
    rw [mem_headSource_iff, hqhead, if_pos (isNonterminal_symbol hi)]
    exact mem_first_symbol ht hi
  have hmem {r : Production} (hr : r ∈ g.productions) :
      ⟨r, g.predictSet g.analyse.first g.analyse.follow r⟩ ∈ g.analyse.predictions :=
    List.mem_map_of_mem hr
  obtain ⟨c, hc, hleft, hright, hcommon⟩ :=
    exists_conflict_of_mem (hmem hp) (hmem hq) hdiffer (hlhs.symm.trans hqlhs.symm)
      (mem_predictSet_of_head hne hx) (mem_predictSet_of_head hne hxq)
  exact ⟨c, hc, i, hi, hleft.trans hlhs.symm, hright.trans hlhs.symm, hcommon⟩

/-- A cycle of two nonterminals, the first of which has an empty body. -/
theorem LeftCycle.exists_conflict_two :
    let g : Grammar := {
      start := "S"
      productions := [⟨"S", "A", ["x"]⟩, ⟨"S", "y", []⟩, ⟨"A", epsilon, []⟩, ⟨"A", "S", ["z"]⟩]
      start_mem := by decide
      lhs_ne := by decide
      endMarker_notMem := by decide }
    let k : g.LeftCycle := {
      length := 2
      symbol := fun i => if i % 2 = 0 then "A" else "S"
      length_pos := by decide
      closed := rfl
      exists_production := by decide }
    "y" ≠ epsilon ∧ "y" ∈ g.analyse.first.get "A" ∧
      ∃ c ∈ conflicts g.analyse.predictions, ∃ i < 2,
        c.left.lhs = k.symbol i ∧ c.right.lhs = k.symbol i ∧ "y" ∈ c.common := by
  intro g k
  have hne : "y" ≠ epsilon := by decide
  have hS : "y" ∈ g.first.get "S" := by
    refine mem_first_of_head (p := ⟨"S", "y", []⟩) (by decide) ?_
    rw [mem_headSource_iff, if_neg (by decide)]
  have hA : "y" ∈ g.analyse.first.get "A" := by
    refine mem_first_of_head (p := ⟨"A", "S", ["z"]⟩) (by decide) ?_
    rwa [mem_headSource_iff, if_pos (by decide)]
  exact ⟨hne, hA, k.exists_conflict "y" hne hA⟩

end Grammar

end AttrCalc
