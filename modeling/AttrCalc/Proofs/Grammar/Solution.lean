import AttrCalc.Grammar.Inclusion
import Mathlib.Data.Finset.Card

/-!
# Least solutions of inclusions

The rounds over a system of inclusions only ever add symbols that have to belong to a set, and end
with sets that satisfy all inclusions.  No symbol gets into a set because of another symbol, so each
symbol can be followed on its own: as long as it still moves, it enters one more set in every round.
Hence the number of sets that the system speaks of bounds the number of rounds.

## Main definitions

* `SetMap.Required` : a symbol has to belong to a set, by a system and the sets to start from.
* `SetMap.SettledAt` : no inclusion moves a symbol any further.
* `SetMap.lacking` : the targets of a system whose sets do not have a symbol.

## Main results

* `SetMap.round_report_iff` : a round reports a change just if some symbol still moves.
* `SetMap.settleWithin_spec` : enough rounds end with a report of no change and settled sets.
* `SetMap.settle_spec` : the rounds up to the first that changes nothing are enough.
* `SetMap.mem_get_settle_iff` : the rounds leave the least solution.
* `Grammar.get_cover`, `Grammar.mem_cover_iff` : covering adds sets, but no symbols.
-/

namespace AttrCalc

namespace SetMap

variable {system : List Inclusion} {i : Inclusion} {m m' : SetMap} {a x : Symbol}

/-! ### One inclusion -/

theorem mem_members_congr (h : ∀ a, x ∈ m.get a ↔ x ∈ m'.get a) (s : Source) :
    x ∈ m.members s ↔ x ∈ m'.members s := by
  cases s with
  | symbols => exact Iff.rfl
  | setOf a => exact h a

theorem get_insert {set : SymbolSet} {b : Symbol} :
    SetMap.get (m.insert b set) a = if b = a then set else m.get a := by
  simp [SetMap.get, Std.ExtTreeMap.getD_insert]

/-- An inclusion adds its source to its target. -/
theorem mem_get_enlarge_iff :
    x ∈ (m.enlarge i).1.get a ↔ x ∈ m.get a ∨ a = i.target ∧ x ∈ m.members i.source := by
  rw [enlarge, get_insert]
  split
  · next h =>
    rw [Std.ExtTreeSet.mem_union_iff, h]
    simp
  · next h => simp [Ne.symm h]

theorem enlarge_report_iff :
    (m.enlarge i).2 = true ↔ ∃ x ∈ m.members i.source, x ∉ m.get i.target := by
  simp only [enlarge, List.any_eq_true, Std.ExtTreeSet.mem_toList, Bool.not_eq_true',
    ← Bool.not_eq_true, Std.ExtTreeSet.contains_iff_mem]

/-! ### One round -/

theorem round_nil : m.round [] = (m, false) :=
  rfl

theorem foldl_report (system : List Inclusion) (m : SetMap) (changed : Bool) :
    system.foldl
      (fun (m, changed) i =>
        let (m', grew) := enlarge m i
        (m', changed || grew))
      (m, changed) = ((round system m).1, changed || (round system m).2) := by
  induction system generalizing m changed with
  | nil => simp [round]
  | cons i system ih =>
    rw [round, List.foldl_cons, List.foldl_cons, ih, ih]
    simp [Bool.or_assoc]

theorem round_cons : round (i :: system) m = ((round system (m.enlarge i).1).1,
    (m.enlarge i).2 || (round system (m.enlarge i).1).2) := by
  rw [round, List.foldl_cons, foldl_report]
  simp

theorem mem_get_round (h : x ∈ m.get a) : x ∈ (round system m).1.get a := by
  induction system generalizing m with
  | nil => exact h
  | cons i system ih =>
    rw [round_cons]
    exact ih (mem_get_enlarge_iff.mpr (.inl h))

/-- No inclusion of the system moves the symbol any further. -/
def SettledAt (system : List Inclusion) (m : SetMap) (x : Symbol) : Prop :=
  ∀ i ∈ system, x ∈ m.members i.source → x ∈ m.get i.target

theorem SettledAt.congr (h : SettledAt system m x) (hm : ∀ a, x ∈ m.get a ↔ x ∈ m'.get a) :
    SettledAt system m' x := fun i hi hx =>
  (hm i.target).mp (h i hi ((mem_members_congr hm i.source).mpr hx))

theorem settledAt_cons_iff : SettledAt (i :: system) m x ↔
    (x ∈ m.members i.source → x ∈ m.get i.target) ∧ SettledAt system m x := by
  simp [SettledAt]

theorem mem_get_enlarge_iff_of_settled (h : x ∈ m.members i.source → x ∈ m.get i.target)
    (a : Symbol) : x ∈ m.get a ↔ x ∈ (m.enlarge i).1.get a := by
  rw [mem_get_enlarge_iff]
  constructor
  · exact .inl
  · rintro (hx | ⟨rfl, hx⟩)
    · exact hx
    · exact h hx

/-- A round does not move a settled symbol. -/
theorem SettledAt.mem_get_round_iff (h : SettledAt system m x) (a : Symbol) :
    x ∈ m.get a ↔ x ∈ (round system m).1.get a := by
  induction system generalizing m with
  | nil => exact Iff.rfl
  | cons i system ih =>
    obtain ⟨hi, hsystem⟩ := settledAt_cons_iff.mp h
    have hm := mem_get_enlarge_iff_of_settled hi
    rw [round_cons, hm a]
    exact ih (hsystem.congr hm)

/-- A symbol that a round does not move is settled. -/
theorem settledAt_of_round (h : ∀ a, x ∈ (round system m).1.get a → x ∈ m.get a) :
    SettledAt system m x := by
  induction system generalizing m with
  | nil => exact fun i hi => absurd hi List.not_mem_nil
  | cons i system ih =>
    rw [round_cons] at h
    have hi (hx : x ∈ m.members i.source) : x ∈ m.get i.target :=
      h i.target (mem_get_round (mem_get_enlarge_iff.mpr (.inr ⟨rfl, hx⟩)))
    have hm := mem_get_enlarge_iff_of_settled hi
    have hsystem : SettledAt system (m.enlarge i).1 x := ih fun a hx => (hm a).mp (h a hx)
    exact settledAt_cons_iff.mpr ⟨hi, hsystem.congr fun a => (hm a).symm⟩

/-- A round reports a change just if some symbol still moves. -/
theorem round_report_iff : (round system m).2 = false ↔ ∀ x, SettledAt system m x := by
  induction system generalizing m with
  | nil => simp [round_nil, SettledAt]
  | cons i system ih =>
    have hgrew : (m.enlarge i).2 = false ↔ ∀ x ∈ m.members i.source, x ∈ m.get i.target := by
      rw [← Bool.not_eq_true, enlarge_report_iff]
      simp
    rw [round_cons, Bool.or_eq_false_iff, ih, hgrew]
    simp only [settledAt_cons_iff, forall_and]
    refine and_congr_right fun hi => forall_congr' fun x => ?_
    have hm := mem_get_enlarge_iff_of_settled (hi x)
    exact ⟨fun h => h.congr fun a => (hm a).symm, fun h => h.congr hm⟩

theorem mem_targets_of_mem_get_round (h : x ∈ (round system m).1.get a) :
    x ∈ m.get a ∨ a ∈ system.map (·.target) := by
  induction system generalizing m with
  | nil => exact .inl h
  | cons i system ih =>
    rw [round_cons] at h
    rcases ih h with hx | ha
    · rcases mem_get_enlarge_iff.mp hx with hx | ⟨rfl, -⟩
      · exact .inl hx
      · exact .inr List.mem_cons_self
    · exact .inr (List.mem_cons_of_mem _ ha)

/-! ### Enough rounds -/

theorem settleWithin_of_unchanged {limit : Nat} (h : (round system m).2 = false) :
    settleWithin system (limit + 1) m = ((round system m).1, [false]) := by
  simp [settleWithin, h]

theorem settleWithin_of_changed {limit : Nat} (h : (round system m).2 = true) :
    settleWithin system (limit + 1) m = ((settleWithin system limit (round system m).1).1,
      true :: (settleWithin system limit (round system m).1).2) := by
  simp [settleWithin, h]

/-- The targets of a system whose sets do not have the symbol. -/
def lacking (system : List Inclusion) (m : SetMap) (x : Symbol) : Finset Symbol :=
  (system.map (·.target)).toFinset.filter (x ∉ m.get ·)

theorem card_lacking_le (system : List Inclusion) (m : SetMap) (x : Symbol) :
    (lacking system m x).card ≤ (system.map (·.target)).toFinset.card :=
  Finset.card_filter_le _ _

theorem settledAt_of_lacking (h : (lacking system m x).card = 0) : SettledAt system m x := by
  intro i hi _
  by_contra hx
  have hmem : i.target ∈ lacking system m x := by
    simpa [lacking] using ⟨⟨i, hi, rfl⟩, hx⟩
  rw [Finset.card_eq_zero.mp h] at hmem
  exact Finset.notMem_empty _ hmem

/-- A symbol that still moves enters one more set. -/
theorem card_lacking_round_lt (h : ¬ SettledAt system m x) :
    (lacking system (round system m).1 x).card < (lacking system m x).card := by
  obtain ⟨a, hnew, hold⟩ : ∃ a, x ∈ (round system m).1.get a ∧ x ∉ m.get a := by
    by_contra hnone
    push Not at hnone
    exact h (settledAt_of_round hnone)
  have ha : a ∈ system.map (·.target) := (mem_targets_of_mem_get_round hnew).resolve_left hold
  refine Finset.card_lt_card (Finset.ssubset_iff_of_subset ?_ |>.mpr ⟨a, ?_, ?_⟩)
  · exact Finset.monotone_filter_right _ fun b _ hb hx => hb (mem_get_round hx)
  · exact Finset.mem_filter.mpr ⟨List.mem_toFinset.mpr ha, hold⟩
  · exact fun hmem => (Finset.mem_filter.mp hmem).2 hnew

/-- More rounds than any moving symbol lacks sets end with a report of no change, before which every
round has changed something, and leave all symbols settled. -/
theorem settleWithin_spec {n limit : Nat} (hlimit : n < limit)
    (h : ∀ x, SettledAt system m x ∨ (lacking system m x).card ≤ n) :
    (∃ k ≤ n, (settleWithin system limit m).2 = List.replicate k true ++ [false]) ∧
      ∀ x, SettledAt system (settleWithin system limit m).1 x := by
  induction limit generalizing n m with
  | zero => exact absurd hlimit (Nat.not_lt_zero n)
  | succ limit ih =>
    cases hreport : (round system m).2 with
    | false =>
      have hsettled := round_report_iff.mp hreport
      rw [settleWithin_of_unchanged hreport]
      exact ⟨⟨0, Nat.zero_le n, rfl⟩, fun x => (hsettled x).congr (hsettled x).mem_get_round_iff⟩
    | true =>
      have hmoving : ¬ ∀ x, SettledAt system m x := by
        rw [← round_report_iff, hreport]
        exact Bool.noConfusion
      cases n with
      | zero =>
        exact absurd (fun x => (h x).elim id (settledAt_of_lacking ∘ Nat.le_zero.mp)) hmoving
      | succ n =>
        have hround (x : Symbol) : SettledAt system (round system m).1 x ∨
            (lacking system (round system m).1 x).card ≤ n := by
          by_cases hx : SettledAt system m x
          · exact .inl (hx.congr hx.mem_get_round_iff)
          · have hlt := card_lacking_round_lt hx
            have hle := (h x).resolve_left hx
            exact .inr (by omega)
        obtain ⟨⟨k, hk, hreports⟩, hsettled⟩ := ih (Nat.lt_of_succ_lt_succ hlimit) hround
        rw [settleWithin_of_changed hreport, hreports, ← List.cons_append, ← List.replicate_succ]
        exact ⟨⟨k + 1, Nat.succ_le_succ hk, rfl⟩, hsettled⟩

/-- No more rounds change something than the system has targets, and they leave all symbols
settled. -/
theorem settle_spec (system : List Inclusion) (m : SetMap) :
    (∃ k ≤ (system.map (·.target)).toFinset.card,
        (settle system m).2 = List.replicate k true ++ [false]) ∧
      ∀ x, SettledAt system (settle system m).1 x := by
  have htargets : (system.map (·.target)).toFinset.card ≤ system.length :=
    (List.toFinset_card_le _).trans (List.length_map _).le
  exact settleWithin_spec (Nat.lt_succ_of_le htargets) fun x => .inr (card_lacking_le system m x)

theorem settledAt_settle (system : List Inclusion) (m : SetMap) (x : Symbol) :
    SettledAt system (settle system m).1 x :=
  (settle_spec system m).2 x

/-! ### The least solution -/

/-- The symbol has to belong to the set: it does so from the start, or some inclusion of the system
demands it. -/
inductive Required (system : List Inclusion) (m : SetMap) (x : Symbol) : Symbol → Prop
  | start {a : Symbol} (h : x ∈ m.get a) : Required system m x a
  | symbols {a : Symbol} {set : SymbolSet} (hi : ⟨a, .symbols set⟩ ∈ system) (hx : x ∈ set) :
      Required system m x a
  | setOf {a b : Symbol} (hi : ⟨a, .setOf b⟩ ∈ system) (h : Required system m x b) :
      Required system m x a

/-- All members of the sets are required by the system and the sets to start from. -/
def Sound (system : List Inclusion) (m₀ m : SetMap) : Prop :=
  ∀ x a, x ∈ m.get a → Required system m₀ x a

theorem Sound.enlarge {m₀ : SetMap} (h : Sound system m₀ m) (hi : i ∈ system) :
    Sound system m₀ (m.enlarge i).1 := by
  intro x a hx
  rcases mem_get_enlarge_iff.mp hx with hold | ⟨rfl, hsource⟩
  · exact h x a hold
  · obtain ⟨a, source⟩ := i
    cases source with
    | symbols set => exact .symbols hi hsource
    | setOf b => exact .setOf hi (h x b hsource)

theorem Sound.round {m₀ : SetMap} {part : List Inclusion} (h : Sound system m₀ m)
    (hpart : part ⊆ system) : Sound system m₀ (round part m).1 := by
  induction part generalizing m with
  | nil => exact h
  | cons i part ih =>
    rw [round_cons]
    obtain ⟨hi, hpart⟩ := List.cons_subset.mp hpart
    exact ih (h.enlarge hi) hpart

theorem Sound.settleWithin {m₀ : SetMap} {limit : Nat} (h : Sound system m₀ m) :
    Sound system m₀ (settleWithin system limit m).1 := by
  induction limit generalizing m with
  | zero => exact h
  | succ limit ih =>
    have hround := h.round (List.Subset.refl system)
    cases hreport : (SetMap.round system m).2 with
    | false => rwa [settleWithin_of_unchanged hreport]
    | true =>
      rw [settleWithin_of_changed hreport]
      exact ih hround

theorem mem_get_settleWithin {limit : Nat} (h : x ∈ m.get a) :
    x ∈ (settleWithin system limit m).1.get a := by
  induction limit generalizing m with
  | zero => exact h
  | succ limit ih =>
    have hround : x ∈ (round system m).1.get a := mem_get_round h
    cases hreport : (round system m).2 with
    | false => rwa [settleWithin_of_unchanged hreport]
    | true =>
      rw [settleWithin_of_changed hreport]
      exact ih hround

/-- **The least solution.** The rounds leave in every set just the symbols that have to belong to
it. -/
theorem mem_get_settle_iff : x ∈ (settle system m).1.get a ↔ Required system m x a := by
  constructor
  · have hstart : Sound system m m := fun _ _ => .start
    exact hstart.settleWithin x a
  · intro h
    induction h with
    | start h => exact mem_get_settleWithin h
    | symbols hi hx => exact settledAt_settle system m x _ hi hx
    | setOf hi _ ih => exact settledAt_settle system m x _ hi ih

/-! ### The names of the sets -/

theorem mem_round_iff : a ∈ (round system m).1 ↔ a ∈ m ∨ a ∈ system.map (·.target) := by
  induction system generalizing m with
  | nil => simp [round_nil]
  | cons i system ih =>
    rw [round_cons, ih, enlarge, Std.ExtTreeMap.mem_insert, Std.LawfulEqCmp.compare_eq_iff_eq,
      List.map_cons, List.mem_cons, eq_comm, or_assoc, or_left_comm]

theorem mem_settleWithin_iff {limit : Nat} : a ∈ (settleWithin system (limit + 1) m).1 ↔
    a ∈ m ∨ a ∈ system.map (·.target) := by
  induction limit generalizing m with
  | zero =>
    cases hreport : (round system m).2 with
    | false => rw [settleWithin_of_unchanged hreport, mem_round_iff]
    | true => rw [settleWithin_of_changed hreport, settleWithin, mem_round_iff]
  | succ limit ih =>
    cases hreport : (round system m).2 with
    | false => rw [settleWithin_of_unchanged hreport, mem_round_iff]
    | true => rw [settleWithin_of_changed hreport, ih, mem_round_iff, or_assoc, or_self]

/-- The rounds give every target a set, and no other name. -/
theorem mem_settle_iff : a ∈ (settle system m).1 ↔ a ∈ m ∨ a ∈ system.map (·.target) :=
  mem_settleWithin_iff

/-! ### Covering the nonterminals -/

theorem get_foldl_insertIfNew (names : List Symbol) (m : SetMap) (a : Symbol) :
    get (names.foldl (fun m b => m.insertIfNew b ∅) m) a = m.get a := by
  induction names generalizing m with
  | nil => rfl
  | cons b names ih =>
    rw [List.foldl_cons, ih, get, Std.ExtTreeMap.getD_insertIfNew]
    split
    · next h =>
      obtain ⟨hb, hnone⟩ := h
      rw [Std.LawfulEqCmp.compare_eq_iff_eq] at hb
      rw [get, Std.ExtTreeMap.getD_eq_fallback (hb ▸ hnone)]
    · rfl

theorem mem_foldl_insertIfNew (names : List Symbol) (m : SetMap) (a : Symbol) :
    a ∈ names.foldl (fun m b => m.insertIfNew b ∅) m ↔ a ∈ names ∨ a ∈ m := by
  induction names generalizing m with
  | nil => simp
  | cons b names ih =>
    rw [List.foldl_cons, ih, Std.ExtTreeMap.mem_insertIfNew, Std.LawfulEqCmp.compare_eq_iff_eq,
      List.mem_cons, eq_comm, or_assoc, or_left_comm]

end SetMap

namespace Grammar

/-- Covering adds no symbols. -/
theorem get_cover (g : Grammar) (seed : SetMap) (a : Symbol) :
    SetMap.get (g.cover seed) a = seed.get a :=
  SetMap.get_foldl_insertIfNew g.nonterminals seed a

/-- Covering gives every nonterminal a set. -/
theorem mem_cover_iff {g : Grammar} {seed : SetMap} {a : Symbol} :
    a ∈ g.cover seed ↔ g.isNonterminal a ∨ a ∈ seed := by
  rw [← mem_nonterminals_iff]
  exact SetMap.mem_foldl_insertIfNew g.nonterminals seed a

end Grammar

end AttrCalc
