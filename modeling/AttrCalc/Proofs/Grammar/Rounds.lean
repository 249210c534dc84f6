import AttrCalc.Proofs.Grammar.LeastSolution

/-!
# How many rounds there are

The rounds for FIRST and FOLLOW go on until one of them reports that nothing has changed.  The
report is right if all nonterminals have sets, and it comes after no more rounds than there are
nonterminals and one: a symbol that still moves enters the set of one more nonterminal in every
round, however the inclusions are ordered and whatever symbols there are.  So the limit that the
rounds are computed with is never what ends them.

## Main definitions

* `SetMap.Settles` : rounds without a limit, up to the first that changes nothing.
* `Grammar.Covered` : all nonterminals have a set.

## Main results

* `SetMap.round_report_iff_eq` : a round reports no change just if it leaves the sets as they are.
* `SetMap.settles_settle` : the rounds are ended by a report of no change.
* `Grammar.rounds_le_nonterminals` : there are at most as many rounds as nonterminals and one.
-/

namespace AttrCalc

namespace SetMap

variable {system : List Inclusion} {m : SetMap} {limit : Nat}

/-! ### Rounds without a limit -/

/-- Rounds over the system, up to the first that changes nothing, lead from some sets to others with
the given reports.  Nothing limits how many there are. -/
inductive Settles (system : List Inclusion) : SetMap → SetMap → List Bool → Prop
  | unchanged {m : SetMap} (h : (round system m).2 = false) :
      Settles system m (round system m).1 [false]
  | changed {m m' : SetMap} {reports : List Bool} (h : (round system m).2 = true)
      (hrest : Settles system (round system m).1 m' reports) :
      Settles system m m' (true :: reports)

/-- A limit does not matter if some round within it changes nothing. -/
theorem settles_settleWithin (h : false ∈ (settleWithin system limit m).2) :
    Settles system m (settleWithin system limit m).1 (settleWithin system limit m).2 := by
  induction limit generalizing m with
  | zero => exact absurd h List.not_mem_nil
  | succ limit ih =>
    cases hreport : (round system m).2 with
    | false =>
      rw [settleWithin_of_unchanged hreport]
      exact .unchanged hreport
    | true =>
      rw [settleWithin_of_changed hreport] at h ⊢
      exact .changed hreport (ih (by simpa using h))

theorem settles_settle (system : List Inclusion) (m : SetMap) :
    Settles system m (settle system m).1 (settle system m).2 := by
  obtain ⟨k, -, hreports⟩ := (settle_spec system m).1
  have hlast : false ∈ (settle system m).2 := by simp [hreports]
  exact settles_settleWithin hlast

theorem length_reports_settle_le (system : List Inclusion) (m : SetMap) :
    (settle system m).2.length ≤ (system.map (·.target)).toFinset.card + 1 := by
  obtain ⟨k, hk, hreports⟩ := (settle_spec system m).1
  simpa [hreports] using hk

/-! ### The report of a round -/

/-- If all targets of the system have a set, a round reports no change just if it leaves the sets as
they are. -/
theorem round_report_iff_eq (htargets : ∀ i ∈ system, i.target ∈ m) :
    (round system m).2 = false ↔ (round system m).1 = m := by
  rw [round_report_iff]
  constructor
  · intro hsettled
    refine le_antisymm (le_iff.mpr ⟨fun a ha => ?_, fun a x hx => ?_⟩)
      (le_iff.mpr ⟨fun a ha => mem_round_iff.mpr (.inl ha), fun a x hx => mem_get_round hx⟩)
    · rcases mem_round_iff.mp ha with ha | ha
      · exact ha
      · obtain ⟨i, hi, rfl⟩ := List.mem_map.mp ha
        exact htargets i hi
    · exact ((hsettled x).mem_get_round_iff a).mpr hx
  · intro hround x
    refine settledAt_of_round fun a hx => ?_
    rwa [hround] at hx

end SetMap

namespace Grammar

variable {g : Grammar} {system : List Inclusion}

/-- All nonterminals have a set. -/
def Covered (g : Grammar) (m : SetMap) : Prop :=
  ∀ a, g.isNonterminal a → a ∈ m

theorem card_targets_le (h : ∀ i ∈ system, g.isNonterminal i.target) :
    (system.map (·.target)).toFinset.card ≤ g.nonterminals.length := by
  have hsubset : (system.map (·.target)).toFinset ⊆ g.nonterminals.toFinset := by
    intro a ha
    obtain ⟨i, hi, rfl⟩ := List.mem_map.mp (List.mem_toFinset.mp ha)
    exact List.mem_toFinset.mpr (mem_nonterminals_iff.mpr (h i hi))
  exact (Finset.card_le_card hsubset).trans (List.toFinset_card_le _)

theorem length_reports_le (h : ∀ i ∈ system, g.isNonterminal i.target) (m : SetMap) :
    (SetMap.settle system m).2.length ≤ g.nonterminals.length + 1 :=
  (SetMap.length_reports_settle_le system m).trans (Nat.succ_le_succ (card_targets_le h))

/-- **Few rounds are enough.** Where all nonterminals have sets, a round for FIRST or FOLLOW reports
no change just if it leaves the sets as they are.  From any seed, and for any sets taken for FIRST,
the rounds up to the first with such a report lead to the result, and there are at most as many of
them as there are nonterminals, and one. -/
theorem rounds_le_nonterminals (g : Grammar) :
    (∀ m, g.Covered m → ((SetMap.round g.firstInclusions m).2 = false ↔
      (SetMap.round g.firstInclusions m).1 = m)) ∧
    (∀ first m, g.Covered m → ((SetMap.round (g.followInclusions first) m).2 = false ↔
      (SetMap.round (g.followInclusions first) m).1 = m)) ∧
    (∀ seed, SetMap.Settles g.firstInclusions (g.cover seed) (g.firstFrom seed)
        (g.settleFirst seed).2 ∧
      (g.settleFirst seed).2.length ≤ g.nonterminals.length + 1) ∧
    ∀ first seed, SetMap.Settles (g.followInclusions first) (g.followStart seed)
        (g.followFrom first seed) (g.settleFollow first seed).2 ∧
      (g.settleFollow first seed).2.length ≤ g.nonterminals.length + 1 := by
  refine ⟨fun m hm => ?_, fun first m hm => ?_, fun seed => ⟨SetMap.settles_settle _ _, ?_⟩,
    fun first seed => ⟨SetMap.settles_settle _ _, ?_⟩⟩
  · exact SetMap.round_report_iff_eq fun i hi => hm _ (isNonterminal_of_mem_firstInclusions hi)
  · exact SetMap.round_report_iff_eq fun i hi => hm _ (isNonterminal_of_mem_followInclusions hi)
  · exact length_reports_le (fun i hi => isNonterminal_of_mem_firstInclusions hi) _
  · exact length_reports_le (fun i hi => isNonterminal_of_mem_followInclusions hi) _

/-- A chain of three nonterminals whose productions stand in the order that takes most rounds, from
a seed with another name and symbol. -/
theorem rounds_le_nonterminals_chain :
    let g : Grammar := {
      start := "S"
      productions := [⟨"S", "A", []⟩, ⟨"A", "B", []⟩, ⟨"B", "b", []⟩]
      start_mem := by decide
      lhs_ne := by decide
      endMarker_notMem := by decide }
    let seed : SetMap := (∅ : SetMap).insert "X" {"y"}
    g.Covered (g.cover seed) ∧
    ((SetMap.round g.firstInclusions (g.cover seed)).2 = false ↔
      (SetMap.round g.firstInclusions (g.cover seed)).1 = g.cover seed) ∧
    ((SetMap.round (g.followInclusions seed) (g.cover seed)).2 = false ↔
      (SetMap.round (g.followInclusions seed) (g.cover seed)).1 = g.cover seed) ∧
    (SetMap.Settles g.firstInclusions (g.cover seed) (g.firstFrom seed) (g.settleFirst seed).2 ∧
      (g.settleFirst seed).2.length ≤ 4) ∧
    SetMap.Settles (g.followInclusions seed) (g.followStart seed) (g.followFrom seed seed)
        (g.settleFollow seed seed).2 ∧
      (g.settleFollow seed seed).2.length ≤ 4 := by
  intro g seed
  have hcovered : g.Covered (g.cover seed) := fun a ha => mem_cover_iff.mpr (.inl ha)
  have hlength : g.nonterminals.length = 3 := by decide
  obtain ⟨hfirst, hfollow, hfirstFrom, hfollowFrom⟩ := rounds_le_nonterminals g
  rw [hlength] at hfirstFrom hfollowFrom
  exact ⟨hcovered, hfirst _ hcovered, hfollow seed _ hcovered, hfirstFrom seed,
    hfollowFrom seed seed⟩

end Grammar

end AttrCalc
