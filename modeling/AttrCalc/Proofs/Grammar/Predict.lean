import AttrCalc.Grammar.Predict
import AttrCalc.Proofs.Grammar.Follow

/-!
# What PREDICT holds

A production is predicted by what its body begins with, and if that may be nothing, by what follows
its left-hand side.  Since nothing gets into a FIRST set but through some body, the alternatives of
a nonterminal are together predicted by all that it begins with, and by what follows it if it may be
empty.  Only terminals of the bodies ever get into FIRST.  The empty string is kept out of FOLLOW
and PREDICT, where the end marker is the one symbol that stands in no body.

## Main definitions

* `Grammar.prediction` : a production with its PREDICT set.
* `Grammar.IsLookahead` : a terminal other than `ε`, or the end marker.

## Main results

* `Grammar.mem_predictSet_iff` : what predicts a production.
* `Grammar.predict_covers_nonterminal` : what predicts the alternatives of a nonterminal.
* `Grammar.sets_hold_terminals` : which symbols the sets hold.
-/

namespace AttrCalc.Grammar

variable {g : Grammar} {first follow : SetMap} {a s x : Symbol} {p : Production}

/-! ### Alternatives of a nonterminal -/

/-- What predicts a production: what its body begins with, except for the empty string, and what
follows its left-hand side if the body begins with the empty string. -/
theorem mem_predictSet_iff : x ∈ g.predictSet first follow p ↔
    x ≠ epsilon ∧ x ∈ first.members (g.headSource p.head) ∨
      epsilon ∈ first.members (g.headSource p.head) ∧ x ∈ follow.get p.lhs := by
  rw [predictSet]
  split
  · next hempty =>
    rw [Std.ExtTreeSet.mem_union_iff, Std.ExtTreeSet.mem_erase, ne_eq,
      Std.LawfulEqCmp.compare_eq_iff_eq, eq_comm]
    simp [hempty]
  · next hempty => simpa [hempty] using fun hx => ne_of_mem_of_not_mem hx hempty

/-- What a body begins with, predicts its production, the empty string apart. -/
theorem mem_predictSet_of_head (hne : x ≠ epsilon)
    (hx : x ∈ first.members (g.headSource p.head)) : x ∈ g.predictSet first follow p :=
  mem_predictSet_iff.mpr (.inl ⟨hne, hx⟩)

/-- The prediction of a production. -/
def prediction (g : Grammar) (p : Production) : Prediction :=
  ⟨p, g.predictSet g.first (g.follow g.first) p⟩

theorem predictions_eq (g : Grammar) : g.analyse.predictions = g.productions.map g.prediction :=
  rfl

theorem mem_prediction_iff : x ∈ (g.prediction p).set ↔
    x ≠ epsilon ∧ x ∈ g.first.members (g.headSource p.head) ∨
      epsilon ∈ g.first.members (g.headSource p.head) ∧ x ∈ (g.follow g.first).get p.lhs :=
  mem_predictSet_iff

/-- The alternatives of a nonterminal are predicted by what it begins with, and by what follows it
if it begins with the empty string. -/
theorem exists_mem_prediction_iff :
    (∃ r ∈ g.analyse.predictions, r.production.lhs = a ∧ x ∈ r.set) ↔
      x ≠ epsilon ∧ x ∈ g.first.get a ∨
        epsilon ∈ g.first.get a ∧ x ∈ (g.follow g.first).get a := by
  have hproduction (p : Production) : (g.prediction p).production = p := rfl
  simp only [predictions_eq, List.mem_map, exists_exists_and_eq_and, hproduction, mem_first_iff,
    mem_prediction_iff]
  constructor
  · rintro ⟨p, hp, rfl, ⟨hne, hx⟩ | ⟨hempty, hx⟩⟩
    · exact .inl ⟨hne, p, hp, rfl, hx⟩
    · exact .inr ⟨⟨p, hp, rfl, hempty⟩, hx⟩
  · rintro (⟨hne, p, hp, rfl, hx⟩ | ⟨⟨p, hp, rfl, hempty⟩, hx⟩)
    · exact ⟨p, hp, rfl, .inl ⟨hne, hx⟩⟩
    · exact ⟨p, hp, rfl, .inr ⟨hempty, hx⟩⟩

/-- **What predicts a nonterminal.** The PREDICT sets of all alternatives of a nonterminal are
together its FIRST set, in which its FOLLOW set takes the place of the empty string. -/
theorem predict_covers_nonterminal (g : Grammar) (a : Symbol) (ha : g.isNonterminal a) :
    ∃ first follow, g.analyse.first[a]? = some first ∧ g.analyse.follow[a]? = some follow ∧
      ∀ x, (∃ r ∈ g.analyse.predictions, r.production.lhs = a ∧ x ∈ r.set) ↔
        if epsilon ∈ first then x ∈ first ∧ x ≠ epsilon ∨ x ∈ follow else x ∈ first := by
  have hfirst : a ∈ g.first := mem_firstFrom_iff.mpr (.inl ha)
  have hfollow : a ∈ g.follow g.first := mem_followFrom_iff.mpr (.inl ha)
  refine ⟨g.first.get a, (g.follow g.first).get a, SetMap.getElem?_eq_some_get hfirst,
    SetMap.getElem?_eq_some_get hfollow, fun x => ?_⟩
  rw [exists_mem_prediction_iff]
  split
  · next hempty => simp [hempty, and_comm]
  · next hempty => simpa [hempty] using fun hx => ne_of_mem_of_not_mem hx hempty

/-- A nonterminal that may be empty.  One of its alternatives is predicted by the terminal that it
begins with, the other by the one that follows. -/
theorem predict_covers_nonterminal_optional :
    let g : Grammar := {
      start := "S"
      productions := [⟨"S", "A", ["b"]⟩, ⟨"A", "a", []⟩, ⟨"A", epsilon, []⟩]
      start_mem := by decide
      lhs_ne := by decide
      endMarker_notMem := by decide }
    g.isNonterminal "A" ∧
    (g.analyse.predictions.map fun r => (r.production.lhs, r.set.toList)) =
      [("S", ["$", "a"]), ("A", ["a"]), ("A", ["b"])] ∧
    ∃ first follow, g.analyse.first["A"]? = some first ∧ g.analyse.follow["A"]? = some follow ∧
      first.toList = ["a", "ε"] ∧ follow.toList = ["b"] ∧
      ∀ x, (∃ r ∈ g.analyse.predictions, r.production.lhs = "A" ∧ x ∈ r.set) ↔
        if epsilon ∈ first then x ∈ first ∧ x ≠ epsilon ∨ x ∈ follow else x ∈ first := by
  intro g
  have hA : g.isNonterminal "A" := by decide
  have hpredictions : (g.analyse.predictions.map fun r => (r.production.lhs, r.set.toList)) =
      [("S", ["$", "a"]), ("A", ["a"]), ("A", ["b"])] := by decide +kernel
  have hfirsts : (g.analyse.first["A"]?).map (·.toList) = some ["a", "ε"] := by decide +kernel
  have hfollows : (g.analyse.follow["A"]?).map (·.toList) = some ["b"] := by decide +kernel
  obtain ⟨first, follow, hfirst, hfollow, hcovers⟩ := predict_covers_nonterminal g "A" hA
  rw [hfirst] at hfirsts
  rw [hfollow] at hfollows
  exact ⟨hA, hpredictions, first, follow, hfirst, hfollow, Option.some.inj hfirsts,
    Option.some.inj hfollows, hcovers⟩

/-! ### Which symbols there are -/

theorem mem_terminals_iff :
    x ∈ g.terminals ↔ (∃ p ∈ g.productions, x ∈ p.body) ∧ ¬ g.isNonterminal x := by
  simp [terminals]

/-- A symbol that can come next: a terminal of a body other than the empty string, or the end
marker. -/
def IsLookahead (g : Grammar) (x : Symbol) : Prop :=
  x ∈ g.terminals ∧ x ≠ epsilon ∨ x = endMarker

theorem endMarker_notMem_terminals (g : Grammar) : endMarker ∉ g.terminals := by
  intro h
  obtain ⟨⟨p, hp, hbody⟩, -⟩ := mem_terminals_iff.mp h
  exact g.endMarker_notMem p hp hbody

theorem IsLookahead.not_isNonterminal (h : g.IsLookahead x) : ¬ g.isNonterminal x := by
  rcases h with ⟨hx, -⟩ | rfl
  · exact (mem_terminals_iff.mp hx).2
  · exact g.endMarker_not_isNonterminal

theorem IsLookahead.ne_epsilon (h : g.IsLookahead x) : x ≠ epsilon := by
  rcases h with ⟨-, hne⟩ | rfl
  · exact hne
  · decide

theorem mem_terminals_of_mem_first (h : x ∈ g.first.get a) : x ∈ g.terminals := by
  refine first_induction (P := fun _ => x ∈ g.terminals) ?_ (fun _ _ _ _ ih => ih) h
  rintro p hp hterminal rfl
  exact mem_terminals_iff.mpr ⟨⟨p, hp, List.mem_cons_self⟩, hterminal⟩

/-- What a symbol of a body begins with, is a terminal. -/
theorem mem_terminals_of_mem_headSource (hp : p ∈ g.productions) (hs : s ∈ p.body)
    (hx : x ∈ g.first.members (g.headSource s)) : x ∈ g.terminals := by
  rw [mem_headSource_iff] at hx
  split at hx
  · exact mem_terminals_of_mem_first hx
  · next hterminal =>
    subst hx
    exact mem_terminals_iff.mpr ⟨⟨p, hp, hs⟩, hterminal⟩

theorem isLookahead_of_mem_follow (h : x ∈ (g.follow g.first).get a) : g.IsLookahead x := by
  refine follow_induction (P := fun _ => g.IsLookahead x) .inr ?_ (fun _ _ _ _ _ _ ih => ih) h
  intro p hp u b s v hbody _ hne hx
  exact .inl ⟨mem_terminals_of_mem_headSource hp (by simp [hbody]) hx, hne⟩

theorem isLookahead_of_mem_prediction (hp : p ∈ g.productions) (h : x ∈ (g.prediction p).set) :
    g.IsLookahead x := by
  rcases mem_prediction_iff.mp h with ⟨hne, hx⟩ | ⟨-, hx⟩
  · exact .inl ⟨mem_terminals_of_mem_headSource hp List.mem_cons_self hx, hne⟩
  · exact isLookahead_of_mem_follow hx

/-- **Which symbols the sets hold.** The FIRST sets hold terminals of the bodies, so neither a
nonterminal nor the end marker.  The FOLLOW and PREDICT sets hold such terminals and the end marker,
but no nonterminal and never the empty string. -/
theorem sets_hold_terminals (g : Grammar) :
    (∀ (a : Symbol) (set : SymbolSet), g.analyse.first[a]? = some set → ∀ x ∈ set,
      x ∈ g.terminals ∧ ¬ g.isNonterminal x ∧ x ≠ endMarker) ∧
    (∀ (a : Symbol) (set : SymbolSet), g.analyse.follow[a]? = some set → ∀ x ∈ set,
      g.IsLookahead x ∧ ¬ g.isNonterminal x ∧ x ≠ epsilon) ∧
    ∀ r ∈ g.analyse.predictions, ∀ x ∈ r.set,
      g.IsLookahead x ∧ ¬ g.isNonterminal x ∧ x ≠ epsilon := by
  refine ⟨fun a set hset x hx => ?_, fun a set hset x hx => ?_, fun r hr x hx => ?_⟩
  · have hterminal : x ∈ g.terminals :=
      mem_terminals_of_mem_first (SetMap.mem_get_iff.mpr ⟨set, hset, hx⟩)
    refine ⟨hterminal, (mem_terminals_iff.mp hterminal).2, ?_⟩
    rintro rfl
    exact g.endMarker_notMem_terminals hterminal
  · have h : g.IsLookahead x :=
      isLookahead_of_mem_follow (SetMap.mem_get_iff.mpr ⟨set, hset, hx⟩)
    exact ⟨h, h.not_isNonterminal, h.ne_epsilon⟩
  · rw [predictions_eq] at hr
    obtain ⟨p, hp, rfl⟩ := List.mem_map.mp hr
    have h : g.IsLookahead x := isLookahead_of_mem_prediction hp hx
    exact ⟨h, h.not_isNonterminal, h.ne_epsilon⟩

/-- A nonterminal that may be empty, and whose two alternatives are predicted by what it begins with
and by what follows it. -/
theorem sets_hold_terminals_optional :
    let g : Grammar := {
      start := "S"
      productions := [⟨"S", "A", ["b"]⟩, ⟨"A", "a", []⟩, ⟨"A", epsilon, []⟩]
      start_mem := by decide
      lhs_ne := by decide
      endMarker_notMem := by decide }
    let r : Prediction := g.prediction ⟨"A", epsilon, []⟩
    ∃ first follow : SymbolSet,
      g.analyse.first["A"]? = some first ∧ epsilon ∈ first ∧
        (epsilon ∈ g.terminals ∧ ¬ g.isNonterminal epsilon ∧ epsilon ≠ endMarker) ∧
      g.analyse.follow["A"]? = some follow ∧ "b" ∈ follow ∧
        (g.IsLookahead "b" ∧ ¬ g.isNonterminal "b" ∧ "b" ≠ epsilon) ∧
      r ∈ g.analyse.predictions ∧ "b" ∈ r.set ∧
        g.IsLookahead "b" ∧ ¬ g.isNonterminal "b" ∧ "b" ≠ epsilon := by
  intro g r
  have hempty : epsilon ∈ g.first.members (g.headSource epsilon) :=
    mem_headSource_iff.mpr (by rw [if_neg (by decide)])
  have hfirst : epsilon ∈ g.first.get "A" :=
    mem_first_of_head (p := ⟨"A", epsilon, []⟩) (by decide) hempty
  have hfollow : "b" ∈ (g.follow g.first).get "A" :=
    mem_follow_of_next (p := ⟨"S", "A", ["b"]⟩) (u := []) (by decide) rfl (by decide) (by decide)
      (mem_headSource_iff.mpr (by rw [if_neg (by decide)]))
  have hpredict : "b" ∈ r.set := mem_prediction_iff.mpr (.inr ⟨hempty, hfollow⟩)
  have hmem : r ∈ g.analyse.predictions := List.mem_map_of_mem (by decide)
  obtain ⟨first, hfirstset, hfirst⟩ := SetMap.mem_get_iff.mp hfirst
  obtain ⟨follow, hfollowset, hfollow⟩ := SetMap.mem_get_iff.mp hfollow
  obtain ⟨hfirsts, hfollows, hpredictions⟩ := sets_hold_terminals g
  exact ⟨first, follow, hfirstset, hfirst, hfirsts "A" first hfirstset epsilon hfirst, hfollowset,
    hfollow, hfollows "A" follow hfollowset "b" hfollow, hmem, hpredict,
    hpredictions r hmem "b" hpredict⟩

end AttrCalc.Grammar
