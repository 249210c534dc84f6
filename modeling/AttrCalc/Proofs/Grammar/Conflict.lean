import AttrCalc.Proofs.Grammar.Predict
import Mathlib.Data.List.Forall2

/-!
# What a conflict means

The conflicts of predictions are listed by their places: first the conflicts of the first prediction
with later ones, then those of the second, and so on.  In a grammar without `ε`, the PREDICT set of
a production holds the terminals that begin the forms derived from its body.  So a conflict is
reported for two bodies of one nonterminal from which forms with a common first terminal are
derived, and for no others.  A grammar is LL(1) if there are none.

## Main definitions

* `conflictPlaces` : the places of conflicting predictions.
* `Grammar.Begins` : a terminal begins a form that is derived from a given one.
* `Grammar.IsLL1` : one symbol of lookahead tells the alternatives of every nonterminal apart.

## Main results

* `forall₂_conflictPlaces`, `mem_conflictPlaces_iff`, `pairwise_conflictPlaces` : the conflicts by
  their places.
* `Grammar.EpsilonFree.mem_prediction_iff` : PREDICT holds what begins derived forms.
* `Grammar.conflicts_list_common_beginnings` : the conflicts are the alternatives that begin alike.
-/

namespace AttrCalc

variable {ps : List Prediction}

/-! ### Conflicts and their places -/

theorem conflict?_eq_some_iff {p q : Prediction} {c : Conflict} :
    conflict? p q = some c ↔ p.production.lhs = q.production.lhs ∧ p.set ∩ q.set ≠ ∅ ∧
      c = ⟨p.production, q.production, p.set ∩ q.set⟩ := by
  unfold conflict?
  dsimp only
  split
  · next h => simp [h, eq_comm]
  · next h => simpa using fun hlhs hcommon _ => h ⟨hlhs, hcommon⟩

/-- Two predictions conflict if they are for one nonterminal and share a symbol. -/
theorem exists_conflict?_iff {p q : Prediction} : (∃ c, conflict? p q = some c) ↔
    p.production.lhs = q.production.lhs ∧ ∃ x, x ∈ p.set ∧ x ∈ q.set := by
  have hcommon : p.set ∩ q.set ≠ ∅ ↔ ∃ x, x ∈ p.set ∧ x ∈ q.set := by
    simp [Std.ExtTreeSet.eq_empty_iff_forall_not_mem]
  simp [conflict?_eq_some_iff, hcommon]

/-- The conflicts are those between a prediction and a later one. -/
theorem mem_conflicts_iff {c : Conflict} :
    c ∈ conflicts ps ↔ ∃ p q, [p, q].Sublist ps ∧ conflict? p q = some c := by
  induction ps with
  | nil => simp [conflicts]
  | cons a ps ih =>
    rw [conflicts, List.mem_append, List.mem_filterMap, ih]
    constructor
    · rintro (⟨q, hq, hc⟩ | ⟨p, q, hpq, hc⟩)
      · exact ⟨a, q, (List.singleton_sublist.mpr hq).cons_cons a, hc⟩
      · exact ⟨p, q, hpq.cons a, hc⟩
    · rintro ⟨p, q, hpq, hc⟩
      cases hpq with
      | cons _ hpq => exact .inr ⟨p, q, hpq, hc⟩
      | cons_cons _ hq => exact .inl ⟨q, List.singleton_sublist.mp hq, hc⟩

theorem conflicts_eq_nil_iff :
    conflicts ps = [] ↔ ps.Pairwise fun p q => conflict? p q = none := by
  rw [List.pairwise_iff_forall_sublist, List.eq_nil_iff_forall_not_mem]
  simp only [mem_conflicts_iff, Option.eq_none_iff_forall_ne_some]
  exact ⟨fun h p q hpq c hc => h c ⟨p, q, hpq, hc⟩, fun h c ⟨p, q, hpq, hc⟩ => h hpq c hc⟩

/-- The places of conflicting predictions, that of the earlier one first. -/
def conflictPlaces : List Prediction → List (Nat × Nat)
  | [] => []
  | p :: ps => (ps.findIdxs fun q => (conflict? p q).isSome).map (fun j => (0, j + 1)) ++
      (conflictPlaces ps).map fun place => (place.1 + 1, place.2 + 1)

/-- The predictions at two places have the conflict. -/
def ConflictAt (ps : List Prediction) (place : Nat × Nat) (c : Conflict) : Prop :=
  ∃ p q, ps[place.1]? = some p ∧ ps[place.2]? = some q ∧ conflict? p q = some c

theorem mem_conflictPlaces_iff {i j : Nat} :
    (i, j) ∈ conflictPlaces ps ↔ i < j ∧ ∃ c, ConflictAt ps (i, j) c := by
  induction ps generalizing i j with
  | nil => simp [conflictPlaces, ConflictAt]
  | cons p ps ih =>
    -- The first part of the list has the places `(0, j + 1)`, the second all `(i + 1, j + 1)`.
    cases i with
    | zero =>
      cases j with
      | zero => simp [conflictPlaces]
      | succ j =>
        simpa [conflictPlaces, ConflictAt, Option.isSome_iff_exists,
          List.getElem?_eq_some_iff] using exists_comm
    | succ i =>
      cases j with
      | zero => simp [conflictPlaces]
      | succ j => simp [conflictPlaces, ConflictAt, ih]

/-- The places stand in lexicographic order. -/
theorem pairwise_conflictPlaces :
    (ps : List Prediction) → (conflictPlaces ps).Pairwise (Prod.Lex (· < ·) (· < ·))
  | [] => .nil
  | p :: ps => by
    rw [conflictPlaces, List.pairwise_append, List.pairwise_map, List.pairwise_map]
    refine ⟨List.pairwise_findIdxs.imp fun h => .right _ (Nat.succ_lt_succ h),
      (pairwise_conflictPlaces ps).imp fun h => ?_, fun a ha b hb => ?_⟩
    · simpa [Prod.lex_def] using h
    · obtain ⟨i, -, rfl⟩ := List.mem_map.mp ha
      obtain ⟨j, -, rfl⟩ := List.mem_map.mp hb
      exact .left _ _ (Nat.succ_pos _)

/-- What is found in a list, stands at the places where something is found. -/
theorem forall₂_findIdxs {α β : Type*} (f : α → Option β) :
    (l : List α) → List.Forall₂ (fun i b => ∃ a, l[i]? = some a ∧ f a = some b)
      (l.findIdxs fun a => (f a).isSome) (l.filterMap f)
  | [] => .nil
  | a :: l => by
    have hrest : List.Forall₂ (fun i b => ∃ a', (a :: l)[i]? = some a' ∧ f a' = some b)
        (l.findIdxs (fun a => (f a).isSome) 1) (l.filterMap f) := by
      rw [List.findIdxs_start, List.forall₂_map_left_iff]
      exact forall₂_findIdxs f l
    rw [List.findIdxs_cons, List.filterMap_cons]
    cases hfa : f a with
    | none => exact hrest
    | some b => exact .cons ⟨a, rfl, hfa⟩ hrest

/-- The conflicts are listed by their places. -/
theorem forall₂_conflictPlaces : (ps : List Prediction) →
    List.Forall₂ (ConflictAt ps) (conflictPlaces ps) (conflicts ps)
  | [] => .nil
  | p :: ps => by
    refine List.rel_append (List.forall₂_map_left_iff.mpr ?_) (List.forall₂_map_left_iff.mpr ?_)
    · exact (forall₂_findIdxs (conflict? p) ps).imp fun j c ⟨q, hq, hc⟩ => ⟨p, q, rfl, hq, hc⟩
    · exact forall₂_conflictPlaces ps

namespace Grammar

variable {g : Grammar} {p q : Production} {t : Symbol}

/-! ### Grammars without the empty string -/

/-- The terminal begins a form that is derived from the given one. -/
def Begins (g : Grammar) (form : List Symbol) (t : Symbol) : Prop :=
  ¬ g.isNonterminal t ∧ ∃ β, g.Derives form (t :: β)

/-- What a derived form begins with, its body begins with. -/
theorem EpsilonFree.mem_headSource_of_begins (hg : g.EpsilonFree) (hp : p ∈ g.productions)
    (h : g.Begins p.body t) : t ∈ g.first.members (g.headSource p.head) := by
  obtain ⟨hterminal, β, hderives⟩ := h
  rw [mem_headSource_iff]
  split
  · next hhead =>
    -- A nonterminal at the head does not vanish, so what comes to stand there is from its bodies.
    have hbody : g.Leads p.head p.body := by
      refine ⟨fun x hx => ?_, hg.headDetermined.head_not_derives_nil p hp⟩
      rwa [mem_headSource_iff, if_pos hhead] at hx
    refine (hg.headDetermined.leads_derives hbody hderives).1 t (mem_headSource_iff.mpr ?_)
    rw [if_neg hterminal]
  · next hhead =>
    obtain ⟨γ, hγ⟩ := hderives.exists_eq_cons hhead ⟨p.tail, rfl⟩
    exact (List.cons.inj hγ).1.symm

/-- A production is predicted by the terminals that begin the forms derived from its body. -/
theorem EpsilonFree.mem_prediction_iff (hg : g.EpsilonFree) (hp : p ∈ g.productions) :
    t ∈ (g.prediction p).set ↔ g.Begins p.body t := by
  rw [Grammar.mem_prediction_iff]
  constructor
  · rintro (⟨-, ht⟩ | ⟨hempty, -⟩)
    · obtain ⟨-, hterminal, β, hβ⟩ := hg.derives_of_mem_first hp List.mem_cons_self ht
      exact ⟨hterminal, β ++ p.tail, hβ.append .refl⟩
    · exact absurd rfl (hg.derives_of_mem_first hp List.mem_cons_self hempty).1
  · intro h
    have ht := hg.mem_headSource_of_begins hp h
    exact .inl ⟨(hg.derives_of_mem_first hp List.mem_cons_self ht).1, ht⟩

/-- A terminal begins forms derived from the bodies of both alternatives of a nonterminal. -/
def BeginAlike (g : Grammar) (p q : Production) : Prop :=
  p.lhs = q.lhs ∧ ∃ t, g.Begins p.body t ∧ g.Begins q.body t

theorem EpsilonFree.exists_conflict?_iff (hg : g.EpsilonFree) (hp : p ∈ g.productions)
    (hq : q ∈ g.productions) :
    (∃ c, conflict? (g.prediction p) (g.prediction q) = some c) ↔ g.BeginAlike p q := by
  rw [AttrCalc.exists_conflict?_iff]
  simp only [hg.mem_prediction_iff hp, hg.mem_prediction_iff hq]
  exact Iff.rfl

theorem conflictAt_iff {place : Nat × Nat} {c : Conflict} :
    ConflictAt g.analyse.predictions place c ↔ ∃ p q, g.productions[place.1]? = some p ∧
      g.productions[place.2]? = some q ∧ conflict? (g.prediction p) (g.prediction q) = some c := by
  simp [ConflictAt, predictions_eq]

/-- Productions conflict if they begin alike. -/
theorem EpsilonFree.exists_conflictAt_iff (hg : g.EpsilonFree) {i j : Nat} :
    (∃ c, ConflictAt g.analyse.predictions (i, j) c) ↔ ∃ p q, g.productions[i]? = some p ∧
      g.productions[j]? = some q ∧ g.BeginAlike p q := by
  simp only [conflictAt_iff]
  constructor
  · rintro ⟨c, p, q, hp, hq, hc⟩
    exact ⟨p, q, hp, hq, (hg.exists_conflict?_iff (List.mem_of_getElem? hp)
      (List.mem_of_getElem? hq)).mp ⟨c, hc⟩⟩
  · rintro ⟨p, q, hp, hq, halike⟩
    obtain ⟨c, hc⟩ := (hg.exists_conflict?_iff (List.mem_of_getElem? hp)
      (List.mem_of_getElem? hq)).mpr halike
    exact ⟨c, p, q, hp, hq, hc⟩

/-- The conflict is between the productions at two places, and reports the terminals that begin
forms derived from the bodies of both. -/
structure Reports (g : Grammar) (place : Nat × Nat) (c : Conflict) : Prop where
  left : g.productions[place.1]? = some c.left
  right : g.productions[place.2]? = some c.right
  common : ∀ t, t ∈ c.common ↔ g.Begins c.left.body t ∧ g.Begins c.right.body t

theorem EpsilonFree.reports_of_conflictAt (hg : g.EpsilonFree) {place : Nat × Nat} {c : Conflict}
    (h : ConflictAt g.analyse.predictions place c) : g.Reports place c := by
  obtain ⟨p, q, hp, hq, hc⟩ := conflictAt_iff.mp h
  obtain ⟨-, -, rfl⟩ := conflict?_eq_some_iff.mp hc
  refine ⟨hp, hq, fun t => ?_⟩
  rw [Std.ExtTreeSet.mem_inter_iff, hg.mem_prediction_iff (List.mem_of_getElem? hp),
    hg.mem_prediction_iff (List.mem_of_getElem? hq)]
  exact Iff.rfl

/-! ### LL(1) -/

/-- One symbol of lookahead tells two productions apart: no terminal begins what both derive, not
both derive the empty string, and if one of them does, nothing that begins what the other derives
stands behind its left-hand side. -/
structure ToldApart (g : Grammar) (p q : Production) : Prop where
  begins : ∀ t, g.Begins p.expansion t → ¬ g.Begins q.expansion t
  empty : g.Derives p.expansion [] → ¬ g.Derives q.expansion []
  left_empty : g.Derives p.expansion [] → ∀ t, g.Begins q.expansion t → ¬ g.Adjacent q.lhs t
  right_empty : g.Derives q.expansion [] → ∀ t, g.Begins p.expansion t → ¬ g.Adjacent p.lhs t

/-- **LL(1).** One symbol of lookahead tells the alternatives of every nonterminal apart. -/
def IsLL1 (g : Grammar) : Prop :=
  g.productions.Pairwise fun p q => p.lhs = q.lhs → g.ToldApart p q

theorem EpsilonFree.toldApart_iff (hg : g.EpsilonFree) (hp : p ∈ g.productions)
    (hq : q ∈ g.productions) : g.ToldApart p q ↔ ∀ t, g.Begins p.body t → ¬ g.Begins q.body t := by
  have hnil {r : Production} (hr : r ∈ g.productions) : ¬ g.Derives r.expansion [] := by
    intro h
    rw [hg.expansion_eq hr] at h
    exact hg.derives_ne_nil h (List.cons_ne_nil _ _) rfl
  rw [← hg.expansion_eq hp, ← hg.expansion_eq hq]
  exact ⟨ToldApart.begins, fun h => ⟨h, fun hempty => absurd hempty (hnil hp),
    fun hempty => absurd hempty (hnil hp), fun hempty => absurd hempty (hnil hq)⟩⟩

theorem EpsilonFree.conflicts_eq_nil_iff (hg : g.EpsilonFree) :
    conflicts g.analyse.predictions = [] ↔ g.IsLL1 := by
  rw [AttrCalc.conflicts_eq_nil_iff, predictions_eq, List.pairwise_map, IsLL1]
  refine List.Pairwise.iff_of_mem fun {p q} hp hq => ?_
  rw [← Option.not_isSome_iff_eq_none, Option.isSome_iff_exists, hg.exists_conflict?_iff hp hq,
    hg.toldApart_iff hp hq]
  simp [BeginAlike]

/-- **What a conflict means.** In a grammar without the empty string, the conflicts are listed in
the lexicographic order of their places, which are those of two alternatives of one nonterminal that
begin alike.  Each reports the productions at its places, and just the terminals that begin forms
derived from the bodies of both.  So there are none just if the grammar is LL(1). -/
theorem conflicts_list_common_beginnings (g : Grammar) (hg : g.EpsilonFree) :
    (∃ places : List (Nat × Nat), places.Pairwise (Prod.Lex (· < ·) (· < ·)) ∧
      (∀ i j, (i, j) ∈ places ↔ i < j ∧ ∃ p q, g.productions[i]? = some p ∧
        g.productions[j]? = some q ∧ g.BeginAlike p q) ∧
      places.Forall₂ g.Reports (conflicts g.analyse.predictions)) ∧
    (conflicts g.analyse.predictions = [] ↔ g.IsLL1) := by
  refine ⟨⟨conflictPlaces g.analyse.predictions, pairwise_conflictPlaces _, fun i j => ?_, ?_⟩,
    hg.conflicts_eq_nil_iff⟩
  · rw [mem_conflictPlaces_iff, hg.exists_conflictAt_iff]
  · exact (forall₂_conflictPlaces _).imp fun _ _ h => hg.reports_of_conflictAt h

/-- A left recursive grammar with a repeated production and a nonterminal from which no sentence is
derived. -/
theorem conflicts_list_common_beginnings_repeated :
    let g : Grammar := {
      start := "S"
      productions := [⟨"S", "S", ["a"]⟩, ⟨"S", "b", []⟩, ⟨"X", "b", ["X"]⟩, ⟨"S", "b", []⟩]
      start_mem := by decide
      lhs_ne := by decide
      endMarker_notMem := by decide }
    g.EpsilonFree ∧
    (∃ places : List (Nat × Nat), places.Pairwise (Prod.Lex (· < ·) (· < ·)) ∧
      (∀ i j, (i, j) ∈ places ↔ i < j ∧ ∃ p q, g.productions[i]? = some p ∧
        g.productions[j]? = some q ∧ g.BeginAlike p q) ∧
      places.Forall₂ g.Reports (conflicts g.analyse.predictions)) ∧
    (conflicts g.analyse.predictions = [] ↔ g.IsLL1) := by
  intro g
  have hg : g.EpsilonFree := by unfold EpsilonFree; decide
  exact ⟨hg, conflicts_list_common_beginnings g hg⟩

end Grammar

end AttrCalc
