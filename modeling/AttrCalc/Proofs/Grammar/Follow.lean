import AttrCalc.Grammar.Arithmetic
import AttrCalc.Proofs.Grammar.LeastSolution
import Mathlib.Data.List.Chain

/-!
# What FOLLOW means

In a grammar without `ε`, a step replaces a nonterminal by a body that is not empty.  So two symbols
side by side in a derived form come from one body, or else one of them ends or begins a body, and
before the step the left-hand side stood in its place.  With the end marker put behind a form, this
covers the last symbol as well.

## Main definitions

* `Grammar.EpsilonFree` : no body holds `ε`.
* `Grammar.Reachable` : the symbol stands in a derived form.
* `Grammar.Allows` : what a symbol can begin with, follows a nonterminal.
* `Grammar.Adjacent` : a symbol stands right behind a nonterminal in a derived form.

## Main results

* `Grammar.follow_induction` : what holds of a FOLLOW set by the places of nonterminals in bodies.
* `Grammar.follow_iff_derives` : FOLLOW holds what stands behind a nonterminal in derived forms.
-/

namespace AttrCalc.Grammar

open Relation

variable {g : Grammar} {a b s x : Symbol} {p : Production} {u v form form' : List Symbol}

/-! ### Grammars without the empty string -/

/-- No body holds the empty string. -/
def EpsilonFree (g : Grammar) : Prop :=
  ∀ p ∈ g.productions, epsilon ∉ p.body

/-- The symbol stands in a form that is derived from the start symbol. -/
def Reachable (g : Grammar) (a : Symbol) : Prop :=
  ∃ u v, g.Derives [g.start] (u ++ a :: v)

theorem Derives.expand (h : g.Derives form (u ++ p.lhs :: v)) (hp : p ∈ g.productions) :
    g.Derives form (u ++ p.expansion ++ v) :=
  h.tail ⟨p, hp, u, v, rfl, rfl⟩

theorem Reachable.of_production (h : g.Reachable p.lhs) (hp : p ∈ g.productions)
    (hs : s ∈ p.expansion) : g.Reachable s := by
  obtain ⟨u, v, hderives⟩ := h
  obtain ⟨u', v', hexpansion⟩ := List.append_of_mem hs
  exact ⟨u ++ u', v' ++ v, by simpa [hexpansion] using hderives.expand hp⟩

theorem EpsilonFree.expansion_eq (hg : g.EpsilonFree) (hp : p ∈ g.productions) :
    p.expansion = p.body := by
  refine List.filter_eq_self.mpr fun s hs => ?_
  have hne : s ≠ epsilon := fun h => hg p hp (h ▸ hs)
  simpa using hne

theorem EpsilonFree.derives_ne_nil (hg : g.EpsilonFree) (h : g.Derives form form')
    (hform : form ≠ []) : form' ≠ [] := by
  cases h with
  | refl => exact hform
  | tail _ hstep =>
    obtain ⟨p, hp, u, v, -, rfl⟩ := hstep
    simp [hg.expansion_eq hp, Production.body]

theorem EpsilonFree.headDetermined (hg : g.EpsilonFree) : g.HeadDetermined where
  epsilon_alone p hp h := absurd h (hg p hp)
  head_not_derives_nil _ _ _ h := hg.derives_ne_nil h (List.cons_ne_nil _ _) rfl

/-- What a symbol of a body begins with, is a terminal that begins a form derived from it. -/
theorem EpsilonFree.derives_of_mem_first (hg : g.EpsilonFree) (hp : p ∈ g.productions)
    (hs : s ∈ p.body) (hx : x ∈ g.first.members (g.headSource s)) :
    x ≠ epsilon ∧ ¬ g.isNonterminal x ∧ ∃ β, g.Derives [s] (x :: β) := by
  rw [mem_headSource_iff] at hx
  split at hx
  · rcases hg.headDetermined.derives_of_mem_first hx with ⟨-, hnil⟩ | ⟨hne, β, hβ⟩
    · exact absurd rfl (hg.derives_ne_nil hnil.to_reflTransGen (List.cons_ne_nil _ _))
    · have hterminal : ¬ g.isNonterminal x := by
        refine first_induction (P := fun _ => ¬ g.isNonterminal x) ?_ (fun _ _ _ _ ih => ih) hx
        rintro p - hhead rfl
        exact hhead
      exact ⟨hne, hterminal, β, hβ.to_reflTransGen⟩
  · next hterminal =>
    subst hx
    exact ⟨fun h => hg p hp (h ▸ hs), hterminal, [], .refl⟩

/-! ### Membership by the places in bodies -/

theorem mem_follow_of_next {first : SetMap} (hp : p ∈ g.productions)
    (hbody : p.body = u ++ b :: s :: v) (hb : g.isNonterminal b) (hne : x ≠ epsilon)
    (hx : x ∈ first.members (g.headSource s)) : x ∈ (g.follow first).get b :=
  solves_followInclusions_iff.mp (isFollowSolution_iff.mp (g.isLeast_followFrom first ∅).1).2
    p hp u b (s :: v) hbody hb x (mem_members_afterSource_cons_iff.mpr ⟨hne, hx⟩)

theorem mem_follow_of_last {first : SetMap} (hp : p ∈ g.productions) (hbody : p.body = u ++ [b])
    (hb : g.isNonterminal b) (hx : x ∈ (g.follow first).get p.lhs) : x ∈ (g.follow first).get b :=
  (g.isLeast_followFrom first ∅).1.last p hp u b hbody hb x hx

/-- What holds of the start symbol if the end marker is concerned, of a nonterminal before a symbol
that the symbol in question, other than `ε`, can begin, and of the last nonterminal of a body if it
holds of the left-hand side, holds of the nonterminals that have the symbol in FOLLOW. -/
theorem follow_induction {first : SetMap} {P : Symbol → Prop} (start : x = endMarker → P g.start)
    (next : ∀ p ∈ g.productions, ∀ u b s v, p.body = u ++ b :: s :: v → g.isNonterminal b →
      x ≠ epsilon → x ∈ first.members (g.headSource s) → P b)
    (last : ∀ p ∈ g.productions, ∀ u b, p.body = u ++ [b] → g.isNonterminal b → P p.lhs → P b)
    (h : x ∈ (g.follow first).get a) : P a := by
  replace h : SetMap.Required (g.followInclusions first) (g.followStart ∅) x a :=
    SetMap.mem_get_settle_iff.mp h
  induction h with
  | start h =>
    rcases mem_get_followStart_iff.mp h with h | ⟨rfl, rfl⟩
    · exact absurd (SetMap.mem_of_mem_get h) Std.ExtTreeMap.not_mem_empty
    · exact start rfl
  | @symbols a set hi hx =>
    obtain ⟨p, hp, hi⟩ := List.mem_flatMap.mp hi
    obtain ⟨u, b, after, hbody, hb, heq⟩ := (mem_bodyInclusions_iff p.body).mp hi
    obtain ⟨rfl, hsource⟩ := Inclusion.mk.inj heq
    cases after with
    | nil => simp [afterSource] at hsource
    | cons s v =>
      replace hx : x ∈ (∅ : SetMap).members (.symbols set) := hx
      rw [hsource] at hx
      obtain ⟨hne, hx⟩ := mem_members_afterSource_cons_iff.mp hx
      exact next p hp u a s v hbody hb hne hx
  | @setOf a lhs hi _ ih =>
    obtain ⟨p, hp, hi⟩ := List.mem_flatMap.mp hi
    obtain ⟨u, b, after, hbody, hb, heq⟩ := (mem_bodyInclusions_iff p.body).mp hi
    obtain ⟨rfl, hsource⟩ := Inclusion.mk.inj heq
    cases after with
    | nil =>
      obtain rfl := Source.setOf.inj hsource
      exact last p hp u a hbody hb ih
    | cons s v =>
      simp only [afterSource] at hsource
      split at hsource
      · simp at hsource
      · split at hsource <;> simp at hsource

/-! ### What stands behind a nonterminal is in FOLLOW -/

/-- What the symbol `s` can begin with, follows the nonterminal `b`. -/
def Allows (g : Grammar) (b s : Symbol) : Prop :=
  g.isNonterminal b → ∀ x ∈ g.first.members (g.headSource s), x ∈ (g.follow g.first).get b

theorem endMarker_not_isNonterminal (g : Grammar) : ¬ g.isNonterminal endMarker := by
  intro h
  obtain ⟨p, hp, hlhs⟩ := isNonterminal_iff.mp h
  exact (g.lhs_ne p hp).2 hlhs

theorem mem_first_endMarker_iff : x ∈ g.first.members (g.headSource endMarker) ↔ endMarker = x := by
  rw [mem_headSource_iff, if_neg g.endMarker_not_isNonterminal]

theorem isChain_allows_start (g : Grammar) : [g.start, endMarker].IsChain g.Allows := by
  refine List.isChain_pair.mpr fun _ x hx => ?_
  obtain rfl := mem_first_endMarker_iff.mp hx
  exact (g.isLeast_followFrom g.first ∅).1.endMarker_mem

theorem EpsilonFree.isChain_allows_body (hg : g.EpsilonFree) (hp : p ∈ g.productions) :
    p.body.IsChain g.Allows := by
  refine List.isChain_iff_forall_rel_of_append_cons_cons.mpr fun b s u v hbody hb x hx => ?_
  exact mem_follow_of_next hp hbody hb (hg.derives_of_mem_first hp (by simp [hbody]) hx).1 hx

/-- What may stand behind a left-hand side, may stand behind its bodies. -/
theorem Allows.of_lhs (hp : p ∈ g.productions) (h : g.Allows p.lhs s) (hb : b ∈ p.body.getLast?) :
    g.Allows b s := by
  intro hnonterminal x hx
  obtain ⟨u, hbody⟩ := List.getLast?_eq_some_iff.mp hb
  exact mem_follow_of_last hp hbody hnonterminal
    (h (isNonterminal_iff.mpr ⟨p, hp, rfl⟩) x hx)

/-- Where a left-hand side may stand, its bodies may stand. -/
theorem Allows.head (hp : p ∈ g.productions) (h : g.Allows b p.lhs) : g.Allows b p.head := by
  intro hb x hx
  refine h hb x (mem_headSource_iff.mpr ?_)
  rw [if_pos (isNonterminal_iff.mpr ⟨p, hp, rfl⟩)]
  exact mem_first_of_head hp hx

/-- A step keeps a form, with what stands behind it, in accordance with FOLLOW: inside the new body
by its production, at both ends because the left-hand side was there. -/
theorem EpsilonFree.isChain_allows_step (hg : g.EpsilonFree) {y : Symbol} {w : List Symbol}
    (hp : p ∈ g.productions) (h : (u ++ p.lhs :: y :: w).IsChain g.Allows) :
    (u ++ (p.body ++ y :: w)).IsChain g.Allows := by
  obtain ⟨hleft, hlhs, hright⟩ := List.isChain_append_cons_cons.mp h
  obtain ⟨hu, -, hjoin⟩ := List.isChain_append.mp hleft
  have hbody : (p.body ++ y :: w).IsChain g.Allows := by
    refine List.isChain_append.mpr ⟨hg.isChain_allows_body hp, hright, fun b hb s hs => ?_⟩
    obtain rfl : y = s := by simpa using hs
    exact hlhs.of_lhs hp hb
  refine List.isChain_append.mpr ⟨hu, hbody, fun b hb s hs => ?_⟩
  obtain rfl : p.head = s := by simpa [Production.body] using hs
  exact (hjoin b hb p.lhs rfl).head hp

theorem EpsilonFree.isChain_allows_of_derives (hg : g.EpsilonFree)
    (h : g.Derives [g.start] form) : (form ++ [endMarker]).IsChain g.Allows := by
  induction h with
  | refl => exact g.isChain_allows_start
  | tail _ hstep ih =>
    obtain ⟨p, hp, u, v, rfl, rfl⟩ := hstep
    obtain ⟨y, w, hw⟩ := List.exists_cons_of_ne_nil
      (List.append_ne_nil_of_right_ne_nil v (List.cons_ne_nil endMarker []))
    rw [List.append_assoc, List.cons_append, hw] at ih
    rw [List.append_assoc, List.append_assoc, hw, hg.expansion_eq hp]
    exact hg.isChain_allows_step hp ih

/-! ### What is in FOLLOW stands behind a nonterminal -/

/-- The symbol stands right behind the nonterminal in a derived form, with the end marker put behind
the form. -/
def Adjacent (g : Grammar) (b x : Symbol) : Prop :=
  ∃ u w, g.Derives [g.start] (u ++ b :: w) ∧ (w ++ [endMarker]).head? = some x

theorem EpsilonFree.adjacent_of_mem_follow (hg : g.EpsilonFree)
    (hreach : ∀ a, g.isNonterminal a → g.Reachable a) (hx : x ∈ (g.follow g.first).get b) :
    g.Adjacent b x := by
  refine follow_induction (P := (g.Adjacent · x)) ?_ ?_ ?_ hx
  · rintro rfl
    exact ⟨[], [], .refl, rfl⟩
  · intro p hp u b s v hbody _ _ hx
    obtain ⟨α, β, hderives⟩ := hreach p.lhs (isNonterminal_iff.mpr ⟨p, hp, rfl⟩)
    obtain ⟨-, -, γ, hγ⟩ := hg.derives_of_mem_first hp (by simp [hbody]) hx
    have hform : g.Derives [g.start] ((α ++ u ++ [b]) ++ ([s] ++ (v ++ β))) := by
      simpa [hg.expansion_eq hp, hbody] using hderives.expand hp
    have hbegin : g.Derives ((α ++ u ++ [b]) ++ ([s] ++ (v ++ β)))
        ((α ++ u ++ [b]) ++ (x :: γ ++ (v ++ β))) := .append .refl (.append hγ .refl)
    have hjoined : g.Derives [g.start] ((α ++ u ++ [b]) ++ (x :: γ ++ (v ++ β))) :=
      hform.trans hbegin
    exact ⟨α ++ u, x :: γ ++ (v ++ β), by simpa using hjoined, rfl⟩
  · rintro p hp u b hbody _ ⟨α, w, hderives, hw⟩
    have hform := hderives.expand hp
    rw [hg.expansion_eq hp, hbody] at hform
    exact ⟨α ++ u, w, by simpa using hform, hw⟩

theorem EpsilonFree.not_isNonterminal_of_mem_follow (hg : g.EpsilonFree)
    (hx : x ∈ (g.follow g.first).get b) : ¬ g.isNonterminal x := by
  refine follow_induction (P := fun _ => ¬ g.isNonterminal x) ?_ ?_ (fun _ _ _ _ _ _ ih => ih) hx
  · rintro rfl
    exact g.endMarker_not_isNonterminal
  · intro p hp u b s v hbody _ _ hx
    exact (hg.derives_of_mem_first hp (by simp [hbody]) hx).2.1

/-- **What FOLLOW means.** In a grammar without the empty string, the FOLLOW set of a nonterminal
holds the terminals that stand right behind it in a form derived from the start symbol, and the end
marker if it stands last in such a form.  If all nonterminals are reachable, it holds nothing
else. -/
theorem follow_iff_derives (g : Grammar) (hg : g.EpsilonFree) (b : Symbol)
    (hb : g.isNonterminal b) :
    ∃ set, (g.follow g.first)[b]? = some set ∧
      (∀ u t v, ¬ g.isNonterminal t → g.Derives [g.start] (u ++ b :: t :: v) → t ∈ set) ∧
      (∀ u, g.Derives [g.start] (u ++ [b]) → endMarker ∈ set) ∧
      ((∀ a, g.isNonterminal a → g.Reachable a) → ∀ x ∈ set,
        (¬ g.isNonterminal x ∧ ∃ u v, g.Derives [g.start] (u ++ b :: x :: v)) ∨
          x = endMarker ∧ ∃ u, g.Derives [g.start] (u ++ [b])) := by
  have hkey : b ∈ g.follow g.first := mem_followFrom_iff.mpr (.inl hb)
  refine ⟨(g.follow g.first).get b, SetMap.getElem?_eq_some_get hkey, ?_, ?_, ?_⟩
  · intro u t v ht hderives
    have hchain := hg.isChain_allows_of_derives hderives
    rw [List.append_assoc, List.cons_append, List.cons_append] at hchain
    exact (List.isChain_append_cons_cons.mp hchain).2.1 hb t
      (mem_headSource_iff.mpr (by rw [if_neg ht]))
  · intro u hderives
    have hchain := hg.isChain_allows_of_derives hderives
    rw [List.append_assoc, List.singleton_append] at hchain
    exact (List.isChain_append_cons_cons.mp hchain).2.1 hb endMarker
      (mem_first_endMarker_iff.mpr rfl)
  · intro hreach x hx
    obtain ⟨u, w, hderives, hw⟩ := hg.adjacent_of_mem_follow hreach hx
    cases w with
    | nil =>
      obtain rfl : endMarker = x := by simpa using hw
      exact .inr ⟨rfl, u, hderives⟩
    | cons t w =>
      obtain rfl : t = x := by simpa using hw
      exact .inl ⟨hg.not_isNonterminal_of_mem_follow hx, u, w, hderives⟩

/-- The terms of arithmetic expressions, whose grammar has no unreachable nonterminal. -/
theorem follow_iff_derives_term :
    let g := arithmetic
    g.EpsilonFree ∧ g.isNonterminal "T" ∧ (∀ a, g.isNonterminal a → g.Reachable a) ∧
    ∃ set, (g.follow g.first)["T"]? = some set ∧
      (∀ u t v, ¬ g.isNonterminal t → g.Derives [g.start] (u ++ "T" :: t :: v) → t ∈ set) ∧
      (∀ u, g.Derives [g.start] (u ++ ["T"]) → endMarker ∈ set) ∧
      ∀ x ∈ set, (¬ g.isNonterminal x ∧ ∃ u v, g.Derives [g.start] (u ++ "T" :: x :: v)) ∨
        x = endMarker ∧ ∃ u, g.Derives [g.start] (u ++ ["T"]) := by
  intro g
  have hg : g.EpsilonFree := by unfold EpsilonFree; decide
  have hT : g.isNonterminal "T" := by decide
  have hsum : g.Reachable "E" := ⟨[], [], .refl⟩
  have hterm : g.Reachable "T" := hsum.of_production (p := ⟨"E", "T", []⟩) (by decide) (by decide)
  have hfactor : g.Reachable "F" :=
    hterm.of_production (p := ⟨"T", "F", []⟩) (by decide) (by decide)
  have hreach : ∀ a, g.isNonterminal a → g.Reachable a := by
    intro a ha
    have hmem : a ∈ ["E", "T", "F"] := mem_nonterminals_iff.mpr ha
    simp only [List.mem_cons, List.not_mem_nil, or_false] at hmem
    rcases hmem with rfl | rfl | rfl
    · exact hsum
    · exact hterm
    · exact hfactor
  obtain ⟨set, hset, hnext, hlast, honly⟩ := follow_iff_derives g hg "T" hT
  exact ⟨hg, hT, hreach, set, hset, hnext, hlast, honly hreach⟩

end AttrCalc.Grammar
