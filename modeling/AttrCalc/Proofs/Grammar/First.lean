import AttrCalc.Grammar.First
import AttrCalc.Proofs.Grammar.Derivation
import AttrCalc.Proofs.Grammar.Solution

/-!
# What FIRST means

A symbol gets into a FIRST set through a chain of productions, each of which begins with the
left-hand side of the next.  Where the first symbol of a body tells what the body begins with, such
a chain is the beginning of a derivation.  Conversely a derivation changes the first symbol of a
form only along such a chain, since the nonterminals that it finds there do not vanish.

## Main definitions

* `Grammar.HeadDetermined` : the first symbol of a body tells what the body begins with.
* `Grammar.Leads` : what a form can begin with, can be begun with by a nonterminal.

## Main results

* `Grammar.first_induction` : what holds of a FIRST set by the heads of the productions.
* `Grammar.mem_first_iff` : FIRST holds what the bodies begin with, and nothing else.
* `Grammar.first_iff_derives` : FIRST holds what the derived forms begin with.
-/

namespace AttrCalc.Grammar

open Relation

variable {g : Grammar} {a s x : Symbol} {p : Production}

/-! ### Membership by the heads of the productions -/

theorem mem_headSource_iff {m : SetMap} : x ∈ m.members (g.headSource s) ↔
    if g.isNonterminal s then x ∈ m.get s else s = x := by
  rw [headSource]
  split <;> simp [SetMap.members]

/-- What a body begins with, its nonterminal begins with. -/
theorem mem_first_of_head (hp : p ∈ g.productions)
    (hx : x ∈ g.first.members (g.headSource p.head)) : x ∈ g.first.get p.lhs :=
  SetMap.settledAt_settle _ _ x _ (List.mem_map_of_mem hp) hx

/-- What holds of the left-hand sides of the productions that begin with a symbol, and of those that
begin with a nonterminal that has the symbol in FIRST and that it holds of, holds of the
nonterminals that have the symbol in FIRST. -/
theorem first_induction {P : Symbol → Prop}
    (terminal : ∀ p ∈ g.productions, ¬ g.isNonterminal p.head → p.head = x → P p.lhs)
    (nonterminal : ∀ p ∈ g.productions, g.isNonterminal p.head → x ∈ g.first.get p.head →
      P p.head → P p.lhs)
    (h : x ∈ g.first.get a) : P a := by
  replace h : SetMap.Required g.firstInclusions (g.cover ∅) x a := SetMap.mem_get_settle_iff.mp h
  induction h with
  | start h =>
    rw [get_cover] at h
    exact absurd h Std.ExtTreeSet.not_mem_empty
  | symbols hi hx =>
    obtain ⟨p, hp, hinclusion⟩ := List.mem_map.mp hi
    obtain ⟨rfl, hsource⟩ := Inclusion.mk.inj hinclusion
    rw [headSource] at hsource
    split at hsource
    · simp at hsource
    · next hhead =>
      obtain rfl := Source.symbols.inj hsource
      exact terminal p hp hhead (by simpa using hx)
  | setOf hi hrequired ih =>
    obtain ⟨p, hp, hinclusion⟩ := List.mem_map.mp hi
    obtain ⟨rfl, hsource⟩ := Inclusion.mk.inj hinclusion
    rw [headSource] at hsource
    split at hsource
    · next hhead =>
      obtain rfl := Source.setOf.inj hsource
      exact nonterminal p hp hhead (SetMap.mem_get_settle_iff.mpr hrequired) ih
    · simp at hsource

/-- FIRST holds nothing but what some body begins with. -/
theorem mem_first_iff : x ∈ g.first.get a ↔
    ∃ p ∈ g.productions, p.lhs = a ∧ x ∈ g.first.members (g.headSource p.head) := by
  constructor
  · refine first_induction (P := fun a => ∃ p ∈ g.productions, p.lhs = a ∧
      x ∈ g.first.members (g.headSource p.head)) ?_ ?_
    · intro p hp hterminal hhead
      exact ⟨p, hp, rfl, by rwa [mem_headSource_iff, if_neg hterminal]⟩
    · intro p hp hnonterminal hmem _
      exact ⟨p, hp, rfl, by rwa [mem_headSource_iff, if_pos hnonterminal]⟩
  · rintro ⟨p, hp, rfl, hx⟩
    exact mem_first_of_head hp hx

/-! ### Bodies that their first symbol tells about -/

/-- The first symbol of a body tells what the body begins with: `ε` stands only by itself, and no
body begins with a nonterminal that derives the empty string. -/
structure HeadDetermined (g : Grammar) : Prop where
  epsilon_alone : ∀ p ∈ g.productions, epsilon ∈ p.body → p.body = [epsilon]
  head_not_derives_nil : ∀ p ∈ g.productions, g.isNonterminal p.head → ¬ g.Derives [p.head] []

theorem HeadDetermined.expansion_of_head_eq (hg : g.HeadDetermined) (hp : p ∈ g.productions)
    (hhead : p.head = epsilon) : p.expansion = [] := by
  have hbody : p.body = [epsilon] := hg.epsilon_alone p hp (hhead ▸ List.mem_cons_self)
  rw [Production.expansion, hbody]
  simp

/-- A nonterminal all of whose bodies begin with a terminal does not derive the empty string. -/
theorem not_derives_nil_of_alternatives
    (h : ∀ p ∈ g.alternatives a, p.head ≠ epsilon ∧ ¬ g.isNonterminal p.head) :
    ¬ g.Derives [a] [] := by
  intro hderives
  rcases hderives.cases_head with heq | ⟨form, hstep, hrest⟩
  · simp at heq
  · obtain ⟨p, hp, hlhs, rfl⟩ := hstep.singleton_inv
    obtain ⟨hne, hterminal⟩ := h p (by simpa [alternatives] using ⟨hp, hlhs⟩)
    obtain ⟨β, hβ⟩ := Derives.exists_eq_cons hrest hterminal (p.expansion_of_head_ne hne)
    simp at hβ

/-! ### Members of FIRST are derived -/

/-- A member of a FIRST set begins a derived form, or stands for the empty string. -/
theorem HeadDetermined.derives_of_mem_first (hg : g.HeadDetermined) (hx : x ∈ g.first.get a) :
    x = epsilon ∧ TransGen g.Step [a] [] ∨
      x ≠ epsilon ∧ ∃ β, TransGen g.Step [a] (x :: β) := by
  refine first_induction
    (P := fun a => x = epsilon ∧ TransGen g.Step [a] [] ∨
      x ≠ epsilon ∧ ∃ β, TransGen g.Step [a] (x :: β)) ?_ ?_ hx
  · rintro p hp - rfl
    have hstep : g.Step [p.lhs] p.expansion := .of_production hp
    by_cases hhead : p.head = epsilon
    · rw [hg.expansion_of_head_eq hp hhead] at hstep
      exact .inl ⟨hhead, .single hstep⟩
    · obtain ⟨β, hβ⟩ := p.expansion_of_head_ne hhead
      rw [hβ] at hstep
      exact .inr ⟨hhead, β, .single hstep⟩
  · intro p hp hhead _ ih
    have hstep : g.Step [p.lhs] p.expansion := .of_production hp
    obtain ⟨β, hβ⟩ := p.expansion_of_head_ne (ne_epsilon_of_isNonterminal hhead)
    rw [hβ] at hstep
    rcases ih with ⟨-, hnil⟩ | ⟨hne, γ, hγ⟩
    · exact absurd hnil.to_reflTransGen (hg.head_not_derives_nil p hp hhead)
    · have hlift : TransGen g.Step ([p.head] ++ β) (x :: γ ++ β) :=
        hγ.lift (· ++ β) fun _ _ h => h.append_right β
      exact .inr ⟨hne, γ ++ β, .head hstep hlift⟩

/-! ### What is derived is in FIRST -/

/-- What the form can begin with is in FIRST of `a`, and its first symbol does not vanish. -/
def Leads (g : Grammar) (a : Symbol) : List Symbol → Prop
  | [] => epsilon ∈ g.first.get a
  | s :: _ => (∀ x ∈ g.first.members (g.headSource s), x ∈ g.first.get a) ∧
      (g.isNonterminal s → ¬ g.Derives [s] [])

/-- The body of a production leads in FIRST of its left-hand side. -/
theorem HeadDetermined.leads_expansion (hg : g.HeadDetermined) (hp : p ∈ g.productions) :
    g.Leads p.lhs p.expansion := by
  by_cases hhead : p.head = epsilon
  · have hterminal : ¬ g.isNonterminal p.head := fun h => ne_epsilon_of_isNonterminal h hhead
    rw [hg.expansion_of_head_eq hp hhead]
    refine mem_first_of_head hp (mem_headSource_iff.mpr ?_)
    rwa [if_neg hterminal]
  · obtain ⟨β, hβ⟩ := p.expansion_of_head_ne hhead
    rw [hβ]
    exact ⟨fun x hx => mem_first_of_head hp hx, hg.head_not_derives_nil p hp⟩

/-- A step keeps a form in FIRST: it leaves the first symbol alone, or replaces it by a body, which
is not empty. -/
theorem HeadDetermined.leads_step (hg : g.HeadDetermined) {form form' : List Symbol}
    (h : g.Leads a form) (hstep : g.Step form form') : g.Leads a form' := by
  obtain ⟨p, hp, u, v, rfl, rfl⟩ := hstep
  cases u with
  | cons s u => exact h
  | nil =>
    obtain ⟨hfirst, hsolid⟩ := h
    have hlhs : g.isNonterminal p.lhs := isNonterminal_iff.mpr ⟨p, hp, rfl⟩
    have hexpansion := hg.leads_expansion hp
    rw [List.nil_append]
    cases hβ : p.expansion with
    | nil =>
      have hnil : g.Step [p.lhs] [] := hβ ▸ .of_production hp
      exact absurd (ReflTransGen.single hnil) (hsolid hlhs)
    | cons s β =>
      rw [hβ] at hexpansion
      refine ⟨fun x hx => hfirst x (mem_headSource_iff.mpr ?_), hexpansion.2⟩
      rw [if_pos hlhs]
      exact hexpansion.1 x hx

theorem HeadDetermined.leads_derives (hg : g.HeadDetermined) {form form' : List Symbol}
    (h : g.Leads a form) (hderives : g.Derives form form') : g.Leads a form' := by
  induction hderives with
  | refl => exact h
  | tail _ hstep ih => exact hg.leads_step ih hstep

theorem HeadDetermined.leads_of_derives (hg : g.HeadDetermined) {form : List Symbol}
    (h : TransGen g.Step [a] form) : g.Leads a form := by
  obtain ⟨_, hstep, hderives⟩ := TransGen.head'_iff.mp h
  obtain ⟨p, hp, rfl, rfl⟩ := hstep.singleton_inv
  exact hg.leads_derives (hg.leads_expansion hp) hderives

/-- **What FIRST means.** Where the first symbol of a body tells what it begins with, the FIRST set
of a nonterminal holds a terminal just if the nonterminal derives a form that begins with it, and
`ε` just if it derives the empty string. -/
theorem first_iff_derives (g : Grammar) (hg : g.HeadDetermined) (a : Symbol)
    (ha : g.isNonterminal a) :
    ∃ set, g.first[a]? = some set ∧
      (∀ t, ¬ g.isNonterminal t → t ≠ epsilon →
        (t ∈ set ↔ ∃ β, TransGen g.Step [a] (t :: β))) ∧
      (epsilon ∈ set ↔ TransGen g.Step [a] []) := by
  have hkey : a ∈ g.first := SetMap.mem_settle_iff.mpr (.inl (mem_cover_iff.mpr (.inl ha)))
  have hset : g.first[a]? = some (g.first.get a) := Std.ExtTreeMap.getElem?_eq_some_getD hkey
  refine ⟨g.first.get a, hset, fun t ht hne => ⟨?_, ?_⟩, ?_, ?_⟩
  · intro hmem
    rcases hg.derives_of_mem_first hmem with ⟨rfl, -⟩ | ⟨-, hderives⟩
    · exact absurd rfl hne
    · exact hderives
  · rintro ⟨β, hderives⟩
    refine (hg.leads_of_derives hderives).1 t (mem_headSource_iff.mpr ?_)
    rw [if_neg ht]
  · intro hmem
    rcases hg.derives_of_mem_first hmem with ⟨-, hderives⟩ | ⟨hne, -⟩
    · exact hderives
    · exact absurd rfl hne
  · exact hg.leads_of_derives

/-- A grammar of sums without left recursion, one of whose nonterminals derives the empty string. -/
theorem first_iff_derives_rest :
    let g : Grammar := {
      start := "E"
      productions :=
        [⟨"E", "T", ["R"]⟩, ⟨"R", "+", ["T", "R"]⟩, ⟨"R", epsilon, []⟩, ⟨"T", "id", []⟩]
      start_mem := by decide
      lhs_ne := by decide
      endMarker_notMem := by decide }
    g.HeadDetermined ∧ g.isNonterminal "R" ∧ ∃ set, g.first["R"]? = some set ∧
      (∀ t, ¬ g.isNonterminal t → t ≠ epsilon →
        (t ∈ set ↔ ∃ β, TransGen g.Step ["R"] (t :: β))) ∧
      (epsilon ∈ set ↔ TransGen g.Step ["R"] []) := by
  intro g
  have hheads : ∀ p ∈ g.productions, g.isNonterminal p.head →
      ∀ q ∈ g.alternatives p.head, q.head ≠ epsilon ∧ ¬ g.isNonterminal q.head := by decide
  have hdetermined : g.HeadDetermined :=
    ⟨by decide, fun p hp hhead => not_derives_nil_of_alternatives (hheads p hp hhead)⟩
  have hrest : g.isNonterminal "R" := by decide
  exact ⟨hdetermined, hrest, first_iff_derives g hdetermined "R" hrest⟩

end AttrCalc.Grammar
