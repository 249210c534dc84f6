import AttrCalc.Grammar.Basic
import Mathlib.Logic.Relation

/-!
# Derivations

A sentential form is a list of symbols.  A step rewrites one nonterminal of it by the body of one of
its productions; the symbol `ε` in a body stands for nothing.  A derivation tree records which
productions a derivation uses and where, but not in which order they are used: a node is a
production, and its children are the trees of the symbols of its body.

## Main definitions

* `Production.expansion` : what a production puts in the place of its left-hand side.
* `Grammar.Step`, `Grammar.Derives` : one step, and any number of them.
* `DerivationTree` : trees of productions, with `root`, `yield` and `productions`.
* `DerivationTree.Valid` : the trees of a grammar.
* `DerivationTree.IsTreeOf`, `DerivationTree.IsForestOf` : those under given symbols, with a given
  yield.
* `DerivationTree.contract` : a tree without the nodes of unit productions.

## Main results

* `Grammar.Derives.append` : two forms can be rewritten side by side.
* `Grammar.derives_iff_exists_tree` : a symbol derives the yields of the trees under it.
-/

namespace AttrCalc

/-- What a production puts in the place of its left-hand side. -/
def Production.expansion (p : Production) : List Symbol :=
  p.body.filter (· ≠ epsilon)

theorem Production.expansion_of_head_ne {p : Production} (hhead : p.head ≠ epsilon) :
    ∃ β, p.expansion = p.head :: β := by
  refine ⟨p.tail.filter (· ≠ epsilon), ?_⟩
  rw [expansion, body, List.filter_cons_of_pos (by simpa using hhead)]

namespace Grammar

variable (g : Grammar)

/-- One nonterminal of a form is rewritten by one of its productions. -/
def Step (form form' : List Symbol) : Prop :=
  ∃ p ∈ g.productions, ∃ u v, form = u ++ p.lhs :: v ∧ form' = u ++ p.expansion ++ v

/-- A form is rewritten any number of times. -/
def Derives : List Symbol → List Symbol → Prop :=
  Relation.ReflTransGen g.Step

variable {g}

theorem Step.of_production {p : Production} (hp : p ∈ g.productions) :
    g.Step [p.lhs] p.expansion :=
  ⟨p, hp, [], [], rfl, by simp⟩

theorem Step.append_left {form form' : List Symbol} (h : g.Step form form') (w : List Symbol) :
    g.Step (w ++ form) (w ++ form') := by
  obtain ⟨p, hp, u, v, rfl, rfl⟩ := h
  exact ⟨p, hp, w ++ u, v, by simp, by simp⟩

theorem Step.append_right {form form' : List Symbol} (h : g.Step form form') (w : List Symbol) :
    g.Step (form ++ w) (form' ++ w) := by
  obtain ⟨p, hp, u, v, rfl, rfl⟩ := h
  exact ⟨p, hp, u, v ++ w, by simp, by simp⟩

/-- Two forms can be rewritten side by side. -/
theorem Derives.append {u u' v v' : List Symbol} (hu : g.Derives u u') (hv : g.Derives v v') :
    g.Derives (u ++ v) (u' ++ v') :=
  Relation.ReflTransGen.trans (hu.lift (· ++ v) fun _ _ h => h.append_right v)
    (hv.lift (u' ++ ·) fun _ _ h => h.append_left u')

theorem Step.singleton_inv {a : Symbol} {form : List Symbol} (h : g.Step [a] form) :
    ∃ p ∈ g.productions, p.lhs = a ∧ p.expansion = form := by
  obtain ⟨p, hp, u, v, hform, rfl⟩ := h
  obtain ⟨rfl, ha⟩ | ⟨-, hnil⟩ := List.singleton_eq_append_iff.mp hform
  · obtain ⟨rfl, rfl⟩ := List.cons.inj ha
    exact ⟨p, hp, rfl, by simp⟩
  · simp at hnil

/-- A form that begins with a terminal derives only such forms. -/
theorem Derives.exists_eq_cons {form form' : List Symbol} (h : g.Derives form form') {s : Symbol}
    (hs : ¬ g.isNonterminal s) (hform : ∃ β, form = s :: β) : ∃ β, form' = s :: β := by
  induction h with
  | refl => exact hform
  | tail _ hstep ih =>
    obtain ⟨β, rfl⟩ := ih
    obtain ⟨p, hp, u, v, hβ, rfl⟩ := hstep
    cases u with
    | nil =>
      obtain ⟨rfl, -⟩ := List.cons.inj hβ
      exact absurd (isNonterminal_iff.mpr ⟨p, hp, rfl⟩) hs
    | cons s' u =>
      obtain ⟨rfl, -⟩ := List.cons.inj hβ
      exact ⟨u ++ p.expansion ++ v, by simp⟩

theorem ne_epsilon_of_isNonterminal {s : Symbol} (hs : g.isNonterminal s) : s ≠ epsilon := by
  obtain ⟨p, hp, rfl⟩ := isNonterminal_iff.mp hs
  exact (g.lhs_ne p hp).1

end Grammar

/-- A tree of productions over single symbols. -/
inductive DerivationTree where
  | leaf (s : Symbol)
  | node (p : Production) (children : List DerivationTree)

namespace DerivationTree

/-- The symbol that a tree stands for. -/
def root : DerivationTree → Symbol
  | leaf s => s
  | node p _ => p.lhs

/-- The symbols at the leaves, from left to right. -/
def yield : DerivationTree → List Symbol
  | leaf s => [s]
  | node _ ts => ts.flatMap yield

/-- The productions at the nodes, each as often as it is used. -/
def productions : DerivationTree → List Production
  | leaf _ => []
  | node p ts => p :: ts.flatMap productions

/-- A node over its children, left out if the production does no more than rename a nonterminal. -/
def contractNode (g : Grammar) (p : Production) : List DerivationTree → DerivationTree
  | [t] => if g.isNonterminal p.head then t else node p [t]
  | ts => node p ts

/-- The tree without the nodes of unit productions, whose body is a single nonterminal. -/
def contract (g : Grammar) : DerivationTree → DerivationTree
  | leaf s => leaf s
  | node p ts => contractNode g p (ts.map (contract g))

/-- The trees of a grammar: the leaves are terminals, and a node has a child for each symbol of its
body. -/
inductive Valid (g : Grammar) : DerivationTree → Prop
  | leaf {s : Symbol} (hs : ¬ g.isNonterminal s) : Valid g (leaf s)
  | node {p : Production} {ts : List DerivationTree} (hp : p ∈ g.productions)
      (hroot : ts.map root = p.expansion) (hts : ∀ t ∈ ts, Valid g t) : Valid g (node p ts)

/-- A tree of a grammar under a given symbol, with a given yield. -/
structure IsTreeOf (t : DerivationTree) (g : Grammar) (a : Symbol) (w : List Symbol) : Prop where
  valid : t.Valid g
  root_eq : t.root = a
  yield_eq : t.yield = w

/-- Trees of a grammar under the symbols of a given form, with a given yield in all. -/
structure IsForestOf (ts : List DerivationTree) (g : Grammar) (form w : List Symbol) : Prop where
  valid : ∀ t ∈ ts, t.Valid g
  roots_eq : ts.map root = form
  yields_eq : ts.flatMap yield = w

variable {g : Grammar}

theorem isTreeOf_leaf {s : Symbol} (hs : ¬ g.isNonterminal s) : (leaf s).IsTreeOf g s [s] :=
  ⟨.leaf hs, rfl, by rw [yield]⟩

theorem isForestOf_nil : IsForestOf [] g [] [] :=
  ⟨by simp, rfl, rfl⟩

theorem IsTreeOf.cons {t : DerivationTree} {ts : List DerivationTree} {a : Symbol}
    {form u v : List Symbol} (ht : t.IsTreeOf g a u) (hts : IsForestOf ts g form v) :
    IsForestOf (t :: ts) g (a :: form) (u ++ v) where
  valid := List.forall_mem_cons.mpr ⟨ht.valid, hts.valid⟩
  roots_eq := by rw [List.map_cons, ht.root_eq, hts.roots_eq]
  yields_eq := by rw [List.flatMap_cons, ht.yield_eq, hts.yields_eq]

theorem IsForestOf.append {ts us : List DerivationTree} {form form' u v : List Symbol}
    (hts : IsForestOf ts g form u) (hus : IsForestOf us g form' v) :
    IsForestOf (ts ++ us) g (form ++ form') (u ++ v) where
  valid := List.forall_mem_append.mpr ⟨hts.valid, hus.valid⟩
  roots_eq := by rw [List.map_append, hts.roots_eq, hus.roots_eq]
  yields_eq := by rw [List.flatMap_append, hts.yields_eq, hus.yields_eq]

/-- The trees of a body form a tree of the left-hand side. -/
theorem IsForestOf.node {p : Production} {ts : List DerivationTree} {w : List Symbol}
    (h : IsForestOf ts g p.expansion w) (hp : p ∈ g.productions) :
    (node p ts).IsTreeOf g p.lhs w :=
  ⟨.node hp h.roots_eq h.valid, rfl, by rw [yield, h.yields_eq]⟩

theorem isForestOf_append_iff {ts : List DerivationTree} {form form' w : List Symbol} :
    IsForestOf ts g (form ++ form') w ↔ ∃ us vs u v, ts = us ++ vs ∧ w = u ++ v ∧
      IsForestOf us g form u ∧ IsForestOf vs g form' v := by
  constructor
  · rintro ⟨hvalid, hroots, rfl⟩
    obtain ⟨us, vs, rfl, hus, hvs⟩ := List.map_eq_append_iff.mp hroots
    obtain ⟨hu, hv⟩ := List.forall_mem_append.mp hvalid
    exact ⟨us, vs, _, _, rfl, List.flatMap_append, ⟨hu, hus, rfl⟩, ⟨hv, hvs, rfl⟩⟩
  · rintro ⟨us, vs, u, v, rfl, rfl, hus, hvs⟩
    exact hus.append hvs

theorem isForestOf_cons_iff {ts : List DerivationTree} {a : Symbol} {form w : List Symbol} :
    IsForestOf ts g (a :: form) w ↔ ∃ t us u v, ts = t :: us ∧ w = u ++ v ∧
      t.IsTreeOf g a u ∧ IsForestOf us g form v := by
  constructor
  · rintro ⟨hvalid, hroots, rfl⟩
    obtain ⟨t, us, rfl, ht, hus⟩ := List.map_eq_cons_iff.mp hroots
    obtain ⟨hvalidt, hvalidus⟩ := List.forall_mem_cons.mp hvalid
    exact ⟨t, us, _, _, rfl, List.flatMap_cons, ⟨hvalidt, ht, rfl⟩, ⟨hvalidus, hus, rfl⟩⟩
  · rintro ⟨t, us, u, v, rfl, rfl, ht, hus⟩
    exact ht.cons hus

theorem isForestOf_nil_iff {ts : List DerivationTree} {w : List Symbol} :
    IsForestOf ts g [] w ↔ ts = [] ∧ w = [] := by
  constructor
  · rintro ⟨-, hroots, rfl⟩
    obtain rfl := List.map_eq_nil_iff.mp hroots
    exact ⟨rfl, rfl⟩
  · rintro ⟨rfl, rfl⟩
    exact isForestOf_nil

/-- The only tree under a terminal is a leaf. -/
theorem IsTreeOf.eq_leaf {t : DerivationTree} {s : Symbol} {w : List Symbol}
    (h : t.IsTreeOf g s w) (hs : ¬ g.isNonterminal s) : t = leaf s ∧ w = [s] := by
  obtain ⟨hvalid, rfl, rfl⟩ := h
  cases hvalid with
  | leaf => exact ⟨rfl, by rw [yield]; rfl⟩
  | node hp => exact absurd (Grammar.isNonterminal_iff.mpr ⟨_, hp, rfl⟩) hs

theorem isForestOf_singleton_iff {ts : List DerivationTree} {a : Symbol} {w : List Symbol} :
    IsForestOf ts g [a] w ↔ ∃ t, ts = [t] ∧ t.IsTreeOf g a w := by
  constructor
  · intro h
    obtain ⟨t, us, u, v, rfl, rfl, ht, hus⟩ := isForestOf_cons_iff.mp h
    obtain ⟨rfl, rfl⟩ := isForestOf_nil_iff.mp hus
    exact ⟨t, rfl, (List.append_nil u).symm ▸ ht⟩
  · rintro ⟨t, rfl, ht⟩
    exact List.append_nil w ▸ ht.cons isForestOf_nil

theorem isForestOf_cons_terminal_iff {ts : List DerivationTree} {s : Symbol}
    {form w : List Symbol} (hs : ¬ g.isNonterminal s) :
    IsForestOf ts g (s :: form) w ↔ ∃ us v, ts = leaf s :: us ∧ w = s :: v ∧
      IsForestOf us g form v := by
  constructor
  · intro h
    obtain ⟨t, us, u, v, rfl, rfl, ht, hus⟩ := isForestOf_cons_iff.mp h
    obtain ⟨rfl, rfl⟩ := ht.eq_leaf hs
    exact ⟨us, v, rfl, rfl, hus⟩
  · rintro ⟨us, v, rfl, rfl, hus⟩
    exact (isTreeOf_leaf hs).cons hus

theorem derives_flatMap_yield :
    (ts : List DerivationTree) → (∀ t ∈ ts, g.Derives [t.root] t.yield) →
      g.Derives (ts.map root) (ts.flatMap yield)
  | [], _ => .refl
  | t :: ts, h =>
    (h t List.mem_cons_self).append
      (derives_flatMap_yield ts fun u hu => h u (List.mem_cons_of_mem t hu))

/-- The root of a tree derives its yield. -/
theorem Valid.derives {t : DerivationTree} (h : t.Valid g) : g.Derives [t.root] t.yield := by
  induction h with
  | leaf => rw [yield]; exact .refl
  | @node p ts hp hroot _ ih =>
    rw [yield]
    have hstep : g.Step [p.lhs] (ts.map root) := hroot ▸ Grammar.Step.of_production hp
    exact .head hstep (derives_flatMap_yield ts ih)

end DerivationTree

namespace Grammar

open DerivationTree

variable {g : Grammar}

/-- A step backwards puts the trees of the body under one node. -/
theorem Step.exists_forest {form form' w : List Symbol} (h : g.Step form form')
    {ts : List DerivationTree} (hts : IsForestOf ts g form' w) :
    ∃ us : List DerivationTree, IsForestOf us g form w := by
  obtain ⟨p, hp, u, v, rfl, rfl⟩ := h
  obtain ⟨_, ts₃, _, w₃, rfl, rfl, h₁₂, h₃⟩ := isForestOf_append_iff.mp hts
  obtain ⟨ts₁, ts₂, w₁, w₂, rfl, rfl, h₁, h₂⟩ := isForestOf_append_iff.mp h₁₂
  rw [List.append_assoc]
  exact ⟨ts₁ ++ node p ts₂ :: ts₃, h₁.append ((h₂.node hp).cons h₃)⟩

/-- A derivation of terminals leaves trees under the symbols that it starts from. -/
theorem Derives.exists_forest {form w : List Symbol} (h : g.Derives form w)
    (hw : ∀ s ∈ w, ¬ g.isNonterminal s) :
    ∃ ts : List DerivationTree, IsForestOf ts g form w := by
  induction h using Relation.ReflTransGen.head_induction_on with
  | refl =>
    refine ⟨w.map leaf, by simpa using fun s hs => Valid.leaf (hw s hs), ?_, ?_⟩
    · simp [Function.comp_def, root]
    · simp [List.flatMap_map, yield]
  | head hstep _ ih =>
    obtain ⟨ts, hts⟩ := ih
    exact hstep.exists_forest hts

/-- **Derivations and trees.** A symbol derives a list of terminals just if some tree under it has
them as its yield. -/
theorem derives_iff_exists_tree {a : Symbol} {w : List Symbol}
    (hw : ∀ s ∈ w, ¬ g.isNonterminal s) :
    g.Derives [a] w ↔ ∃ t : DerivationTree, t.IsTreeOf g a w := by
  constructor
  · intro h
    obtain ⟨ts, hts⟩ := h.exists_forest hw
    obtain ⟨t, -, ht⟩ := isForestOf_singleton_iff.mp hts
    exact ⟨t, ht⟩
  · rintro ⟨t, ht, rfl, rfl⟩
    exact ht.derives

end Grammar

end AttrCalc
