import AttrCalc.Proofs.Expr.Walk

/-!
# Levels determine the shape

The walk along an expression gives the subtrees in pre-order with their levels.  What stands below a
node is what follows it, up to the next node that is not deeper, so the levels alone determine the
shape of the tree.  Whatever is shown of the nodes next to their levels, nothing else is lost; no
label has to tell how many subtrees follow.

## Main definitions

* `Expr.leveledBy` : what is shown of the nodes in pre-order, with their levels.
* `NoneBelow` : a list that does not go on below a level.
* `Expr.CutsOff` : a tree that can be cut off the front of such a list.

## Main results

* `Expr.cutsOff` : every tree can be cut off.
* `Expr.agreeIn_iff_leveledBy_eq` : levels, and what is shown next to them, determine the tree.
* `Expr.walk_lists_recursively` : the walk is the pre-order and determines the expression.
-/

namespace AttrCalc

theorem Atom.label_injective : Function.Injective Atom.label := by
  intro a a' h
  cases a <;> cases a' <;> simp_all [Atom.label]

/-- The list does not go on with an entry below the level. -/
def NoneBelow {α : Type} (level : Nat) (rest : List (Nat × α)) : Prop :=
  ∀ p ∈ rest.head?, p.1 ≤ level

theorem noneBelow_nil {α : Type} (level : Nat) : NoneBelow level ([] : List (Nat × α)) := by
  simp [NoneBelow]

theorem noneBelow_cons {α : Type} {level level' : Nat} {a : α} {rest : List (Nat × α)} :
    NoneBelow level ((level', a) :: rest) ↔ level' ≤ level := by
  simp [NoneBelow]

theorem NoneBelow.succ {α : Type} {level : Nat} {rest : List (Nat × α)}
    (h : NoneBelow level rest) : NoneBelow (level + 1) rest :=
  fun p hp => Nat.le_succ_of_le (h p hp)

namespace Expr

variable {α : Type} {f : Node → α} {e e' : Expr} {level : Nat} {rest rest' : List (Nat × α)}

/-- What `f` shows of the nodes in pre-order, with their levels, the root on `level`. -/
def leveledBy (f : Node → α) (level : Nat) (e : Expr) : List (Nat × α) :=
  (e.levelsFrom level).map fun p => (p.1, f p.2.node)

theorem leveledBy_eq (f : Node → α) (level : Nat) (e : Expr) :
    e.leveledBy f level = (level, f e.node) :: e.children.flatMap (leveledBy f (level + 1)) := by
  rw [leveledBy, levelsFrom_eq, List.map_cons, List.map_flatMap]
  rfl

theorem AgreeIn.leveledBy_eq (h : e.AgreeIn f e') (level : Nat) :
    e.leveledBy f level = e'.leveledBy f level := by
  induction h generalizing level with
  | atom h => simpa [leveledBy, levelsFrom] using h
  | group h _ ih => simp [Expr.leveledBy_eq f _ (.group ..), children, h, ih]
  | binary h _ _ ihl ihr => simp [Expr.leveledBy_eq f _ (.binary ..), children, h, ihl, ihr]

/-! ### Cutting a tree off -/

/-- The tree can be cut off the front of a list that does not go on below it. -/
def CutsOff (f : Node → α) (e : Expr) : Prop :=
  ∀ ⦃level : Nat⦄ ⦃e' : Expr⦄ ⦃rest rest' : List (Nat × α)⦄, NoneBelow level rest →
    NoneBelow level rest' → e.leveledBy f level ++ rest = e'.leveledBy f level ++ rest' →
    e.AgreeIn f e' ∧ rest = rest'

theorem noneBelow_flatMap_leveledBy (h : NoneBelow level rest) (es : List Expr) :
    NoneBelow (level + 1) (es.flatMap (leveledBy f (level + 1)) ++ rest) := by
  cases es with
  | nil => exact h.succ
  | cons e es =>
    rw [List.flatMap_cons, leveledBy_eq, List.append_assoc, List.cons_append]
    exact noneBelow_cons.mpr (Nat.le_refl _)

/-- Subtrees are cut off one after the other.  The first entry that is not below the root ends
both rows of subtrees, so they are of the same length. -/
theorem forall₂_of_flatMap_leveledBy {es es' : List Expr} (hes : ∀ e ∈ es, CutsOff f e)
    (hrest : NoneBelow level rest) (hrest' : NoneBelow level rest')
    (h : es.flatMap (leveledBy f (level + 1)) ++ rest =
      es'.flatMap (leveledBy f (level + 1)) ++ rest') :
    List.Forall₂ (AgreeIn f) es es' ∧ rest = rest' := by
  induction es generalizing es' with
  | nil =>
    cases es' with
    | nil => exact ⟨.nil, h⟩
    | cons e' es' =>
      rw [List.flatMap_nil, List.nil_append] at h
      rw [h, List.flatMap_cons, leveledBy_eq] at hrest
      exact absurd (noneBelow_cons.mp hrest) (Nat.not_succ_le_self level)
  | cons e es ih =>
    obtain ⟨he, hes⟩ := List.forall_mem_cons.mp hes
    cases es' with
    | nil =>
      rw [List.flatMap_nil, List.nil_append] at h
      rw [← h, List.flatMap_cons, leveledBy_eq] at hrest'
      exact absurd (noneBelow_cons.mp hrest') (Nat.not_succ_le_self level)
    | cons e' es' =>
      rw [List.flatMap_cons, List.flatMap_cons, List.append_assoc, List.append_assoc] at h
      obtain ⟨hagree, h⟩ :=
        he (noneBelow_flatMap_leveledBy hrest es) (noneBelow_flatMap_leveledBy hrest' es') h
      obtain ⟨hagrees, hrests⟩ := ih hes h
      exact ⟨.cons hagree hagrees, hrests⟩

theorem AgreeIn.of_children (hnode : f e.node = f e'.node)
    (hchildren : List.Forall₂ (AgreeIn f) e.children e'.children) : e.AgreeIn f e' := by
  cases e with
  | atom =>
    cases e' with
    | atom => exact .atom hnode
    | group | binary => cases hchildren
  | group =>
    cases e' with
    | group =>
      obtain - | ⟨hinner, -⟩ := hchildren
      exact .group hnode hinner
    | atom => cases hchildren
    | binary =>
      obtain - | ⟨-, hrest⟩ := hchildren
      cases hrest
  | binary =>
    cases e' with
    | binary =>
      obtain - | ⟨hl, hrest⟩ := hchildren
      obtain - | ⟨hr, -⟩ := hrest
      exact .binary hnode hl hr
    | atom => cases hchildren
    | group =>
      obtain - | ⟨-, hrest⟩ := hchildren
      cases hrest

theorem cutsOff_of_children (h : ∀ c ∈ e.children, CutsOff f c) : CutsOff f e := by
  intro level e' rest rest' hrest hrest' heq
  rw [leveledBy_eq f level e, leveledBy_eq f level e', List.cons_append, List.cons_append] at heq
  obtain ⟨hroot, heq⟩ := List.cons.inj heq
  obtain ⟨hchildren, hrests⟩ := forall₂_of_flatMap_leveledBy h hrest hrest' heq
  exact ⟨.of_children (Prod.mk.inj hroot).2 hchildren, hrests⟩

/-- Every tree can be cut off the front of a list that does not go on below it. -/
theorem cutsOff (f : Node → α) (e : Expr) : CutsOff f e := by
  induction e with
  | atom => exact cutsOff_of_children (by simp [children])
  | group id tag inner ih => exact cutsOff_of_children (by simpa [children] using ih)
  | binary id o value left right ihl ihr =>
    exact cutsOff_of_children (by simpa [children] using ⟨ihl, ihr⟩)

/-- **Levels determine the shape**: with what is shown next to them, they determine in which nodes
expressions agree. -/
theorem agreeIn_iff_leveledBy_eq : e.AgreeIn f e' ↔ e.leveledBy f 0 = e'.leveledBy f 0 := by
  refine ⟨fun h => h.leveledBy_eq 0, fun h => ?_⟩
  have happend : e.leveledBy f 0 ++ [] = e'.leveledBy f 0 ++ [] := congrArg (· ++ []) h
  exact (cutsOff f e (noneBelow_nil 0) (noneBelow_nil 0) happend).1

/-! ### The walk -/

/-- Expressions that agree in their whole nodes are the same. -/
theorem AgreeIn.eq (h : e.AgreeIn (fun n => n) e') : e = e' := by
  induction h with
  | @atom id id' a a' tag tag' value value' h =>
    obtain ⟨rfl, hlabel, rfl, rfl⟩ :
        id = id' ∧ a.label = a'.label ∧ tag = tag' ∧ value = value' := by
      simpa [node, Expr.id, label, tag?, Expr.value] using h
    rw [Atom.label_injective hlabel]
  | @group id id' tag tag' inner inner' h _ ih =>
    obtain ⟨rfl, rfl, -⟩ : id = id' ∧ tag = tag' ∧ inner.value = inner'.value := by
      simpa [node, Expr.id, label, tag?, Expr.value] using h
    rw [ih]
  | @binary id id' o o' value value' left left' right right' h _ _ ihl ihr =>
    obtain ⟨rfl, rfl, rfl⟩ : id = id' ∧ o = o' ∧ value = value' := by
      simpa [node, Expr.id, label, tag?, Expr.value] using h
    rw [ihl, ihr]

/-- **The walk is the recursive pre-order and loses no structure.** It lists the root, the left
subtree and the right one, each subtree one level deeper than the node above it, with one entry for
each node.  Expressions are the same if their nodes are listed alike, on the same levels and with
the same identifiers, labels, tags and values; if less is shown of the nodes, the levels still give
the shape, and the expressions agree node by node in what is shown. -/
theorem walk_lists_recursively (e : Expr) :
    e.levels = e.levelsFrom 0 ∧ e.levels.length = e.size ∧
      (∀ e' : Expr, (e.levels.map fun p => (p.1, p.2.node)) =
        (e'.levels.map fun p => (p.1, p.2.node)) ↔ e = e') ∧
      ∀ (α : Type) (f : Node → α) (e' : Expr), (e.levels.map fun p => (p.1, f p.2.node)) =
        (e'.levels.map fun p => (p.1, f p.2.node)) ↔ e.AgreeIn f e' := by
  have hshown {α : Type} (f : Node → α) (e' : Expr) :
      (e.levels.map fun p => (p.1, f p.2.node)) = (e'.levels.map fun p => (p.1, f p.2.node)) ↔
        e.AgreeIn f e' := by
    rw [levels_eq, levels_eq]
    exact agreeIn_iff_leveledBy_eq.symm
  refine ⟨e.levels_eq, ?_, fun e' => ⟨fun h => ?_, fun h => by rw [h]⟩, fun α f e' => hshown f e'⟩
  · rw [levels_eq, ← length_preorder, ← map_snd_levelsFrom 0, List.length_map]
  · exact ((hshown (fun n => n) e').mp h).eq

end Expr

end AttrCalc
