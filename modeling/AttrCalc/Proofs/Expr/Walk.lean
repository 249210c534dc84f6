import AttrCalc.Expr.Walk
import AttrCalc.Proofs.Eval.Numbering
import Mathlib.Data.List.Perm.Basic

/-!
# Pre-order

The walk along an expression gives the pre-order of its subtrees.  In pre-order a node comes in
front of as many subtrees as its label asks for, so the sequence of what nodes show determines the
tree as soon as labels are among what they show.

## Main definitions

* `Expr.levelsFrom`, `Expr.preorder` : the subtrees in pre-order, with and without their levels.
* `Expr.AgreeIn` : expressions of the same shape that show the same node by node.

## Main results

* `walk_eq`, `Expr.subtrees_eq_preorder` : the walk gives the pre-order.
* `Expr.perm_preorder_postorder` : pre-order and post-order have the same subtrees.
* `Expr.cons_children_perm_preorder` : every subtree but the whole is the child of one other.
* `Expr.agreeIn_iff_map_preorder_eq` : what is shown in pre-order determines the tree.
-/

namespace AttrCalc

namespace Expr

/-- The subtrees in pre-order with their levels: the expression on `level`, and below it the left
subtree and the right one. -/
def levelsFrom (level : Nat) : Expr → List (Nat × Expr)
  | atom id a tag value => [(level, atom id a tag value)]
  | group id tag inner => (level, group id tag inner) :: inner.levelsFrom (level + 1)
  | binary id o value left right =>
    (level, binary id o value left right) ::
      (left.levelsFrom (level + 1) ++ right.levelsFrom (level + 1))

/-- The subtrees in pre-order: the expression itself, the left subtree and the right one. -/
def preorder : Expr → List Expr
  | atom id a tag value => [atom id a tag value]
  | group id tag inner => group id tag inner :: inner.preorder
  | binary id o value left right =>
    binary id o value left right :: (left.preorder ++ right.preorder)

theorem levelsFrom_eq (level : Nat) (e : Expr) :
    e.levelsFrom level = (level, e) :: e.children.flatMap (levelsFrom (level + 1)) := by
  cases e <;> simp [levelsFrom, children]

theorem preorder_eq (e : Expr) : e.preorder = e :: e.children.flatMap preorder := by
  cases e <;> simp [preorder, children]

theorem length_preorder (e : Expr) : e.preorder.length = e.size := by
  induction e with
  | atom => rfl
  | group id tag inner ih => simp [preorder, size, ih]
  | binary id o value left right ihl ihr => simp [preorder, size, ihl, ihr]

theorem map_snd_levelsFrom (level : Nat) (e : Expr) :
    (e.levelsFrom level).map (·.2) = e.preorder := by
  induction e generalizing level with
  | atom => rfl
  | group id tag inner ih => simp [levelsFrom, preorder, ih]
  | binary id o value left right ihl ihr => simp [levelsFrom, preorder, ihl, ihr]

end Expr

/-! ### The walk -/

/-- A walk adds the subtrees of the trees on the stack, one tree after the other. -/
theorem walk_eq (stack visited : List (Nat × Expr)) :
    walk stack visited = visited.reverse ++ stack.flatMap fun p => p.2.levelsFrom p.1 := by
  induction stack, visited using walk.induct with
  | case1 visited => simp [walk]
  | case2 visited level e stack ih =>
    rw [walk, ih, Expr.pushBelow_eq]
    simp [Expr.levelsFrom_eq level e, List.flatMap_map]

namespace Expr

theorem levels_eq (e : Expr) : e.levels = e.levelsFrom 0 := by
  simp [levels, walk_eq]

theorem subtrees_eq_preorder (e : Expr) : e.subtrees = e.preorder := by
  rw [subtrees, levels_eq, map_snd_levelsFrom]

theorem snd_mem_preorder {e : Expr} {p : Nat × Expr} (h : p ∈ e.levels) : p.2 ∈ e.preorder := by
  rw [← subtrees_eq_preorder]
  exact List.mem_map_of_mem h

/-! ### Which subtrees there are -/

theorem perm_preorder_postorder (e : Expr) : e.preorder.Perm e.postorder := by
  induction e with
  | atom => exact .refl _
  | group id tag inner ih =>
    exact (ih.cons _).trans (List.perm_append_singleton _ _).symm
  | binary id o value left right ihl ihr =>
    exact ((ihl.append ihr).cons _).trans (List.perm_append_singleton _ _).symm

/-- Every subtree but the whole expression is the child of exactly one other. -/
theorem cons_children_perm_preorder (e : Expr) :
    (e :: e.preorder.flatMap children).Perm e.preorder := by
  induction e with
  | atom => exact .refl _
  | group id tag inner ih => exact ih.cons _
  | binary id o value left right ihl ihr =>
    simp only [preorder, List.flatMap_cons, List.flatMap_append, children, List.cons_append,
      List.nil_append]
    refine .cons _ ?_
    -- The right child moves behind the children in the left subtree.
    refine .trans (.cons left ?_) (ihl.append ihr)
    exact List.perm_middle.symm

end Expr

/-- No identifier is used twice in an expression that is evaluated. -/
theorem nodup_id_of_evaluate {env : Env} {tokens : List Lexeme} {ev : Evaluation}
    (h : evaluate env tokens = .ok ev) : (ev.expr.preorder.map Expr.id).Nodup := by
  obtain ⟨s', hreads, -⟩ := evaluate_eq_ok_iff.mp h
  rw [(ev.expr.perm_preorder_postorder.map Expr.id).nodup_iff, hreads.numbering]
  exact List.nodup_range'

/-! ### Trees from sequences -/

/-- Expressions of the same shape that agree, node by node, in what `f` shows of a node. -/
inductive Expr.AgreeIn {α : Type} (f : Node → α) : Expr → Expr → Prop
  | atom {id id' : Nat} {a a' : Atom} {tag tag' : TypeTag} {value value' : Float}
      (h : f (Expr.atom id a tag value).node = f (Expr.atom id' a' tag' value').node) :
      AgreeIn f (.atom id a tag value) (.atom id' a' tag' value')
  | group {id id' : Nat} {tag tag' : TypeTag} {inner inner' : Expr}
      (h : f (Expr.group id tag inner).node = f (Expr.group id' tag' inner').node)
      (hinner : AgreeIn f inner inner') :
      AgreeIn f (.group id tag inner) (.group id' tag' inner')
  | binary {id id' : Nat} {o o' : Operator} {value value' : Float} {left left' right right' : Expr}
      (h : f (Expr.binary id o value left right).node =
        f (Expr.binary id' o' value' left' right').node)
      (hl : AgreeIn f left left') (hr : AgreeIn f right right') :
      AgreeIn f (.binary id o value left right) (.binary id' o' value' left' right')

namespace Expr

variable {α : Type} {f : Node → α} {e e' : Expr}

/-- What `f` shows of the nodes in pre-order. -/
def shownBy (f : Node → α) (e : Expr) : List α :=
  e.preorder.map fun s => f s.node

theorem shownBy_eq (f : Node → α) (e : Expr) :
    e.shownBy f = f e.node :: e.children.flatMap (shownBy f) := by
  rw [shownBy, preorder_eq, List.map_cons, List.map_flatMap]
  rfl

theorem AgreeIn.shownBy_eq (h : e.AgreeIn f e') : e.shownBy f = e'.shownBy f := by
  induction h with
  | atom h => simpa [shownBy, preorder] using h
  | group h _ ih => simpa [Expr.shownBy_eq f (.group ..), children, h] using ih
  | binary h _ _ ihl ihr => simp [Expr.shownBy_eq f (.binary ..), children, h, ihl, ihr]

/-- Expressions that agree in what `f` shows, agree in whatever depends on it. -/
theorem AgreeIn.mono {β : Type} {g : Node → β} (h : e.AgreeIn f e')
    (hfg : ∀ n n', f n = f n' → g n = g n') : e.AgreeIn g e' := by
  induction h with
  | atom h => exact .atom (hfg _ _ h)
  | group h _ ih => exact .group (hfg _ _ h) ih
  | binary h _ _ ihl ihr => exact .binary (hfg _ _ h) ihl ihr

/-- A tree can be cut off the front of what is shown in pre-order, if labels are among it. -/
theorem agreeIn_of_shownBy_append (hf : ∀ n n', f n = f n' → n.label = n'.label)
    {rest rest' : List α} (h : e.shownBy f ++ rest = e'.shownBy f ++ rest') :
    e.AgreeIn f e' ∧ rest = rest' := by
  induction e generalizing e' rest rest' with
  | atom id a tag value =>
    simp only [Expr.shownBy_eq f, List.cons_append, List.cons.injEq] at h
    obtain ⟨hnode, h⟩ := h
    cases e' with
    | atom => exact ⟨.atom hnode, by simpa [children] using h⟩
    | group | binary => cases a <;> cases hf _ _ hnode
  | group id tag inner ih =>
    simp only [Expr.shownBy_eq f, List.cons_append, List.cons.injEq] at h
    obtain ⟨hnode, h⟩ := h
    cases e' with
    | atom _ a => cases a <;> cases hf _ _ hnode
    | group =>
      obtain ⟨hinner, hrest⟩ := ih (by simpa [children] using h)
      exact ⟨.group hnode hinner, hrest⟩
    | binary => cases hf _ _ hnode
  | binary id o value left right ihl ihr =>
    simp only [Expr.shownBy_eq f, List.cons_append, List.cons.injEq] at h
    obtain ⟨hnode, h⟩ := h
    cases e' with
    | atom _ a => cases a <;> cases hf _ _ hnode
    | group => cases hf _ _ hnode
    | binary =>
      obtain ⟨hl, h⟩ := ihl (by simpa [children] using h)
      obtain ⟨hr, hrest⟩ := ihr h
      exact ⟨.binary hnode hl hr, hrest⟩

/-- **What is shown in pre-order determines the tree**, if labels are among it. -/
theorem agreeIn_iff_shownBy_eq (hf : ∀ n n', f n = f n' → n.label = n'.label) :
    e.AgreeIn f e' ↔ e.shownBy f = e'.shownBy f := by
  refine ⟨AgreeIn.shownBy_eq, fun h => ?_⟩
  have happend : e.shownBy f ++ [] = e'.shownBy f ++ [] := congrArg (· ++ []) h
  exact (agreeIn_of_shownBy_append hf happend).1

end Expr

end AttrCalc
