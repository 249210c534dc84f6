import AttrCalc.Render.TreeStore

/-!
# Outlines

An outline keeps the nodes of a tree in an array, each with its parent and its children.  It grows
by a root and by further last children, and the key of a node is its index.  Drawings go through the
array by index, because a parent always comes before its children.

## Main definitions

* `Outline`, `Outline.ofRoot`, `Outline.insertUnder` : outlines and how they grow.
* `Outline.store` : outlines as a store of trees.
* `Outline.preOrder`, `Outline.postOrder` : the indices of the nodes in two orders.

## Main results

* `Outline.laws_store` : outlines keep the promises of a store.
-/

namespace AttrCalc

/-- The nodes of a tree; the root has index 0. -/
structure Outline (α : Type) where
  nodes : Array (TreeNode Nat α)

namespace Outline

variable {α : Type}

/-! ### Growth -/

/-- The outline with nothing but a root. -/
def ofRoot (value : α) : Outline α :=
  ⟨#[⟨value, none, []⟩]⟩

/-- The index of the root. -/
def root? (t : Outline α) : Option Nat :=
  if 0 < t.nodes.size then some 0 else none

/-- The outline with a new last child of a node. -/
def withChild (t : Outline α) (parent : Nat) (value : α) : Outline α :=
  let nodes := t.nodes.modify parent fun n => { n with children := n.children ++ [t.nodes.size] }
  ⟨nodes.push ⟨value, some parent, []⟩⟩

/-- Adds a new last child to a node and returns its index, if there is such a node. -/
def insertUnder (t : Outline α) (parent : Nat) (value : α) : Except String (Outline α × Nat) :=
  if parent < t.nodes.size then .ok (t.withChild parent value, t.nodes.size)
  else .error "InvalidNodeIdForTree"

/-- Outlines as a store of trees. -/
def store (α : Type) : TreeStore α where
  Tree := Outline α
  Key := Nat
  ofRoot value := .ok (ofRoot value, 0)
  insertUnder := insertUnder
  root? := root?
  get? t i := t.nodes[i]?

/-! ### Promises -/

theorem has_store_iff {t : Outline α} {i : Nat} : (store α).Has t i ↔ i < t.nodes.size := by
  simp [TreeStore.Has, store]

theorem getElem?_withChild (t : Outline α) (parent : Nat) (value : α) (i : Nat) :
    (t.withChild parent value).nodes[i]? =
      if i = t.nodes.size then some ⟨value, some parent, []⟩
      else if i = parent then
        t.nodes[i]?.map fun n => { n with children := n.children ++ [t.nodes.size] }
      else t.nodes[i]? := by
  simp only [withChild, Array.getElem?_push, Array.size_modify, Array.getElem?_modify,
    eq_comm (a := parent)]

/-- Below a node that is there, a new last child is put. -/
theorem adds_withChild {t : Outline α} {parent : Nat} (h : parent < t.nodes.size) (value : α) :
    (store α).Adds t (t.withChild parent value) parent value t.nodes.size where
  fresh := mt has_store_iff.mp (Nat.lt_irrefl _)
  added := (t.getElem?_withChild parent value _).trans (if_pos rfl)
  at_parent (n : TreeNode Nat α) (hn : t.nodes[parent]? = some n) := by
    refine (t.getElem?_withChild parent value parent).trans ?_
    rw [if_neg (Nat.ne_of_lt h), if_pos rfl, hn]
    rfl
  same i hi hparent :=
    (t.getElem?_withChild parent value i).trans ((if_neg hi).trans (if_neg hparent))
  root_eq := by
    have hpos : 0 < t.nodes.size := Nat.zero_lt_of_lt h
    simp [store, root?, withChild, hpos]

/-- Outlines keep the promises of a store. -/
theorem laws_store (α : Type) : (store α).Laws where
  ofRoot value := by
    refine ⟨Outline.ofRoot value, (0 : Nat), rfl, rfl, rfl, fun (i : Nat) hi hhas => ?_⟩
    have hlt : i < (Outline.ofRoot value).nodes.size := has_store_iff.mp hhas
    exact hi (Nat.lt_one_iff.mp hlt)
  insertUnder (t : Outline α) (parent : Nat) value hparent := by
    have hlt : parent < t.nodes.size := has_store_iff.mp hparent
    exact ⟨t.withChild parent value, t.nodes.size, if_pos hlt, adds_withChild hlt value⟩

/-! ### Orders -/

/-- The children of a node. -/
def children (t : Outline α) (i : Nat) : List Nat :=
  match t.nodes[i]? with
  | some n => n.children
  | none => []

/-- The parent of a node. -/
def parent? (t : Outline α) (i : Nat) : Option Nat :=
  t.nodes[i]?.bind (·.parent?)

/-- Visits at most `steps` nodes, starting with those on the stack, each before those that `below`
puts in front of the stack.  The visited ones are kept in reverse. -/
def visit (below : Nat → List Nat) : (steps : Nat) → (stack visited : List Nat) → List Nat
  | 0, _, visited => visited
  | _, [], visited => visited
  | steps + 1, i :: stack, visited => visit below steps (below i ++ stack) (i :: visited)

/-- The indices in pre-order: a node comes before its children. -/
def preOrder (t : Outline α) : List Nat :=
  (visit t.children t.nodes.size [0] []).reverse

/-- The indices in post-order: a node comes after its children. -/
def postOrder (t : Outline α) : List Nat :=
  visit (fun i => (t.children i).reverse) t.nodes.size [0] []

/-- The levels of the nodes, the root on level 0. -/
def levels (t : Outline α) : Array Nat :=
  t.nodes.foldl
    (fun levels n =>
      levels.push (match n.parent? with
        | some p => levels.getD p 0 + 1
        | none => 0))
    #[]

end Outline

end AttrCalc
