import AttrCalc.Expr.Walk

/-!
# Trees of a store

Drawings are made of trees that a library of its own keeps.  Nothing is known of its trees but what
it answers: it inserts a root into an empty tree and further nodes under others, hands out a key for
each of them, and looks up a node by its key.  Everything that uses trees takes such a store as a
parameter, and `TreeStore.Laws` says what a store promises.

## Main definitions

* `TreeStore`, `TreeNode` : a library of trees and what it knows of a node.
* `TreeStore.Laws` : what a store promises of insertions.
* `TreeStore.plant` : puts an expression into a tree, node by node.
-/

namespace AttrCalc

/-- What a tree knows of a node.  Its parent and its children are given by their keys. -/
structure TreeNode (κ α : Type) where
  value : α
  parent? : Option κ
  children : List κ

/-- A library of trees whose nodes carry values.  An insertion that fails answers with the text of
its error. -/
structure TreeStore (α : Type) where
  Tree : Type
  Key : Type
  /-- Inserts the root into an empty tree. -/
  ofRoot : α → Except String (Tree × Key)
  /-- Inserts a node under another one. -/
  insertUnder : Tree → Key → α → Except String (Tree × Key)
  /-- The key of the root. -/
  root? : Tree → Option Key
  /-- The node of a key, if the tree has it. -/
  get? : Tree → Key → Option (TreeNode Key α)

namespace TreeStore

/-! ### What a store promises -/

section Laws

variable {α : Type} (S : TreeStore α)

/-- The tree has a node with this key. -/
def Has (t : S.Tree) (k : S.Key) : Prop :=
  (S.get? t k).isSome

/-- The tree `t'` is `t` with one more node: a new last child of `parent`.  Its key `k` is fresh,
and nothing else has changed. -/
structure Adds (t t' : S.Tree) (parent : S.Key) (value : α) (k : S.Key) : Prop where
  fresh : ¬ S.Has t k
  added : S.get? t' k = some ⟨value, some parent, []⟩
  at_parent : ∀ n, S.get? t parent = some n →
    S.get? t' parent = some { n with children := n.children ++ [k] }
  same : ∀ j, j ≠ k → j ≠ parent → S.get? t' j = S.get? t j
  root_eq : S.root? t' = S.root? t

/-- The promises of a store.  A root that is inserted into an empty tree is its root and its only
node, and under a node that is there a new last child can be inserted. -/
structure Laws : Prop where
  ofRoot : ∀ value, ∃ t k, S.ofRoot value = .ok (t, k) ∧ S.root? t = some k ∧
    S.get? t k = some ⟨value, none, []⟩ ∧ ∀ j, j ≠ k → ¬ S.Has t j
  insertUnder : ∀ t parent value, S.Has t parent →
    ∃ t' k, S.insertUnder t parent value = .ok (t', k) ∧ S.Adds t t' parent value k

end Laws

/-! ### Trees of expressions -/

variable (S : TreeStore Node)

/-- Puts the subtrees below the nodes on the stack into the tree.  A node on the stack is given by
its key and its subtree; the last child that was put there comes next. -/
def grow (t : S.Tree) (stack : List (S.Key × Expr)) : Except String S.Tree :=
  match stack with
  | [] => .ok t
  | (_, .atom ..) :: stack => grow t stack
  | (parent, .group _ _ inner) :: stack =>
    match S.insertUnder t parent inner.node with
    | .ok (t, k) => grow t ((k, inner) :: stack)
    | .error e => .error e
  | (parent, .binary _ _ _ left right) :: stack =>
    match S.insertUnder t parent left.node with
    | .ok (t, k) =>
      match S.insertUnder t parent right.node with
      | .ok (t, l) => grow t ((l, right) :: (k, left) :: stack)
      | .error e => .error e
    | .error e => .error e
termination_by stackSize stack
decreasing_by all_goals simp [stackSize, Expr.size]; try omega

/-- The tree of an expression. -/
def plant (e : Expr) : Except String S.Tree :=
  match S.ofRoot e.node with
  | .ok (t, root) => S.grow t [(root, e)]
  | .error e => .error e

end TreeStore

end AttrCalc
