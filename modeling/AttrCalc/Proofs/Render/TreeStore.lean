import AttrCalc.Proofs.Expr.Walk
import AttrCalc.Render.Outline
import Mathlib.Data.List.Induction
import Mathlib.Data.List.Nodup

/-!
# The tree of an expression

A tree grows by one node after the other: all children of a node are put there before anything is
put below them, and what is below a right child comes before what is below a left one.  So nodes are
inserted in an order that is used nowhere else.  But a node that is put there takes a key of its own
and changes nothing but the list of children of its parent, to which it is added as the last.  When
everything below a node has been put there, the tree has a copy of the subtree at this node, and
what comes later leaves the copy as it is.

All of this follows from what a store promises, whatever its trees and its keys are.

Nodes of the expression and of the tree correspond by the paths that lead to them from the root.
This makes no use of the identifiers in the nodes, so these may be any.

## Main definitions

* `Expr.subtreeAt?`, `TreeStore.nodeAt?` : what is at the end of a path.
* `TreeStore.PreOrder` : the nodes of a tree in pre-order.
* `TreeStore.Mirrors` : a tree has the nodes of an expression, at the same paths.
* `TreeStore.Copy` : from a node downwards, a tree is a copy of an expression.
* `TreeStore.Keeps`, `TreeStore.IsNew` : what stays and what is new when a tree grows.
* `TreeStore.Completes` : a tree after everything has been put below a node.

## Main results

* `TreeStore.Copy.preOrder` : the nodes of a copy in pre-order.
* `TreeStore.Laws.exists_completes` : the tree grows by a copy of each subtree on the stack.
* `TreeStore.plant_mirrors` : every expression has a tree, which mirrors it.
-/

namespace AttrCalc

/-- The subtree at the end of a path, which says for each step to which child it goes. -/
def Expr.subtreeAt? (e : Expr) : List Nat → Option Expr
  | [] => some e
  | k :: path => e.children[k]?.bind fun child => child.subtreeAt? path

namespace TreeStore

/-! ### Paths -/

section Paths

variable {α : Type} (S : TreeStore α) (t : S.Tree)

/-- The data of a node. -/
def value? (i : S.Key) : Option α :=
  (S.get? t i).map (·.value)

/-- The parent of a node. -/
def parent? (i : S.Key) : Option S.Key :=
  (S.get? t i).bind (·.parent?)

/-- The children of a node. -/
def children (i : S.Key) : List S.Key :=
  match S.get? t i with
  | some n => n.children
  | none => []

/-- The node at the end of a path that starts at the node `i`. -/
def nodeAt? (i : S.Key) : List Nat → Option S.Key
  | [] => some i
  | k :: path => (S.children t i)[k]?.bind fun j => nodeAt? j path

/-- The nodes `keys` are those of a stack and those below them in pre-order: first the first node of
the stack, then what is below it, then the rest of the stack. -/
inductive PreOrder : (stack keys : List S.Key) → Prop
  | nil : PreOrder [] []
  | cons {i : S.Key} {stack below keys : List S.Key} (hbelow : PreOrder (S.children t i) below)
      (hstack : PreOrder stack keys) : PreOrder (i :: stack) (i :: (below ++ keys))

theorem nodeAt?_concat (i : S.Key) (path : List Nat) (k : Nat) :
    S.nodeAt? t i (path ++ [k]) = (S.nodeAt? t i path).bind fun j => (S.children t j)[k]? := by
  induction path generalizing i with
  | nil => simp [nodeAt?]
  | cons l path ih => simp [nodeAt?, ih, Option.bind_assoc]

variable {S t} {i j : S.Key} {n : TreeNode S.Key α}

theorem exists_nodeAt?_iff :
    (∃ path, S.nodeAt? t i path = some j) ↔
      j = i ∨ ∃ c ∈ S.children t i, ∃ path, S.nodeAt? t c path = some j := by
  constructor
  · rintro ⟨_ | ⟨k, path⟩, h⟩
    · exact .inl (Option.some.inj h).symm
    · obtain ⟨c, hc, h⟩ := Option.bind_eq_some_iff.mp h
      exact .inr ⟨c, List.mem_of_getElem? hc, path, h⟩
  · rintro (rfl | ⟨c, hc, path, h⟩)
    · exact ⟨[], rfl⟩
    · obtain ⟨k, hk⟩ := List.mem_iff_getElem?.mp hc
      exact ⟨k :: path, by simp [nodeAt?, hk, h]⟩

theorem value?_eq (h : S.get? t i = some n) : S.value? t i = some n.value := by
  simp only [value?, h, Option.map_some]

theorem parent?_eq (h : S.get? t i = some n) : S.parent? t i = n.parent? := by
  simp only [parent?, h, Option.bind_some]

theorem children_eq (h : S.get? t i = some n) : S.children t i = n.children := by
  simp only [children, h]

theorem has_of_get? (h : S.get? t i = some n) : S.Has t i := by
  simp [Has, h]

theorem has_congr {t' : S.Tree} (h : S.get? t' i = S.get? t i) : S.Has t' i ↔ S.Has t i := by
  rw [Has, Has, h]

namespace PreOrder

theorem append {is js ks ls : List S.Key} (h : S.PreOrder t is ks) (h' : S.PreOrder t js ls) :
    S.PreOrder t (is ++ js) (ks ++ ls) := by
  induction h with
  | nil => exact h'
  | cons hbelow _ _ ih => simpa using cons hbelow ih

/-- A node comes before what is below it. -/
theorem of_get? {ks : List S.Key} (h : S.get? t i = some n) (hbelow : S.PreOrder t n.children ks) :
    S.PreOrder t [i] (i :: ks) := by
  rw [← children_eq h] at hbelow
  simpa using cons hbelow nil

/-- There is one pre-order. -/
theorem unique {is ks ls : List S.Key} (h : S.PreOrder t is ks) (h' : S.PreOrder t is ls) :
    ks = ls := by
  induction h generalizing ls with
  | nil =>
    cases h' with
    | nil => rfl
  | cons _ _ ihbelow ihstack =>
    cases h' with
    | cons hbelow hstack => rw [ihbelow hbelow, ihstack hstack]

end PreOrder

/-- Below a node that is there, a node can be added. -/
theorem Laws.exists_adds (hS : S.Laws) (h : S.get? t i = some n) (value : α) :
    ∃ t' k, S.insertUnder t i value = .ok (t', k) ∧ S.Adds t t' i value k :=
  hS.insertUnder t i value (has_of_get? h)

end Paths

variable {S : TreeStore Node}

/-- Below the node `root`, the tree has the nodes of the expression.  They correspond by the paths
that lead to them: a path leads to a node of the tree just if it leads to one of the expression, and
both carry the same data; every node of the tree is at the end of one path; and the parent of a node
is the one a step before it. -/
structure Mirrors (S : TreeStore Node) (t : S.Tree) (root : S.Key) (e : Expr) : Prop where
  same_nodes : ∀ path, Option.Rel (fun i s => S.value? t i = some s.node) (S.nodeAt? t root path)
    (e.subtreeAt? path)
  one_path : ∀ i, S.Has t i → ∃! path, S.nodeAt? t root path = some i
  root_parent : S.parent? t root = none
  child_parent : ∀ path k i j, S.nodeAt? t root path = some i →
    S.nodeAt? t root (path ++ [k]) = some j → S.parent? t j = some i

/-! ### Copies -/

/-- From the node `i` downwards, the tree is a copy of an expression.  The parent of `i` is `p`, and
the nodes of the copy are `is` in pre-order. -/
inductive Copy (S : TreeStore Node) (t : S.Tree) :
    (p : Option S.Key) → (i : S.Key) → Expr → (is : List S.Key) → Prop
  | atom {p : Option S.Key} {i : S.Key} {id : Nat} {a : Atom} {tag : TypeTag} {value : Float}
      (h : S.get? t i = some ⟨(Expr.atom id a tag value).node, p, []⟩) :
      Copy S t p i (.atom id a tag value) [i]
  | group {p : Option S.Key} {i j : S.Key} {id : Nat} {tag : TypeTag} {inner : Expr}
      {js : List S.Key} (h : S.get? t i = some ⟨(Expr.group id tag inner).node, p, [j]⟩)
      (hinner : Copy S t (some i) j inner js) :
      Copy S t p i (.group id tag inner) (i :: js)
  | binary {p : Option S.Key} {i j k : S.Key} {id : Nat} {o : Operator} {value : Float}
      {left right : Expr} {js ks : List S.Key}
      (h : S.get? t i = some ⟨(Expr.binary id o value left right).node, p, [j, k]⟩)
      (hl : Copy S t (some i) j left js) (hr : Copy S t (some i) k right ks) :
      Copy S t p i (.binary id o value left right) (i :: (js ++ ks))

/-- What is related to something is something. -/
private theorem exists_of_rel_some {α β : Type} {r : α → β → Prop} {a : α} {b? : Option β}
    (h : Option.Rel r (some a) b?) : ∃ b, b? = some b ∧ r a b := by
  cases h with
  | some h => exact ⟨_, rfl, h⟩

namespace Copy

variable {t t' : S.Tree} {p : Option S.Key} {i j : S.Key} {e : Expr} {is : List S.Key}

/-- A copy stays one when its nodes stay as they are. -/
theorem congr (h : S.Copy t p i e is) (hsame : ∀ j ∈ is, S.get? t' j = S.get? t j) :
    S.Copy t' p i e is := by
  induction h with
  | atom h => exact .atom ((hsame _ (by simp)).trans h)
  | group h _ ih =>
    exact .group ((hsame _ (by simp)).trans h) (ih fun j hj => hsame j (by simp [hj]))
  | binary h _ _ ihl ihr =>
    exact .binary ((hsame _ (by simp)).trans h) (ihl fun j hj => hsame j (by simp [hj]))
      (ihr fun j hj => hsame j (by simp [hj]))

theorem value?_eq (h : S.Copy t p i e is) : S.value? t i = some e.node := by
  cases h with
  | atom h | group h | binary h => exact TreeStore.value?_eq h

theorem parent?_eq (h : S.Copy t p i e is) : S.parent? t i = p := by
  cases h with
  | atom h | group h | binary h => exact TreeStore.parent?_eq h

theorem has (h : S.Copy t p i e is) : S.Has t i := by
  cases h with
  | atom h | group h | binary h => exact has_of_get? h

theorem map_value? (h : S.Copy t p i e is) :
    is.map (S.value? t) = e.preorder.map fun s => some s.node := by
  induction h with
  | atom h => simp [TreeStore.value?_eq h, Expr.preorder]
  | group h _ ih => simp [TreeStore.value?_eq h, Expr.preorder, ih]
  | binary h _ _ ihl ihr => simp [TreeStore.value?_eq h, Expr.preorder, ihl, ihr]

/-- The nodes of a copy in pre-order. -/
theorem preOrder (h : S.Copy t p i e is) : S.PreOrder t [i] is := by
  induction h with
  | atom h => exact .of_get? h .nil
  | group h _ ih => exact .of_get? h ih
  | binary h _ _ ihl ihr => exact .of_get? h (ihl.append ihr)

/-- The children of a node are copies of the subtrees below it, in their order. -/
theorem getElem?_children (h : S.Copy t p i e is) (k : Nat) :
    Option.Rel (fun j s => ∃ js, S.Copy t (some i) j s js) (S.children t i)[k]?
      e.children[k]? := by
  cases h with
  | atom h =>
    rw [children_eq h]
    exact .none
  | group h hinner =>
    rw [children_eq h]
    match k with
    | 0 => exact .some ⟨_, hinner⟩
    | _ + 1 => exact .none
  | binary h hl hr =>
    rw [children_eq h]
    match k with
    | 0 => exact .some ⟨_, hl⟩
    | 1 => exact .some ⟨_, hr⟩
    | _ + 2 => exact .none

/-- At the end of a path there is a copy of the subtree at the end of this path. -/
theorem nodeAt? (h : S.Copy t p i e is) (path : List Nat) :
    Option.Rel (fun j s => ∃ q js, S.Copy t q j s js) (S.nodeAt? t i path)
      (e.subtreeAt? path) := by
  induction path generalizing p i e is with
  | nil => exact .some ⟨p, is, h⟩
  | cons k path ih =>
    have hchild := h.getElem?_children k
    rw [TreeStore.nodeAt?, Expr.subtreeAt?]
    revert hchild
    generalize (S.children t i)[k]? = j?, e.children[k]? = s?
    rintro (⟨js, hs⟩ | _)
    · exact ih hs
    · exact .none

/-- The nodes of a copy are those to which paths lead. -/
theorem mem_iff (h : S.Copy t p i e is) : j ∈ is ↔ ∃ path, S.nodeAt? t i path = some j := by
  induction h with
  | atom h =>
    rw [exists_nodeAt?_iff, children_eq h]
    simp
  | group h _ ih =>
    rw [exists_nodeAt?_iff, children_eq h]
    simp [ih]
  | binary h _ _ ihl ihr =>
    rw [exists_nodeAt?_iff, children_eq h]
    simp [ihl, ihr]

theorem root_mem (h : S.Copy t p i e is) : i ∈ is :=
  h.mem_iff.mpr ⟨[], rfl⟩

/-- The node before the end of a path is the parent of the node at its end. -/
theorem parent?_of_nodeAt?_concat {path : List Nat} {k : Nat} (h : S.Copy t p i e is)
    (hj : S.nodeAt? t i (path ++ [k]) = some j) :
    ∃ c, S.nodeAt? t i path = some c ∧ (S.children t c)[k]? = some j ∧
      S.parent? t j = some c := by
  rw [nodeAt?_concat] at hj
  obtain ⟨c, hc, hj⟩ := Option.bind_eq_some_iff.mp hj
  obtain ⟨s, -, q, js, hcopy⟩ := exists_of_rel_some (hc ▸ h.nodeAt? path)
  obtain ⟨s', -, ks, hchild⟩ := exists_of_rel_some (hj ▸ hcopy.getElem?_children k)
  exact ⟨c, hc, hj, hchild.parent?_eq⟩

theorem nodup_children (h : S.Copy t p i e is) (hnodup : is.Nodup) (hj : j ∈ is) :
    (S.children t j).Nodup := by
  induction h with
  | atom h =>
    obtain rfl := List.mem_singleton.mp hj
    simp [children_eq h]
  | group h _ ih =>
    rw [List.nodup_cons] at hnodup
    obtain rfl | hj := List.mem_cons.mp hj
    · simp [children_eq h]
    · exact ih hnodup.2 hj
  | binary h hl hr ihl ihr =>
    rw [List.nodup_cons, List.nodup_append] at hnodup
    obtain ⟨-, hjs, hks, hdisjoint⟩ := hnodup
    obtain rfl | hj := List.mem_cons.mp hj
    · simpa [children_eq h] using hdisjoint _ hl.root_mem _ hr.root_mem
    · obtain hj | hj := List.mem_append.mp hj
      · exact ihl hjs hj
      · exact ihr hks hj

/-- Going up from a node leads along one path only, since every node has one parent and is one of
its children. -/
theorem path_unique (h : S.Copy t none i e is) (hnodup : is.Nodup) {path path' : List Nat}
    (hj : S.nodeAt? t i path = some j) (hj' : S.nodeAt? t i path' = some j) : path = path' := by
  -- The root has no parent, so no other path leads to it.
  have hroot : ∀ q k, S.nodeAt? t i (q ++ [k]) ≠ some i := by
    intro q k hi
    obtain ⟨c, -, -, hc⟩ := h.parent?_of_nodeAt?_concat hi
    rw [h.parent?_eq] at hc
    cases hc
  induction path using List.reverseRecOn generalizing path' j with
  | nil =>
    cases hj
    obtain rfl | ⟨q, k, rfl⟩ := path'.eq_nil_or_concat'
    · rfl
    · exact absurd hj' (hroot q k)
  | append_singleton path k ih =>
    obtain ⟨c, hc, hk, hparent⟩ := h.parent?_of_nodeAt?_concat hj
    obtain rfl | ⟨path', k', rfl⟩ := path'.eq_nil_or_concat'
    · cases hj'
      exact absurd hj (hroot path k)
    · obtain ⟨c', hc', hk', hparent'⟩ := h.parent?_of_nodeAt?_concat hj'
      obtain rfl : c = c' := Option.some.inj (hparent.symm.trans hparent')
      have hchildren := h.nodup_children hnodup (h.mem_iff.mpr ⟨path, hc⟩)
      obtain ⟨hlt, -⟩ := List.getElem?_eq_some_iff.mp hk
      rw [ih hc hc', (List.getElem?_inj hlt hchildren).mp (hk.trans hk'.symm)]

/-- A copy that has no parent and all nodes of the tree mirrors the expression. -/
theorem mirrors (h : S.Copy t none i e is) (hnodup : is.Nodup) (hnodes : ∀ j, S.Has t j → j ∈ is) :
    S.Mirrors t i e where
  same_nodes path := by
    have hend := h.nodeAt? path
    revert hend
    generalize S.nodeAt? t i path = j?, e.subtreeAt? path = s?
    rintro (⟨q, js, hs⟩ | _)
    · exact .some hs.value?_eq
    · exact .none
  one_path j hj := by
    obtain ⟨path, hpath⟩ := h.mem_iff.mp (hnodes j hj)
    exact ⟨path, hpath, fun path' hpath' => h.path_unique hnodup hpath' hpath⟩
  root_parent := h.parent?_eq
  child_parent path k c j hc hj := by
    obtain ⟨c', hc', -, hparent⟩ := h.parent?_of_nodeAt?_concat hj
    rw [hparent, ← hc', hc]

end Copy

/-! ### Growth -/

/-- The tree `t'` has all nodes of `t`, and of these only `i` may have changed. -/
structure Keeps (S : TreeStore Node) (t t' : S.Tree) (i : S.Key) : Prop where
  has : ∀ j, S.Has t j → S.Has t' j
  same : ∀ j, j ≠ i → S.Has t j → S.get? t' j = S.get? t j
  root_eq : S.root? t' = S.root? t

/-- The tree `t'` has this node, and `t` does not. -/
def IsNew (S : TreeStore Node) (t t' : S.Tree) (j : S.Key) : Prop :=
  S.Has t' j ∧ ¬ S.Has t j

/-- The tree `t` has grown to `t'` by everything below the node `i`: the new nodes are those of the
copy that starts at `i`, and of the old ones only `i` has changed. -/
structure Completes (S : TreeStore Node) (t t' : S.Tree) (p : Option S.Key) (i : S.Key) (e : Expr)
    (is : List S.Key) : Prop where
  copy : S.Copy t' p i e is
  nodup : is.Nodup
  mem_iff : ∀ j, j ∈ is ↔ j = i ∨ S.IsNew t t' j
  keeps : S.Keeps t t' i

section Growth

variable {t t' t₁ t₂ t₃ t₄ : S.Tree} {p : Option S.Key} {i j k l : S.Key} {id : Nat} {e : Expr}
  {is js ks : List S.Key} {n : TreeNode S.Key Node} {value : Node}

namespace Keeps

theorem refl (t : S.Tree) (i : S.Key) : S.Keeps t t i :=
  ⟨fun _ h => h, fun _ _ _ => rfl, rfl⟩

/-- A node that is new may change when the tree grows on. -/
theorem trans (h : S.Keeps t t₁ i) (h' : S.Keeps t₁ t₂ j) (hj : j = i ∨ ¬ S.Has t j) :
    S.Keeps t t₂ i where
  has l hl := h'.has l (h.has l hl)
  same l hli hl := by
    have hlj : l ≠ j := by
      rintro rfl
      exact hj.elim hli fun hnew => hnew hl
    rw [h'.same l hlj (h.has l hl), h.same l hli hl]
  root_eq := h'.root_eq.trans h.root_eq

theorem isNew_iff (h : S.Keeps t t₁ i) (h' : S.Keeps t₁ t₂ j) :
    S.IsNew t t₂ l ↔ S.IsNew t t₁ l ∨ S.IsNew t₁ t₂ l := by
  have h₁ := h.has l
  have h₂ := h'.has l
  simp only [IsNew]
  tauto

end Keeps

namespace Adds

theorem ne (h : S.Adds t t' i value k) (hj : S.Has t j) : j ≠ k :=
  fun hjk => h.fresh (hjk ▸ hj)

theorem keeps (h : S.Adds t t' i value k) (hi : S.get? t i = some n) : S.Keeps t t' i where
  has j hj := by
    by_cases hji : j = i
    · exact hji ▸ has_of_get? (h.at_parent n hi)
    · exact (has_congr (h.same j (h.ne hj) hji)).mpr hj
  same j hji hj := h.same j (h.ne hj) hji
  root_eq := h.root_eq

/-- The node that is added is the only new one. -/
theorem isNew_iff (h : S.Adds t t' i value k) (hi : S.get? t i = some n) :
    S.IsNew t t' j ↔ j = k := by
  constructor
  · rintro ⟨hj', hj⟩
    by_contra hjk
    have hji : j ≠ i := fun hji => hj (hji ▸ has_of_get? hi)
    exact hj ((has_congr (h.same j hjk hji)).mp hj')
  · rintro rfl
    exact ⟨has_of_get? h.added, h.fresh⟩

end Adds

namespace Completes

theorem has_of_mem (h : S.Completes t t' p i e is) (hj : j ∈ is) : S.Has t' j := by
  rcases (h.mem_iff j).mp hj with rfl | hnew
  · exact h.copy.has
  · exact hnew.1

theorem notMem (h : S.Completes t t' p i e is) (hj : S.Has t j) (hji : j ≠ i) : j ∉ is := by
  rw [h.mem_iff]
  exact not_or_intro hji fun hnew => hnew.2 hj

theorem atom {a : Atom} {tag : TypeTag} {v : Float}
    (h : S.get? t i = some ⟨(Expr.atom id a tag v).node, p, []⟩) :
    S.Completes t t p i (.atom id a tag v) [i] where
  copy := .atom h
  nodup := List.nodup_singleton i
  mem_iff j := by simp [IsNew]
  keeps := .refl t i

theorem group {tag : TypeTag} {inner : Expr}
    (h : S.get? t i = some ⟨(Expr.group id tag inner).node, p, []⟩)
    (hadds : S.Adds t t₁ i inner.node j) (hinner : S.Completes t₁ t₂ (some i) j inner js) :
    S.Completes t t₂ p i (.group id tag inner) (i :: js) := by
  have hij : i ≠ j := hadds.ne (has_of_get? h)
  have hnode₁ := hadds.at_parent _ h
  have hhas₁ := has_of_get? hnode₁
  constructor
  · exact .group ((hinner.keeps.same i hij hhas₁).trans hnode₁) hinner.copy
  · exact List.nodup_cons.mpr ⟨hinner.notMem hhas₁ hij, hinner.nodup⟩
  · intro l
    rw [List.mem_cons, hinner.mem_iff, (hadds.keeps h).isNew_iff hinner.keeps, hadds.isNew_iff h]
  · exact (hadds.keeps h).trans hinner.keeps (.inr hadds.fresh)

/-- The children of an operation are put there one after the other, the left one first.  Then
everything below the right one follows, and last everything below the left one. -/
theorem binary {o : Operator} {v : Float} {left right : Expr}
    (h : S.get? t i = some ⟨(Expr.binary id o v left right).node, p, []⟩)
    (haddl : S.Adds t t₁ i left.node j) (haddr : S.Adds t₁ t₂ i right.node k)
    (hr : S.Completes t₂ t₃ (some i) k right ks) (hl : S.Completes t₃ t₄ (some i) j left js) :
    S.Completes t t₄ p i (.binary id o v left right) (i :: (js ++ ks)) := by
  have hnode₁ := haddl.at_parent _ h
  have hnode₂ := haddr.at_parent _ hnode₁
  have hij : i ≠ j := haddl.ne (has_of_get? h)
  have hik : i ≠ k := haddr.ne (has_of_get? hnode₁)
  have hjk : j ≠ k := haddr.ne (has_of_get? haddl.added)
  have hi₂ := has_of_get? hnode₂
  have hi₃ := hr.keeps.has i hi₂
  have hkeeps₂ := (haddl.keeps h).trans (haddr.keeps hnode₁) (.inl rfl)
  have hkeeps₃ := hkeeps₂.trans hr.keeps (.inr fun hk => haddr.fresh ((haddl.keeps h).has k hk))
  -- The left child is there before anything is put below the right one, so it is not in that copy.
  have hleft : j ∉ ks :=
    hr.notMem ((haddr.keeps hnode₁).has j (has_of_get? haddl.added)) hjk
  constructor
  · have hnode : S.get? t₄ i = some ⟨(Expr.binary id o v left right).node, p, [j, k]⟩ := by
      rw [hl.keeps.same i hij hi₃, hr.keeps.same i hik hi₂]
      exact hnode₂
    have hcopy : S.Copy t₄ (some i) k right ks := hr.copy.congr fun l hks =>
      hl.keeps.same l (ne_of_mem_of_not_mem hks hleft) (hr.has_of_mem hks)
    exact .binary hnode hl.copy hcopy
  · have hdisjoint : ∀ l ∈ js, ∀ l' ∈ ks, l ≠ l' := by
      rintro l hjs l' hks rfl
      exact hl.notMem (hr.has_of_mem hks) (ne_of_mem_of_not_mem hks hleft) hjs
    rw [List.nodup_cons, List.mem_append, List.nodup_append]
    exact ⟨not_or_intro (hl.notMem hi₃ hij) (hr.notMem hi₂ hik), hl.nodup, hr.nodup, hdisjoint⟩
  · intro l
    rw [List.mem_cons, List.mem_append, hl.mem_iff, hr.mem_iff, hkeeps₃.isNew_iff hl.keeps,
      hkeeps₂.isNew_iff hr.keeps, (haddl.keeps h).isNew_iff (haddr.keeps hnode₁),
      haddl.isNew_iff h, haddr.isNew_iff hnode₁]
    tauto
  · exact hkeeps₃.trans hl.keeps (.inr haddl.fresh)

end Completes

end Growth

/-- When a node without children is next on the stack, everything is put below it before the stack
goes on. -/
theorem Laws.exists_completes (hS : S.Laws) (e : Expr) {t : S.Tree} {p : Option S.Key} {i : S.Key}
    (stack : List (S.Key × Expr)) (h : S.get? t i = some ⟨e.node, p, []⟩) :
    ∃ t' is, S.grow t ((i, e) :: stack) = S.grow t' stack ∧ S.Completes t t' p i e is := by
  induction e generalizing t p i stack with
  | atom id a tag value => exact ⟨t, [i], by rw [grow], .atom h⟩
  | group id tag inner ih =>
    obtain ⟨t₁, j, hinsert, hadds⟩ := hS.exists_adds h inner.node
    obtain ⟨t₂, js, hgrow, hinner⟩ := ih stack hadds.added
    refine ⟨t₂, i :: js, ?_, .group h hadds hinner⟩
    rw [grow, hinsert]
    exact hgrow
  | binary id o value left right ihl ihr =>
    obtain ⟨t₁, j, hinsertl, haddl⟩ := hS.exists_adds h left.node
    have hnode₁ := haddl.at_parent _ h
    obtain ⟨t₂, k, hinsertr, haddr⟩ := hS.exists_adds hnode₁ right.node
    obtain ⟨t₃, ks, hgrowr, hr⟩ := ihr ((j, left) :: stack) haddr.added
    -- The left child waits on the stack, and nothing has been put below it so far.
    have hleft : S.get? t₃ j = some ⟨left.node, some i, []⟩ := by
      have hj₁ : S.Has t₁ j := has_of_get? haddl.added
      have hkeeps := haddr.keeps hnode₁
      rw [hr.keeps.same j (haddr.ne hj₁) (hkeeps.has j hj₁),
        hkeeps.same j (haddl.ne (has_of_get? h)).symm hj₁, haddl.added]
    obtain ⟨t₄, js, hgrowl, hl⟩ := ihl stack hleft
    refine ⟨t₄, i :: (js ++ ks), ?_, .binary h haddl haddr hr hl⟩
    rw [grow, hinsertl]
    simp only [hinsertr]
    exact hgrowr.trans hgrowl

/-- **Every expression has a tree, which mirrors it**: the nodes correspond one to one, with the
same data, parents and order of children, so both go through the same nodes in pre-order. -/
theorem plant_mirrors (S : TreeStore Node) (hS : S.Laws) (e : Expr) :
    ∃ t root keys, S.plant e = .ok t ∧ S.root? t = some root ∧ S.Mirrors t root e ∧
      (∀ is, S.PreOrder t [root] is ↔ is = keys) ∧
      keys.map (S.value? t) = e.subtrees.map fun s => some s.node := by
  obtain ⟨t₀, root, hofRoot, hroot, hnode, hfresh⟩ := hS.ofRoot e.node
  obtain ⟨t, keys, hgrow, hcompletes⟩ := hS.exists_completes e [] hnode
  have hcopy := hcompletes.copy
  have hkeys : ∀ i, S.Has t i → i ∈ keys := by
    intro i hi
    rw [hcompletes.mem_iff]
    by_cases hir : i = root
    · exact .inl hir
    · exact .inr ⟨hi, hfresh i hir⟩
  refine ⟨t, root, keys, ?_, ?_, hcopy.mirrors hcompletes.nodup hkeys, fun is => ?_, ?_⟩
  · rw [plant, hofRoot]
    exact hgrow.trans (grow.eq_1 ..)
  · rw [hcompletes.keeps.root_eq, hroot]
  · exact ⟨fun h => h.unique hcopy.preOrder, fun h => h ▸ hcopy.preOrder⟩
  · rw [Expr.subtrees_eq_preorder]
    exact hcopy.map_value?

/-- A product built by hand of a group and a name, all with the same identifier.  The group and the
name are inserted before the numeral in the group, so pre-order is not the order of insertion. -/
theorem plant_mirrors_repeated_id :
    let e : Expr := .binary 7 .mul 8 (.group 7 .int (.atom 7 (.num "2") .int 2))
      (.atom 7 (.ident "a") .int 4)
    let t : Outline Node := ⟨#[⟨⟨7, .op .mul, none, 8⟩, none, [1, 2]⟩,
      ⟨⟨7, .group, some .int, 2⟩, some 0, [3]⟩, ⟨⟨7, .ident "a", some .int, 4⟩, some 0, []⟩,
      ⟨⟨7, .num "2", some .int, 2⟩, some 1, []⟩]⟩
    (Outline.store Node).Laws ∧ (Outline.store Node).plant e = .ok t ∧
      (Outline.store Node).Mirrors t (0 : Nat) e ∧
      (Outline.store Node).PreOrder t ([0] : List Nat) ([0, 1, 3, 2] : List Nat) := by
  intro e t
  have hplant : (Outline.store Node).plant e = .ok t := by cbv
  obtain ⟨t', root, -, hplant', hroot, hmirrors, -⟩ :=
    plant_mirrors (Outline.store Node) (Outline.laws_store Node) e
  obtain rfl : t = t' := Except.ok.inj (hplant.symm.trans hplant')
  obtain rfl : (0 : Nat) = root := Option.some.inj hroot
  have hgroup : (Outline.store Node).PreOrder t ([1] : List Nat) ([1, 3] : List Nat) :=
    .of_get? rfl (.of_get? rfl .nil)
  have hname : (Outline.store Node).PreOrder t ([2] : List Nat) ([2] : List Nat) :=
    .of_get? rfl .nil
  exact ⟨Outline.laws_store Node, hplant, hmirrors, .of_get? rfl (hgroup.append hname)⟩

end TreeStore

end AttrCalc
