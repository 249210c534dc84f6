import AttrCalc.Proofs.Eval.Value

/-!
# The numbering of nodes

A node is given its identifier when it is built, which is after the nodes below it and after all
nodes to the left.  So the identifiers of an expression that is read number its nodes in post-order.

## Main definitions

* `Expr.postorder` : the subtrees of an expression, those below and to the left first.
* `Expr.descendants` : the subtrees below the root.

## Main results

* `Eval.Reads.numbering` : reading gives the identifiers from the next one on away, in post-order.
* `evaluate_numbers_postorder` : the nodes of an evaluated expression are numbered from zero on.
-/

namespace AttrCalc

open Eval

/-- The subtrees in post-order: the left one, the right one, and the expression itself. -/
def Expr.postorder : Expr → List Expr
  | atom id a tag value => [atom id a tag value]
  | group id tag inner => inner.postorder ++ [group id tag inner]
  | binary id o value left right =>
    left.postorder ++ right.postorder ++ [binary id o value left right]

namespace Expr

/-- The subtrees below the root, in post-order. -/
def descendants (e : Expr) : List Expr :=
  e.children.flatMap postorder

theorem postorder_eq (e : Expr) : e.postorder = e.descendants ++ [e] := by
  cases e <;> simp [postorder, descendants, children]

/-- The post-order of a subtree is a part of that of the whole. -/
theorem postorder_infix_of_mem {e s : Expr} (h : s ∈ e.postorder) :
    s.postorder <:+: e.postorder := by
  induction e with
  | atom id a tag value =>
    rw [List.mem_singleton.mp h]
  | group id tag inner ih =>
    rcases List.mem_append.mp h with hinner | hroot
    · exact (ih hinner).trans (List.prefix_append _ _).isInfix
    · rw [List.mem_singleton.mp hroot]
  | binary id o value left right ihl ihr =>
    rcases List.mem_append.mp h with hbelow | hroot
    · rcases List.mem_append.mp hbelow with hleft | hright
      · rw [postorder, List.append_assoc]
        exact (ihl hleft).trans (List.prefix_append _ _).isInfix
      · exact (ihr hright).trans (List.infix_append _ _ _)
    · rw [List.mem_singleton.mp hroot]

/-- If identifiers grow in post-order, a node has a larger one than all nodes below it. -/
theorem id_lt_of_mem_descendants {e : Expr}
    (h : e.postorder.Pairwise fun e₁ e₂ => e₁.id < e₂.id) {s d : Expr} (hs : s ∈ e.postorder)
    (hd : d ∈ s.descendants) : d.id < s.id := by
  have hpart := h.sublist (postorder_infix_of_mem hs).sublist
  rw [postorder_eq, List.pairwise_append] at hpart
  exact hpart.2.2 d hd s (List.mem_singleton_self s)

end Expr

namespace Eval.Reads

variable {env : Env} {room : Nat} {c : Category} {s s' : State} {e : Expr}

/-- What is read takes as many identifiers as it has nodes. -/
theorem nextId_eq (h : Reads env room c s e s') : s'.nextId = s.nextId + e.size := by
  induction h with
  | ident | num => rfl
  | group _ _ _ ih =>
    rw [State.nextId_read] at ih
    rw [State.nextId_numbered, ih, Expr.size, Nat.add_assoc]
  | operand _ _ ih => exact ih
  | operation _ _ _ _ ihl ihr =>
    rw [State.nextId_read] at ihr
    rw [State.nextId_numbered, ihr, ihl, Expr.size]
    omega

/-- **Nodes are numbered in post-order.** The identifiers of what is read are the next ones, and
they number the nodes in post-order. -/
theorem numbering (h : Reads env room c s e s') :
    e.postorder.map Expr.id = List.range' s.nextId e.size := by
  induction h with
  | ident | num => rfl
  | @group _ s s₁ inner _ _ _ _ _ hinner _ ih =>
    have hnext : s₁.nextId = s.nextId + inner.size := hinner.nextId_eq
    rw [State.nextId_read] at ih
    rw [Expr.postorder, List.map_append, ih, Expr.size, List.range'_concat, Nat.one_mul]
    simp [Expr.id, hnext]
  | operand _ _ ih => exact ih
  | @operation _ s s₁ s₂ _ left right _ _ _ hl _ hr _ ihl ihr =>
    have hnext : s₁.nextId = s.nextId + left.size := hl.nextId_eq
    have hnext' : s₂.nextId = s₁.nextId + right.size := hr.nextId_eq
    rw [State.nextId_read, hnext] at ihr
    rw [Expr.postorder, List.map_append, List.map_append, ihl, ihr, Expr.size, List.range'_concat,
      ← List.range'_append_1]
    simp [Expr.id, hnext, hnext', Nat.add_assoc]

theorem pairwise_id_lt (h : Reads env room c s e s') :
    e.postorder.Pairwise fun e₁ e₂ => e₁.id < e₂.id := by
  rw [← List.pairwise_map (f := Expr.id), h.numbering]
  exact List.pairwise_lt_range'

end Eval.Reads

/-! ### Whole expressions -/

/-- **Identifiers are places in the post-order.** The identifiers of an evaluated expression, read
in post-order, are the numbers from zero on, one for each node.  So none is used twice, a node has a
larger one than all nodes below it, and the root has the last one. -/
theorem evaluate_numbers_postorder (env : Env) (tokens : List Lexeme) (ev : Evaluation)
    (h : evaluate env tokens = .ok ev) :
    ev.expr.postorder.map Expr.id = List.range ev.expr.size ∧
      (ev.expr.postorder.map Expr.id).Nodup ∧
      (∀ s ∈ ev.expr.postorder, ∀ d ∈ s.descendants, d.id < s.id) ∧
      ev.expr.id + 1 = ev.expr.size := by
  obtain ⟨s', hreads, -⟩ := evaluate_eq_ok_iff.mp h
  have hids : ev.expr.postorder.map Expr.id = List.range ev.expr.size := by
    rw [hreads.numbering, List.range_eq_range']
    rfl
  have hroot : ev.expr.size = ev.expr.descendants.length + 1 := by
    have hlength := congrArg List.length hids
    rw [Expr.postorder_eq] at hlength
    simpa using hlength.symm
  refine ⟨hids, hids ▸ List.nodup_range, fun s hs d hd =>
    Expr.id_lt_of_mem_descendants hreads.pairwise_id_lt hs hd, ?_⟩
  -- The root comes last in the post-order, behind its descendants.
  have hlast := congrArg List.getLast? hids
  rw [Expr.postorder_eq, hroot, List.range_succ] at hlast
  rw [hroot]
  simpa using hlast

/-- A quotient behind a product of two groups, with its nodes in post-order. -/
theorem evaluate_numbers_postorder_groups :
    let tokens : List Lexeme := [⟨.leftParen, 0⟩, ⟨.num "1", 1⟩, ⟨.op .add, 3⟩, ⟨.num "2", 5⟩,
      ⟨.rightParen, 6⟩, ⟨.op .mul, 8⟩, ⟨.leftParen, 10⟩, ⟨.num "3", 11⟩, ⟨.rightParen, 12⟩,
      ⟨.op .div, 14⟩, ⟨.num "4", 16⟩]
    let nodes : List (Nat × Label) := [(0, .num "1"), (1, .num "2"), (2, .op .add), (3, .group),
      (4, .num "3"), (5, .group), (6, .op .mul), (7, .num "4"), (8, .op .div)]
    ∃ ev, evaluate ⟨.empty, .ieee⟩ tokens = .ok ev ∧
      (ev.expr.postorder.map fun s => (s.id, s.label)) = nodes ∧
      ev.expr.postorder.map Expr.id = List.range ev.expr.size ∧
      (ev.expr.postorder.map Expr.id).Nodup ∧
      (∀ s ∈ ev.expr.postorder, ∀ d ∈ s.descendants, d.id < s.id) ∧
      ev.expr.id + 1 = ev.expr.size := by
  intro tokens nodes
  obtain ⟨ev, hev, hnodes⟩ : ∃ ev, evaluate ⟨.empty, .ieee⟩ tokens = .ok ev ∧
      (ev.expr.postorder.map fun s => (s.id, s.label)) = nodes :=
    exists_evaluate_of_map (by decide +kernel)
  exact ⟨ev, hev, hnodes, evaluate_numbers_postorder _ tokens ev hev⟩

end AttrCalc
