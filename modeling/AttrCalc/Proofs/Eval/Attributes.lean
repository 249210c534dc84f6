import AttrCalc.Proofs.Eval.Value
import AttrCalc.Proofs.Expr.Walk

/-!
# The attributes of an expression

The value and the tag of a node are computed when the node is built, from what has been built below
it, and never again.  A chain is rebuilt with every operator that is read, but what was built before
stays in it as it is.  So when the whole expression has been read, every node in it still obeys the
attribute rule of its production.

## Main definitions

* `Expr.core`, `Expr.IsDeclared` : an expression without the groups around it, and declared
  variables.
* `Expr.ObeysRule` : the root has the value and the tag that its attribute rule gives it.

## Main results

* `Eval.Reads.tag_eq_int_iff` : what the tag of an expression that is read says about it.
* `evaluate_obeys_rules` : every node of an evaluated expression obeys its attribute rule.
-/

namespace AttrCalc

open Eval

namespace Expr

/-- The expression inside all the groups around it. -/
def core : Expr → Expr
  | atom id a tag value => atom id a tag value
  | group _ _ inner => inner.core
  | binary id o value left right => binary id o value left right

/-- Inside all the groups around it, the expression is a name with an entry that is tagged `INT`. -/
def IsDeclared (table : SymbolTable) (e : Expr) : Prop :=
  ∃ name value, e.core.label = .ident name ∧ table.get? name = some ⟨value, .int⟩

/-- The root has the value and the tag that its attribute rule gives it.  A division by zero has no
value if the policy refuses it. -/
def ObeysRule (env : Env) : Expr → Prop
  | atom _ (.num text) tag value => Decimal.read? text = some value ∧ tag = .real
  | atom _ (.ident name) tag value => env.table.get? name = some ⟨value, tag⟩
  | group id tag inner =>
    (group id tag inner).value = inner.value ∧
      (tag = .int ↔ inner.IsDeclared env.table) ∧ (tag = .real ↔ ¬ inner.IsDeclared env.table)
  | binary id o value left right =>
    (binary id o value left right).tag? = none ∧ value = o.apply left.value right.value ∧
      (env.division = .fail → ¬ (o = .div ∧ right.value == 0))

end Expr

theorem TypeTag.eq_real_iff {tag : TypeTag} : tag = .real ↔ tag ≠ .int := by
  cases tag <;> simp

theorem DivisionPolicy.apply?_eq_some_iff {policy : DivisionPolicy} {o : Operator} {l r v : Float} :
    policy.apply? o l r = some v ↔
      v = o.apply l r ∧ (policy = .fail → ¬ (o = .div ∧ r == 0)) := by
  unfold DivisionPolicy.apply?
  split
  · next h => simp [h]
  · next h =>
    have hallowed : policy = .fail → ¬ (o = .div ∧ r == 0) := not_and.mp h
    rw [Option.some.injEq, eq_comm, and_iff_left hallowed]

namespace Eval.Reads

variable {env : Env} {room : Nat} {c : Category} {s s' : State} {e : Expr}

/-- Only what is a declared variable, inside any number of groups, is tagged `INT`. -/
theorem tag_eq_int_iff (h : Reads env room c s e s') :
    e.tag?.getD .real = .int ↔ e.IsDeclared env.table := by
  induction h with
  | @ident _ _ name _ _ entry _ hentry =>
    obtain ⟨value, tag⟩ := entry
    simp [Expr.IsDeclared, Expr.core, Expr.label, Atom.label, Expr.tag?, hentry]
  | num => simp [Expr.IsDeclared, Expr.core, Expr.label, Atom.label, Expr.tag?]
  | group _ _ _ ih => exact ih
  | operand _ _ ih => exact ih
  | operation => simp [Expr.IsDeclared, Expr.core, Expr.label, Expr.tag?]

/-- What is read obeys its attribute rules, at the root and below. -/
theorem obeysRule (h : Reads env room c s e s') : ∀ t ∈ e.preorder, t.ObeysRule env := by
  induction h with
  | ident _ hentry => exact List.forall_mem_singleton.mpr hentry
  | num _ hvalue => exact List.forall_mem_singleton.mpr ⟨hvalue, rfl⟩
  | group _ hinner _ ih =>
    have htag := hinner.tag_eq_int_iff
    exact List.forall_mem_cons.mpr ⟨⟨rfl, htag, TypeTag.eq_real_iff.trans (not_congr htag)⟩, ih⟩
  | operand _ _ ih => exact ih
  | operation _ _ _ hvalue ihl ihr =>
    have hrule := DivisionPolicy.apply?_eq_some_iff.mp hvalue
    exact List.forall_mem_cons.mpr ⟨⟨rfl, hrule⟩, List.forall_mem_append.mpr ⟨ihl, ihr⟩⟩

end Eval.Reads

/-- **Every node obeys its attribute rule.** In an evaluated expression a numeral has the number
that it spells, a name has its entry, an operation has the value of its operator on the values of
its children, and a group has the value of what is inside; the tag of a group is `INT` just if a
declared variable is inside.  If division by zero is refused, no divisor is zero. -/
theorem evaluate_obeys_rules (env : Env) (tokens : List Lexeme) (ev : Evaluation)
    (h : evaluate env tokens = .ok ev) : ∀ s ∈ ev.expr.preorder, s.ObeysRule env := by
  obtain ⟨s', hreads, -⟩ := evaluate_eq_ok_iff.mp h
  exact hreads.obeysRule

/-- A declared variable in two groups, divided while division by zero is refused. -/
theorem evaluate_obeys_rules_quotient :
    let env : Env := ⟨SymbolTable.empty.write "x" ⟨4, .int⟩, .fail⟩
    let tokens : List Lexeme := [⟨.leftParen, 0⟩, ⟨.leftParen, 1⟩, ⟨.ident "x", 2⟩,
      ⟨.rightParen, 3⟩, ⟨.rightParen, 4⟩, ⟨.op .div, 6⟩, ⟨.num "2", 8⟩]
    ∃ ev, evaluate env tokens = .ok ev ∧ ∀ s ∈ ev.expr.preorder, s.ObeysRule env := by
  intro env tokens
  let t : LabelTree := .binary .div (.group (.group (.atom (.ident "x")))) (.atom (.num "2"))
  have hcanonical : t.Canonical := by
    simp [t, LabelTree.Canonical, LabelTree.IsOperation, Operator.level]
  have hvalue : (t.value? env).isSome := by decide +kernel
  obtain ⟨ev, hev⟩ := hcanonical.exists_evaluate (by decide) hvalue tokens rfl
  exact ⟨ev, hev, evaluate_obeys_rules env tokens ev hev⟩

end AttrCalc
