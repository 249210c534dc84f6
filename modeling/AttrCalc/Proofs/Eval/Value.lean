import AttrCalc.Proofs.Eval.Reads

/-!
# The value of a label tree

Identifiers, tags and traces aside, an evaluation computes the value of a tree, node by node.  What
it is, depends on the labels alone and not on where the lexemes stand or what stands behind them.
So an evaluation succeeds just if its tokens are those of a tree that has a value and whose groups
are not nested too deeply.

## Main definitions

* `LabelTree.value?` : the value of a tree, unless a name, a numeral or a division has none.

## Main results

* `Eval.Reads.value?_labels` : the value of what is read is the value of its labels.
* `Fits.exists_reads_of_value` : a tree that has a value is read wherever it is written.
-/

namespace AttrCalc

open Eval

/-- The value of a leaf: a name stands for its entry. -/
def Atom.value? (env : Env) : Atom → Option Float
  | num text => Decimal.read? text
  | ident name => (env.table.get? name).map (·.value)

/-- The value of a tree. -/
def LabelTree.value? (env : Env) : LabelTree → Option Float
  | atom a => a.value? env
  | group inner => inner.value? env
  | binary o left right => do
    env.division.apply? o (← left.value? env) (← right.value? env)

theorem LabelTree.value?_binary_eq_some_iff {env : Env} {o : Operator} {left right : LabelTree}
    {v : Float} : (binary o left right).value? env = some v ↔
      ∃ l r, left.value? env = some l ∧ right.value? env = some r ∧
        env.division.apply? o l r = some v := by
  simp [value?, Option.bind_eq_some_iff]

variable {env : Env} {room : Nat} {c : Category} {s s' : State} {e : Expr} {t : LabelTree}

/-- The value of an expression that is read is the value of its labels. -/
theorem Eval.Reads.value?_labels (h : Reads env room c s e s') :
    e.labels.value? env = some e.value := by
  induction h with
  | ident _ hentry => simp [Expr.labels, LabelTree.value?, Atom.value?, hentry, Expr.value]
  | num _ hvalue => simpa [Expr.labels, LabelTree.value?, Atom.value?, Expr.value] using hvalue
  | group _ _ _ ih => exact ih
  | operand _ _ ih => exact ih
  | operation _ _ _ hvalue ihl ihr =>
    exact LabelTree.value?_binary_eq_some_iff.mpr ⟨_, _, ihl, ihr, hvalue⟩

/-- What fits a place and has a value, is read there, whatever is left behind it. -/
theorem Fits.exists_reads_of_value (h : Fits c t) (hnesting : t.nesting ≤ room) {v : Float}
    (hvalue : t.value? env = some v) {ls rest : List Lexeme} (hls : ls.map (·.token) = t.tokens)
    (hs : s.rest = ls ++ rest) :
    ∃ e s', Reads env room c s e s' ∧ s'.rest = rest ∧ e.labels = t := by
  induction h generalizing room s ls rest v with
  | atom a =>
    obtain ⟨⟨_, offset⟩, rfl, rfl⟩ := List.map_eq_singleton_iff.mp hls
    cases a with
    | num text => exact ⟨_, _, .num hs hvalue, rfl, rfl⟩
    | ident name =>
      obtain ⟨entry, hentry, -⟩ := Option.map_eq_some_iff.mp hvalue
      exact ⟨_, _, .ident hs hentry, rfl, rfl⟩
  | @group inner _ ih =>
    rw [LabelTree.nesting] at hnesting
    obtain ⟨room, rfl⟩ := Nat.exists_eq_add_one.mpr (Nat.lt_of_lt_of_le (Nat.succ_pos _) hnesting)
    obtain ⟨ls', l', rfl, hls', hl'⟩ := List.map_eq_append_iff.mp hls
    obtain ⟨⟨_, offset⟩, ls, rfl, rfl, htokens⟩ := List.map_eq_cons_iff.mp hls'
    obtain ⟨⟨_, offset'⟩, rfl, rfl⟩ := List.map_eq_singleton_iff.mp hl'
    rw [List.cons_append, List.cons_append, List.append_assoc] at hs
    obtain ⟨e, s₁, hreads, hrest, rfl⟩ := ih (Nat.le_of_succ_le_succ hnesting) hvalue htokens
      (State.rest_read s (ls ++ ⟨.rightParen, offset'⟩ :: rest) .group)
    exact ⟨_, _, .group hs hreads hrest, rfl, rfl⟩
  | operand level _ ih =>
    obtain ⟨e, s', hreads, hrest, hlabels⟩ := ih hnesting hvalue hls (s := s.fire level.rule) hs
    exact ⟨e, s', .operand level hreads, hrest, hlabels⟩
  | @operation o left right _ _ ihl ihr =>
    obtain ⟨hl, hr⟩ := Nat.max_le.mp hnesting
    obtain ⟨vl, vr, hvl, hvr, happly⟩ := LabelTree.value?_binary_eq_some_iff.mp hvalue
    obtain ⟨ls₁, ls', rfl, hls₁, hls'⟩ := List.map_eq_append_iff.mp hls
    obtain ⟨⟨_, offset⟩, ls₂, rfl, rfl, hls₂⟩ := List.map_eq_cons_iff.mp hls'
    rw [List.append_assoc] at hs
    obtain ⟨el, s₁, hreadsl, hrest₁, rfl⟩ := ihl hl hvl hls₁ hs
    obtain ⟨er, s₂, hreadsr, hrest₂, rfl⟩ :=
      ihr hr hvr hls₂ (State.rest_read s₁ (ls₂ ++ rest) o.rule)
    rw [hreadsl.value?_labels, Option.some.injEq] at hvl
    rw [hreadsr.value?_labels, Option.some.injEq] at hvr
    exact ⟨_, _, .operation hreadsl hrest₁ hreadsr (by rw [hvl, hvr, happly]), hrest₂, rfl⟩

/-- What can be computed of an evaluation is that of one. -/
theorem exists_evaluate_of_map {α : Type} {f : Evaluation → α} {y : α} {tokens : List Lexeme}
    (h : (evaluate env tokens).toOption.map f = some y) :
    ∃ ev, evaluate env tokens = .ok ev ∧ f ev = y := by
  cases hev : evaluate env tokens with
  | error e =>
    rw [hev] at h
    cases h
  | ok ev =>
    rw [hev] at h
    exact ⟨ev, rfl, Option.some.inj h⟩

/-- A tree that has a value is what its tokens evaluate to. -/
theorem Fits.exists_evaluate_of_value (h : Fits .sum t) (hnesting : t.nesting ≤ maxDepth)
    {v : Float} (hvalue : t.value? env = some v) {tokens : List Lexeme}
    (htokens : tokens.map (·.token) = t.tokens) :
    ∃ ev, evaluate env tokens = .ok ev ∧ ev.expr.labels = t := by
  obtain ⟨e, s', hreads, hrest, hlabels⟩ := h.exists_reads_of_value (s := .start tokens) hnesting
    hvalue htokens (List.append_nil tokens).symm
  exact ⟨⟨e, s'.trace⟩, evaluate_eq_ok_iff.mpr ⟨s', hreads, hrest, rfl⟩, hlabels⟩

/-- The tokens of a canonical tree that has a value are evaluated. -/
theorem LabelTree.Canonical.exists_evaluate (h : t.Canonical) (hnesting : t.nesting ≤ maxDepth)
    (hvalue : (t.value? env).isSome) (tokens : List Lexeme)
    (htokens : tokens.map (·.token) = t.tokens) : ∃ ev, evaluate env tokens = .ok ev := by
  obtain ⟨v, hv⟩ := Option.isSome_iff_exists.mp hvalue
  obtain ⟨ev, hev, -⟩ := (fits_sum_iff.mpr h).exists_evaluate_of_value hnesting hv htokens
  exact ⟨ev, hev⟩

end AttrCalc
