import AttrCalc.Calculator
import AttrCalc.Proofs.Eval.RoundTrip
import AttrCalc.Proofs.Expr.Progress

/-!
# Naming a subexpression

A name that has been assigned the value of an expression can stand for this expression: where it
stands among the tokens of an evaluation, the expression can be written in parentheses instead.
Both evaluations succeed or fail together, and they have the same value.  On trees this is a
substitution; the tokens in between are an expression just if those with the name are, since a
group takes the same place as a name.

## Main definitions

* `Token.subst`, `LabelTree.subst` : an expression in parentheses in the place of a name.

## Main results

* `exists_evaluate_iff` : which values some tokens evaluate to.
* `LabelTree.value?_subst` : substitution keeps the value.
* `progress_flatMap_subst` : substitution keeps what can be the beginning of an expression.
* `evaluate_subst` : naming a subexpression does not change the result.
-/

namespace AttrCalc

open Eval

/-! ### Values of tokens -/

/-- Tokens evaluate to a value just if they are those of a tree that has it, with no more groups
inside one another than can be open. -/
theorem exists_evaluate_iff {env : Env} {tokens : List Lexeme} {v : Float} :
    (∃ ev, evaluate env tokens = .ok ev ∧ ev.value = v) ↔
      ∃ t, Fits .sum t ∧ t.tokens = tokens.map (·.token) ∧ t.nesting ≤ maxDepth ∧
        t.value? env = some v := by
  constructor
  · rintro ⟨ev, hev, rfl⟩
    obtain ⟨s', hreads, -⟩ := evaluate_eq_ok_iff.mp hev
    exact ⟨_, hreads.fits, tokens_labels_of_evaluate hev, hreads.nesting_le, hreads.value?_labels⟩
  · rintro ⟨t, ht, htokens, hnesting, hvalue⟩
    obtain ⟨ev, hev, rfl⟩ := ht.exists_evaluate_of_value hnesting hvalue htokens.symm
    obtain ⟨s', hreads, -⟩ := evaluate_eq_ok_iff.mp hev
    exact ⟨ev, hev, Option.some.inj (hreads.value?_labels.symm.trans hvalue)⟩

/-! ### Substitution -/

/-- A token, or the given ones in parentheses in the place of a name. -/
def Token.subst (x : String) (ts : List Token) (a : Token) : List Token :=
  if a = .ident x then .leftParen :: (ts ++ [.rightParen]) else [a]

namespace LabelTree

/-- The tree with another one as a group in the place of a name. -/
def subst : LabelTree → String → LabelTree → LabelTree
  | atom a, x, u => if a = .ident x then group u else atom a
  | group inner, x, u => group (inner.subst x u)
  | binary o left right, x, u => binary o (left.subst x u) (right.subst x u)

variable {x : String} {u : LabelTree}

theorem tokens_subst : (t : LabelTree) →
    (t.subst x u).tokens = t.tokens.flatMap (Token.subst x u.tokens)
  | atom (.num text) => by simp [subst, tokens, Atom.token, Token.subst]
  | atom (.ident name) => by
    by_cases h : name = x <;> simp [subst, tokens, Atom.token, Token.subst, h]
  | group inner => by simp [subst, tokens, Token.subst, tokens_subst inner]
  | binary o left right => by
    simp [subst, tokens, Token.subst, tokens_subst left, tokens_subst right]

theorem nesting_le_nesting_subst : (t : LabelTree) → t.nesting ≤ (t.subst x u).nesting
  | atom _ => Nat.zero_le _
  | group inner => Nat.succ_le_succ (nesting_le_nesting_subst inner)
  | binary _ left right => by
    have hleft := nesting_le_nesting_subst left
    have hright := nesting_le_nesting_subst right
    simp only [subst, nesting]
    omega

/-- A group has the value of the name in whose place it stands, if the tree in it has. -/
theorem value?_subst {env : Env} {entry : Entry} (hentry : env.table.get? x = some entry)
    (hvalue : u.value? env = some entry.value) :
    (t : LabelTree) → (t.subst x u).value? env = t.value? env
  | atom a => by
    by_cases h : a = .ident x
    · simp [subst, h, value?, Atom.value?, hentry, hvalue]
    · simp [subst, h]
  | group inner => value?_subst hentry hvalue inner
  | binary _ left right => by
    simp only [subst, value?, value?_subst hentry hvalue left, value?_subst hentry hvalue right]

/-- The value of a tree does not depend on names that are not in it. -/
theorem value?_write {table : SymbolTable} {division : DivisionPolicy} {entry : Entry} :
    (t : LabelTree) → .ident x ∉ t.tokens →
      t.value? ⟨table.write x entry, division⟩ = t.value? ⟨table, division⟩
  | atom (.num _), _ => rfl
  | atom (.ident name), h => by
    have hname : name ≠ x := fun hname => h (by simp [tokens, Atom.token, hname])
    simp only [value?, Atom.value?, SymbolTable.get?_write, if_neg hname]
  | group inner, h => value?_write inner fun hinner => h (by simp [tokens, hinner])
  | binary _ left right, h => by
    obtain ⟨hleft, hright⟩ : .ident x ∉ left.tokens ∧ .ident x ∉ right.tokens := by
      simpa [tokens, not_or] using h
    simp only [value?, value?_write left hleft, value?_write right hright]

end LabelTree

/-- A group fits wherever a name does. -/
theorem Fits.subst {c : Category} {t u : LabelTree} (ht : Fits c t) (hu : Fits .sum u)
    (x : String) : Fits c (t.subst x u) := by
  induction ht with
  | atom a =>
    unfold LabelTree.subst
    split
    · exact .group hu
    · exact .atom a
  | group _ ih => exact .group ih
  | operand level _ ih => exact .operand level ih
  | operation _ _ ihl ihr => exact .operation ihl ihr

/-! ### Beginnings of expressions -/

/-- A lexeme, or the given ones in parentheses in the place of a name. -/
def Lexeme.subst (x : String) (ls : List Lexeme) (l : Lexeme) : List Lexeme :=
  if l.token = .ident x then ⟨.leftParen, l.offset⟩ :: (ls ++ [⟨.rightParen, l.offset⟩]) else [l]

variable {x : String} {u : LabelTree} {ls : List Lexeme}

theorem Lexeme.map_token_subst (l : Lexeme) :
    (l.subst x ls).map (·.token) = l.token.subst x (ls.map (·.token)) := by
  by_cases h : l.token = .ident x <;> simp [Lexeme.subst, Token.subst, h]

/-- A group around a tree leads from an operand to an operator, as a name does. -/
theorem Progress.run_subst (hls : ls.map (·.token) = u.tokens) (st : Progress) (l : Lexeme) :
    st.run (l.subst x ls) = st.step l := by
  obtain ⟨token, offset⟩ := l
  unfold Lexeme.subst
  split
  · next h =>
    obtain rfl : token = .ident x := h
    obtain ⟨_ | _, opened⟩ := st
    · rw [run_cons, step, Option.bind_some, run_append,
        run_tokens u (⟨.leftParen, offset⟩ :: opened) ls hls]
      rfl
    · rfl
  · exact run_singleton

theorem progress_flatMap_subst (hls : ls.map (·.token) = u.tokens) (ls' : List Lexeme) :
    progress (ls'.flatMap (Lexeme.subst x ls)) = progress ls' := by
  have hrun (st : Progress) : st.run (ls'.flatMap (Lexeme.subst x ls)) = st.run ls' := by
    induction ls' generalizing st with
    | nil => rfl
    | cons l ls' ih =>
      rw [List.flatMap_cons, Progress.run_append, Progress.run_subst hls, Progress.run_cons]
      exact Option.bind_congr fun st' _ => ih st'
  exact hrun _

/-- If an expression is written with a group in the place of a name, one is written with the
name. -/
theorem exists_tokens_eq_of_subst (hls : ls.map (·.token) = u.tokens) {t' : LabelTree}
    {ts : List Lexeme}
    (ht' : t'.tokens = (ts.map (·.token)).flatMap (Token.subst x u.tokens)) :
    ∃ t, Fits .sum t ∧ t.tokens = ts.map (·.token) := by
  have hmap : (ts.flatMap (Lexeme.subst x ls)).map (·.token) = t'.tokens := by
    rw [ht', List.map_flatMap, List.flatMap_map, ← hls]
    exact List.flatMap_congr fun l _ => l.map_token_subst
  have hprogress : progress (ts.flatMap (Lexeme.subst x ls)) = some ⟨.operator, []⟩ :=
    Progress.run_tokens t' [] _ hmap
  rw [progress_flatMap_subst hls] at hprogress
  exact exists_tokens_eq_of_progress hprogress

/-! ### Evaluations -/

/-- With a name that has the value of a tree, the same values are computed as with this tree in its
place. -/
theorem exists_evaluate_subst_iff {env : Env} {entry : Entry} (hu : Fits .sum u)
    (hentry : env.table.get? x = some entry) (hvalue : u.value? env = some entry.value)
    {ts ts' : List Lexeme}
    (hts' : ts'.map (·.token) = (ts.map (·.token)).flatMap (Token.subst x u.tokens))
    (hopen : ∀ p, p <+: ts'.map (·.token) → openGroups p ≤ 256) (v : Float) :
    (∃ ev, evaluate env ts = .ok ev ∧ ev.value = v) ↔
      ∃ ev, evaluate env ts' = .ok ev ∧ ev.value = v := by
  have hsubst {t : LabelTree} (ht : t.tokens = ts.map (·.token)) :
      (t.subst x u).tokens = ts'.map (·.token) := by rw [LabelTree.tokens_subst, ht, hts']
  constructor
  · rw [exists_evaluate_iff, exists_evaluate_iff]
    rintro ⟨t, ht, htokens, -, hv⟩
    exact ⟨t.subst x u, ht.subst hu x, hsubst htokens,
      LabelTree.nesting_le_iff.mpr (hsubst htokens ▸ hopen),
      (LabelTree.value?_subst hentry hvalue t).trans hv⟩
  · rintro ⟨ev, hev, rfl⟩
    have htokens' := tokens_labels_of_evaluate hev
    obtain ⟨s', hreads, -⟩ := evaluate_eq_ok_iff.mp hev
    have hls : (u.tokens.map fun a => Lexeme.mk a 0).map (·.token) = u.tokens := by
      simp [Function.comp_def]
    obtain ⟨t, ht, htokens⟩ := exists_tokens_eq_of_subst hls (htokens'.trans hts')
    have heq : ev.expr.labels = t.subst x u := hreads.fits.eq_of_tokens_eq (ht.subst hu x)
      (htokens'.trans (hsubst htokens).symm) hreads.readable
    have hv := hreads.value?_labels
    rw [heq, LabelTree.value?_subst hentry hvalue] at hv
    refine exists_evaluate_iff.mpr ⟨t, ht, htokens, ?_, hv⟩
    exact (LabelTree.nesting_le_nesting_subst t).trans (heq ▸ hreads.nesting_le)

/-- **Naming a subexpression does not change the result.** After the value of an expression `e` is
assigned to a name that is not in `e`, some tokens evaluate just if they do with `e` in parentheses
wherever the name stands, and they have the same value, as long as this does not open more than
`256` groups. -/
theorem evaluate_subst (table : SymbolTable) (division : DivisionPolicy) (e : List Lexeme)
    (ev : Evaluation) (hev : evaluate ⟨table, division⟩ e = .ok ev) (x : String)
    (hx : .ident x ∉ e.map (·.token)) (ts ts' : List Lexeme)
    (hts' : ts'.map (·.token) = (ts.map (·.token)).flatMap (Token.subst x (e.map (·.token))))
    (hopen : ∀ p, p <+: ts'.map (·.token) → openGroups p ≤ 256) :
    let env : Env := ⟨table.assign x ev, division⟩
    ((∃ r, evaluate env ts = .ok r) ↔ ∃ r', evaluate env ts' = .ok r') ∧
      ∀ r r', evaluate env ts = .ok r → evaluate env ts' = .ok r' → r.value = r'.value := by
  intro env
  have htokens := tokens_labels_of_evaluate hev
  obtain ⟨s', hreads, -⟩ := evaluate_eq_ok_iff.mp hev
  have hentry : env.table.get? x = some ⟨ev.value, .real⟩ :=
    (table.get?_write x x ⟨ev.value, .real⟩).trans (if_pos rfl)
  have hvalue : ev.expr.labels.value? env = some ev.value :=
    (ev.expr.labels.value?_write (htokens ▸ hx)).trans hreads.value?_labels
  rw [← htokens] at hts'
  have hiff := exists_evaluate_subst_iff hreads.fits hentry hvalue hts' hopen
  constructor
  · constructor
    · rintro ⟨r, hr⟩
      obtain ⟨r', hr', -⟩ := (hiff r.value).mp ⟨r, hr, rfl⟩
      exact ⟨r', hr'⟩
    · rintro ⟨r', hr'⟩
      obtain ⟨r, hr, -⟩ := (hiff r'.value).mpr ⟨r', hr', rfl⟩
      exact ⟨r, hr⟩
  · intro r r' hr hr'
    obtain ⟨r'', hr'', hvalue'⟩ := (hiff r.value).mp ⟨r, hr, rfl⟩
    obtain rfl : r'' = r' := Except.ok.inj (hr''.symm.trans hr')
    exact hvalue'.symm

/-- The square of a name that has been assigned a sum is nine either way. -/
theorem evaluate_subst_square :
    let e : List Lexeme := [⟨.num "1", 0⟩, ⟨.op .add, 2⟩, ⟨.num "2", 4⟩]
    let ts : List Lexeme := [⟨.ident "x", 0⟩, ⟨.op .mul, 2⟩, ⟨.ident "x", 4⟩]
    let ts' : List Lexeme := [⟨.leftParen, 0⟩, ⟨.num "1", 1⟩, ⟨.op .add, 3⟩, ⟨.num "2", 5⟩,
      ⟨.rightParen, 6⟩, ⟨.op .mul, 8⟩, ⟨.leftParen, 10⟩, ⟨.num "1", 11⟩, ⟨.op .add, 13⟩,
      ⟨.num "2", 15⟩, ⟨.rightParen, 16⟩]
    ∃ ev, evaluate ⟨.empty, .fail⟩ e = .ok ev ∧ .ident "x" ∉ e.map (·.token) ∧
      ts'.map (·.token) = (ts.map (·.token)).flatMap (Token.subst "x" (e.map (·.token))) ∧
      (∀ p, p <+: ts'.map (·.token) → openGroups p ≤ 256) ∧
      let env : Env := ⟨SymbolTable.empty.assign "x" ev, .fail⟩
      (∃ r, evaluate env ts = .ok r ∧ r.value = 9) ∧
      (∃ r', evaluate env ts' = .ok r' ∧ r'.value = 9) ∧
      ((∃ r, evaluate env ts = .ok r) ↔ ∃ r', evaluate env ts' = .ok r') ∧
        ∀ r r', evaluate env ts = .ok r → evaluate env ts' = .ok r' → r.value = r'.value := by
  intro e ts ts'
  obtain ⟨ev, hev, hvalue⟩ : ∃ ev, evaluate ⟨.empty, .fail⟩ e = .ok ev ∧ ev.value = 3 :=
    exists_evaluate_of_map (by decide +kernel)
  have htable : SymbolTable.empty.assign "x" ev = SymbolTable.empty.write "x" ⟨3, .real⟩ := by
    rw [SymbolTable.assign, hvalue]
  have hnamed : ∃ r, evaluate ⟨SymbolTable.empty.write "x" ⟨3, .real⟩, .fail⟩ ts = .ok r ∧
      r.value = 9 := exists_evaluate_of_map (by decide +kernel)
  have hgrouped : ∃ r', evaluate ⟨SymbolTable.empty.write "x" ⟨3, .real⟩, .fail⟩ ts' = .ok r' ∧
      r'.value = 9 := exists_evaluate_of_map (by decide +kernel)
  have hx : .ident "x" ∉ e.map (·.token) := by simp [e]
  have hts' : ts'.map (·.token) =
      (ts.map (·.token)).flatMap (Token.subst "x" (e.map (·.token))) := by
    simp [e, ts, ts', Token.subst]
  let u : LabelTree := .binary .add (.atom (.num "1")) (.atom (.num "2"))
  have hnesting : (LabelTree.binary .mul (.group u) (.group u)).nesting ≤ 256 := by decide
  have hopen : ∀ p, p <+: ts'.map (·.token) → openGroups p ≤ 256 :=
    LabelTree.nesting_le_iff.mp hnesting
  exact ⟨ev, hev, hx, hts', hopen, htable ▸ hnamed, htable ▸ hgrouped,
    evaluate_subst _ _ e ev hev "x" hx ts ts' hts' hopen⟩

end AttrCalc
