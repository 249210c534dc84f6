import AttrCalc.Proofs.Eval.Value

/-!
# Reading back what is written

An evaluation undoes writing.  The labels of the expression that it returns give the tokens that it
was given, and are canonical; the tokens of a canonical tree evaluate to an expression with the
labels of the tree, if its names have entries, its numerals can be read and its groups are not
nested too deeply.  So a canonical tree is determined by its tokens.

## Main definitions

* `Token.Readable` : a name with an entry, a numeral that can be read, or a token of another kind.

## Main results

* `Eval.Reads.exists_lexemes` : what is read, is written in front of what is left.
* `Fits.exists_reads` : what fits a place and is written with readable tokens, is read there.
* `evaluate_inverts_tokens` : evaluating and writing are inverse to one another.
-/

namespace AttrCalc

open Eval

/-- A name has an entry, and a numeral can be read as a number. -/
def Token.Readable (table : SymbolTable) : Token → Prop
  | num text => (Decimal.read? text).isSome
  | ident name => table.contains name
  | _ => True

@[simp] theorem DivisionPolicy.apply?_ieee (o : Operator) (l r : Float) :
    DivisionPolicy.ieee.apply? o l r = some (o.apply l r) :=
  rfl

variable {env : Env} {room : Nat} {c : Category} {s s' : State} {e : Expr}

/-! ### What is read, is written -/

namespace Eval.Reads

theorem exists_lexemes (h : Reads env room c s e s') :
    ∃ ls, s.rest = ls ++ s'.rest ∧ ls.map (·.token) = e.labels.tokens := by
  induction h with
  | ident hs => exact ⟨[_], hs, rfl⟩
  | num hs => exact ⟨[_], hs, rfl⟩
  | @group room s s₁ inner offset offset' rest rest' hs _ hs₁ ih =>
    obtain ⟨ls, hls, htokens⟩ := ih
    refine ⟨⟨.leftParen, offset⟩ :: (ls ++ [⟨.rightParen, offset'⟩]), ?_, ?_⟩
    · rw [State.rest_read, hs₁] at hls
      rw [hs, hls, List.cons_append, List.append_assoc]
      rfl
    · simp [Expr.labels, LabelTree.tokens, htokens]
  | operand _ _ ih => exact ih
  | @operation room s s₁ s₂ o left right offset rest value _ hs₁ _ _ ihl ihr =>
    obtain ⟨ls, hls, hltokens⟩ := ihl
    obtain ⟨rs, hrs, hrtokens⟩ := ihr
    refine ⟨ls ++ ⟨.op o, offset⟩ :: rs, ?_, ?_⟩
    · rw [State.rest_read] at hrs
      rw [hls, hs₁, hrs, State.rest_numbered, List.append_assoc, List.cons_append]
    · simp [Expr.labels, LabelTree.tokens, hltokens, hrtokens]

theorem fits (h : Reads env room c s e s') : Fits c e.labels := by
  induction h with
  | ident => exact .atom _
  | num => exact .atom _
  | group _ _ _ ih => exact .group ih
  | operand level _ ih => exact .operand level ih
  | operation _ _ _ _ ihl ihr => exact .operation ihl ihr

theorem nesting_le (h : Reads env room c s e s') : e.labels.nesting ≤ room := by
  induction h with
  | ident => exact Nat.zero_le _
  | num => exact Nat.zero_le _
  | group _ _ _ ih => exact Nat.succ_le_succ ih
  | operand _ _ ih => exact ih
  | operation _ _ _ _ ihl ihr => exact Nat.max_le.mpr ⟨ihl, ihr⟩

theorem readable (h : Reads env room c s e s') :
    ∀ a ∈ e.labels.tokens, a.Readable env.table := by
  induction h with
  | ident _ hentry =>
    simp [Expr.labels, LabelTree.tokens, Atom.token, Token.Readable, SymbolTable.contains, hentry]
  | num _ hvalue => simp [Expr.labels, LabelTree.tokens, Atom.token, Token.Readable, hvalue]
  | group _ _ _ ih =>
    intro a ha
    simp only [Expr.labels, LabelTree.tokens, List.cons_append, List.mem_cons, List.mem_append,
      List.not_mem_nil, or_false] at ha
    rcases ha with rfl | ha | rfl
    · trivial
    · exact ih a ha
    · trivial
  | operand _ _ ih => exact ih
  | operation _ _ _ _ ihl ihr =>
    intro a ha
    rcases List.mem_append.mp ha with ha | ha
    · exact ihl a ha
    · rcases List.mem_cons.mp ha with rfl | ha
      · trivial
      · exact ihr a ha

end Eval.Reads

/-! ### What is written, is read -/

/-- A tree that is written with readable tokens has a value under IEEE division. -/
theorem LabelTree.exists_value_of_readable {table : SymbolTable} :
    (t : LabelTree) → (∀ a ∈ t.tokens, a.Readable table) → ∃ v, t.value? ⟨table, .ieee⟩ = some v
  | .atom (.num _), h => Option.isSome_iff_exists.mp (h _ List.mem_cons_self)
  | .atom (.ident _), h => by
    obtain ⟨entry, hentry⟩ := Option.isSome_iff_exists.mp (h _ List.mem_cons_self)
    exact ⟨entry.value, by simp [value?, Atom.value?, hentry]⟩
  | .group inner, h => exists_value_of_readable inner fun a ha => h a (by simp [tokens, ha])
  | .binary o left right, h => by
    obtain ⟨l, hl⟩ := exists_value_of_readable left fun a ha => h a (by simp [tokens, ha])
    obtain ⟨r, hr⟩ := exists_value_of_readable right fun a ha => h a (by simp [tokens, ha])
    exact ⟨o.apply l r, value?_binary_eq_some_iff.mpr ⟨l, r, hl, hr, rfl⟩⟩

/-- What fits a place and is written with readable tokens, is read there, whatever is left behind
it. -/
theorem Fits.exists_reads {t : LabelTree} (h : Fits c t) (hnesting : t.nesting ≤ room)
    {table : SymbolTable} (hreadable : ∀ a ∈ t.tokens, a.Readable table) {ls rest : List Lexeme}
    (hls : ls.map (·.token) = t.tokens) (hs : s.rest = ls ++ rest) :
    ∃ e s', Reads ⟨table, .ieee⟩ room c s e s' ∧ s'.rest = rest ∧ e.labels = t := by
  obtain ⟨v, hvalue⟩ := t.exists_value_of_readable hreadable
  exact h.exists_reads_of_value hnesting hvalue hls hs

/-! ### Whole expressions -/

theorem tokens_labels_of_evaluate {tokens : List Lexeme} {ev : Evaluation}
    (h : evaluate env tokens = .ok ev) : ev.expr.labels.tokens = tokens.map (·.token) := by
  obtain ⟨s', hreads, hrest, -⟩ := evaluate_eq_ok_iff.mp h
  obtain ⟨ls, hls, htokens⟩ := hreads.exists_lexemes
  rw [hrest, List.append_nil] at hls
  have hstart : (State.start tokens).rest = tokens := rfl
  rw [← htokens, ← hls, hstart]

theorem Fits.exists_evaluate {t : LabelTree} (h : Fits .sum t) (hnesting : t.nesting ≤ maxDepth)
    {table : SymbolTable} (hreadable : ∀ a ∈ t.tokens, a.Readable table) {tokens : List Lexeme}
    (htokens : tokens.map (·.token) = t.tokens) :
    ∃ ev, evaluate ⟨table, .ieee⟩ tokens = .ok ev ∧ ev.expr.labels = t := by
  obtain ⟨v, hvalue⟩ := t.exists_value_of_readable hreadable
  exact h.exists_evaluate_of_value hnesting hvalue htokens

/-- **A canonical tree is determined by its tokens**, if they are readable: the parser finds both
trees in them. -/
theorem Fits.eq_of_tokens_eq {t u : LabelTree} (ht : Fits .sum t) (hu : Fits .sum u)
    (htokens : t.tokens = u.tokens) {table : SymbolTable}
    (hreadable : ∀ a ∈ t.tokens, a.Readable table) : t = u := by
  have hls : (t.tokens.map fun a => Lexeme.mk a 0).map (·.token) = t.tokens := by
    simp [Function.comp_def]
  obtain ⟨e, s, hreads, hrest, rfl⟩ :=
    ht.exists_reads (s := .start _) (Nat.le_max_left t.nesting u.nesting) hreadable hls
      (List.append_nil _).symm
  obtain ⟨e', s', hreads', hrest', rfl⟩ :=
    hu.exists_reads (s := .start _) (Nat.le_max_right e.labels.nesting u.nesting)
      (htokens ▸ hreadable) (hls.trans htokens) (List.append_nil _).symm
  have hends {s : State} (hrest : s.rest = []) : Category.sum.Ends s.rest := by
    rw [hrest]
    exact ⟨not_false, not_false⟩
  have hrun := run_eq_ok_iff.mpr ⟨hreads, hends hrest⟩
  have hrun' := run_eq_ok_iff.mpr ⟨hreads', hends hrest'⟩
  obtain ⟨rfl, -⟩ : e = e' ∧ s = s' := by simpa using hrun.symm.trans hrun'
  rfl

/-- **Reading and writing are inverse.** The labels of an evaluated expression are canonical and
give back the tokens, one for one.  Conversely the tokens of a canonical tree with at most `256`
groups inside one another evaluate to an expression with its labels, in every table that has its
names, if its numerals can be read. -/
theorem evaluate_inverts_tokens :
    (∀ (env : Env) (tokens : List Lexeme) (ev : Evaluation), evaluate env tokens = .ok ev →
      ev.expr.labels.Canonical ∧ ev.expr.labels.tokens = tokens.map (·.token)) ∧
    ∀ (t : LabelTree) (table : SymbolTable) (tokens : List Lexeme),
      t.Canonical → t.nesting ≤ 256 →
      (∀ name, .ident name ∈ t.tokens → table.contains name) →
      (∀ text, .num text ∈ t.tokens → (Decimal.read? text).isSome) →
      tokens.map (·.token) = t.tokens →
      ∃ ev, evaluate ⟨table, .ieee⟩ tokens = .ok ev ∧ ev.expr.labels = t := by
  constructor
  · intro env tokens ev h
    obtain ⟨s', hreads, -⟩ := evaluate_eq_ok_iff.mp h
    exact ⟨hreads.fits.canonical.1, tokens_labels_of_evaluate h⟩
  · intro t table tokens hcanonical hnesting hnames hnumerals htokens
    have hreadable : ∀ a ∈ t.tokens, a.Readable table := by
      intro a ha
      cases a with
      | num text => exact hnumerals text ha
      | ident name => exact hnames name ha
      | op | leftParen | rightParen => trivial
    exact (fits_sum_iff.mpr hcanonical).exists_evaluate hnesting hreadable htokens

/-- A chain of differences with a quotient in a group is written and read back. -/
theorem evaluate_inverts_tokens_chain :
    let t : LabelTree := .binary .sub (.binary .sub (.atom (.num "8")) (.atom (.num "3")))
      (.group (.binary .div (.atom (.ident "x")) (.atom (.num "2"))))
    let table := SymbolTable.empty.write "x" ⟨4, .int⟩
    let tokens : List Lexeme := [⟨.num "8", 0⟩, ⟨.op .sub, 2⟩, ⟨.num "3", 4⟩, ⟨.op .sub, 6⟩,
      ⟨.leftParen, 8⟩, ⟨.ident "x", 9⟩, ⟨.op .div, 11⟩, ⟨.num "2", 13⟩, ⟨.rightParen, 14⟩]
    t.Canonical ∧ t.nesting ≤ 256 ∧ (∀ name, .ident name ∈ t.tokens → table.contains name) ∧
      (∀ text, .num text ∈ t.tokens → (Decimal.read? text).isSome) ∧
      tokens.map (·.token) = t.tokens ∧
      ∃ ev, evaluate ⟨table, .ieee⟩ tokens = .ok ev ∧ ev.expr.labels = t ∧
        ev.expr.labels.Canonical ∧ ev.expr.labels.tokens = tokens.map (·.token) := by
  intro t table tokens
  have hcanonical : t.Canonical := by
    simp [t, LabelTree.Canonical, LabelTree.IsOperation, Operator.level]
  have hnesting : t.nesting ≤ 256 := by decide
  have hname : table.contains "x" := by decide
  have hnumeral : (Decimal.read? "8").isSome ∧ (Decimal.read? "3").isSome ∧
      (Decimal.read? "2").isSome := by decide +kernel
  have hnames : ∀ name, .ident name ∈ t.tokens → table.contains name := by
    simpa [t, LabelTree.tokens, Atom.token] using hname
  have hnumerals : ∀ text, .num text ∈ t.tokens → (Decimal.read? text).isSome := by
    simpa [t, LabelTree.tokens, Atom.token] using hnumeral
  obtain ⟨ev, hev, hlabels⟩ :=
    evaluate_inverts_tokens.2 t table tokens hcanonical hnesting hnames hnumerals rfl
  exact ⟨hcanonical, hnesting, hnames, hnumerals, rfl, ev, hev, hlabels,
    evaluate_inverts_tokens.1 ⟨table, .ieee⟩ tokens ev hev⟩

end AttrCalc
