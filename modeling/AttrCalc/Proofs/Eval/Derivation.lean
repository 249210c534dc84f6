import AttrCalc.Proofs.Eval.RoundTrip
import AttrCalc.Proofs.Grammar.Arithmetic

/-!
# Evaluations and derivations

The parsers do not follow the grammar literally: they grow chains in a loop where the grammar is
left recursive.  They accept its language nonetheless, as far as groups are not nested too deeply,
names have entries and numerals can be read.  The rules that an evaluation records are the
productions of the one derivation tree of its tokens, and its expression is this tree without unit
productions.

## Main results

* `Eval.Reads.exists_trace` : reading adds the productions of a derivation tree to the trace.
* `evaluate_accepts_iff_derives` : what is evaluated, is derived from the start symbol.
* `evaluate_records_derivation` : the trace and the expression come from the only derivation tree.
-/

namespace AttrCalc

open Eval

variable {env : Env}

/-! ### The trace -/

theorem Atom.productions_derivation (a : Atom) :
    ((LabelTree.atom a).derivation .factor).productions = [a.rule.production] := by
  simp [LabelTree.derivation, Category.above, DerivationTree.productions]

/-- Reading an expression adds the productions of its derivation tree to the trace, though in the
order of the parsers: an operator comes after its left operand. -/
theorem Eval.Reads.exists_trace {room : Nat} {c : Category} {s s' : State} {e : Expr}
    (h : Reads env room c s e s') :
    ∃ rules : List Rule, s'.trace.toList = s.trace.toList ++ rules ∧
      (rules.map Rule.production).Perm (e.labels.derivation c).productions := by
  induction h with
  | @ident _ _ name =>
    refine ⟨[.ident], by simp, ?_⟩
    simp [Expr.labels, Atom.productions_derivation, Atom.rule]
  | @num _ _ text =>
    refine ⟨[.num], by simp, ?_⟩
    simp [Expr.labels, Atom.productions_derivation, Atom.rule]
  | group _ _ _ ih =>
    obtain ⟨rules, htrace, hperm⟩ := ih
    refine ⟨.group :: rules, by simp [htrace], ?_⟩
    simpa [Expr.labels, LabelTree.derivation, Category.above, DerivationTree.productions] using
      hperm
  | operand level h ih =>
    obtain ⟨rules, htrace, hperm⟩ := ih
    refine ⟨level.rule :: rules, by simp [htrace], ?_⟩
    rw [h.fits.derivation_whole]
    simpa [DerivationTree.productions] using hperm
  | @operation room s s₁ s₂ o left right offset rest value _ _ _ _ ihl ihr =>
    obtain ⟨rulesl, htracel, hperml⟩ := ihl
    obtain ⟨rulesr, htracer, hpermr⟩ := ihr
    refine ⟨rulesl ++ o.rule :: rulesr, by simp [htracel, htracer], ?_⟩
    have hnode : ((left.labels.binary o right.labels).derivation o.level.whole).productions =
        o.rule.production :: ((left.labels.derivation o.level.whole).productions ++
          (right.labels.derivation o.level.operand).productions) := by
      simp [LabelTree.derivation_binary, DerivationTree.productions]
    rw [Expr.labels, hnode, List.map_append, List.map_cons]
    exact List.perm_middle.trans ((hperml.append hpermr).cons _)

/-! ### The language that is accepted -/

/-- **The accepted language.** Under IEEE division, an evaluation succeeds just if the kinds of the
tokens can be derived from the start symbol, no more than `256` groups are ever open, every name has
an entry and every numeral can be read. -/
theorem evaluate_accepts_iff_derives (tokens : List Lexeme) (table : SymbolTable) :
    (∃ ev, evaluate ⟨table, .ieee⟩ tokens = .ok ev) ↔
      arithmetic.Derives ["E"] (tokens.map fun l => l.token.kind) ∧
      (∀ p, p <+: tokens.map (·.token) → openGroups p ≤ 256) ∧
      (∀ name, .ident name ∈ tokens.map (·.token) → table.contains name) ∧
      ∀ text, .num text ∈ tokens.map (·.token) → (Decimal.read? text).isSome := by
  have hkinds : (tokens.map fun l => l.token.kind) = (tokens.map (·.token)).map Token.kind := by
    rw [List.map_map, Function.comp_def]
  rw [hkinds]
  constructor
  · rintro ⟨ev, hev⟩
    obtain ⟨s', hreads, -⟩ := evaluate_eq_ok_iff.mp hev
    rw [← tokens_labels_of_evaluate hev]
    refine ⟨derives_kind_iff.mpr ⟨_, hreads.fits, rfl⟩, fun p hp => ?_,
      fun name hname => hreads.readable _ hname, fun text htext => hreads.readable _ htext⟩
    have hopen := ev.expr.labels.openGroups_le_nesting p hp
    have hnesting : ev.expr.labels.nesting ≤ 256 := hreads.nesting_le
    omega
  · rintro ⟨hderives, hopen, hnames, hnumerals⟩
    obtain ⟨t, ht, htokens⟩ := (derives_kind_iff (c := .sum)).mp hderives
    obtain ⟨p, hp, hpopen⟩ := t.exists_prefix_openGroups_eq
    have hnesting : t.nesting ≤ maxDepth := by
      have hle := hopen p (htokens ▸ hp)
      rw [hpopen] at hle
      exact Int.ofNat_le.mp hle
    have hreadable : ∀ a ∈ t.tokens, a.Readable table := by
      rw [htokens]
      intro a ha
      cases a with
      | num text => exact hnumerals text ha
      | ident name => exact hnames name ha
      | op | leftParen | rightParen => trivial
    obtain ⟨ev, hev, -⟩ := ht.exists_evaluate hnesting hreadable htokens.symm
    exact ⟨ev, hev⟩

/-! ### The derivation tree of an evaluation -/

/-- The derivation tree of the evaluated expression is the only one over its tokens. -/
theorem isTreeOf_iff_of_evaluate {tokens : List Lexeme} {ev : Evaluation}
    (h : evaluate env tokens = .ok ev) {d : DerivationTree} :
    d.IsTreeOf arithmetic "E" (tokens.map fun l => l.token.kind) ↔
      d = ev.expr.labels.derivation .sum := by
  obtain ⟨s', hreads, -⟩ := evaluate_eq_ok_iff.mp h
  have hkinds : (tokens.map fun l => l.token.kind) = ev.expr.labels.tokens.map Token.kind := by
    rw [tokens_labels_of_evaluate h, List.map_map, Function.comp_def]
  rw [hkinds]
  constructor
  · intro hd
    obtain ⟨t, ht, htokens, rfl⟩ := isDerivation_of_valid hd.valid (c := .sum) hd
    rw [hreads.fits.eq_of_tokens_eq ht htokens.symm hreads.readable]
  · rintro rfl
    exact hreads.fits.isTreeOf_derivation

/-- **The trace records the derivation.** The kinds of the tokens of an evaluation have exactly one
derivation tree.  The productions of the recorded rules are those of this tree, each as often as it
is used, and the expression is what this tree is without unit productions. -/
theorem evaluate_records_derivation (env : Env) (tokens : List Lexeme) (ev : Evaluation)
    (h : evaluate env tokens = .ok ev) :
    (∃! d : DerivationTree, d.IsTreeOf arithmetic "E" (tokens.map fun l => l.token.kind)) ∧
    ∀ d : DerivationTree, d.IsTreeOf arithmetic "E" (tokens.map fun l => l.token.kind) →
      (ev.trace.toList.map Rule.production).Perm d.productions ∧
        d.contract arithmetic = ev.expr.labels.skeleton := by
  refine ⟨⟨ev.expr.labels.derivation .sum, (isTreeOf_iff_of_evaluate h).mpr rfl,
    fun d hd => (isTreeOf_iff_of_evaluate h).mp hd⟩, fun d hd => ?_⟩
  obtain rfl := (isTreeOf_iff_of_evaluate h).mp hd
  obtain ⟨s', hreads, -, htrace⟩ := evaluate_eq_ok_iff.mp h
  obtain ⟨rules, hrules, hperm⟩ := hreads.exists_trace
  refine ⟨?_, ev.expr.labels.contract_derivation .sum⟩
  rw [← htrace, hrules]
  exact hperm

/-- A product behind a sum in a group is evaluated with one derivation tree. -/
theorem evaluate_records_derivation_product :
    let tokens : List Lexeme := [⟨.leftParen, 0⟩, ⟨.num "1", 1⟩, ⟨.op .add, 3⟩, ⟨.num "2", 5⟩,
      ⟨.rightParen, 6⟩, ⟨.op .mul, 8⟩, ⟨.num "3", 10⟩]
    ∃ ev, evaluate ⟨.empty, .ieee⟩ tokens = .ok ev ∧
      (∃! d : DerivationTree, d.IsTreeOf arithmetic "E" (tokens.map fun l => l.token.kind)) ∧
      ∀ d : DerivationTree, d.IsTreeOf arithmetic "E" (tokens.map fun l => l.token.kind) →
        (ev.trace.toList.map Rule.production).Perm d.productions ∧
          d.contract arithmetic = ev.expr.labels.skeleton := by
  intro tokens
  let t : LabelTree := .binary .mul
    (.group (.binary .add (.atom (.num "1")) (.atom (.num "2")))) (.atom (.num "3"))
  have hcanonical : t.Canonical := by
    simp [t, LabelTree.Canonical, LabelTree.IsOperation, Operator.level]
  have hnumeral : (Decimal.read? "1").isSome ∧ (Decimal.read? "2").isSome ∧
      (Decimal.read? "3").isSome := by decide +kernel
  have hreadable : ∀ a ∈ t.tokens, a.Readable .empty := by
    simpa [t, LabelTree.tokens, Atom.token, Token.Readable] using hnumeral
  have htokens : tokens.map (·.token) = t.tokens := rfl
  obtain ⟨ev, hev, -⟩ :=
    (fits_sum_iff.mpr hcanonical).exists_evaluate (by decide) hreadable htokens
  exact ⟨ev, hev, evaluate_records_derivation _ _ _ hev⟩

end AttrCalc
