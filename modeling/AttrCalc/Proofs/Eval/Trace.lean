import AttrCalc.Proofs.Eval.Reads

/-!
# The trace, token by token

Every token that is read leaves its mark on the trace.  A parser applies the rules of the levels
that it enters before it reads anything; from then on a level is entered behind a parenthesis that
opens a group or behind an operator of the loosest level, so the rules that are applied can be read
off the tokens one after the other.  This holds wherever an evaluation stops, also at an error.

## Main definitions

* `Token.rules` : the rules that are applied when a token has been read.
* `Category.entry` : the rules of the levels that are entered at a place.
* `Eval.Records` : from one state to another, the rules of the lexemes between them are recorded.

## Main results

* `Eval.records_run` : a parser records the rules of what it reads, whatever it answers.
* `evaluate_trace_eq_rules` : the trace of an evaluation, up to its end or its error.
-/

namespace AttrCalc

open Eval

/-- The rules that are applied when a token has been read: its own, and those of the levels entered
behind it. -/
def Token.rules : Token → List Rule
  | op .add => [.add, .ofFactor]
  | op .sub => [.sub, .ofFactor]
  | op .mul => [.mul]
  | op .div => [.div]
  | leftParen => [.group, .ofTerm, .ofFactor]
  | rightParen => []
  | num _ => [.num]
  | ident _ => [.ident]

/-- The rules of the levels that are entered at a place, the loosest one first. -/
def Category.entry : Category → List Rule
  | sum => [.ofTerm, .ofFactor]
  | product => [.ofFactor]
  | factor => []

theorem Level.entry_whole (level : Level) :
    level.whole.entry = level.rule :: level.operand.entry := by
  cases level <;> rfl

theorem Token.rules_op (o : Operator) : (op o).rules = o.rule :: o.level.operand.entry := by
  cases o <;> rfl

namespace Eval

/-! ### Records -/

/-- What is read from state `s` to state `s'` is recorded: after the rules of an entry, those of the
lexemes, one after the other. -/
def Records (entry : List Rule) (s s' : State) : Prop :=
  ∃ ls, s.rest = ls ++ s'.rest ∧
    s'.trace.toList = s.trace.toList ++ entry ++ ls.flatMap fun l => l.token.rules

variable {env : Env} {room : Nat} {entry : List Rule} {s s' s₁ : State} {l : Lexeme}
  {rest : List Lexeme} {rule : Rule}

namespace Records

theorem refl (s : State) : Records [] s s :=
  ⟨[], rfl, by simp⟩

theorem trans (h : Records entry s s₁) (h' : Records [] s₁ s') : Records entry s s' := by
  obtain ⟨ls, hrest, htrace⟩ := h
  obtain ⟨ls', hrest', htrace'⟩ := h'
  refine ⟨ls ++ ls', by rw [hrest, hrest', List.append_assoc], ?_⟩
  rw [htrace', htrace, List.flatMap_append]
  simp only [List.append_assoc, List.nil_append]

theorem subset (h : Records entry s s') : s'.rest ⊆ s.rest := by
  obtain ⟨ls, hrest, -⟩ := h
  rw [hrest]
  exact List.subset_append_right ls _

/-- A level is entered. -/
theorem fire (h : Records entry (s.fire rule) s') : Records (rule :: entry) s s' := by
  obtain ⟨ls, hrest, htrace⟩ := h
  exact ⟨ls, hrest, by simp [htrace]⟩

/-- A lexeme is read, which leads into an entry. -/
theorem read (hs : s.rest = l :: rest) (hl : l.token.rules = rule :: entry)
    (h : Records entry (s.read rest rule) s') : Records [] s s' := by
  obtain ⟨ls, hrest, htrace⟩ := h
  rw [State.rest_read] at hrest
  exact ⟨l :: ls, by rw [hs, hrest, List.cons_append], by simp [htrace, hl]⟩

/-- A lexeme that has no rules is read. -/
theorem skip (hs : s.rest = l :: rest) (hl : l.token.rules = []) :
    Records [] s { s with rest := rest } :=
  ⟨[l], hs, by simp [hl]⟩

/-- Giving away an identifier records nothing. -/
theorem numbered (h : Records entry s s') : Records entry s s'.numbered :=
  h

end Records

/-! ### The parsers -/

/-- A chain goes on with operators, each of which is read in front of a further operand. -/
theorem records_extend {level : Level} {operand : Parser}
    (hoperand : ∀ s, Records level.operand.entry s (operand.run s).2) (left : Expr) (s : State) :
    Records [] s (Parser.extend env level operand left s).2 := by
  fun_induction Parser.extend env level operand left s with
  | case1 left s o offset rest hs ho right s₁ hr value hvalue ih =>
    subst ho
    have hright := hoperand (s.read rest o.rule)
    rw [hr] at hright
    exact (Records.read hs (Token.rules_op o) hright).trans ih
  | case2 left s o offset rest hs ho right s₁ hr hvalue =>
    subst ho
    have hright := hoperand (s.read rest o.rule)
    rw [hr] at hright
    exact Records.read hs (Token.rules_op o) hright
  | case3 left s o offset rest hs ho e s₁ hr =>
    subst ho
    have hright := hoperand (s.read rest o.rule)
    rw [hr] at hright
    exact Records.read hs (Token.rules_op o) hright
  | case4 | case5 => exact Records.refl _

theorem records_chain (level : Level) {operand : Parser}
    (hoperand : ∀ s, Records level.operand.entry s (operand.run s).2) (s : State) :
    Records level.whole.entry s ((Parser.chain env level operand).run s).2 := by
  have hleft := hoperand (s.fire level.rule)
  rw [Level.entry_whole]
  simp only [Parser.chain]
  split
  · next left s₁ hr =>
    rw [hr] at hleft
    exact hleft.fire.trans (records_extend hoperand left s₁)
  · next e s₁ hr =>
    rw [hr] at hleft
    exact hleft.fire

theorem records_closeGroup {offset : Nat} {r : Reply} (h : Records entry s r.2) :
    Records entry s (Parser.closeGroup offset r).2 := by
  unfold Parser.closeGroup
  split
  · next inner s₁ =>
    split
    · next offset' rest hs₁ => exact h.trans (Records.skip hs₁ rfl).numbered
    · exact h
    · exact h
  · exact h

theorem records_readFactor {inner? : Option Parser}
    (hinner : ∀ inner ∈ inner?, ∀ s, Records Category.sum.entry s (inner.run s).2) (s : State) :
    Records [] s (Parser.readFactor env inner? s).2 := by
  unfold Parser.readFactor
  split
  · exact Records.refl s
  · next offset rest hs =>
    split
    · next inner =>
      exact Records.read hs rfl (records_closeGroup (hinner inner rfl (s.read rest .group)))
    · exact Records.refl s
  · next name offset rest hs =>
    have hread : Records [] s (s.read rest .ident) := Records.read hs rfl (Records.refl _)
    dsimp only
    split
    · exact hread.numbered
    · exact hread
  · next text offset rest hs =>
    have hread : Records [] s (s.read rest .num) := Records.read hs rfl (Records.refl _)
    dsimp only
    split
    · exact hread.numbered
    · exact hread
  · exact Records.refl s

/-- A parser records the rules of what it reads, whatever it answers. -/
theorem records_run (env : Env) (room : Nat) (c : Category) (s : State) :
    Records c.entry s ((c.parser env room).run s).2 := by
  induction room, c using parser_induction generalizing s with
  | whole room level ih =>
    rw [Level.parser_whole]
    exact records_chain level ih s
  | zero => exact records_readFactor (by simp) s
  | succ room ih =>
    refine records_readFactor ?_ s
    rintro inner ⟨⟩
    exact ih

theorem records_parse (env : Env) (tokens : List Lexeme) :
    Records Category.sum.entry (.start tokens) (parse env tokens).2 := by
  have hsum := records_run env maxDepth .sum (.start tokens)
  unfold parse
  split
  · next e s hr =>
    rw [Category.parser, hr] at hsum
    split <;> exact hsum
  · next e s hr =>
    rw [Category.parser, hr] at hsum
    exact hsum

end Eval

/-- **The trace is an image of the tokens.** An evaluation enters the two levels and then applies
the rules of its tokens, one after the other; if it fails, these are the tokens that it has read up
to its error. -/
theorem evaluate_trace_eq_rules (env : Env) (tokens : List Lexeme) :
    match evaluate env tokens with
    | .ok ev =>
      ev.trace.toList = [.ofTerm, .ofFactor] ++ tokens.flatMap fun l => l.token.rules
    | .error _ => ∃ consumed, tokens = consumed ++ (parse env tokens).2.rest ∧
      (fired env tokens).toList =
        [.ofTerm, .ofFactor] ++ consumed.flatMap fun l => l.token.rules := by
  obtain ⟨consumed, hrest, htrace⟩ := records_parse env tokens
  have hconsumed : tokens = consumed ++ (parse env tokens).2.rest := hrest
  split
  · next ev hev =>
    obtain ⟨s', hreads, hnil, hev'⟩ := evaluate_eq_ok_iff.mp hev
    have hparse : parse env tokens = (.ok ev.expr, s') := parse_eq_ok_iff.mpr ⟨hreads, hnil⟩
    rw [hparse] at htrace hconsumed
    rw [hnil, List.append_nil] at hconsumed
    rw [← hev', htrace, hconsumed]
    rfl
  · exact ⟨consumed, hconsumed, htrace⟩

end AttrCalc
