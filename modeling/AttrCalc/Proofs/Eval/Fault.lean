import AttrCalc.Proofs.Eval.RoundTrip
import AttrCalc.Proofs.Grammar.Viable

/-!
# Where an evaluation stops

The parsers read lexemes from left to right as long as an expression can begin with what they have
read.  So they stop at the first lexeme that cannot come next, or at the end, if something is
missing there, unless before that a group is opened that is one too many, or a name or numeral
cannot be read.  Each error names its cause and the place.

## Main definitions

* `Eval.Position` : how far the lexemes have been read, and what they await there.
* `Eval.Fault` : the cause of an error at a position.
* `EvalError.Accurate` : what an error says about the lexemes, in terms of the grammar.

## Main results

* `Eval.faultsCaused` : the errors of the parsers have their cause at the position that they reach.
* `evaluate_error_accurate` : what an error says is true.
-/

namespace AttrCalc

namespace Eval

/-! ### Positions -/

/-- The lexemes are read up to those that are left over: what has been read can be the beginning of
an expression, with the given progress, and its names and numerals can be read. -/
def Position (table : SymbolTable) (tokens : List Lexeme) (st : Progress) (rest : List Lexeme) :
    Prop :=
  ∃ before, before ++ rest = tokens ∧ progress before = some st ∧
    ∀ l ∈ before, l.token.Readable table

variable {env : Env} {table : SymbolTable} {tokens rest : List Lexeme} {st st' : Progress}
  {l : Lexeme} {opened : List Lexeme} {room : Nat} {s s' : State} {e : Expr} {err : EvalError}

theorem position_start (table : SymbolTable) (tokens : List Lexeme) :
    Position table tokens ⟨.operand, []⟩ tokens :=
  ⟨[], rfl, rfl, by simp⟩

theorem Position.step (h : Position table tokens st (l :: rest)) (hl : st.step l = some st')
    (hreadable : l.token.Readable table) : Position table tokens st' rest := by
  obtain ⟨before, htokens, hprogress, hbefore⟩ := h
  refine ⟨before ++ [l], by simpa using htokens, ?_, ?_⟩
  · rw [progress_concat, hprogress, Option.bind_some, hl]
  · simpa [or_imp, forall_and] using ⟨hbefore, hreadable⟩

theorem Position.mem (h : Position table tokens st (l :: rest)) : l ∈ tokens := by
  obtain ⟨before, rfl, -⟩ := h
  simp

/-- Reading an expression leads from an operand to an operator. -/
theorem Position.reads {c : Category} (h : Position env.table tokens ⟨.operand, opened⟩ s.rest)
    (hreads : Reads env room c s e s') : Position env.table tokens ⟨.operator, opened⟩ s'.rest := by
  obtain ⟨before, htokens, hprogress, hbefore⟩ := h
  obtain ⟨ls, hrest, hls⟩ := hreads.exists_lexemes
  refine ⟨before ++ ls, by rw [List.append_assoc, ← hrest, htokens], ?_, ?_⟩
  · rw [progress] at hprogress
    rw [progress, Progress.run_append, hprogress, Option.bind_some,
      Progress.run_tokens e.labels opened ls hls]
  · intro l hl
    rcases List.mem_append.mp hl with hl | hl
    · exact hbefore l hl
    · exact hreads.readable _ (hls ▸ List.mem_map_of_mem hl)

/-! ### Causes of errors -/

/-- The cause of an error at a position: a lexeme that cannot come next, inside a group or an
operand or behind a whole expression; the end, in front of an operand or inside a group; a group
that is one too many; a name or a numeral that cannot be read.  The cause of a division by zero is
in the values. -/
inductive Fault (table : SymbolTable) (tokens : List Lexeme) : EvalError → Prop
  | unexpectedToken {st : Progress} {l : Lexeme} {rest : List Lexeme}
      (h : Position table tokens st (l :: rest)) (hl : st.step l = none)
      (hst : st ≠ ⟨.operator, []⟩) :
      Fault table tokens (.unexpectedToken l.token.spelling l.offset)
  | trailingInput {l : Lexeme} {rest : List Lexeme}
      (h : Position table tokens ⟨.operator, []⟩ (l :: rest))
      (hl : Progress.step ⟨.operator, []⟩ l = none) :
      Fault table tokens (.trailingInput l.token.spelling l.offset)
  | unexpectedEnd {opened : List Lexeme} (h : Position table tokens ⟨.operand, opened⟩ []) :
      Fault table tokens .unexpectedEnd
  | unclosedParen {opened : List Lexeme} {offset : Nat}
      (h : Position table tokens ⟨.operator, ⟨.leftParen, offset⟩ :: opened⟩ []) :
      Fault table tokens (.unclosedParen offset)
  | tooDeep {opened : List Lexeme} {offset : Nat} {rest : List Lexeme}
      (h : Position table tokens ⟨.operand, opened⟩ (⟨.leftParen, offset⟩ :: rest))
      (hopened : opened.length = maxDepth) : Fault table tokens (.tooDeep offset maxDepth)
  | unresolved {opened : List Lexeme} {name : String} {offset : Nat} {rest : List Lexeme}
      (h : Position table tokens ⟨.operand, opened⟩ (⟨.ident name, offset⟩ :: rest))
      (hname : table.get? name = none) : Fault table tokens (.unresolved name offset)
  | badNumber {opened : List Lexeme} {text : String} {offset : Nat} {rest : List Lexeme}
      (h : Position table tokens ⟨.operand, opened⟩ (⟨.num text, offset⟩ :: rest))
      (htext : Decimal.read? text = none) : Fault table tokens (.badNumber text offset)
  | divisionByZero (offset : Nat) : Fault table tokens (.divisionByZero offset)

/-- Where an expression ends, the next lexeme cannot come next, unless it closes a group. -/
theorem step_eq_none_of_ends (hends : Category.sum.Ends (l :: rest))
    (hright : l.token = .rightParen → opened = []) :
    Progress.step ⟨.operator, opened⟩ l = none := by
  obtain ⟨token, offset⟩ := l
  cases token with
  | op o => cases ho : o.level <;> simp [Category.Ends, Continues, ho] at hends
  | rightParen =>
    obtain rfl := hright rfl
    rfl
  | leftParen | num | ident => rfl

/-! ### The errors of the parsers -/

/-- The errors of the parser for a place have their cause, if it starts in front of an operand. -/
def FaultsCaused (env : Env) (tokens : List Lexeme) (room : Nat) (c : Category) : Prop :=
  ∀ ⦃opened : List Lexeme⦄ ⦃s : State⦄ ⦃err : EvalError⦄ ⦃s' : State⦄,
    opened.length + room = maxDepth → Position env.table tokens ⟨.operand, opened⟩ s.rest →
      (c.parser env room).run s = (.error err, s') → Fault env.table tokens err

/-- A chain goes on in front of an operator, and reads a further operand behind it. -/
theorem fault_of_extend {level : Level} (hoperand : FaultsCaused env tokens room level.operand)
    {left : Expr} (hroom : opened.length + room = maxDepth)
    (hposition : Position env.table tokens ⟨.operator, opened⟩ s.rest)
    (h : Parser.extend env level (level.operand.parser env room) left s = (.error err, s')) :
    Fault env.table tokens err := by
  fun_induction Parser.extend env level (level.operand.parser env room) left s with
  | case1 left s o offset rest hs ho right s₁ hr value hvalue ih =>
    rw [hs] at hposition
    have hread : Position env.table tokens ⟨.operand, opened⟩ (s.read rest o.rule).rest :=
      hposition.step rfl trivial
    have hread₁ : Position env.table tokens ⟨.operator, opened⟩ s₁.rest :=
      hread.reads (reads_of_run hr).1
    exact ih hread₁ h
  | case2 left s o offset rest hs ho right s₁ hr hvalue =>
    obtain ⟨rfl, rfl⟩ : EvalError.divisionByZero offset = err ∧ s₁ = s' := by simpa using h
    exact .divisionByZero offset
  | case3 left s o offset rest hs ho e s₁ hr =>
    obtain ⟨rfl, rfl⟩ : e = err ∧ s₁ = s' := by simpa using h
    rw [hs] at hposition
    have hread : Position env.table tokens ⟨.operand, opened⟩ (s.read rest o.rule).rest :=
      hposition.step rfl trivial
    exact hoperand hroom hread hr
  | case4 | case5 => simp at h

theorem faultsCaused_whole (level : Level) (hoperand : FaultsCaused env tokens room level.operand) :
    FaultsCaused env tokens room level.whole := by
  intro opened s err s' hroom hposition h
  rw [Level.parser_whole] at h
  simp only [Parser.chain] at h
  have hfired : Position env.table tokens ⟨.operand, opened⟩ (s.fire level.rule).rest := hposition
  split at h
  · next left s₁ hleft =>
    exact fault_of_extend hoperand hroom (hfired.reads (reads_of_run hleft).1) h
  · next e s₁ he =>
    obtain ⟨rfl, rfl⟩ : e = err ∧ s₁ = s' := by simpa using h
    exact hoperand hroom hfired he

/-- A group is closed by what comes next, or else the next lexeme or the end is the cause. -/
theorem fault_of_closeGroup (opened : List Lexeme) {offset : Nat} {r : Reply}
    (hposition : ∀ e s, r = (.ok e, s) →
      Position env.table tokens ⟨.operator, ⟨.leftParen, offset⟩ :: opened⟩ s.rest ∧
        Category.sum.Ends s.rest)
    (hinner : ∀ err s, r = (.error err, s) → Fault env.table tokens err)
    (h : Parser.closeGroup offset r = (.error err, s')) : Fault env.table tokens err := by
  unfold Parser.closeGroup at h
  split at h
  · next inner s₁ =>
    obtain ⟨hs₁, hends⟩ := hposition inner s₁ rfl
    split at h
    · simp at h
    · next l rest hne hrest =>
      obtain ⟨rfl, rfl⟩ : EvalError.unexpectedToken l.token.spelling l.offset = err ∧ s₁ = s' := by
        simpa using h
      rw [hrest] at hs₁ hends
      have hright : l.token ≠ .rightParen := fun hl => hne l.offset (by rw [← hl])
      exact .unexpectedToken hs₁ (step_eq_none_of_ends hends fun hl => absurd hl hright) (by simp)
    · next hrest =>
      obtain ⟨rfl, rfl⟩ : EvalError.unclosedParen offset = err ∧ s₁ = s' := by simpa using h
      rw [hrest] at hs₁
      exact .unclosedParen hs₁
  · next e s₁ =>
    obtain ⟨rfl, rfl⟩ : e = err ∧ s₁ = s' := by simpa using h
    exact hinner e s₁ rfl

/-- The errors of a factor parser have their cause, if it has a parser for the inside of a group as
long as there is room, and the errors of that parser have theirs. -/
theorem fault_of_readFactor {inner? : Option Parser} (hroom : opened.length + room = maxDepth)
    (hnone : inner? = none → room = 0)
    (hinner : ∀ inner ∈ inner?, ∃ room', room = room' + 1 ∧
      inner = Category.sum.parser env room' ∧ FaultsCaused env tokens room' .sum)
    (hposition : Position env.table tokens ⟨.operand, opened⟩ s.rest)
    (h : Parser.readFactor env inner? s = (.error err, s')) : Fault env.table tokens err := by
  unfold Parser.readFactor at h
  split at h
  · next hs =>
    obtain ⟨rfl, rfl⟩ : EvalError.unexpectedEnd = err ∧ s = s' := by simpa using h
    rw [hs] at hposition
    exact .unexpectedEnd hposition
  · next offset rest hs =>
    rw [hs] at hposition
    split at h
    · next inner =>
      obtain ⟨room', rfl, rfl, hfaults⟩ := hinner inner rfl
      have hread : Position env.table tokens ⟨.operand, ⟨.leftParen, offset⟩ :: opened⟩
          (s.read rest .group).rest := hposition.step rfl trivial
      have hroom' : (Lexeme.mk .leftParen offset :: opened).length + room' = maxDepth := by
        rw [List.length_cons]
        omega
      refine fault_of_closeGroup opened (fun e s₁ hr => ?_) (fun err s₁ hr => ?_) h
      · obtain ⟨hreads, hends⟩ := reads_of_run hr
        exact ⟨hread.reads hreads, hends⟩
      · exact hfaults hroom' hread hr
    · obtain ⟨rfl, rfl⟩ : EvalError.tooDeep offset maxDepth = err ∧ s = s' := by simpa using h
      exact .tooDeep hposition (by simpa [hnone rfl] using hroom)
  · next name offset rest hs =>
    rw [hs] at hposition
    simp only at h
    split at h
    · simp at h
    · next e hresolve =>
      obtain ⟨hname, rfl⟩ := SymbolTable.resolve_eq_error_iff.mp hresolve
      obtain ⟨rfl, rfl⟩ : EvalError.unresolved name offset = err ∧ s.read rest .ident = s' := by
        simpa using h
      exact .unresolved hposition hname
  · next text offset rest hs =>
    rw [hs] at hposition
    simp only at h
    split at h
    · simp at h
    · next htext =>
      obtain ⟨rfl, rfl⟩ : EvalError.badNumber text offset = err ∧ s.read rest .num = s' := by
        simpa using h
      exact .badNumber hposition htext
  · next l rest hleft hident hnum hs =>
    obtain ⟨rfl, rfl⟩ : EvalError.unexpectedToken l.token.spelling l.offset = err ∧ s = s' := by
      simpa using h
    rw [hs] at hposition
    refine .unexpectedToken hposition ?_ (by simp)
    obtain ⟨token, offset⟩ := l
    cases token with
    | op | rightParen => rfl
    | leftParen => exact (hleft offset rfl).elim
    | num text => exact (hnum text offset rfl).elim
    | ident name => exact (hident name offset rfl).elim

/-- The errors of the parsers have their cause at the position that they reach. -/
theorem faultsCaused (env : Env) (tokens : List Lexeme) (room : Nat) (c : Category) :
    FaultsCaused env tokens room c := by
  induction room, c using parser_induction with
  | whole room level ih => exact faultsCaused_whole level ih
  | zero =>
    intro opened s err s' hroom hposition h
    have h : Parser.readFactor env none s = (.error err, s') := h
    exact fault_of_readFactor hroom (fun _ => rfl) (by simp) hposition h
  | succ room ih =>
    intro opened s err s' hroom hposition h
    have h : Parser.readFactor env (some (Category.sum.parser env room)) s = (.error err, s') := h
    refine fault_of_readFactor hroom (by simp) ?_ hposition h
    rintro inner ⟨⟩
    exact ⟨room, rfl, rfl, ih⟩

theorem fault_of_parse (h : parse env tokens = (.error err, s')) :
    Fault env.table tokens err := by
  have hstart : Position env.table tokens ⟨.operand, []⟩ (State.start tokens).rest :=
    position_start env.table tokens
  unfold parse at h
  split at h
  · next e s₁ hrun =>
    have hrun : (Category.sum.parser env maxDepth).run (.start tokens) = (.ok e, s₁) := hrun
    obtain ⟨hreads, hends⟩ := reads_of_run hrun
    have hposition := hstart.reads hreads
    split at h
    · simp at h
    · next l rest hrest =>
      obtain ⟨rfl, rfl⟩ : EvalError.trailingInput l.token.spelling l.offset = err ∧ s₁ = s' := by
        simpa using h
      rw [hrest] at hposition hends
      exact .trailingInput hposition (step_eq_none_of_ends hends fun _ => rfl)
  · next e s₁ hrun =>
    obtain ⟨rfl, rfl⟩ : e = err ∧ s₁ = s' := by simpa using h
    exact faultsCaused env tokens maxDepth .sum (Nat.zero_add _) hstart hrun

theorem fault_of_evaluate (h : evaluate env tokens = .error err) : Fault env.table tokens err := by
  have hparse : parse env tokens = (.error err, (parse env tokens).2) := by
    rw [← evaluate_eq_error_iff.mp h]
  exact fault_of_parse hparse

end Eval

/-! ### What errors say -/

/-- A sentence begins with the lexemes before, but with no further lexeme behind them: that one has
the given spelling and offset. -/
def StopsBehind (tokens before : List Lexeme) (found : String) (offset : Nat) : Prop :=
  ∃ l after, tokens = before ++ l :: after ∧ l.token.spelling = found ∧ l.offset = offset ∧
    arithmetic.Viable (kinds before) ∧ ¬ arithmetic.Viable (kinds (before ++ [l]))

/-- A sentence begins with the lexemes up to the given one, which is the first name without an entry
or numeral that cannot be read. -/
def FirstUnreadable (table : SymbolTable) (tokens : List Lexeme) (l : Lexeme) : Prop :=
  ∃ before after, tokens = before ++ l :: after ∧ arithmetic.Viable (kinds (before ++ [l])) ∧
    (∀ l' ∈ before, l'.token.Readable table) ∧ ¬ l.token.Readable table

/-- What an error says about the lexemes, in terms of the grammar.  Of a division by zero, which
depends on the values, it says nothing. -/
def EvalError.Accurate (table : SymbolTable) (tokens : List Lexeme) : EvalError → Prop
  | unexpectedToken found offset =>
    ∃ before, StopsBehind tokens before found offset ∧ ¬ arithmetic.Sentence (kinds before)
  | trailingInput found offset =>
    ∃ before, StopsBehind tokens before found offset ∧ arithmetic.Sentence (kinds before)
  | unexpectedEnd => arithmetic.Viable (kinds tokens) ∧ ¬ arithmetic.Sentence (kinds tokens) ∧
    (tokens = [] ∨ ∃ before l, tokens = before ++ [l] ∧
      (l.token = .leftParen ∨ ∃ o, l.token = .op o))
  | unclosedParen offset =>
    arithmetic.Viable (kinds tokens) ∧ ¬ arithmetic.Sentence (kinds tokens) ∧
    (∃ before l, tokens = before ++ [l] ∧
      (l.token = .rightParen ∨ ∃ a : Atom, l.token = a.token)) ∧
    (unclosed tokens).head? = some ⟨.leftParen, offset⟩
  | tooDeep offset limit => limit = 256 ∧
    ∃ before after, tokens = before ++ ⟨.leftParen, offset⟩ :: after ∧
      arithmetic.Viable (kinds (before ++ [⟨.leftParen, offset⟩])) ∧ (unclosed before).length = 256
  | unresolved name offset => FirstUnreadable table tokens ⟨.ident name, offset⟩
  | badNumber text offset => FirstUnreadable table tokens ⟨.num text, offset⟩
  | divisionByZero _ => True

namespace Eval

theorem Position.stopsBehind (h : Position table tokens st (l :: rest)) (hl : st.step l = none) :
    ∃ before, StopsBehind tokens before l.token.spelling l.offset ∧ progress before = some st := by
  obtain ⟨before, rfl, hprogress, -⟩ := h
  refine ⟨before, ⟨l, rest, rfl, rfl, rfl, viable_kinds_iff.mpr ⟨st, hprogress⟩, ?_⟩, hprogress⟩
  rw [viable_kinds_iff, progress_concat, hprogress, Option.bind_some, hl]
  simp

theorem Position.firstUnreadable (h : Position table tokens st (l :: rest))
    (hl : st.step l = some st') (hunreadable : ¬ l.token.Readable table) :
    FirstUnreadable table tokens l := by
  obtain ⟨before, rfl, hprogress, hbefore⟩ := h
  refine ⟨before, rest, rfl, viable_kinds_iff.mpr ⟨st', ?_⟩, hbefore, hunreadable⟩
  rw [progress_concat, hprogress, Option.bind_some, hl]

theorem Position.progress_eq (h : Position table tokens st []) : progress tokens = some st := by
  obtain ⟨before, rfl, hprogress, -⟩ := h
  rwa [List.append_nil]

theorem Fault.accurate (h : Fault table tokens err) : err.Accurate table tokens := by
  cases h with
  | unexpectedToken h hl hst =>
    obtain ⟨before, hstops, hprogress⟩ := h.stopsBehind hl
    refine ⟨before, hstops, fun hsentence => hst ?_⟩
    simpa [hprogress] using sentence_kinds_iff.mp hsentence
  | trailingInput h hl =>
    obtain ⟨before, hstops, hprogress⟩ := h.stopsBehind hl
    exact ⟨before, hstops, sentence_kinds_iff.mpr hprogress⟩
  | unexpectedEnd h =>
    have hprogress := h.progress_eq
    refine ⟨viable_kinds_iff.mpr ⟨_, hprogress⟩, fun hsentence => ?_, ?_⟩
    · simpa [hprogress] using sentence_kinds_iff.mp hsentence
    · rcases List.eq_nil_or_concat' tokens with rfl | ⟨before, l, rfl⟩
      · exact .inl rfl
      · exact .inr ⟨before, l, rfl, follows_of_progress hprogress⟩
  | @unclosedParen opened offset h =>
    have hprogress := h.progress_eq
    refine ⟨viable_kinds_iff.mpr ⟨_, hprogress⟩, fun hsentence => ?_, ?_, ?_⟩
    · simpa [hprogress] using sentence_kinds_iff.mp hsentence
    · rcases List.eq_nil_or_concat' tokens with rfl | ⟨before, l, rfl⟩
      · simp [progress, Progress.run_nil] at hprogress
      · exact ⟨before, l, rfl, follows_of_progress hprogress⟩
    · rw [← opened_of_progress hprogress]
      rfl
  | @tooDeep opened offset rest h hopened =>
    obtain ⟨before, rfl, hprogress, -⟩ := h
    refine ⟨rfl, before, rest, rfl, viable_kinds_iff.mpr ?_, ?_⟩
    · rw [progress_concat, hprogress, Option.bind_some, Progress.step]
      exact ⟨_, rfl⟩
    · rw [← opened_of_progress hprogress]
      exact hopened
  | unresolved h hname =>
    exact h.firstUnreadable rfl (by simp [Token.Readable, SymbolTable.contains, hname])
  | badNumber h htext => exact h.firstUnreadable rfl (by simp [Token.Readable, htext])
  | divisionByZero => trivial

end Eval

/-- **Errors are accurate.** If an evaluation fails, what its error says about the lexemes is true:
where no sentence can go on as the lexemes do, or what is missing at their end, or which lexeme
opens a group too many or is a name or numeral that cannot be read. -/
theorem evaluate_error_accurate (env : Env) (tokens : List Lexeme) (err : EvalError)
    (h : evaluate env tokens = .error err) : err.Accurate env.table tokens := by
  unfold evaluate at h
  split at h
  · simp at h
  · next e s' hparse =>
    obtain rfl : e = err := by simpa using h
    exact (Eval.fault_of_parse hparse).accurate

/-- Of two groups, the first one is never closed. -/
theorem evaluate_error_accurate_unclosed :
    let env : Env := ⟨SymbolTable.empty.write "x" ⟨4, .int⟩, .ieee⟩
    let tokens : List Lexeme :=
      [⟨.leftParen, 0⟩, ⟨.leftParen, 1⟩, ⟨.ident "x", 2⟩, ⟨.rightParen, 3⟩]
    evaluate env tokens = .error (.unclosedParen 0) ∧
      (EvalError.unclosedParen 0).Accurate env.table tokens := by
  intro env tokens
  have hfits : Fits .sum (.group (.atom (.ident "x"))) :=
    .operand .sum (.operand .product (.group (.operand .sum (.operand .product (.atom _)))))
  have hreadable : ∀ a ∈ LabelTree.tokens (.group (.atom (.ident "x"))), a.Readable env.table := by
    have hname : env.table.contains "x" := by decide
    simpa [LabelTree.tokens, Atom.token, Token.Readable] using hname
  let s : Eval.State := ((Eval.State.start tokens).fire Level.sum.rule).fire Level.product.rule
  have hnesting : LabelTree.nesting (.group (.atom (.ident "x"))) ≤ 255 := by decide
  have hafter : (s.read tokens.tail .group).rest = tokens.tail ++ [] := (List.append_nil _).symm
  obtain ⟨e, s', hreads, hrest, -⟩ := hfits.exists_reads hnesting hreadable rfl hafter
  have hends : Category.sum.Ends s'.rest := by
    rw [hrest]
    exact ⟨not_false, not_false⟩
  have hinner : (Eval.sum env 255).run (s.read tokens.tail .group) = (.ok e, s') :=
    hreads.runsTo.run hends
  have hfactor : (Eval.factor env 256).run s = (.error (.unclosedParen 0), s') := by
    change Eval.Parser.closeGroup 0 ((Eval.sum env 255).run (s.read tokens.tail .group)) = _
    simp only [hinner, Eval.Parser.closeGroup, hrest]
  have hsum : (Eval.sum env 256).run (.start tokens) = (.error (.unclosedParen 0), s') :=
    Eval.run_chain_of_error (Eval.run_chain_of_error hfactor)
  have herror : evaluate env tokens = .error (.unclosedParen 0) := by
    simp only [evaluate, Eval.parse, Eval.maxDepth, hsum]
  exact ⟨herror, evaluate_error_accurate env tokens _ herror⟩

end AttrCalc
