import AttrCalc.Calculator
import AttrCalc.Diagnostic
import AttrCalc.Proofs.Eval.Division
import AttrCalc.Proofs.Eval.Fault
import AttrCalc.Proofs.Token.Segment

/-!
# What diagnostics point at

An evaluation error is about a lexeme, unless the lexemes end too early.  Lexemes stand in the
expression where the scanner says, and so does what stops a scan.  A diagnostic cuts the expression
out of the line once more, so its marker stands under the text that the error names.

## Main definitions

* `EvalError.text?`, `Error.text?` : the text that an error names.
* `EvalError.PointsAt` : an error that is about a lexeme.
* `Error.InExpression` : the errors that have their place in the expression of an assignment.

## Main results

* `Eval.pointsAt_of_evaluate` : evaluation errors are about lexemes.
* `run_error_points_at_text` : an error has its place in the expression, where the text that it
  names is spelled, and there the diagnostic has its marker.
-/

namespace AttrCalc

/-! ### Texts of errors -/

/-- The text that an evaluation error names, or the lexeme that is the cause of it.  There is none
behind the end. -/
def EvalError.text? : EvalError → Option String
  | unresolved name _ => some name
  | unexpectedToken found _ => some found
  | unexpectedEnd => none
  | unclosedParen _ => some "("
  | trailingInput found _ => some found
  | tooDeep _ _ => some "("
  | divisionByZero _ => some "/"
  | badNumber text _ => some text

theorem EvalError.span?_eq_none_iff {err : EvalError} :
    err.span? = none ↔ err = .unexpectedEnd := by
  cases err <;> simp [span?]

namespace Error

/-- The text that an error names, if it is about characters of an expression. -/
def text? : Error → Option String
  | lex e => some e.text
  | eval e => e.text?
  | _ => none

/-- The error has its place in the expression of an assignment. -/
def InExpression : Error → Prop
  | lex _ => True
  | eval _ => True
  | _ => False

theorem span?_eq_none_iff {e : Error} (he : e.InExpression) :
    e.span? = none ↔ e = .eval .unexpectedEnd := by
  cases e with
  | lex e => simp [span?]
  | eval e => simp [span?, EvalError.span?_eq_none_iff]
  | grammar | assign | decl | render | io => exact he.elim

end Error

/-! ### Errors and lexemes -/

/-- The place of an error is that of the lexeme, and the text that it names is its spelling. -/
def EvalError.PointsAt (err : EvalError) (l : Lexeme) : Prop :=
  err.span? = some l.span ∧ err.text? = some l.token.spelling

namespace Eval

variable {env : Env} {table : SymbolTable} {tokens : List Lexeme} {err : EvalError}

/-- A lexeme that is the cause of an error is what the error points at.  A group that is never
closed was opened by a lexeme before the end. -/
theorem Fault.pointsAt (h : Fault table tokens err) :
    err = .unexpectedEnd ∨ (∃ offset, err = .divisionByZero offset) ∨
      ∃ l ∈ tokens, err.PointsAt l := by
  cases h with
  | unexpectedToken h | trailingInput h => exact .inr (.inr ⟨_, h.mem, rfl, rfl⟩)
  | unexpectedEnd => exact .inl rfl
  | @unclosedParen opened offset h =>
    have hmem : ⟨.leftParen, offset⟩ ∈ unclosed tokens := by
      rw [← opened_of_progress h.progress_eq]
      exact List.mem_cons_self
    have hspan : some ⟨offset, 1⟩ = some (Lexeme.mk .leftParen offset).span :=
      congrArg some (Lexeme.span_leftParen offset).symm
    exact .inr (.inr ⟨_, unclosed_subset tokens hmem, hspan, rfl⟩)
  | @tooDeep opened offset rest h =>
    have hspan : some ⟨offset, 1⟩ = some (Lexeme.mk .leftParen offset).span :=
      congrArg some (Lexeme.span_leftParen offset).symm
    exact .inr (.inr ⟨_, h.mem, hspan, rfl⟩)
  | unresolved h | badNumber h => exact .inr (.inr ⟨_, h.mem, rfl, rfl⟩)
  | divisionByZero offset => exact .inr (.inl ⟨offset, rfl⟩)

/-- **Evaluation errors are about lexemes**, unless these end too early. -/
theorem pointsAt_of_evaluate (h : evaluate env tokens = .error err) :
    err = .unexpectedEnd ∨ ∃ l ∈ tokens, err.PointsAt l := by
  rcases (fault_of_evaluate h).pointsAt with hend | ⟨offset, rfl⟩ | hl
  · exact .inl hend
  · exact .inr ⟨_, mem_of_divisionByZero h, congrArg some (Lexeme.span_op .div offset).symm, rfl⟩
  · exact .inr hl

end Eval

/-! ### Running an assignment -/

namespace SymbolTable

/-- How running an assignment fails: the line is no assignment, or its expression cannot be scanned,
or its lexemes cannot be evaluated. -/
inductive RunFails (t : SymbolTable) (division : DivisionPolicy) (line : String) : Error → Prop
  | assign {e : AssignError} (h : Assignment.read line = .error e) :
      RunFails t division line (.assign e)
  | lex {a : Assignment} {e : LexError} (ha : Assignment.read line = .ok a)
      (h : tokenize a.expression = .error e) : RunFails t division line (.lex e)
  | eval {a : Assignment} {tokens : List Lexeme} {e : EvalError}
      (ha : Assignment.read line = .ok a) (htokens : tokenize a.expression = .ok tokens)
      (h : evaluate ⟨t, division⟩ tokens = .error e) : RunFails t division line (.eval e)

theorem runFails_of_run {t : SymbolTable} {division : DivisionPolicy} {line : String} {e : Error}
    (h : t.run division line = .error e) : t.RunFails division line e := by
  unfold run at h
  split at h
  · next e' ha =>
    obtain rfl : Error.assign e' = e := by simpa using h
    exact .assign ha
  · next target expression ha =>
    split at h
    · next e' htokens =>
      obtain rfl : Error.lex e' = e := by simpa using h
      exact .lex ha htokens
    · next tokens htokens =>
      split at h
      · next e' herr =>
        obtain rfl : Error.eval e' = e := by simpa using h
        exact .eval ha htokens herr
      · simp at h

end SymbolTable

variable {t : SymbolTable} {division : DivisionPolicy} {line : String} {e : Error}

/-- An error in the expression has a place, unless the expression ends too early, and the text that
it names is spelled there. -/
theorem exists_spells_of_run (h : t.run division line = .error e) (he : e.InExpression) :
    ∃ a, Assignment.read line = .ok a ∧
      (e = .eval .unexpectedEnd ∨
        ∃ s text, e.span? = some s ∧ e.text? = some text ∧ s.Spells a.expression text) := by
  cases SymbolTable.runFails_of_run h with
  | assign => exact he.elim
  | lex ha hlex => exact ⟨_, ha, .inr ⟨_, _, rfl, rfl, spells_of_tokenize_eq_error hlex⟩⟩
  | eval ha htokens heval =>
    refine ⟨_, ha, ?_⟩
    rcases Eval.pointsAt_of_evaluate heval with rfl | ⟨l, hl, hspan, htext⟩
    · exact .inl rfl
    · exact .inr ⟨_, _, hspan, htext, spells_of_mem_tokenize htokens hl⟩

/-! ### Diagnostics -/

namespace Diagnostic

/-- The marked code of a report: of each line the code, the mark and its place. -/
def marked (d : Diagnostic) : List (String × Option Mark × Option Place) :=
  d.lines.map fun l => (l.code, l.mark?, l.place?)

theorem expressionOf_eq {a : Assignment} (h : Assignment.read line = .ok a) :
    expressionOf line = a.expression := by
  rw [expressionOf, h]

/-- The report of an error in an expression marks the place of the error in the expression, or the
first column behind it if the error has none. -/
theorem marked_ofError (he : e.InExpression) (file line : String) :
    (ofError e file line).marked = [(expressionOf line, some .happen, some
      (match e.span? with
      | some s => placeOf s
      | none => ⟨(expressionOf line).length + 1, 1⟩))] := by
  cases e with
  | lex e => rfl
  | eval e => cases e <;> rfl
  | grammar | assign | decl | render | io => exact he.elim

theorem placeOf_eq {s : Span} {source text : String} (h : s.Spells source text) :
    placeOf s = ⟨s.offset + 1, s.length⟩ := by
  rw [placeOf, Nat.max_eq_left h.length_pos]

end Diagnostic

/-- **Diagnostics point at the text they name.** If running an assignment fails in its expression,
the error has a place just if the expression does not end too early.  The characters at this place
are the text that the error names, and the diagnostic shows the expression with its marker there, or
behind the expression if that ends too early. -/
theorem run_error_points_at_text (t : SymbolTable) (division : DivisionPolicy) (line file : String)
    (e : Error) (h : t.run division line = .error e) (he : e.InExpression) :
    ∃ a, Assignment.read line = .ok a ∧
      (e.span? = none ↔ e = .eval .unexpectedEnd) ∧
      (∀ s, e.span? = some s → ∃ text, e.text? = some text ∧ s.Spells a.expression text) ∧
      (Diagnostic.ofError e file line).marked = [(a.expression, some .happen, some
        (match e.span? with
        | some s => ⟨s.offset + 1, s.length⟩
        | none => ⟨a.expression.length + 1, 1⟩))] := by
  obtain ⟨a, ha, hcases⟩ := exists_spells_of_run h he
  have hmarked := Diagnostic.marked_ofError he file line
  rw [Diagnostic.expressionOf_eq ha] at hmarked
  refine ⟨a, ha, Error.span?_eq_none_iff he, fun s hspan => ?_, ?_⟩
  · rcases hcases with rfl | ⟨s', text, hspan', htext, hspells⟩
    · simp [Error.span?, EvalError.span?] at hspan
    · obtain rfl : s' = s := Option.some.inj (hspan'.symm.trans hspan)
      exact ⟨text, htext, hspells⟩
  · rcases hcases with rfl | ⟨s, text, hspan, -, hspells⟩
    · exact hmarked
    · simpa only [hspan, Diagnostic.placeOf_eq hspells] using hmarked

/-- A name without an entry in a group, behind white space that is normalised away. -/
theorem run_error_points_at_text_unresolved :
    let e : Error := .eval (.unresolved "zz" 2)
    SymbolTable.empty.run .fail "y =\t(  zz" = .error e ∧ e.InExpression ∧
      ∃ a, Assignment.read "y =\t(  zz" = .ok a ∧
        (e.span? = none ↔ e = .eval .unexpectedEnd) ∧
        (∀ s, e.span? = some s → ∃ text, e.text? = some text ∧ s.Spells a.expression text) ∧
        (Diagnostic.ofError e "stdin" "y =\t(  zz").marked = [(a.expression, some .happen, some
          (match e.span? with
          | some s => ⟨s.offset + 1, s.length⟩
          | none => ⟨a.expression.length + 1, 1⟩))] := by
  intro e
  have hread : Assignment.read "y =\t(  zz" = .ok ⟨"y", "( zz"⟩ := by
    have hsplit : Text.splitOnce? '=' "y =\t(  zz" = some ("y ", "\t(  zz") := by decide +kernel
    have htrim : Text.trim "y " = "y" := by decide +kernel
    have hname : Text.isName "y" := by decide +kernel
    have hnormalize : Text.normalize "\t(  zz" = "( zz" := by decide +kernel
    simp [Assignment.read, hsplit, htrim, hname, hnormalize]
  let tokens : List Lexeme := [⟨.leftParen, 0⟩, ⟨.ident "zz", 2⟩]
  have htokens : tokenize "( zz" = .ok tokens := tokenize_eq_ok_iff.mpr (by decide +kernel)
  let env : Env := ⟨.empty, .fail⟩
  let s : Eval.State := ((Eval.State.start tokens).fire Level.sum.rule).fire Level.product.rule
  let s₁ : Eval.State :=
    ((s.read tokens.tail .group).fire Level.sum.rule).fire Level.product.rule
  have hname : (Eval.factor env 255).run s₁ = (.error (.unresolved "zz" 2), s₁.read [] .ident) :=
    rfl
  have hgroup : (Eval.factor env 256).run s = (.error (.unresolved "zz" 2), s₁.read [] .ident) := by
    change Eval.Parser.closeGroup 0 ((Eval.sum env 255).run (s.read tokens.tail .group)) = _
    simp only [Eval.sum, Eval.product,
      Eval.run_chain_of_error (Eval.run_chain_of_error hname), Eval.Parser.closeGroup]
  have hsum : (Eval.sum env 256).run (.start tokens) =
      (.error (.unresolved "zz" 2), s₁.read [] .ident) :=
    Eval.run_chain_of_error (Eval.run_chain_of_error hgroup)
  have heval : evaluate env tokens = .error (.unresolved "zz" 2) := by
    simp only [evaluate, Eval.parse, Eval.maxDepth, hsum]
  have hrun : SymbolTable.empty.run .fail "y =\t(  zz" = .error e := by
    simp only [SymbolTable.run, hread, htokens]
    rw [heval]
  exact ⟨hrun, trivial, run_error_points_at_text _ _ _ _ e hrun trivial⟩

end AttrCalc
