import AttrCalc.Proofs.Diagnostic
import AttrCalc.Proofs.Normalization
import AttrCalc.Proofs.Program
import AttrCalc.Proofs.Token.Layout

/-!
# Margins of reports

The marker of a report is indented by the characters in front of the place at fault.  This margin
lies within the expression, but expressions have no bound, and a margin wider than `maxPadding`
cannot be drawn.  So an error whose margin is too wide ends a run in a crash, and every other error
in a failure with its report.

## Main definitions

* `Error.margin` : the blanks in front of the marker of an error.
* `Error.Ends` : what an error in an assignment ends in.

## Main results

* `Diagnostic.fits_ofError_iff` : a report can be drawn just if its margin is not too wide.
* `exists_run_of_margin` : every margin is that of some assignment.
* `Program.exit_run_eq_crash_iff` : the runs that crash.
* `run_error_ends` : an error in an assignment is reported up to a margin.
-/

namespace AttrCalc

open Text Unicode

/-! ### Margins -/

/-- The blanks in front of the marker of an error in the expression `code`.  The marker of an
expression that ends too early stands behind it. -/
def Error.margin (e : Error) (code : String) : Nat :=
  match e with
  | lex e => e.span.offset
  | eval e => (e.span?.map Span.offset).getD code.length
  | _ => 0

/-- A report can be drawn just if its margin is not too wide. -/
theorem Diagnostic.fits_ofError_iff (e : Error) (file line : String) :
    (ofError e file line).Fits ↔ e.margin (expressionOf line) ≤ maxPadding := by
  cases e with
  | lex e => simp [Fits, ofError, ofLex, CodeLine.padding, placeOf, Error.margin]
  | eval e =>
    cases hspan : e.span? with
    | none => simp [Fits, ofError, ofEval, CodeLine.padding, Error.margin, hspan]
    | some s => simp [Fits, ofError, ofEval, CodeLine.padding, placeOf, Error.margin, hspan]
  | assign | decl => simp [Fits, ofError, ofAssign, ofDecl, CodeLine.padding, Error.margin]
  | grammar | render | io => simp [Fits, ofError, Error.margin]

theorem Diagnostic.render_ofError_eq_none_iff {e : Error} {file line : String} :
    (ofError e file line).render = none ↔ maxPadding < e.margin (expressionOf line) := by
  rw [render_eq_none_iff, fits_ofError_iff, Nat.not_le]

section Reported

variable {t : SymbolTable} {division : DivisionPolicy} {line : String} {e : Error}

/-- The marker of an error that an assignment leads to stands in the expression or right behind
it. -/
theorem Error.margin_le_length (h : t.run division line = .error e) :
    e.margin (Diagnostic.expressionOf line) ≤ (Diagnostic.expressionOf line).length := by
  by_cases he : e.InExpression
  · obtain ⟨a, ha, hplace⟩ := exists_spells_of_run h he
    rw [Diagnostic.expressionOf_eq ha]
    rcases hplace with rfl | ⟨s, text, hspan, -, hspells⟩
    · exact Nat.le_refl _
    · have hmargin : e.margin a.expression = s.offset := by
        cases e with
        | lex e => exact congrArg Span.offset (Option.some.inj hspan)
        | eval e =>
          have hspan : e.span? = some s := hspan
          simp [margin, hspan]
        | grammar | assign | decl | render | io => exact he.elim
      have := hspells.end_le
      omega
  · cases e with
    | lex | eval => exact absurd trivial he
    | grammar | assign | decl | render | io => exact Nat.zero_le _

/-- An error whose margin is not too wide is reported. -/
theorem Outcome.exists_fail_ofError (o : Outcome) (file : String)
    (h : e.margin (Diagnostic.expressionOf line) ≤ maxPadding) :
    ∃ text, (Diagnostic.ofError e file line).render = some text ∧
      o.fail (.ofError e file line) = { o with stderr := o.stderr ++ text, exit := .failure } := by
  obtain ⟨text, htext⟩ := Option.ne_none_iff_exists'.mp fun hnone =>
    absurd (Diagnostic.render_ofError_eq_none_iff.mp hnone) (Nat.not_lt.mpr h)
  exact ⟨text, htext, fail_of_render htext⟩

/-- A run ends in a crash just if the margin of its error is too wide. -/
theorem Outcome.exit_fail_ofError_eq_crash_iff (o : Outcome) (e : Error) (file line : String) :
    (o.fail (.ofError e file line)).exit = .crash ↔
      maxPadding < e.margin (Diagnostic.expressionOf line) := by
  rw [exit_fail, ← Nat.not_le, ← Diagnostic.fits_ofError_iff e file line]
  split <;> simp_all

end Reported

/-! ### Every margin occurs -/

/-- A sign that no expression can contain, behind a number of ones. -/
def onesThenUnknown (n : Nat) : List Char :=
  List.replicate n '1' ++ ['?']

theorem Scanner.step_unknown (offset : Nat) :
    (step ⟨offset, ['?']⟩).1 = some (.error (.unknownChar '?' offset)) := by
  have hread : Piece.ofChars '?' [] = (.unknown '?', []) := by decide +kernel
  have hstep := step_of_piece offset (List.forall_mem_nil _) (by decide) hread
  exact congrArg Prod.fst hstep

/-- A scan of ones stops at the sign behind them. -/
theorem tokenize_onesThenUnknown (n : Nat) :
    tokenize (String.ofList (onesThenUnknown n)) = .error (.unknownChar '?' n) := by
  rw [tokenize_eq_error_iff, scan, Scanner.ofString, String.toList_ofList]
  match n with
  | 0 => exact congrArg Scan.error? (Scanner.drain_of_error (Scanner.step_unknown 0))
  | n + 1 =>
    let numeral : Token := .num (String.ofList (List.replicate (n + 1) '1'))
    have hdigits : IsDigits (List.replicate (n + 1) '1') :=
      ⟨by simp, fun c hc => by rw [List.eq_of_mem_replicate hc]; rfl⟩
    have hnumeral : numeral.WellFormed := by
      have := IsNumeral.whole hdigits .none
      simpa [numeral, Token.WellFormed] using this
    have hstops : Stops ['?'] := by
      simp only [Stops, List.head?_cons, Option.mem_some_iff, forall_eq']
      decide +kernel
    have hstep :=
      Scanner.step_of_wellFormed 0 (List.forall_mem_nil _) hnumeral (.inr hstops)
    have hlength : numeral.spelling.length = n + 1 := by
      simp [numeral, Token.spelling]
    have hspelling : numeral.spelling.toList = List.replicate (n + 1) '1' := by
      simp [numeral, Token.spelling]
    rw [hspelling, hlength] at hstep
    rw [onesThenUnknown, ← List.nil_append (_ ++ _), Scanner.drain_of_ok hstep,
      Scanner.drain_of_error (Scanner.step_unknown _)]
    simp

theorem solid_onesThenUnknown (n : Nat) : Solid (onesThenUnknown n) := by
  intro c hc
  rcases List.mem_append.mp hc with hc | hc
  · rw [List.eq_of_mem_replicate hc]
    decide
  · rw [List.mem_singleton.mp hc]
    decide

/-- An assignment of ones and a sign that no expression can contain. -/
def unknownAt (n : Nat) : String :=
  String.ofList (['c'] ++ '=' :: onesThenUnknown n)

theorem read_unknownAt (n : Nat) :
    Assignment.read (unknownAt n) = .ok ⟨"c", String.ofList (onesThenUnknown n)⟩ := by
  have htarget : isNameChars (trimChars ['c']) := by decide +kernel
  have htrim : trimChars ['c'] = ['c'] := by decide +kernel
  rw [unknownAt, Assignment.read_ofList_append (by decide), if_pos htarget, htrim,
    normalizeChars_of_solid (solid_onesThenUnknown n)]

theorem normalize_unknownAt (n : Nat) : normalize (unknownAt n) = unknownAt n := by
  have hsolid : Solid (['c'] ++ '=' :: onesThenUnknown n) := by
    intro c hc
    simp only [List.cons_append, List.nil_append, List.mem_cons] at hc
    rcases hc with rfl | rfl | hc
    · decide
    · decide
    · exact solid_onesThenUnknown n c hc
  rw [Text.normalize, unknownAt, String.toList_ofList, normalizeChars_of_solid hsolid]

theorem run_unknownAt (t : SymbolTable) (division : DivisionPolicy) (n : Nat) :
    t.run division (unknownAt n) = .error (.lex (.unknownChar '?' n)) := by
  simp only [SymbolTable.run, read_unknownAt, tokenize_onesThenUnknown]

/-- Every margin is that of some assignment, whatever the table and the policy. -/
theorem exists_run_of_margin (t : SymbolTable) (division : DivisionPolicy) (n : Nat) :
    ∃ line e, t.run division line = .error e ∧ e.margin (Diagnostic.expressionOf line) = n :=
  ⟨unknownAt n, _, run_unknownAt t division n, rfl⟩

/-! ### Runs -/

namespace Program

/-- The table that the declarations of a session leave. -/
def tableOf (o : Options) (s : Session) : SymbolTable :=
  (declare (sourceName o) s.declarations).2

/-- The error that ends the writing of files is that of some file. -/
theorem mem_of_upToError {e : Error} {results : List FileResult}
    (h : (upToError results).2 = some e) : .error e ∈ results := by
  induction results with
  | nil => simp [upToError] at h
  | cons result results ih =>
    cases result with
    | error e' =>
      obtain rfl : e' = e := Option.some.inj h
      exact List.mem_cons_self
    | ok file => exact List.mem_cons_of_mem _ (ih h)

/-- What keeps a file from being written has no place in the expression. -/
theorem margin_of_mem_outputs {o : Options} {w : Surroundings} {expr : Expr} {e : Error}
    (h : .error e ∈ outputs o w expr) (code : String) : e.margin code = 0 := by
  simp only [outputs, List.mem_append, Option.mem_toList, Option.map_eq_some_iff] at h
  rcases h with (⟨path, -, hfile⟩ | ⟨path, -, hfile⟩) | ⟨path, -, hfile⟩
  · simp only [dotFile] at hfile
    split at hfile <;> cases hfile
    rfl
  · unfold pngFile at hfile
    split at hfile
    · cases hfile
      rfl
    · split at hfile <;> cases hfile
      rfl
  · unfold svgFile at hfile
    split at hfile
    · cases hfile
      rfl
    · split at hfile <;> cases hfile
      rfl

/-- An assignment ends a run in a crash just if it leads to an error whose margin is too wide. -/
theorem exit_runAssignment_eq_crash_iff {o : Options} {w : Surroundings} {before : Outcome}
    (hbefore : before.exit = .success) {table : SymbolTable} {assignment? : Option String} :
    (runAssignment o w before table assignment?).exit = .crash ↔
      ∃ e, table.run o.division (lineOf assignment?) = .error e ∧
        maxPadding < e.margin (Diagnostic.expressionOf (lineOf assignment?)) := by
  cases hrun : table.run o.division (lineOf assignment?) with
  | error e =>
    simp [runAssignment_of_error w before hrun, Outcome.exit_fail_ofError_eq_crash_iff]
  | ok c =>
    simp only [runAssignment_of_ok w before hrun, reduceCtorEq, false_and, exists_false, iff_false]
    split
    · next e he =>
      have hzero :=
        margin_of_mem_outputs (mem_of_upToError he) (Diagnostic.expressionOf (lineOf assignment?))
      simp [Outcome.exit_fail_ofError_eq_crash_iff, hzero]
    · simp [written, hbefore]

/-- **The runs that crash** are those whose assignment leads to an error with a margin that is too
wide. -/
theorem exit_run_eq_crash_iff (o : Options) (w : Surroundings) (stdin : List UInt8) :
    (run o w stdin).exit = .crash ↔
      ∃ s e, input o stdin = .ok s ∧
        (tableOf o s).run o.division (lineOf s.assignment?) = .error e ∧
        maxPadding < e.margin (Diagnostic.expressionOf (lineOf s.assignment?)) := by
  unfold run
  cases input o stdin with
  | error e => simp
  | ok s =>
    simp only [Except.ok.injEq, exists_and_left, exists_eq_left']
    exact exit_runAssignment_eq_crash_iff rfl

/-- An assignment on the command line whose margin is too wide ends the run in a crash. -/
theorem exit_run_unknownAt {n : Nat} (h : maxPadding < n) (w : Surroundings) (stdin : List UInt8) :
    (run (({} : Options).onCommandLine [] (unknownAt n)) w stdin).exit = .crash := by
  rw [exit_run_eq_crash_iff]
  refine ⟨⟨[], some (unknownAt n)⟩, .lex (.unknownChar '?' n), rfl, ?_, h⟩
  rw [lineOf, Option.getD_some, normalize_unknownAt, run_unknownAt]

end Program

/-! ### What an error ends in -/

/-- What an error in the assignment `line` ends in, for a run that has left `before` behind so far.
The marker stands in the expression or right behind it.  If its margin is not too wide, the error is
reported and ends the run with a failure.  Otherwise there is no report, and the run crashes with
nothing added to what it has left behind. -/
structure Error.Ends (e : Error) (file line : String) (before : Outcome) : Prop where
  margin_le : e.margin (Diagnostic.expressionOf line) ≤ (Diagnostic.expressionOf line).length
  reported : e.margin (Diagnostic.expressionOf line) ≤ maxPadding →
    ∃ text, (Diagnostic.ofError e file line).render = some text ∧
      before.fail (.ofError e file line) =
        { before with stderr := before.stderr ++ text, exit := .failure }
  crashed : maxPadding < e.margin (Diagnostic.expressionOf line) →
    (Diagnostic.ofError e file line).render = none ∧
      before.fail (.ofError e file line) = { before with exit := .crash }

/-- **Errors are reported up to a margin.** Every error that an assignment leads to is reported just
if the characters in front of its place are not too many. -/
theorem run_error_ends (t : SymbolTable) (division : DivisionPolicy) (line file : String)
    (e : Error) (before : Outcome) (h : t.run division line = .error e) :
    e.Ends file line before where
  margin_le := Error.margin_le_length h
  reported := before.exists_fail_ofError file
  crashed hwide := by
    have hnone : (Diagnostic.ofError e file line).render = none :=
      Diagnostic.render_ofError_eq_none_iff.mpr hwide
    exact ⟨hnone, Outcome.fail_of_not_fits (Diagnostic.render_eq_none_iff.mp hnone)⟩

/-- A sign that no expression can contain, in the second column. -/
theorem run_error_ends_unknown :
    let e : Error := .lex (.unknownChar '?' 1)
    (∅ : SymbolTable).run .fail (unknownAt 1) = .error e ∧
      e.Ends "<argv>" (unknownAt 1) ⟨"", "", .success, []⟩ := by
  intro e
  have hrun : (∅ : SymbolTable).run .fail (unknownAt 1) = .error e := run_unknownAt ∅ .fail 1
  exact ⟨hrun, run_error_ends ∅ .fail (unknownAt 1) "<argv>" e _ hrun⟩

/-- With one more character in front of the sign than a marker can be indented by, there is no
report, and the run crashes, whatever its surroundings are. -/
theorem not_reported_behind_maxPadding :
    let line := unknownAt 65536
    let e : Error := .lex (.unknownChar '?' 65536)
    (∅ : SymbolTable).run .fail line = .error e ∧
      (Diagnostic.ofError e "<argv>" line).render = none ∧
      ∀ w, (Program.run (({} : Options).onCommandLine [] line) w []).exit = .crash := by
  intro line e
  have hwide : maxPadding < 65536 := by decide
  refine ⟨run_unknownAt ∅ .fail 65536, ?_, fun w => Program.exit_run_unknownAt hwide w []⟩
  exact Diagnostic.render_ofError_eq_none_iff.mpr hwide

end AttrCalc
