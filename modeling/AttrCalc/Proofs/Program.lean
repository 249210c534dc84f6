import AttrCalc.Proofs.Session
import AttrCalc.Proofs.Table.Layout
import AttrCalc.Standalone

/-!
# Two ways into the program

Declarations and an assignment are given on the command line, or typed in a session.  A session
normalises the lines, which neither the declarations nor the assignment depend on, and its reports
name another place.  So both ways leave the same behind, apart from what is reported, whatever the
surroundings answer.

## Main definitions

* `Outcome.Agrees` : outcomes that are the same apart from their reports.
* `Options.onCommandLine`, `Options.inSession` : the two ways in.
* `Program.lineOf`, `Program.written` : the line of an assignment, and what it leaves behind.

## Main results

* `Program.declare_snd_map_normalize` : normalised lines declare the same.
* `Program.runAssignment_of_error`, `Program.runAssignment_of_ok` : how an assignment ends.
* `Program.runAssignment_agrees` : an assignment leaves the same behind either way.
* `Program.session_agrees_with_command_line` : so does a whole run.
-/

namespace AttrCalc

open Text

/-! ### Reports -/

/-- Outcomes that are the same apart from their reports. -/
structure Outcome.Agrees (a b : Outcome) : Prop where
  stdout_eq : a.stdout = b.stdout
  exit_eq : a.exit = b.exit
  files_eq : a.files = b.files

/-- The lines of a report do not depend on the place that it names. -/
theorem Diagnostic.lines_ofError (e : Error) (file file' line : String) :
    (ofError e file line).lines = (ofError e file' line).lines := by
  cases e with
  | eval e => cases e <;> rfl
  | grammar | lex | assign | decl | render | io => rfl

theorem Diagnostic.render_eq_none_iff {d : Diagnostic} : d.render = none ↔ ¬ d.Fits := by
  unfold render
  split
  · next h => simp [h]
  · next h => simp [h]

theorem Diagnostic.fits_congr {d d' : Diagnostic} (h : d.lines = d'.lines) :
    d.Fits ↔ d'.Fits := by
  rw [Fits, Fits, h]

namespace Outcome

variable {o : Outcome} {d : Diagnostic}

theorem fail_of_render {text : String} (h : d.render = some text) :
    o.fail d = { o with stderr := o.stderr ++ text, exit := .failure } := by
  rw [fail, h]

theorem fail_of_not_fits (h : ¬ d.Fits) : o.fail d = { o with exit := .crash } := by
  rw [fail, Diagnostic.render_eq_none_iff.mpr h]

/-- A report that fits ends a run with a failure, and one that does not with a crash. -/
theorem exit_fail (o : Outcome) (d : Diagnostic) :
    (o.fail d).exit = if d.Fits then .failure else .crash := by
  split
  · next h =>
    obtain ⟨text, htext⟩ := Option.ne_none_iff_exists'.mp fun hnone =>
      Diagnostic.render_eq_none_iff.mp hnone h
    rw [fail_of_render htext]
  · next h => rw [fail_of_not_fits h]

theorem stdout_fail (o : Outcome) (d : Diagnostic) : (o.fail d).stdout = o.stdout := by
  unfold fail
  split <;> rfl

theorem files_fail (o : Outcome) (d : Diagnostic) : (o.fail d).files = o.files := by
  unfold fail
  split <;> rfl

/-- Reports with the same lines end a run in the same way. -/
theorem Agrees.fail {o o' : Outcome} {d d' : Diagnostic} (h : o.Agrees o')
    (hlines : d.lines = d'.lines) : (o.fail d).Agrees (o'.fail d') where
  stdout_eq := by rw [stdout_fail, stdout_fail, h.stdout_eq]
  exit_eq := by simp only [exit_fail, Diagnostic.fits_congr hlines]
  files_eq := by rw [files_fail, files_fail, h.files_eq]

end Outcome

/-! ### Ways in -/

namespace Options

/-- The options with declarations and an assignment on the command line. -/
def onCommandLine (o : Options) (declarations : List String) (assignment : String) : Options :=
  { o with declarations := declarations, interactive := false, assignment? := some assignment }

/-- The options with a session in place of them. -/
def inSession (o : Options) : Options :=
  { o with declarations := [], interactive := true, assignment? := none }

/-- The policy that the options ask for. -/
def division (o : Options) : DivisionPolicy :=
  if o.ieeeDivision then .ieee else .fail

end Options

namespace Program

/-- The table after numbered lines is that after the lines, one by one. -/
theorem declare_snd (file : String) (lines : List String) :
    (declare file lines).2 = lines.foldl (fun t line => (t.declareLine line).2) ∅ :=
  calc (declare file lines).2
      = (lines.zipIdx 1).foldl (fun t p => (t.declareLine p.1).2) ∅ :=
        (List.foldl_hom Prod.snd fun _ _ => rfl).symm
    _ = ((lines.zipIdx 1).map Prod.fst).foldl (fun t line => (t.declareLine line).2) ∅ := by
        rw [List.foldl_map]
    _ = lines.foldl (fun t line => (t.declareLine line).2) ∅ := by rw [List.zipIdx_map_fst]

/-- Normalised lines declare the same. -/
theorem declare_snd_map_normalize (file file' : String) (lines : List String) :
    (declare file (lines.map normalize)).2 = (declare file' lines).2 := by
  simp only [declare_snd, List.foldl_map, SymbolTable.declareLine_normalize]

/-! ### Assignments -/

/-- The line of an assignment.  Without an assignment it is empty. -/
def lineOf (assignment? : Option String) : String :=
  normalize (assignment?.getD "")

/-- What an assignment that runs leaves behind, apart from an error in writing its files. -/
def written (o : Options) (w : Surroundings) (before : Outcome) (c : Completed) : Outcome :=
  { before with
    stdout := before.stdout ++ resultSections o c
    files := (upToError (outputs o w c.evaluation.expr)).1 }

section RunAssignment

variable {o : Options} {table : SymbolTable} {assignment? : Option String}

theorem runAssignment_of_error {e : Error} (w : Surroundings) (before : Outcome)
    (h : table.run o.division (lineOf assignment?) = .error e) :
    runAssignment o w before table assignment? =
      before.fail (.ofError e (sourceName o) (lineOf assignment?)) := by
  rw [Options.division, lineOf] at h
  simp only [runAssignment, lineOf, h]

/-- Behind an assignment that runs, a run ends where a file cannot be written. -/
theorem runAssignment_of_ok {c : Completed} (w : Surroundings) (before : Outcome)
    (h : table.run o.division (lineOf assignment?) = .ok c) :
    runAssignment o w before table assignment? =
      match (upToError (outputs o w c.evaluation.expr)).2 with
      | some e => (written o w before c).fail (.ofError e (sourceName o) (lineOf assignment?))
      | none => written o w before c := by
  rw [Options.division, lineOf] at h
  simp only [runAssignment, lineOf, h]
  rfl

end RunAssignment

/-- An assignment leaves the same behind either way. -/
theorem runAssignment_agrees (o : Options) (declarations : List String) (w : Surroundings)
    {before before' : Outcome} (hbefore : before.Agrees before') (table : SymbolTable)
    (assignment : String) :
    (runAssignment (o.onCommandLine declarations assignment) w before table
      (some assignment)).Agrees
    (runAssignment o.inSession w before' table (some (normalize assignment))) := by
  -- Apart from the place that reports name, both runs make the same choices.
  have hline : lineOf (some (normalize assignment)) = lineOf (some assignment) := by
    simp only [lineOf, Option.getD_some, Text.normalize, String.toList_ofList,
      normalizeChars_of_words_eq (words_normalizeChars _)]
  have hresult (c : Completed) :
      resultSections (o.onCommandLine declarations assignment) c = resultSections o.inSession c :=
    rfl
  have houtputs (e : Expr) :
      outputs (o.onCommandLine declarations assignment) w e = outputs o.inSession w e :=
    rfl
  have hsame : table.run o.inSession.division (lineOf (some (normalize assignment))) =
      table.run (o.onCommandLine declarations assignment).division (lineOf (some assignment)) := by
    rw [hline]
    rfl
  cases hrun : table.run (o.onCommandLine declarations assignment).division
      (lineOf (some assignment)) with
  | error e =>
    rw [runAssignment_of_error w before hrun,
      runAssignment_of_error w before' (hsame.trans hrun), hline]
    exact hbefore.fail (Diagnostic.lines_ofError e _ _ _)
  | ok c =>
    rw [runAssignment_of_ok w before hrun, runAssignment_of_ok w before' (hsame.trans hrun), hline,
      houtputs]
    have hwritten : (written (o.onCommandLine declarations assignment) w before c).Agrees
        (written o.inSession w before' c) :=
      ⟨by simp only [written, hbefore.stdout_eq, hresult], hbefore.exit_eq, rfl⟩
    split
    · next e _ => exact hwritten.fail (Diagnostic.lines_ofError e _ _ _)
    · exact hwritten

/-- **The command line and a session are two ways into the same program.** Declarations and an
assignment that are given on the command line leave the same output, status and files behind as when
they are typed in a session. -/
theorem session_agrees_with_command_line (o : Options) (declarations : List String)
    (assignment : String) (w : Surroundings) (stdin : List UInt8)
    (hd : ∀ d ∈ declarations, IsEntry d) (ha : IsEntry assignment) :
    (run (o.onCommandLine declarations assignment) w stdin).Agrees
      (run o.inSession w (Session.typed declarations assignment)) := by
  have hcommand : input (o.onCommandLine declarations assignment) stdin =
      .ok ⟨declarations, some assignment⟩ := rfl
  have hsession : input o.inSession (Session.typed declarations assignment) =
      .ok ⟨declarations.map normalize, some (normalize assignment)⟩ := by
    simp only [input, Options.inSession, if_true, Session.read_typed declarations assignment hd ha,
      Except.map, List.nil_append, Option.none_or]
  have htable := declare_snd_map_normalize (sourceName o.inSession)
    (sourceName (o.onCommandLine declarations assignment)) declarations
  simp only [run, hcommand, hsession, htable]
  refine runAssignment_agrees o declarations w ?_ _ assignment
  exact ⟨rfl, rfl, rfl⟩

/-- Declarations and an assignment with white space of several kinds, a bad declaration, and a
carriage return at the end of a line.  All three files are asked for and written; the drawing
program answers with the signature of a picture. -/
theorem session_agrees_with_command_line_layout :
    let declarations := [" a=4,\tb  = 3 \r", "c 1 = 2,d=\u3000.5"]
    let assignment := "r  =\ta*(b + d)"
    let o : Options := { dot? := some (encodeText "r.dot"), png? := some (encodeText "r.png"),
                         svg? := some (encodeText "r.svg") }
    let w : Surroundings := { Surroundings.standalone fun _ => none with
                              picture := fun _ _ => .ok [137, 80, 78, 71, 13, 10, 26, 10] }
    let outcome := run (o.onCommandLine declarations assignment) w []
    (∀ d ∈ declarations, IsEntry d) ∧ IsEntry assignment ∧ outcome.exit = .success ∧
      outcome.files.map (·.1) = ["r.dot", "r.png", "r.svg"].map encodeText ∧
      outcome.Agrees (run o.inSession w (Session.typed declarations assignment)) := by
  intro declarations assignment o w outcome
  have hd : ∀ d ∈ declarations, IsEntry d := by decide +kernel
  have ha : IsEntry assignment := by decide +kernel
  have hend : outcome.exit = .success ∧
      outcome.files.map (·.1) = ["r.dot", "r.png", "r.svg"].map encodeText := by decide +kernel
  exact ⟨hd, ha, hend.1, hend.2,
    session_agrees_with_command_line o declarations assignment w [] hd ha⟩

end Program

end AttrCalc
