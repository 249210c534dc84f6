import AttrCalc.Calculator
import AttrCalc.CommandLine
import AttrCalc.Diagnostic
import AttrCalc.Expr.Walk
import AttrCalc.Grammar.Predict
import AttrCalc.Render.Dot
import AttrCalc.Render.TreeStore
import AttrCalc.Text.Lossy

/-!
# The program

A run declares variables, lists the sets of the arithmetic grammar, runs one assignment and lists
what came of it, and writes the files asked for.  The first error ends it.

Files are the work of others: the system writes them, graphs have a printer and a program that
draws them, and trees have a layouter.  A run takes what they answer from its surroundings,
whatever that is.

## Main definitions

* `Surroundings`, `Outcome` : what a run leaves to others, and what it leaves behind.
* `Program.run` : a run.
* `Program.start` : the run that a command line asks for.
-/

namespace AttrCalc

open Text

/-- What a run leaves to others.  An error of theirs is given by its text. -/
structure Surroundings where
  /-- Why the system does not write these bytes to a file. -/
  refusal? : Path → List UInt8 → Option String
  /-- The text of a graph as its printer writes it. -/
  print : List Dot.Statement → String
  /-- The picture of a graph that the drawing program writes to a file of this name. -/
  picture : List Dot.Statement → String → Except String (List UInt8)
  /-- The trees that the layouter draws. -/
  trees : TreeStore Node
  /-- The drawing of a tree that the layouter writes to a file. -/
  layout : trees.Tree → Path → Except String (List UInt8)

/-- How a run ends.  A crash is the end of a run that cannot draw its last report. -/
inductive Exit where
  | success
  | failure
  | crash
deriving DecidableEq, Repr

/-- The status that a run hands back. -/
def Exit.status : Exit → Nat
  | success => 0
  | failure => 1
  | crash => 101

/-- What a run leaves behind.  A file that is written twice is listed twice. -/
structure Outcome where
  stdout : String
  stderr : String
  exit : Exit
  files : List (Path × List UInt8)
deriving DecidableEq, Repr

/-- Ends a run with a report. -/
def Outcome.fail (o : Outcome) (d : Diagnostic) : Outcome :=
  match d.render with
  | some text => { o with stderr := o.stderr ++ text, exit := .failure }
  | none => { o with exit := .crash }

namespace Program

/-- The line that `--version` prints. -/
def versionLine : String := "attrigram 0.1.0\n"

/-- What is asked for at the start of a session. -/
def prompt : String := "输入变量声明（如 a=4, b=3），空行结束，再输入赋值语句：\n"

/-- The name of the place that the input comes from. -/
def sourceName (o : Options) : String :=
  if o.interactive then "<stdin>" else "<argv>"

/-- The declarations and the assignment that a run starts from.  An assignment on the command line
goes before one in the session. -/
def input (o : Options) (stdin : List UInt8) : Except StreamError Session :=
  if o.interactive then
    (Session.read stdin).map fun s =>
      ⟨o.declarations ++ s.declarations, o.assignment?.or s.assignment?⟩
  else .ok ⟨o.declarations, o.assignment?⟩

/-- The reports of the declarations on a line that are passed over. -/
def warningsOf (file : String) (number : Nat) (line : String) (errors : List DeclError) : String :=
  String.join <| errors.map fun e => ((Diagnostic.ofDecl e file number line).render).getD ""

/-- Declares the variables of numbered lines, with the reports of what is passed over. -/
def declare (file : String) (lines : List String) : String × SymbolTable :=
  (lines.zipIdx 1).foldl
    (fun (warnings, table) (line, number) =>
      let (errors, table) := table.declareLine line
      (warnings ++ warningsOf file number line errors, table))
    ("", ∅)

/-- A listing under its title. -/
def sectionText (title body : String) : String :=
  title ++ "\n" ++ body ++ "\n"

/-- The listings of the arithmetic grammar and its sets. -/
def grammarSections : String :=
  let sets := arithmetic.analyse
  sectionText "GRAMMAR" arithmetic.listing ++
    sectionText "FIRST" (sets.first.listing "FIRST" arithmetic) ++
    sectionText "FOLLOW" (sets.follow.listing "FOLLOW" arithmetic) ++
    sectionText "PREDICT" (predictListing sets.predictions)

/-- The listings of what an assignment led to, and its result. -/
def resultSections (o : Options) (c : Completed) : String :=
  (if o.showAll || o.table then sectionText "SYMBOL TABLE" c.table.listing else "") ++
    (if o.showAll || o.tree then sectionText "AST" c.evaluation.expr.listing else "") ++
    (if o.showAll || o.trace then sectionText "TRACE" (Trace.listing c.evaluation.trace) else "") ++
    "Result of " ++ c.target ++ ": " ++ Decimal.valueText c.evaluation.value ++ "\n"

/-! ### Files -/

/-- What is written to a file. -/
abbrev FileResult := Except Error (Path × List UInt8)

/-- The DOT file of an expression. -/
def dotFile (w : Surroundings) (e : Expr) (path : Path) : FileResult :=
  let bytes := encodeText (w.print (Dot.statements e))
  match w.refusal? path bytes with
  | none => .ok (path, bytes)
  | some refusal => .error (.io refusal)

/-- The picture of an expression.  The drawing program takes its name as a text. -/
def pngFile (w : Surroundings) (e : Expr) (path : Path) : FileResult :=
  match decodeText? path with
  | none => .error (.render ("path is not valid UTF-8: " ++ decodeLossy path))
  | some name =>
    match w.picture (Dot.statements e) name with
    | .ok bytes => .ok (path, bytes)
    | .error text => .error (.io text)

/-- The SVG file of an expression. -/
def svgFile (w : Surroundings) (e : Expr) (path : Path) : FileResult :=
  match w.trees.plant e with
  | .error text => .error (.render text)
  | .ok t =>
    match w.layout t path with
    | .ok bytes => .ok (path, bytes)
    | .error text => .error (.render text)

/-- The files that are asked for, in the order in which they are written. -/
def outputs (o : Options) (w : Surroundings) (e : Expr) : List FileResult :=
  (o.dot?.map (dotFile w e)).toList ++ (o.png?.map (pngFile w e)).toList ++
    (o.svg?.map (svgFile w e)).toList

/-- The files before the first error, and the error. -/
def upToError : List FileResult → List (Path × List UInt8) × Option Error
  | [] => ([], none)
  | .error e :: _ => ([], some e)
  | .ok file :: rest =>
    let (files, error?) := upToError rest
    (file :: files, error?)

/-! ### Runs -/

/-- Runs the assignment of a session on a table, after what `before` has already left behind. -/
def runAssignment (o : Options) (w : Surroundings) (before : Outcome) (table : SymbolTable)
    (assignment? : Option String) : Outcome :=
  let line := normalize (assignment?.getD "")
  let division := if o.ieeeDivision then .ieee else .fail
  match table.run division line with
  | .error e => before.fail (.ofError e (sourceName o) line)
  | .ok c =>
    let (files, error?) := upToError (outputs o w c.evaluation.expr)
    let after := { before with stdout := before.stdout ++ resultSections o c, files := files }
    match error? with
    | some e => after.fail (.ofError e (sourceName o) line)
    | none => after

/-- A run on a standard input. -/
def run (o : Options) (w : Surroundings) (stdin : List UInt8) : Outcome :=
  let asked := if o.interactive then prompt else ""
  match input o stdin with
  | .error e => ⟨"", asked ++ "无法读取标准输入: " ++ e.message ++ "\n", .failure, []⟩
  | .ok session =>
    let (warnings, table) := declare (sourceName o) session.declarations
    let listed := if o.showAll || o.sets then grammarSections else ""
    runAssignment o w ⟨listed, asked ++ warnings, .success, []⟩ table session.assignment?

/-- The run that a command line asks for. -/
def start (args : List Argument) (w : Surroundings) (stdin : List UInt8) :
    Except UsageError Outcome :=
  (Command.ofArguments args).map fun
    | .run o => run o w stdin
    | .version => ⟨versionLine, "", .success, []⟩

end Program

end AttrCalc
