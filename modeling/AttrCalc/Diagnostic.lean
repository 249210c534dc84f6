import AttrCalc.Error

/-!
# Diagnostics

A diagnostic reports an error or a warning: what is wrong, at which stage, in which file, and for
each line concerned the code with a marker under the characters at fault.

## Main definitions

* `Severity`, `Stage`, `Mark` : how grave a report is, where it comes from, how code is marked.
* `Diagnostic` : a report, built by `ofEval`, `ofLex`, `ofAssign`, `ofDecl` and `ofError`.
* `Diagnostic.render` : its text, if its columns are not too far out.
-/

namespace AttrCalc

/-- How grave a report is. -/
inductive Severity where
  | warning
  | error
deriving DecidableEq, Repr

/-- The word for a severity. -/
def Severity.text : Severity → String
  | warning => "警告"
  | error => "错误"

/-- The stage that a report comes from. -/
inductive Stage where
  | preprocessing
  | scanning
  | parsing
  | evaluation
  | table
  | output
deriving DecidableEq, Repr

/-- The words for a stage. -/
def Stage.text : Stage → String
  | preprocessing => "预处理阶段"
  | scanning => "词法分析阶段"
  | parsing => "语法分析阶段"
  | evaluation => "语义分析阶段"
  | table => "符号表"
  | output => "输出阶段"

/-- What a marker says: a note, the place of the error, or a place related to it. -/
inductive Mark where
  | note
  | happen
  | relate
deriving DecidableEq, Repr

/-- The character of a marker. -/
def Mark.char : Mark → Char
  | note => '*'
  | happen => '^'
  | relate => '&'

/-- A place in a line: its column, counted from one, and its length. -/
structure Place where
  column : Nat
  length : Nat
deriving DecidableEq, Repr

/-- A line of code in a report. -/
structure CodeLine where
  number : Nat
  info : String
  code : String
  mark? : Option Mark
  place? : Option Place
deriving DecidableEq, Repr

/-- A report. -/
structure Diagnostic where
  stage : Stage
  severity : Severity
  intro : String
  file : String
  lines : List CodeLine
deriving DecidableEq, Repr

/-! ### Rendering -/

/-- The widest padding that a line can be indented by. -/
def maxPadding : Nat := 65535

namespace CodeLine

/-- The blanks in front of a marker. -/
def padding (l : CodeLine) : Nat :=
  match l.place? with
  | some place => place.column - 1
  | none => 0

/-- The characters of a marker: the place marked, or one character if there is none. -/
def marker (l : CodeLine) : String :=
  let char := (l.mark?.map Mark.char).getD '-'
  let length := (l.place?.map Place.length).getD 1
  String.ofList (List.replicate length char)

/-- Where a line is, for the head of the report. -/
def location (l : CodeLine) : String :=
  toString l.number ++
    (match l.place? with
      | some place => ":" ++ toString place.column
      | none => "") ++ ";"

end CodeLine

/-- A number in a column of six characters, or more if it is longer. -/
def columnOfSix (n : Nat) : String :=
  let digits := Nat.toDigits 10 n
  String.ofList (List.replicate (6 - digits.length) ' ' ++ digits)

/-- An empty column of six characters. -/
def emptyColumn : String := "      "

/-- The code of a line, and the marker below it. -/
def CodeLine.text (l : CodeLine) : String :=
  columnOfSix l.number ++ "|\t" ++ l.code ++ "\n" ++
    emptyColumn ++ "|\t" ++ String.ofList (List.replicate l.padding ' ') ++ l.marker ++
    "-->" ++ l.info ++ "\n"

namespace Diagnostic

/-- The lines of a report, under a line that opens the column of numbers. -/
def body (d : Diagnostic) : String :=
  if d.lines.isEmpty then ""
  else emptyColumn ++ "|\n" ++ String.join (d.lines.map CodeLine.text)

/-- Whether all markers can be indented as far as they have to be. -/
def Fits (d : Diagnostic) : Prop :=
  ∀ l ∈ d.lines, l.padding ≤ maxPadding

instance (d : Diagnostic) : Decidable d.Fits :=
  inferInstanceAs (Decidable (∀ l ∈ d.lines, _))

/-- The text of a report, or nothing if a marker is too far out to be drawn. -/
def render (d : Diagnostic) : Option String :=
  if d.Fits then
    some (d.severity.text ++ " from " ++ d.stage.text ++ ": " ++ d.intro ++ "\n In " ++ d.file ++
      ":" ++ String.join (d.lines.map CodeLine.location) ++ "\n" ++ d.body)
  else none

/-! ### Reports of errors -/

/-- The stage that an evaluation error belongs to: names, numbers and divisors are a matter of
values, all else a matter of form. -/
def stageOfEval : EvalError → Stage
  | .unresolved .. => .evaluation
  | .divisionByZero .. => .evaluation
  | .badNumber .. => .evaluation
  | _ => .parsing

/-- The place of a span in a line.  A marker has at least one character. -/
def placeOf (s : Span) : Place :=
  ⟨s.offset + 1, max s.length 1⟩

/-- The report of an evaluation error in the expression `code`.  If the expression ends too early,
the marker stands behind it. -/
def ofEval (e : EvalError) (file code : String) : Diagnostic where
  stage := stageOfEval e
  severity := .error
  intro := e.message
  file
  lines :=
    match e.span? with
    | some s => [⟨1, e.message, code, some .happen, some (placeOf s)⟩]
    | none => [⟨1, "表达式不完整", code, some .happen, some ⟨code.length + 1, 1⟩⟩]

/-- The report of a lexical error in the expression `code`. -/
def ofLex (e : LexError) (file code : String) : Diagnostic where
  stage := .scanning
  severity := .error
  intro := e.message
  file
  lines := [⟨1, "词法分析无法识别", code, some .happen, some (placeOf e.span)⟩]

/-- The report of an assignment that cannot be read. -/
def ofAssign (e : AssignError) (file line : String) : Diagnostic where
  stage := .preprocessing
  severity := .error
  intro := e.message
  file
  lines := [⟨1, "需要形如 name = expression 的赋值", line, some .note, none⟩]

/-- The report of a declaration on line `number` that is passed over. -/
def ofDecl (e : DeclError) (file : String) (number : Nat) (line : String) : Diagnostic where
  stage := .table
  severity := .warning
  intro := e.message
  file
  lines := [⟨number, "已忽略该声明", line, some .relate, none⟩]

/-- The expression of an assignment line, or the whole line if it is none. -/
def expressionOf (line : String) : String :=
  match Assignment.read line with
  | .ok a => a.expression
  | .error _ => line

/-- The report of any error that an assignment line leads to. -/
def ofError (e : Error) (file line : String) : Diagnostic :=
  match e with
  | .assign e => ofAssign e file line
  | .lex e => ofLex e file (expressionOf line)
  | .eval e => ofEval e file (expressionOf line)
  | .decl e => ofDecl e file 1 line
  | .grammar e => ⟨.parsing, .error, e.message, file, []⟩
  | .render text => ⟨.output, .error, (Error.render text).message, file, []⟩
  | .io text => ⟨.output, .error, (Error.io text).message, file, []⟩

end Diagnostic

end AttrCalc
