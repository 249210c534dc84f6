import AttrCalc.Text.Words

/-!
# Interactive sessions

A session is a stream of bytes: lines of declarations up to the first blank line, and then an
assignment on the first line that is not blank.  Lines are decoded one at a time, and nothing
behind the assignment is looked at.

## Main definitions

* `cutLines` : the lines of a stream.
* `Session.read` : reads a session.
* `Session.isSettled` : whether more input can no longer change what is read.
-/

namespace AttrCalc

open Text

/-- The byte that ends a line. -/
def lineFeed : UInt8 := 10

/-- The byte that may stand before the end of a line. -/
def carriageReturn : UInt8 := 13

/-- A line without the carriage return at its end. -/
def dropCarriageReturn (line : List UInt8) : List UInt8 :=
  if line.getLast? = some carriageReturn then line.dropLast else line

/-- The lines of a stream.  Every line feed ends a line; what stands behind the last one is a line
if it is not empty. -/
def cutLines (bytes : List UInt8) : List (List UInt8) :=
  let pieces := bytes.splitOnP (· == lineFeed)
  let ended := pieces.dropLast.map dropCarriageReturn
  match pieces.getLast? with
  | some [] => ended
  | some line => ended ++ [line]
  | none => ended

/-- The bytes of a text. -/
def encodeText (s : String) : List UInt8 :=
  s.toUTF8.data.toList

/-- The text of bytes, if they are well-formed. -/
def decodeText? (bytes : List UInt8) : Option String :=
  String.fromUTF8? ⟨bytes.toArray⟩

/-- What can be wrong with a stream. -/
inductive StreamError where
  | invalidText
deriving DecidableEq, Repr

/-- The wording of a stream error. -/
def StreamError.message : StreamError → String
  | invalidText => "stream did not contain valid UTF-8"

/-- What a session asks for. -/
structure Session where
  declarations : List String
  assignment? : Option String
deriving DecidableEq, Repr

namespace Session

/-- A line with normalised white space. -/
def readLine (line : List UInt8) : Except StreamError String :=
  match decodeText? line with
  | some text => .ok (normalize text)
  | none => .error .invalidText

/-- The lines up to the first blank one, and the lines after it.  Those already read are kept in
reverse. -/
def readDeclarations :
    List (List UInt8) → List String → Except StreamError (List String × List (List UInt8))
  | [], read => .ok (read.reverse, [])
  | line :: lines, read =>
    match readLine line with
    | .error e => .error e
    | .ok text =>
      if text.isEmpty then .ok (read.reverse, lines) else readDeclarations lines (text :: read)

/-- The first line that is not blank. -/
def readAssignment : List (List UInt8) → Except StreamError (Option String)
  | [] => .ok none
  | line :: lines =>
    match readLine line with
    | .error e => .error e
    | .ok text => if text.isEmpty then readAssignment lines else .ok (some text)

/-- Reads a session from its lines. -/
def ofLines (lines : List (List UInt8)) : Except StreamError Session :=
  match readDeclarations lines [] with
  | .error e => .error e
  | .ok (declarations, rest) =>
    match readAssignment rest with
    | .error e => .error e
    | .ok assignment? => .ok ⟨declarations, assignment?⟩

/-- Reads a session from a stream. -/
def read (bytes : List UInt8) : Except StreamError Session :=
  ofLines (cutLines bytes)

/-- The bytes up to and including the last line feed. -/
def endedLines (bytes : List UInt8) : List UInt8 :=
  (bytes.reverse.dropWhile (· != lineFeed)).reverse

/-- Whether the lines that have ended hold the assignment, or an error. -/
def isSettled (bytes : List UInt8) : Bool :=
  match read (endedLines bytes) with
  | .ok session => session.assignment?.isSome
  | .error _ => true

end Session

end AttrCalc
