import AttrCalc.Standalone

/-!
# Entry point

Reads the command line and the standard input, runs the program and hands back what it leaves
behind.
-/

namespace AttrCalc.Main

/-- The file of a path. -/
def fileName (path : Path) : String :=
  Text.decodeLossy path

/-- Reads standard input until a session on it is complete or the input ends. -/
partial def readSession (stdin : IO.FS.Stream) (read : List UInt8) : IO (List UInt8) := do
  let chunk ← stdin.read 65536
  if chunk.isEmpty then return read
  let read := read ++ chunk.toList
  if Session.isSettled read then return read else readSession stdin read

/-- The standard input, as far as the command needs it. -/
def input (args : List Argument) : IO (List UInt8) := do
  match Command.ofArguments args with
  | .ok (.run o) => if o.interactive then readSession (← IO.getStdin) [] else return []
  | _ => return []

/-- Why the system refused a file.  What has no case of its own counts as a missing file. -/
def refusalOf : IO.Error → FileError
  | .permissionDenied .. => .permissionDenied
  | .inappropriateType _ 21 _ => .isDirectory
  | .invalidArgument _ 36 _ => .nameTooLong
  | _ => .notFound

/-- Writes files one after the other.  The answer is the first that is refused. -/
def writeFiles : List (Path × List UInt8) → IO (Option (Path × FileError))
  | [] => return none
  | (path, bytes) :: files => do
    let written ← (IO.FS.writeBinFile (fileName path) ⟨bytes.toArray⟩).toBaseIO
    match written with
    | .ok _ => writeFiles files
    | .error e => return some (path, refusalOf e)

/-- Runs the program with files that can all be created; if one cannot, the run is repeated with
this known. -/
def main (args : List String) : IO UInt32 := do
  let args := args.map fun arg => arg.toUTF8.toList
  let stdin ← input args
  match Program.start args (.standalone fun _ => none) stdin with
  | .error _ =>
    IO.eprintln "usage: attrigram [OPTIONS] [ASSIGNMENT]"
    return 2
  | .ok outcome =>
    let outcome ← match ← writeFiles outcome.files with
      | none => pure outcome
      | some (path, refusal) =>
        let refusal? := fun p => if p = path then some refusal else none
        match Program.start args (.standalone refusal?) stdin with
        | .ok outcome => pure outcome
        | .error _ => pure outcome
    IO.print outcome.stdout
    IO.eprint outcome.stderr
    return outcome.exit.status.toUInt32

end AttrCalc.Main

/-- The program. -/
def main (args : List String) : IO UInt32 :=
  AttrCalc.Main.main args
