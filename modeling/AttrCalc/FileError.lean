/-!
# Files that cannot be written

A file is written under a path, or the system refuses to create it and says why.

## Main definitions

* `Path` : the name of a file.
* `FileError` : why a file is refused; `text` and `record` are the two forms in which it is shown.
-/

namespace AttrCalc

/-- The bytes of a file name. -/
abbrev Path := List UInt8

/-- Why a file cannot be created. -/
inductive FileError where
  | notFound
  | permissionDenied
  | isDirectory
  | nameTooLong
deriving DecidableEq, Repr

namespace FileError

/-- The number that the system gives a refusal. -/
def code : FileError → Nat
  | notFound => 2
  | permissionDenied => 13
  | isDirectory => 21
  | nameTooLong => 36

/-- The name of a refusal. -/
def kind : FileError → String
  | notFound => "NotFound"
  | permissionDenied => "PermissionDenied"
  | isDirectory => "IsADirectory"
  | nameTooLong => "InvalidFilename"

/-- The wording of a refusal. -/
def message : FileError → String
  | notFound => "No such file or directory"
  | permissionDenied => "Permission denied"
  | isDirectory => "Is a directory"
  | nameTooLong => "File name too long"

/-- A refusal as a report shows it. -/
def text (e : FileError) : String :=
  e.message ++ s!" (os error {e.code})"

/-- A refusal with all its data. -/
def record (e : FileError) : String :=
  "Os \x7b code: " ++ toString e.code ++ ", kind: " ++ e.kind ++ ", message: \"" ++ e.message ++
    "\" \x7d"

end FileError

end AttrCalc
