import AttrCalc.Decimal.Reading
import AttrCalc.Table.Basic
import AttrCalc.Text.Name
import AttrCalc.Text.Words

/-!
# Declarations

A declaration `name=number` gives a name an `INT` entry.  A line holds any number of declarations
between commas; one that cannot be read is reported and passed over.

## Main definitions

* `Declaration.read` : reads one declaration, with `DeclError` naming what is wrong.
* `Declaration.readLine` : reads the declarations of a line, piece by piece.
* `SymbolTable.declare`, `SymbolTable.declareLine` : their effect on a table.
-/

namespace AttrCalc

open Text

/-- What can be wrong with a declaration. -/
inductive DeclError where
  | missingSeparator (text : String)
  | notNumeric (name : String) (value : String)
  | badName (name : String)
deriving DecidableEq, Repr

/-- The wording of a declaration error. -/
def DeclError.message : DeclError → String
  | missingSeparator text => s!"invalid declaration `{text}`, use a=3"
  | notNumeric name value => s!"value `{value}` of `{name}` is not numeric, declaration ignored"
  | badName name => s!"`{name}` is not a valid variable name"

/-- A name and the number it is given. -/
structure Declaration where
  name : String
  value : Float
deriving DecidableEq

namespace Declaration

/-- Reads a declaration.  It is cut at the first `=`; the name is looked at before the number. -/
def read (text : String) : Except DeclError Declaration :=
  match splitOnce? '=' text with
  | none => .error (.missingSeparator (trim text))
  | some (left, right) =>
    let name := trim left
    let value := trim right
    if isName name then
      match Decimal.read? value with
      | some x => .ok ⟨name, x⟩
      | none => .error (.notNumeric name value)
    else .error (.badName name)

/-- The pieces of a line that are not blank. -/
def pieces (line : String) : List String :=
  ((splitAll ',' line).map trim).filter (!·.isEmpty)

/-- Reads the pieces of a line one by one. -/
def readLine (line : String) : List (Except DeclError Declaration) :=
  (pieces line).map read

end Declaration

namespace SymbolTable

/-- The table after a declaration. -/
def define (t : SymbolTable) (d : Declaration) : SymbolTable :=
  t.write d.name ⟨d.value, .int⟩

/-- Reads a declaration and enters it into the table. -/
def declare (t : SymbolTable) (text : String) : Except DeclError SymbolTable :=
  (Declaration.read text).map t.define

/-- Enters what can be read and collects the errors of the rest, both in order. -/
def declareAll (t : SymbolTable) (readings : List (Except DeclError Declaration)) :
    List DeclError × SymbolTable :=
  (readings.filterMap fun
    | .error e => some e
    | .ok _ => none,
   readings.foldl (fun t r =>
      match r with
      | .ok d => t.define d
      | .error _ => t) t)

/-- Enters the declarations of a line.  A piece that cannot be read leaves the table as it is. -/
def declareLine (t : SymbolTable) (line : String) : List DeclError × SymbolTable :=
  t.declareAll (Declaration.readLine line)

end SymbolTable

end AttrCalc
