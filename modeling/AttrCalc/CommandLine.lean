import AttrCalc.FileError
import AttrCalc.Session

/-!
# The command line

Arguments are read from left to right.  Long options are given by their full name, short ones can
be bundled behind one dash; a value follows its option directly, after `=`, or as the next argument
if that does not start with a dash.  After `--` everything is an operand.  No switch, no file
option and no operand may be given twice.

## Main definitions

* `Options` : what a run is asked to do.
* `Command`, `Command.ofArguments` : the command that arguments spell, with `UsageError` naming
  what is wrong with them.
-/

namespace AttrCalc

/-- The bytes of an argument. -/
abbrev Argument := List UInt8

/-- What a run is asked to do. -/
structure Options where
  declarations : List String := []
  interactive : Bool := false
  sets : Bool := false
  tree : Bool := false
  trace : Bool := false
  table : Bool := false
  ieeeDivision : Bool := false
  verbose : Bool := false
  dot? : Option Path := none
  png? : Option Path := none
  svg? : Option Path := none
  assignment? : Option String := none

/-- What can be wrong with arguments. -/
inductive UsageError where
  | unknownOption (arg : Argument)
  | repeatedOption (arg : Argument)
  | missingValue (arg : Argument)
  | unwantedValue (arg : Argument)
  | unexpectedOperand (arg : Argument)
  | invalidText (arg : Argument)
deriving DecidableEq, Repr

/-- An option without a value. -/
inductive Switch where
  | interactive
  | sets
  | tree
  | trace
  | table
  | ieeeDivision
  | verbose
  | version
deriving DecidableEq, Repr

/-- An option with a value. -/
inductive Setting where
  | declare
  | dot
  | png
  | svg
deriving DecidableEq, Repr

/-- What the name of an option stands for. -/
inductive OptionName where
  | switch (s : Switch)
  | setting (s : Setting)
deriving DecidableEq, Repr

/-- The option of a long name. -/
def OptionName.ofLong? (name : List UInt8) : Option OptionName :=
  match decodeText? name with
  | some "declare" => some (.setting .declare)
  | some "interactive" => some (.switch .interactive)
  | some "sets" => some (.switch .sets)
  | some "ast" => some (.switch .tree)
  | some "trace" => some (.switch .trace)
  | some "table" => some (.switch .table)
  | some "dot" => some (.setting .dot)
  | some "png" => some (.setting .png)
  | some "svg" => some (.setting .svg)
  | some "ieee-division" => some (.switch .ieeeDivision)
  | some "verbose" => some (.switch .verbose)
  | some "version" => some (.switch .version)
  | _ => none

/-- The option of a short name. -/
def OptionName.ofShort? (byte : UInt8) : Option OptionName :=
  match Char.ofNat byte.toNat with
  | 'd' => some (.setting .declare)
  | 'i' => some (.switch .interactive)
  | 'v' => some (.switch .verbose)
  | 'V' => some (.switch .version)
  | _ => none

/-- The command that arguments spell. -/
inductive Command where
  | run (o : Options)
  | version

namespace Options

/-- Sets a file option that is not set yet.  A file name has at least one byte. -/
def setPath (arg : Argument) (old? : Option Path) (value : List UInt8)
    (update : Option Path → Options) : Except UsageError Options :=
  if value.isEmpty then .error (.missingValue arg)
  else if old?.isSome then .error (.repeatedOption arg)
  else .ok (update (some value))

/-- Gives an option its value. -/
def set (o : Options) (arg : Argument) (s : Setting) (value : List UInt8) :
    Except UsageError Options :=
  match s with
  | .declare =>
    match decodeText? value with
    | some text => .ok { o with declarations := o.declarations ++ [text] }
    | none => .error (.invalidText arg)
  | .dot => setPath arg o.dot? value fun p => { o with dot? := p }
  | .png => setPath arg o.png? value fun p => { o with png? := p }
  | .svg => setPath arg o.svg? value fun p => { o with svg? := p }

/-- Turns on a switch that is not on yet. -/
def turnOn (o : Options) (arg : Argument) (s : Switch) : Except UsageError Options :=
  let (old, new) : Bool × Options :=
    match s with
    | .interactive => (o.interactive, { o with interactive := true })
    | .sets => (o.sets, { o with sets := true })
    | .tree => (o.tree, { o with tree := true })
    | .trace => (o.trace, { o with trace := true })
    | .table => (o.table, { o with table := true })
    | .ieeeDivision => (o.ieeeDivision, { o with ieeeDivision := true })
    | .verbose => (o.verbose, { o with verbose := true })
    | .version => (false, o)
  if old then .error (.repeatedOption arg) else .ok new

/-- Takes an operand, of which there is at most one. -/
def operand (o : Options) (arg : Argument) : Except UsageError Options :=
  if o.assignment?.isSome then .error (.unexpectedOperand arg)
  else
    match decodeText? arg with
    | some text => .ok { o with assignment? := some text }
    | none => .error (.invalidText arg)

/-- Whether any listing is asked for by name.  If none is, all are shown. -/
def showAll (o : Options) : Bool :=
  !(o.sets || o.tree || o.trace || o.table)

end Options

namespace Command

/-- What is left to do after the switches of an argument: nothing, show the version, or find the
value of an option in the next argument. -/
inductive Progress where
  | done (o : Options)
  | version
  | awaiting (o : Options) (s : Setting)

/-- The byte of `-`. -/
def dash : UInt8 := 45

/-- The byte of `=`. -/
def equals : UInt8 := 61

/-- Reads bundled short options.  What follows an option with a value is the value. -/
def readBundle (arg : Argument) (o : Options) : List UInt8 → Except UsageError Progress
  | [] => .ok (.done o)
  | byte :: bytes =>
    match OptionName.ofShort? byte with
    | none => .error (.unknownOption arg)
    | some (.switch .version) => .ok .version
    | some (.switch s) =>
      match o.turnOn arg s with
      | .ok o => readBundle arg o bytes
      | .error e => .error e
    | some (.setting s) =>
      match bytes with
      | [] => .ok (.awaiting o s)
      | first :: rest => (o.set arg s (if first = equals then rest else bytes)).map .done

/-- Reads a long option, given without its dashes. -/
def readLong (arg : Argument) (o : Options) (bytes : List UInt8) : Except UsageError Progress :=
  let value? :=
    match bytes.dropWhile (· != equals) with
    | [] => none
    | _ :: value => some value
  match OptionName.ofLong? (bytes.takeWhile (· != equals)), value? with
  | none, _ => .error (.unknownOption arg)
  | some (.switch _), some _ => .error (.unwantedValue arg)
  | some (.switch .version), none => .ok .version
  | some (.switch s), none => (o.turnOn arg s).map .done
  | some (.setting s), some value => (o.set arg s value).map .done
  | some (.setting s), none => .ok (.awaiting o s)

/-- Reads an argument that may hold options. -/
def readArgument (arg : Argument) (o : Options) : Except UsageError Progress :=
  match arg with
  | [first] => (o.operand [first]).map .done
  | first :: second :: bytes =>
    if first = dash then
      if second = dash then readLong arg o bytes else readBundle arg o (second :: bytes)
    else (o.operand arg).map .done
  | [] => (o.operand []).map .done

/-- Whether an argument looks like options, so that it is not the value of the one before. -/
def looksLikeOption (arg : Argument) : Bool :=
  arg.head? == some dash && arg.length != 1

/-- Takes all arguments as operands. -/
def readOperands (o : Options) : List Argument → Except UsageError Options
  | [] => .ok o
  | arg :: args =>
    match o.operand arg with
    | .ok o => readOperands o args
    | .error e => .error e

/-- Reads arguments from left to right. -/
def readArguments (o : Options) : List Argument → Except UsageError Command
  | [] => .ok (.run o)
  | arg :: args =>
    if arg = [dash, dash] then (readOperands o args).map .run
    else
      match readArgument arg o with
      | .error e => .error e
      | .ok .version => .ok .version
      | .ok (.done o) => readArguments o args
      | .ok (.awaiting o s) =>
        match args with
        | [] => .error (.missingValue arg)
        | value :: args =>
          if looksLikeOption value then .error (.missingValue arg)
          else
            match o.set arg s value with
            | .ok o => readArguments o args
            | .error e => .error e

/-- The command that arguments spell. -/
def ofArguments (args : List Argument) : Except UsageError Command :=
  readArguments {} args

end Command

end AttrCalc
