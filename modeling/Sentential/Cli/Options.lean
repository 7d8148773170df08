import Sentential.Log
import Sentential.RowFilter

namespace Sentential.Cli

structure Options where
  statement : Option String := none
  input : Option String := none
  output : Option String := none
  noColor : Bool := false
  ascii : Bool := false
  csv : Bool := false
  dot : Bool := false
  filter : Option RowFilter := none
  summary : Bool := false
  verbosity : Nat := 0
  deriving DecidableEq, Repr

/-- Why a command line asks for nothing that can be done. -/
inductive UsageError
  | unknownOption (name : String)
  | missingValue (name : String)
  | unexpectedValue (name : String)
  | invalidValue (name value : String)
  | repeated (name : String)
  | extraArgument (argument : String)
  | conflict (name other : String)
  deriving DecidableEq, Repr

def UsageError.message : UsageError → String
  | unknownOption name => s!"unexpected argument '{name}' found"
  | missingValue name => s!"a value is required for '{name}' but none was supplied"
  | unexpectedValue name => s!"unexpected value for '{name}' found; no more were expected"
  | invalidValue name value => s!"invalid value '{value}' for '{name}'"
  | repeated name => s!"the argument '{name}' cannot be used multiple times"
  | extraArgument argument => s!"unexpected argument '{argument}' found"
  | conflict name other => s!"the argument '{name}' cannot be used with '{other}'"

/-- The options that take no value and may be given once. -/
inductive Flag
  | noColor
  | ascii
  | csv
  | dot
  | summary
  deriving DecidableEq, Repr

/-- The options that take a value. -/
inductive Key
  | input
  | output
  | filter
  deriving DecidableEq, Repr

inductive Switch
  | flag (f : Flag)
  | key (k : Key)
  | verbose
  | help
  | version
  deriving DecidableEq, Repr

namespace Switch

def ofLong? : String → Option Switch
  | "no-color" => some (flag .noColor)
  | "ascii" => some (flag .ascii)
  | "csv" => some (flag .csv)
  | "dot" => some (flag .dot)
  | "summary" => some (flag .summary)
  | "input" => some (key .input)
  | "output" => some (key .output)
  | "filter" => some (key .filter)
  | "verbose" => some verbose
  | "help" => some help
  | "version" => some version
  | _ => none

def ofShort? : Char → Option Switch
  | 'd' => some (flag .dot)
  | 's' => some (flag .summary)
  | 'i' => some (key .input)
  | 'o' => some (key .output)
  | 'f' => some (key .filter)
  | 'v' => some verbose
  | 'h' => some help
  | 'V' => some version
  | _ => none

end Switch

def Flag.name : Flag → String
  | noColor => "--no-color"
  | ascii => "--ascii"
  | csv => "--csv"
  | dot => "--dot"
  | summary => "--summary"

def Key.name : Key → String
  | input => "--input"
  | output => "--output"
  | filter => "--filter"

namespace Options

def isSet (o : Options) : Flag → Bool
  | .noColor => o.noColor
  | .ascii => o.ascii
  | .csv => o.csv
  | .dot => o.dot
  | .summary => o.summary

def set (o : Options) (f : Flag) : Except UsageError Options :=
  if o.isSet f then .error (.repeated f.name)
  else
    .ok <| match f with
      | .noColor => { o with noColor := true }
      | .ascii => { o with ascii := true }
      | .csv => { o with csv := true }
      | .dot => { o with dot := true }
      | .summary => { o with summary := true }

/-- The name of a file, which can be given only once. -/
def fileName (k : Key) (old : Option String) (value : String) : Except UsageError String :=
  if old.isSome then .error (.repeated k.name)
  else if value.isEmpty then .error (.invalidValue k.name value)
  else .ok value

/-- Gives an option its value. A file needs a name and a filter one of its words. -/
def give (o : Options) (k : Key) (value : String) : Except UsageError Options :=
  match k with
  | .input => do return { o with input := some (← fileName k o.input value) }
  | .output => do return { o with output := some (← fileName k o.output value) }
  | .filter =>
    if o.filter.isSome then .error (.repeated k.name)
    else
      match RowFilter.ofWord? value with
      | some filter => .ok { o with filter := some filter }
      | none => .error (.invalidValue k.name value)

def giveStatement (o : Options) (statement : String) : Except UsageError Options :=
  if o.statement.isSome then .error (.extraArgument statement)
  else .ok { o with statement := some statement }

def conflict? (o : Options) : Option UsageError :=
  if o.input.isSome && o.statement.isSome then some (.conflict Key.input.name "STATEMENT")
  else if o.csv && o.dot then some (.conflict Flag.csv.name Flag.dot.name)
  else if o.summary && o.csv then some (.conflict Flag.summary.name Flag.csv.name)
  else if o.summary && o.dot then some (.conflict Flag.summary.name Flag.dot.name)
  else none

def rowFilter (o : Options) : RowFilter := o.filter.getD .any

def level (o : Options) : Level :=
  match o.verbosity with
  | 0 => .warn
  | 1 => .info
  | 2 => .debug
  | _ => .trace

end Options

end Sentential.Cli
