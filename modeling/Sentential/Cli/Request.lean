import Sentential.Cli.Options

namespace Sentential.Cli

/-- What to do: tell about the program, or work as the options say. -/
inductive Request
  | help
  | version
  | work (o : Options)
  deriving DecidableEq, Repr

namespace Request

/-- How far a switch brings the reading of a command line. -/
inductive Progress
  | done (r : Request)
  | more (o : Options)
  /-- The next argument has to be the value of this option. -/
  | wanting (k : Key) (o : Options)
  deriving DecidableEq, Repr

/-- An argument that starts with a dash is no value, but a dash alone is. -/
def isValue (argument : String) : Bool :=
  match argument.toList with
  | ['-'] => true
  | '-' :: _ => false
  | _ => true

/-- A switch by its long name, with the value behind an equals sign if there is one. -/
def long (o : Options) (name : String) (value : Option String) : Except UsageError Progress :=
  match Switch.ofLong? name, value with
  | none, _ => .error (.unknownOption ("--" ++ name))
  | some (.key k), some value => (o.give k value).map .more
  | some (.key k), none => .ok (.wanting k o)
  | some _, some _ => .error (.unexpectedValue ("--" ++ name))
  | some (.flag f), none => (o.set f).map .more
  | some .verbose, none => .ok (.more { o with verbosity := o.verbosity + 1 })
  | some .help, none => .ok (.done .help)
  | some .version, none => .ok (.done .version)

/-- Switches by their letters. What follows an option that takes a value is the value, with or
without an equals sign. -/
def short (o : Options) : List Char → Except UsageError Progress
  | [] => .ok (.more o)
  | c :: cs =>
    match Switch.ofShort? c with
    | none => .error (.unknownOption (String.ofList ['-', c]))
    | some .verbose => short { o with verbosity := o.verbosity + 1 } cs
    | some .help => .ok (.done .help)
    | some .version => .ok (.done .version)
    | some (.flag f) =>
      match o.set f with
      | .error e => .error e
      | .ok o' => short o' cs
    | some (.key k) =>
      match cs with
      | [] => .ok (.wanting k o)
      | '=' :: value => (o.give k (String.ofList value)).map .more
      | value => (o.give k (String.ofList value)).map .more

def argument (o : Options) (text : String) : Except UsageError Progress :=
  match text.toList with
  | '-' :: '-' :: cs =>
    match cs.span (· ≠ '=') with
    | (name, _ :: value) => long o (String.ofList name) (some (String.ofList value))
    | (name, []) => long o (String.ofList name) none
  | '-' :: c :: cs => short o (c :: cs)
  | _ => (o.giveStatement text).map .more

def operands (o : Options) : List String → Except UsageError Options
  | [] => .ok o
  | text :: rest =>
    match o.giveStatement text with
    | .error e => .error e
    | .ok o' => operands o' rest

def finish (o : Options) : Except UsageError Request :=
  match o.conflict? with
  | some e => .error e
  | none => .ok (.work o)

def read (o : Options) : List String → Except UsageError Request
  | [] => finish o
  | text :: rest =>
    if text = "--" then (operands o rest).bind finish
    else
      match argument o text with
      | .error e => .error e
      | .ok (.done r) => .ok r
      | .ok (.more o') => read o' rest
      | .ok (.wanting k o') =>
        match rest with
        | [] => .error (.missingValue k.name)
        | value :: rest' =>
          if isValue value then
            match o'.give k value with
            | .error e => .error e
            | .ok o'' => read o'' rest'
          else .error (.missingValue k.name)

def ofArguments (arguments : List String) : Except UsageError Request := read {} arguments

end Request

end Sentential.Cli
