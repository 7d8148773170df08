import Sentential.Cli.Arguments
import Sentential.Cli.Diagnosis
import Sentential.Cli.Request
import Sentential.Diagram
import Sentential.TruthTable.Csv
import Sentential.TruthTable.Drawing

namespace Sentential.Cli

variable {m : Type → Type} [Monad m] [Host m]

def programVersion : String := "0.1.0"

def versionText : String := s!"{programName} {programVersion}\n"

def helpText : String :=
  s!"A truth-table generator for propositional logic statements

Usage: {programName} [OPTIONS] [STATEMENT]

Arguments:
  [STATEMENT]  The statement to tabulate, e.g. '(a & b) > !c' (read from stdin if not provided)

Options:
  -i, --input <FILE>     Read the statement from a file
  -o, --output <FILE>    The output filename (or stdout if not provided)
      --no-color         Do not colorize the table
      --ascii            Draw the table with ASCII characters only
      --csv              Output the table in CSV format
  -d, --dot              Output the parse tree in dot (GraphViz) format instead of a table
  -f, --filter <FILTER>  Only show rows with this output: true, false or any [default: Any]
  -s, --summary          Print whether the statement is a tautology, a contradiction or contingent
  -v, --verbose...       Increase log verbosity (-v info, -vv debug, -vvv trace)
  -h, --help             Print help
  -V, --version          Print version
"

def statementText (o : Options) : ExceptT Report m String := do
  match o.statement, o.input with
  | some text, _ => return text
  | none, some path =>
    match (← Host.readFile path).bind decode with
    | .ok text => return text
    | .error e => throw ⟨s!"cannot read {path}", some e.message⟩
  | none, none =>
    match (← Host.readInput).bind decode with
    | .ok text => return text
    | .error e => throw ⟨"cannot read statement from stdin", some e.message⟩

def tell {α : Type} (o : Options) (x : Logged α) : ExceptT Report m α := do
  (x.upTo o.level).forM Host.log
  return x.value

def Options.tableText (o : Options) (colored : Bool) (t : TruthTable) : String :=
  let table :=
    if o.csv then t.csv .sparing o.rowFilter
    else
      let glyphs := if o.ascii then Glyphs.ascii else Glyphs.pretty
      let drawing : Drawing := { glyphs, colored, filter := o.rowFilter }
      drawing.text t
  if o.summary then table ++ t.classify.name ++ "\n" else table

def answer (o : Options) (p : Parsed) : ExceptT Report m String := do
  if o.dot then return Diagram.text ⟨p.statement⟩
  else
    match ← tell o (TruthTable.tabulate .whole p) with
    | .error e => throw ⟨"cannot make a truth table", some e.message⟩
    | .ok t =>
      let colored := !o.noColor && o.output.isNone && (← Host.isTerminal)
      return o.tableText colored t

/-- Writes about a statement where the options want it. A file is made before there is anything to
write in it. -/
def deliver (o : Options) (p : Parsed) : ExceptT Report m Unit := do
  match o.output with
  | none => Host.print (← answer o p)
  | some path =>
    if let .error e ← Host.writeFile path "" then
      throw ⟨s!"cannot create {path}", some e.message⟩
    if let .error e ← Host.writeFile path (← answer o p) then
      throw ⟨e.message, none⟩

def work (o : Options) : ExceptT Report m Unit := do
  let text ← statementText o
  match ← tell o (Parsed.read text) with
  | .error e => throw ⟨e.diagnosis text, none⟩
  | .ok p =>
    tell o (Logged.write [.accepted p.statement])
    deliver o p

def fail (r : Report) : m UInt32 := do
  Host.complain r.text
  return 1

/-- The exit code is 2 if the arguments make no sense. -/
def serve : Except UsageError Request → m UInt32
  | .error e => do
    Host.complain s!"error: {e.message}\n"
    return 2
  | .ok .help => do
    Host.print helpText
    return 0
  | .ok .version => do
    Host.print versionText
    return 0
  | .ok (.work o) => do
    match ← (work o).run with
    | .error r => fail r
    | .ok () => return 0

/-- Runs the program and answers its exit code, if the steps are enough for the arguments. -/
def run (steps : Nat) (arguments : List String) : m (Option UInt32) := do
  match ← (expandArguments steps arguments).run with
  | .error r => some <$> fail r
  | .ok none => return none
  | .ok (some expanded) => some <$> serve (Request.ofArguments expanded)

end Sentential.Cli
