import Sentential.Cli.Host
import Sentential.Text.Lines

namespace Sentential.Cli

variable {m : Type → Type} [Monad m] [Host m]

def listedArguments (path : String) : ExceptT Report m (List String) := do
  match (← Host.readFile path).bind decode with
  | .ok text => return Text.lines text
  | .error e =>
    let problem := match e with
      | .isADirectory | .notText => s!"failed to read from file `{path}`"
      | _ => s!"failed to open file `{path}`"
    throw ⟨problem, some e.message⟩

/-- Replaces each argument that names a file after an at sign by the arguments listed there, which
may name files in turn. Each argument that is met takes a step, and there is no answer if the steps
are not enough, as they never are for a file that names itself. -/
def expandArguments : Nat → List String → ExceptT Report m (Option (List String))
  | _, [] => return some []
  | 0, _ :: _ => return none
  | steps + 1, argument :: rest =>
    match argument.toList with
    | '@' :: path => do
      let listed ← listedArguments (String.ofList path)
      expandArguments steps (listed ++ rest)
    | _ => do
      let expanded ← expandArguments steps rest
      return expanded.map (argument :: ·)

end Sentential.Cli
