import Sentential.Cli.Program

namespace Sentential.Cli

/-- The system tells a kind of failure by its number, or by that number with a minus sign. -/
def isNumbered (code : UInt32) (n : UInt32) : Bool := code = n || code = -n

def fileError (e : IO.Error) : FileError :=
  match e with
  | .noFileOrDirectory _ _ _ => .notFound
  | .permissionDenied _ code _ =>
    if isNumbered code 13 then .notPermitted else .other (toString e)
  | .inappropriateType _ code _ =>
    if isNumbered code 20 then .notADirectory
    else if isNumbered code 21 then .isADirectory
    else .other (toString e)
  | .invalidArgument _ code _ =>
    if isNumbered code 36 then .nameTooLong else .other (toString e)
  | _ => .other (toString e)

def attempt {α : Type} (action : IO α) : IO (Except FileError α) := do
  try
    return .ok (← action)
  catch e =>
    return .error (fileError e)

/-- Does something with the file at a path, which holds no NUL. -/
def attemptAt {α : Type} (path : String) (action : IO α) : IO (Except FileError α) :=
  if path.toList.contains '\x00' then return .error .nulInName else attempt action

partial def drain (stream : IO.FS.Stream) (bytes : ByteArray) : IO ByteArray := do
  let more ← stream.read 65536
  if more.isEmpty then return bytes else drain stream (bytes ++ more)

instance : Host IO where
  readFile path := attemptAt path (IO.FS.readBinFile path)
  readInput := attempt do drain (← IO.getStdin) .empty
  writeFile path text := attemptAt path (IO.FS.writeFile path text)
  print text := IO.print text
  complain text := IO.eprint text
  log e := IO.eprint s!"[{e.level.name}] {e.speaker}: {e.message}\n"
  isTerminal := do (← IO.getStdout).isTty

/-- Allows more and more steps until they are enough. -/
partial def runFrom (steps : Nat) (arguments : List String) : IO UInt32 := do
  match ← run steps arguments with
  | some code => return code
  | none => runFrom (2 * steps) arguments

end Sentential.Cli

def main (arguments : List String) : IO UInt32 := Sentential.Cli.runFrom (1 <<< 40) arguments
