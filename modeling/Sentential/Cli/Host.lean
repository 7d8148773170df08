import Sentential.Log

namespace Sentential.Cli

/-- Why a file cannot be used. -/
inductive FileError
  | notFound
  | notPermitted
  | notADirectory
  | isADirectory
  | nameTooLong
  | nulInName
  | notText
  | other (message : String)
  deriving DecidableEq, Repr

def FileError.message : FileError → String
  | notFound => "No such file or directory (os error 2)"
  | notPermitted => "Permission denied (os error 13)"
  | notADirectory => "Not a directory (os error 20)"
  | isADirectory => "Is a directory (os error 21)"
  | nameTooLong => "File name too long (os error 36)"
  | nulInName => "file name contained an unexpected NUL byte"
  | notText => "stream did not contain valid UTF-8"
  | other message => message

/-- What the program needs from the place where it runs. -/
class Host (m : Type → Type) where
  readFile : String → m (Except FileError ByteArray)
  readInput : m (Except FileError ByteArray)
  /-- Makes a file with this text, or replaces what the file held. -/
  writeFile : String → String → m (Except FileError Unit)
  print : String → m Unit
  complain : String → m Unit
  log : Entry → m Unit
  /-- Whether printed text goes to a terminal. -/
  isTerminal : m Bool

instance {m : Type → Type} {ε : Type} [Monad m] [Host m] : Host (ExceptT ε m) where
  readFile path := ExceptT.lift (Host.readFile path)
  readInput := ExceptT.lift Host.readInput
  writeFile path text := ExceptT.lift (Host.writeFile path text)
  print text := ExceptT.lift (Host.print text)
  complain text := ExceptT.lift (Host.complain text)
  log e := ExceptT.lift (Host.log e)
  isTerminal := ExceptT.lift Host.isTerminal

def decode (bytes : ByteArray) : Except FileError String :=
  match String.fromUTF8? bytes with
  | some text => .ok text
  | none => .error .notText

/-- An error of the program itself. -/
structure Report where
  message : String
  cause : Option String := none
  deriving DecidableEq, Repr

def Report.text (r : Report) : String :=
  "Error: " ++ r.message ++ "\n" ++
    match r.cause with
    | none => ""
    | some cause => "\nCaused by:\n    " ++ cause ++ "\n"

end Sentential.Cli
