import Sentential.Cli.Host

namespace Sentential.Cli

/-- A way to a file or directory: the names between the slashes of a text. -/
structure Path where
  isAbsolute : Bool
  names : List String
  endsInSlash : Bool
  deriving DecidableEq, Repr

namespace Path

def parts (start : List Char) : List Char → List String
  | [] => [String.ofList start.reverse]
  | '/' :: text => String.ofList start.reverse :: parts [] text
  | c :: text => parts (c :: start) text

def maxBytes : Nat := 4095

def maxNameBytes : Nat := 255

def ofText (text : String) : Except FileError Path :=
  let cs := text.toList
  if cs.contains '\x00' then .error .nulInName
  else if cs.isEmpty then .error .notFound
  else if maxBytes < text.utf8ByteSize then .error .nameTooLong
  -- Slashes in a row are as good as one.
  else .ok ⟨cs.head? = some '/', (parts [] cs).filter (· ≠ ""), cs.getLast? = some '/'⟩

end Path

end Sentential.Cli
