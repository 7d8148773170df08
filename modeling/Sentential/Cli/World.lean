import Sentential.Cli.Path
import Sentential.Cli.Program

namespace Sentential.Cli

/-- A place to run in: a tree of files, a text that is typed in, and what the program says. A place
in the tree is given by the names on the way from its root. -/
structure World where
  files : List (List String × ByteArray) := []
  /-- The place where paths start that are not absolute. -/
  directory : List String := []
  input : ByteArray := .empty
  printed : String := ""
  complaints : String := ""
  logged : List Entry := []

namespace World

def file? (w : World) (place : List String) : Option ByteArray := w.files.lookup place

/-- The directories are those on the way to a file or to the working directory, and this itself. -/
def isDirectory (w : World) (place : List String) : Bool :=
  place.isPrefixOf w.directory ||
    w.files.any fun (file, _) ↦ place.isPrefixOf file && place ≠ file

/-- Goes on from a place by one name, which only a directory allows. The root is its own parent. -/
def step (w : World) (place : List String) (name : String) : Except FileError (List String) :=
  if w.isDirectory place then
    if name = "." then .ok place
    else if name = ".." then .ok place.dropLast
    else if Path.maxNameBytes < name.utf8ByteSize then .error .nameTooLong
    else .ok (place ++ [name])
  else if (w.file? place).isSome then .error .notADirectory
  else .error .notFound

/-- The place that a path leads to by these names of it. All but the last must lead to
directories. -/
def follow (w : World) (path : Path) (names : List String) : Except FileError (List String) :=
  names.foldlM w.step (if path.isAbsolute then [] else w.directory)

/-- The place that a path leads to. A slash at its end asks for a directory, as a dot after the
slash would. -/
def place (w : World) (path : Path) : Except FileError (List String) :=
  w.follow path (if path.endsInSlash then path.names ++ ["."] else path.names)

/-- The place of the file that a path makes or replaces. With a slash at its end it never leads to
one, whether or not its last name is taken. -/
def newPlace (w : World) (path : Path) : Except FileError (List String) := do
  let place ← w.follow path (if path.endsInSlash then path.names.dropLast ++ ["."] else path.names)
  if w.isDirectory place then .error .isADirectory else .ok place

def readFile (w : World) (text : String) : Except FileError ByteArray := do
  let place ← w.place (← Path.ofText text)
  if w.isDirectory place then .error .isADirectory
  else
    match w.file? place with
    | none => .error .notFound
    | some bytes => .ok bytes

def put (w : World) (place : List String) (text : String) : World :=
  { w with files := (place, text.toUTF8) :: w.files.filter (·.1 ≠ place) }

@[simp] theorem file?_put (w : World) (place : List String) (text : String) :
    (w.put place text).file? place = some text.toUTF8 := by
  simp [put, file?]

def writeFile (w : World) (path text : String) : Except FileError Unit × World :=
  match (Path.ofText path).bind w.newPlace with
  | .error e => (.error e, w)
  | .ok place => (.ok (), w.put place text)

def changesSince (before after : World) : List (List String × ByteArray) :=
  after.files.filter fun (place, bytes) ↦
    (before.file? place).map ByteArray.data ≠ some bytes.data

end World

instance : Host (StateM World) where
  readFile path := return (← get).readFile path
  readInput := return .ok (← get).input
  writeFile path text := modifyGet fun w ↦ w.writeFile path text
  print text := modify fun w ↦ { w with printed := w.printed ++ text }
  complain text := modify fun w ↦ { w with complaints := w.complaints ++ text }
  log e := modify fun w ↦ { w with logged := w.logged ++ [e] }
  isTerminal := return false

/-- A run of the program: its exit code and the world it leaves. -/
def World.run (w : World) (steps : Nat) (arguments : List String) : Option UInt32 × World :=
  (Cli.run steps arguments : StateM World (Option UInt32)).run w

end Sentential.Cli
