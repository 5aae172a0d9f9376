import SuiteMigration.FileSystem.Basic
import SuiteMigration.Path

/-!
# Access by path

Paths are followed from the root or the working directory one piece at a time, and each step needs a
directory to stand in. Reading, writing and making directories fail the way an operating system
fails, and a failed operation keeps what it had done before.
-/
namespace SuiteMigration.FileSystem

inductive Fault where
  | missing
  | alreadyThere
  | notDirectory
  | isDirectory
  | nameTooLong
  | nulInName
  | notText
  | denied
  deriving DecidableEq

def Fault.message : Fault → String
  | .missing => "No such file or directory (os error 2)"
  | .alreadyThere => "File exists (os error 17)"
  | .notDirectory => "Not a directory (os error 20)"
  | .isDirectory => "Is a directory (os error 21)"
  | .nameTooLong => "File name too long (os error 36)"
  | .nulInName => "file name contained an unexpected NUL byte"
  | .notText => "stream did not contain valid UTF-8"
  | .denied => "Permission denied (os error 13)"

/-- One step from a location: an empty piece or a dot stays, two dots go up. -/
def step (files : FileSystem) (location : Location) (piece : List Char) :
    Except Fault Location :=
  match files.node? location with
  | none => .error .missing
  | some (.file _) => .error .notDirectory
  | some .directory =>
    if piece = [] ∨ piece = ['.'] then .ok location
    else if piece = ['.', '.'] then .ok location.dropLast
    else
      let name := String.ofList piece
      if name.utf8ByteSize > 255 then .error .nameTooLong else .ok (location ++ [name])

/-- The bytes that a path can have at most. -/
def pathLimit : Nat := 4095

/-- The pieces of a path between slashes, without the empty ones at its end. -/
def pathPieces (path : Path) : List (List Char) :=
  ((Text.splitAt '/' path.text.toList).reverse.dropWhile (· = [])).reverse

def endsInSlash (path : Path) : Bool :=
  path.text.toList.getLast? == some '/'

/-- The place a path leads to, where there may be nothing yet; slashes at its end are ignored. -/
def locate (files : FileSystem) (path : Path) : Except Fault Location :=
  if path.text.isEmpty then .error .missing
  else if path.text.toList.contains '\x00' then .error .nulInName
  else if path.text.utf8ByteSize > pathLimit then .error .nameTooLong
  else
    (pathPieces path).foldlM files.step (if path.isAbsolute then [] else files.working)

/-- The node a path leads to, with its place. A slash at the end asks for a directory. -/
def open? (files : FileSystem) (path : Path) : Except Fault (Location × Node) := do
  let location ← files.locate path
  match files.node? location with
  | none => .error .missing
  | some (.file content) =>
    if endsInSlash path then .error .notDirectory else .ok (location, .file content)
  | some .directory => .ok (location, .directory)

def directory? (files : FileSystem) (path : Path) : Option Location :=
  match files.open? path with
  | .ok (location, .directory) => some location
  | _ => none

def isDirectory (files : FileSystem) (path : Path) : Bool :=
  (files.directory? path).isSome

def isFile (files : FileSystem) (path : Path) : Bool :=
  match files.open? path with
  | .ok (_, .file _) => true
  | _ => false

def readText (files : FileSystem) (path : Path) : Except Fault String := do
  match ← files.open? path with
  | (_, .file (.text content)) => .ok content
  | (_, .file (.raw _)) => .error .notText
  | (_, .directory) => .error .isDirectory

/-- Writes a file. A path that ends in a slash asks for a directory, which cannot be written. -/
def write (files : FileSystem) (path : Path) (content : Content) : Except Fault FileSystem := do
  let location ← files.locate path
  if endsInSlash path || files.node? location = some .directory then .error .isDirectory
  else .ok (files.set location (.file content))

/-- Makes one directory, whose parent must be there. -/
def makeDirectory (files : FileSystem) (path : Path) : Except Fault FileSystem := do
  let location ← files.locate path
  match files.node? location with
  | some _ => .error .alreadyThere
  | none => .ok (files.set location .directory)

/-- A path, its parent, and so on; `fuel` bounds their number. -/
def ancestors : Nat → Path → List Path
  | 0, path => [path]
  | fuel + 1, path =>
    match path.parent? with
    | some parent => path :: ancestors fuel parent
    | none => [path]

/-- Makes the first of a line of ancestors, and the others before it where that needs them. -/
def makeAncestors (files : FileSystem) : List Path → FileSystem × Except Fault Unit
  | [] => (files, .error .missing)
  | path :: parents =>
    if path.text.isEmpty then (files, .ok ())
    else match files.makeDirectory path with
      | .ok made => (made, .ok ())
      | .error .missing =>
        match files.makeAncestors parents with
        | (files, .error fault) => (files, .error fault)
        | (files, .ok ()) =>
          match files.makeDirectory path with
          | .ok made => (made, .ok ())
          | .error fault => (files, if files.isDirectory path then .ok () else .error fault)
      | .error fault => (files, if files.isDirectory path then .ok () else .error fault)

/-- Makes a directory with all directories above it; it may be there already. -/
def makeDirectories (files : FileSystem) (path : Path) : FileSystem × Except Fault Unit :=
  files.makeAncestors (ancestors path.text.length path)

/-- Removes a file, or a directory with all it holds. -/
def remove (files : FileSystem) (path : Path) : Except Fault FileSystem := do
  let (location, _) ← files.open? path
  .ok (files.erase location)

end SuiteMigration.FileSystem
