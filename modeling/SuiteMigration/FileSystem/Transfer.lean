import SuiteMigration.FileSystem.Access

/-!
# Whole files in and out

Sources are loaded as text and modules saved with the directories above them. A failure tells which
path it was about.
-/
namespace SuiteMigration.FileSystem

inductive Failure where
  | read (path : Path) (cause : Fault)
  | write (path : Path) (cause : Fault)
  | noDirectory (path : Path)
  deriving DecidableEq

def Failure.message : Failure → String
  | .read path cause => "Failed to read " ++ path.text ++ ": " ++ cause.message
  | .write path cause => "Failed to write " ++ path.text ++ ": " ++ cause.message
  | .noDirectory path => "Directory not found: " ++ path.text

def load (files : FileSystem) (path : Path) : Except Failure String :=
  (files.readText path).mapError (.read path)

/-- The directory above a path is made with all above it; a path without a parent needs none. -/
def makeParents (files : FileSystem) (path : Path) : FileSystem × Except Failure Unit :=
  match path.parent? with
  | none => (files, .ok ())
  | some parent =>
    match files.makeDirectories parent with
    | (made, result) => (made, result.mapError (.write parent))

/-- Writes a file below directories that are made where they are missing. -/
def save (files : FileSystem) (path : Path) (content : Content) :
    FileSystem × Except Failure Unit :=
  match files.makeParents path with
  | (made, .error failure) => (made, .error failure)
  | (made, .ok ()) =>
    match made.write path content with
    | .error cause => (made, .error (.write path cause))
    | .ok written => (written, .ok ())

end SuiteMigration.FileSystem
