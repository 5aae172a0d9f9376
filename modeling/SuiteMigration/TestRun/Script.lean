import SuiteMigration.FileSystem.View

/-!
# Scripts in a directory

The scripts of a directory are the script files directly inside it, in the order of their paths.
-/
namespace SuiteMigration.TestRun

open FileSystem

/-- Why a directory gives no scripts. -/
inductive Failure where
  | access (failure : FileSystem.Failure)
  | noScripts (directory : Path)
  deriving DecidableEq

def Failure.message : Failure → String
  | .access failure => failure.message
  | .noScripts directory => "No test scripts found in " ++ directory.text

/-- Is a path that of a script file? -/
def isScript (view : View) (path : Path) : Bool :=
  view.isFile path && path.extension? == some "ts"

/-- The scripts of a directory; it is an error if there are none. -/
def discover (view : View) (directory : Path) : Except Failure (List Path) :=
  if view.isDirectory directory then
    match (view.paths directory).mapM id with
    | .error failure => .error (.access failure)
    | .ok paths =>
      match Path.sort (paths.filter (isScript view)) with
      | [] => .error (.noScripts directory)
      | scripts => .ok scripts
  else .error (.access (.noDirectory directory))

/-- The modules in a directory by name; a directory without any, or none at all, has the empty
list. -/
def moduleNames (view : View) (directory : Path) : Except Failure (List String) :=
  match discover view directory with
  | .ok scripts => .ok (scripts.filterMap Path.stem?)
  | .error (.noScripts _) | .error (.access (.noDirectory _)) => .ok []
  | .error failure => .error failure

/-- What was converted before, by the names of the modules. -/
structure Listing where
  pages : List String
  tests : List String
  deriving DecidableEq

/-- Lists the modules in the directories for pages and for tests. -/
def listConverted (view : View) (pages tests : Path) : Except Failure Listing := do
  let pageNames ← moduleNames view pages
  let testNames ← moduleNames view tests
  return ⟨pageNames, testNames⟩

end SuiteMigration.TestRun
