import SuiteMigration.FileSystem.Transfer

/-!
# What is seen of a tree

A tree is seen by asking about paths. What lies at a path need not be a directory or a regular file,
and it may be seen through a link. The names in a directory are told one after another, in any order,
and telling them may fail at any time.
-/
namespace SuiteMigration

/-- What the system answers about paths. -/
structure View where
  isDirectory : Path → Bool
  isFile : Path → Bool
  entries : Path → List (Except FileSystem.Fault String)

namespace View

open FileSystem

/-- The paths of what is in a directory, as they are told. -/
def paths (view : View) (directory : Path) : List (Except Failure Path) :=
  (view.entries directory).map fun entry =>
    (entry.map fun name => directory.join ⟨name⟩).mapError (.read directory)

/-- Everything below a directory that is no directory. Each level is behind a longer path, so `fuel`
need not be more than a path can have bytes. -/
def walk (view : View) : Nat → Path → Except Failure (List Path)
  | 0, _ => .ok []
  | fuel + 1, directory => do
    let found ← (view.paths directory).mapM fun path? => do
      let path ← path?
      if view.isDirectory path then view.walk fuel path else return [path]
    return found.flatten

end View

namespace FileSystem

/-- Can an entry of a directory have this name? -/
def isEntryName (name : String) : Bool :=
  name.toList ∉ [[], ['.'], ['.', '.']] && !name.toList.contains '/'

/-- Puts a name into an ascending list, if it is not there yet. -/
def insertName (name : String) : List String → List String
  | [] => [name]
  | first :: names =>
    if name < first then name :: first :: names
    else if name = first then first :: names
    else first :: insertName name names

/-- The names in a directory, in ascending order. -/
def names (files : FileSystem) (location : Location) : List String :=
  let children := (files.below location).filterMap fun (way, _) =>
    match way with
    | [name] => if isEntryName name then some name else none
    | _ => none
  children.foldr insertName []

/-- A tree of directories and regular files as it is seen. -/
def view (files : FileSystem) : View where
  isDirectory := files.isDirectory
  isFile := files.isFile
  entries directory :=
    match files.open? directory with
    | .error fault => [.error fault]
    | .ok (_, .file _) => [.error .notDirectory]
    | .ok (location, .directory) =>
      if location ∈ files.locked then [.error .denied] else (files.names location).map .ok

end FileSystem

end SuiteMigration
