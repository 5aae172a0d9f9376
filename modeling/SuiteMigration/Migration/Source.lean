import SuiteMigration.Config.Basic
import SuiteMigration.FileSystem.View
import SuiteMigration.Manifest

/-!
# Sources of a run

The sources below a root are what a walk finds there with the extension of a source, in the order of
the paths. A filter keeps those with a directory of that name between the root and the source.
-/
namespace SuiteMigration.Migration

open FileSystem

/-- Is a path that a walk has found a source, and one that passes the filter? -/
def keeps (root : Path) (filter : Option String) (path : Path) : Bool :=
  path.extension? == some "java" && filter.all fun directory =>
    (root.behind? path).any fun behind => behind.dropLast.any (·.text == directory)

/-- The sources below a root, in the order of their paths. -/
def collectSources (view : View) (root : Path) (filter : Option String) :
    Except FileSystem.Failure (List Path) :=
  if view.isDirectory root then do
    let found ← view.walk (pathLimit + 1) root
    return Path.sort (found.filter (keeps root filter))
  else .error (.noDirectory root)

/-- Where a kind of source is looked for, and the filter it passes. -/
def sourceRoot (config : Config) : SourceKind → Path × Option String
  | .page => (config.pagesInput, config.layout.pageFilter)
  | .test => (config.testsInput, config.layout.testFilter)

/-- The sources of one kind; there are none without their root or if the walk fails. -/
def sources (config : Config) (files : FileSystem) (kind : SourceKind) : List Path :=
  let (root, filter) := sourceRoot config kind
  match collectSources files.view root filter with
  | .ok paths => paths
  | .error _ => []

/-- The failure of the walk to the sources of one kind; a root that is not there is none. -/
def walkFailure? (config : Config) (files : FileSystem) (kind : SourceKind) :
    Option Manifest.Failure :=
  let (root, filter) := sourceRoot config kind
  if files.isDirectory root then
    match collectSources files.view root filter with
    | .ok _ => none
    | .error failure => some ⟨kind, root, failure.message⟩
  else none

end SuiteMigration.Migration
