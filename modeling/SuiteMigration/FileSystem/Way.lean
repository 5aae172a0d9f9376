import SuiteMigration.FileSystem.Basic
import SuiteMigration.Path

/-!
# Ways below a directory

A way is the names that lead from a directory down to what lies below it. It is joined to the path of
the directory name by name.
-/
namespace SuiteMigration.FileSystem

/-- The path of what lies on a way below a directory. -/
def joinWay (directory : Path) (way : Location) : Path :=
  way.foldl (fun path name => path.join ⟨name⟩) directory

end SuiteMigration.FileSystem
