import SuiteMigration.FileSystem.Access
import SuiteMigration.FileSystem.Way

/-!
# Listing a directory

What lies below a directory at any depth, sorted by the text of its path. The text for a directory
ends in a slash.
-/
namespace SuiteMigration.FileSystem

def listingText (directory : Path) (way : Location) : Node → String
  | .directory => (joinWay directory way).text ++ "/"
  | .file _ => (joinWay directory way).text

/-- The nodes below a directory with their texts; there are none where there is no directory. -/
def listing (files : FileSystem) (directory : Path) : List (String × Node) :=
  match files.directory? directory with
  | none => []
  | some location =>
    let rows := (files.below location).map fun (way, node) =>
      (listingText directory way node, node)
    rows.mergeSort fun left right => left.1 ≤ right.1

end SuiteMigration.FileSystem
