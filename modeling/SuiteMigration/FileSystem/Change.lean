import SuiteMigration.FileSystem.Basic

/-!
# Changes to a tree

What has to be written to turn one tree into another that has all of its nodes.
-/
namespace SuiteMigration.FileSystem

/-- The nodes of a tree that another one does not have as they are. -/
def changesSince (later earlier : FileSystem) : List (Location × Node) :=
  later.nodes.filter fun (location, node) => earlier.node? location ≠ some node

end SuiteMigration.FileSystem
