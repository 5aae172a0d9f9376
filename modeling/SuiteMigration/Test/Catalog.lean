import SuiteMigration.Outline.SourceUnit
import SuiteMigration.Path
import SuiteMigration.Pattern.Search

/-!
# Pages that a test refers to

Imports from a page package name pages; a wildcard import stands for those pages of this run that
the source mentions.
-/
namespace SuiteMigration.Test

open Outline

/-- The page modules that a script can import. -/
structure Catalog where
  /-- Where the page modules are. -/
  directory : Path
  /-- The package segment that tells an import of a page. -/
  marker : String
  /-- The pages converted in this run. -/
  converted : List String

namespace Catalog

def isPageImport (catalog : Catalog) (clause : Import) : Bool :=
  !clause.isStatic && clause.packageSegments.contains catalog.marker

/-- Does the name stand in the source as a word of its own? -/
def mentions (source : String) (name : String) : Bool :=
  (Pattern.all [.atWordEdge, .text name, .atWordEdge]).occursIn source.toList

/-- Adds a name to the end of a list that does not have it. -/
def addNew (names : List String) (name : String) : List String :=
  if names.contains name then names else names ++ [name]

/-- The pages in the order of their imports, then those a wildcard brings in by name. -/
def referencedPages (catalog : Catalog) (unit : SourceUnit) (source : String) : List String :=
  let imports := unit.imports.filter catalog.isPageImport
  let explicit := (imports.filter (!·.isWildcard)).map Import.simpleName
  let wildcard :=
    if imports.any (·.isWildcard) then
      (catalog.converted.mergeSort (· ≤ ·)).filter (mentions source)
    else []
  (explicit ++ wildcard).foldl addNew []

end Catalog

end SuiteMigration.Test
