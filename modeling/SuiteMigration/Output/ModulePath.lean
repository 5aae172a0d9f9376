import SuiteMigration.Path

/-!
# Module specifiers

How a file in one directory names a module in another: always relative, always with slashes.
-/
namespace SuiteMigration.Output

/-- How many leading elements two lists share. -/
def commonLength [DecidableEq α] : List α → List α → Nat
  | left :: lefts, right :: rights => if left = right then commonLength lefts rights + 1 else 0
  | _, _ => 0

/-- The steps up out of `source` and down into `target`, and the module. -/
def moduleSegments (source target : Path) (module : String) : List String :=
  let source := source.components.filter (· ≠ .current)
  let target := target.components.filter (· ≠ .current)
  let common := commonLength source target
  List.replicate (source.length - common) ".." ++ (target.drop common).map Path.Component.text
    ++ [module]

def modulePath (source target : Path) (module : String) : String :=
  let joined := "/".intercalate (moduleSegments source target module)
  if ['.', '.'].isPrefixOf joined.toList then joined else "./" ++ joined

end SuiteMigration.Output
