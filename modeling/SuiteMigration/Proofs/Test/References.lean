import Mathlib.Data.List.Induction
import SuiteMigration.Proofs.Pattern.Passing
import SuiteMigration.Proofs.Test.Calls
import SuiteMigration.Proofs.Test.Instances
import SuiteMigration.Proofs.Text.Ascending
import SuiteMigration.Proofs.Text.Ending

/-!
# Pages that a test refers to

A test refers to the pages that it imports by name, in the order in which the names first come, and,
if it imports all pages of a package, to those pages of the run that its source mentions, in
ascending order. So the order in which the run has converted its pages does not count, nor how often.
-/
namespace SuiteMigration.Test

open Outline Pattern Text

/-- The pages that the imports name, in their order. -/
def Catalog.importedNames (catalog : Catalog) (unit : SourceUnit) : List String :=
  (unit.imports.filter fun clause =>
    !clause.isStatic && !clause.isWildcard && clause.packageSegments.contains catalog.marker).map
      Import.simpleName

/-- Does an import bring in all pages of a package? -/
def Catalog.ImportsAll (catalog : Catalog) (unit : SourceUnit) : Prop :=
  ∃ clause ∈ unit.imports, clause.isStatic = false ∧ clause.isWildcard = true ∧
    catalog.marker ∈ clause.packageSegments

section Mention

variable {name source : String}

end Mention

section References

variable (catalog : Catalog) (unit : SourceUnit) (source : String)

/-- Adding names one after another takes repetitions out. -/
theorem foldl_addNew (names : List String) : names.foldl Catalog.addNew [] = names.eraseDups := by
  -- A name is added behind those before it, so the induction is on the last one.
  induction names using List.reverseRecOn with
  | nil => rfl
  | append_singleton front name ih =>
    rw [List.foldl_append, ih, List.eraseDups_append]
    by_cases known : name ∈ front <;>
      simp [Catalog.addNew, List.removeAll, List.eraseDups_cons, known]

/-- The pages of the run that the test mentions and does not import by name. -/
def Catalog.mentionedNames : List String :=
  (((catalog.converted.mergeSort (· ≤ ·)).filter (mentions source)).removeAll
    (catalog.importedNames unit)).eraseDups

private theorem importedNames_eq : catalog.importedNames unit
    = ((unit.imports.filter catalog.isPageImport).filter (!·.isWildcard)).map Import.simpleName := by
  rw [Catalog.importedNames, List.filter_filter]
  congr 2
  funext clause
  unfold Catalog.isPageImport
  cases clause.isStatic <;> cases clause.isWildcard <;> simp

private theorem importsAll_iff : catalog.ImportsAll unit
    ↔ (unit.imports.filter catalog.isPageImport).any (·.isWildcard) = true := by
  simp [Catalog.ImportsAll, Catalog.isPageImport, and_left_comm, and_comm]

theorem mem_mentionedNames (name : String) : name ∈ catalog.mentionedNames unit source ↔
    name ∈ catalog.converted ∧ name ∉ catalog.importedNames unit ∧
      Catalog.mentions source name = true := by
  rw [Catalog.mentionedNames, List.mem_eraseDups, List.removeAll, List.mem_filter, List.mem_filter,
    List.mem_mergeSort]
  simp only [List.elem_eq_mem, Bool.not_eq_eq_eq_not, Bool.not_true, decide_eq_false_iff_not]
  tauto

theorem referencedPages_of_importsAll (imports_all : catalog.ImportsAll unit) :
    catalog.referencedPages unit source
      = (catalog.importedNames unit).eraseDups ++ catalog.mentionedNames unit source := by
  rw [Catalog.referencedPages, foldl_addNew, List.eraseDups_append, ← importedNames_eq,
    if_pos ((importsAll_iff catalog unit).mp imports_all), Catalog.mentionedNames]

theorem referencedPages_of_not_importsAll (not_all : ¬catalog.ImportsAll unit) :
    catalog.referencedPages unit source = (catalog.importedNames unit).eraseDups := by
  rw [Catalog.referencedPages, foldl_addNew, ← importedNames_eq,
    if_neg (mt (importsAll_iff catalog unit).mpr not_all), List.append_nil]

/-- Every page that a test refers to is imported by name or was converted in the run. -/
theorem mem_referencedPages {name : String}
    (member : name ∈ catalog.referencedPages unit source) :
    name ∈ catalog.importedNames unit ∨ name ∈ catalog.converted := by
  by_cases imports_all : catalog.ImportsAll unit
  · rw [referencedPages_of_importsAll catalog unit source imports_all, List.mem_append,
      List.mem_eraseDups, mem_mentionedNames] at member
    exact member.imp_right And.left
  · rw [referencedPages_of_not_importsAll catalog unit source imports_all,
      List.mem_eraseDups] at member
    exact .inl member

end References

end SuiteMigration.Test
