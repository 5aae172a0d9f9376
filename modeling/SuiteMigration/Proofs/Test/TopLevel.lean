import SuiteMigration.Proofs.Locator.LastEntry
import SuiteMigration.Proofs.Outline.ClassTree
import SuiteMigration.Test.Script

/-!
# Classes at top level

Locators are collected and test cases are made from the classes at top level. The classes inside
them are read, but they leave no trace in the table nor in the script.
-/
namespace SuiteMigration.Test

open Locator Outline

/-- A field or a statement of the class declares a locator of the name. -/
def DeclaresLocator (decl : ClassDecl) (name : String) : Prop :=
  ∃ declaration ∈ Declaration.ofClass decl, ∃ entry ∈ declaration.entries, entry.name = name

private theorem isSome_entryFor? {declaration : Declaration} {name : String} :
    (declaration.entryFor? name).isSome = true
      ↔ ∃ entry ∈ declaration.entries, entry.name = name := by
  simp [Declaration.entryFor?]

/-- The table has the names that the classes at top level declare, and no others. -/
theorem contains_ofUnit_iff (unit : SourceUnit) (name : String) :
    (Table.ofUnit unit).contains name = true
      ↔ ∃ decl ∈ unit.classes, DeclaresLocator decl name := by
  rw [Table.contains, Table.find?_ofUnit, lastFor?, List.findSome?_isSome_iff]
  simp only [List.mem_reverse, Declaration.ofUnit, List.mem_mergeSort, List.mem_flatMap,
    isSome_entryFor?, DeclaresLocator]
  constructor
  · rintro ⟨declaration, ⟨decl, member, in_class⟩, declares⟩
    exact ⟨decl, member, declaration, in_class, declares⟩
  · rintro ⟨decl, member, declaration, in_class, declares⟩
    exact ⟨declaration, ⟨decl, member, in_class⟩, declares⟩

private theorem filter_tests_eq_nil_iff (classes : List ClassDecl) :
    (classes.flatMap ClassDecl.methods).filter (·.hasTag "Test") = []
      ↔ ∀ decl ∈ classes, ∀ method ∈ decl.methods, method.hasTag "Test" = false := by
  simp only [List.filter_eq_nil_iff, List.mem_flatMap, Bool.not_eq_true]
  constructor
  · exact fun untagged decl in_classes method member => untagged method ⟨decl, in_classes, member⟩
  · exact fun untagged method ⟨decl, in_classes, member⟩ => untagged decl in_classes method member

section Cases

theorem Case.name_add (case : Case) (outcome : Outcome) : (case.add outcome).name = case.name := by
  cases outcome <;> rfl

theorem Case.name_ofBody (name : String) (pageInstances body : List String) :
    (Case.ofBody name pageInstances body).name = name := by
  -- The name is set at the start, and no outcome that is added changes it.
  suffices keeps : ∀ (outcomes : List Outcome) (case : Case),
      (outcomes.foldl Case.add case).name = case.name from keeps _ _
  intro outcomes
  induction outcomes with
  | nil => exact fun case => rfl
  | cons outcome rest ih => exact fun case => (ih _).trans (case.name_add outcome)

variable (unit : SourceUnit) (source fallback : String) (directory : Path) (catalog : Catalog)
  (settings : Settings)

/-- The test methods of the classes inside other ones. -/
def nestedTestMethods : List Method :=
  (unit.nestedClasses.flatMap ClassDecl.methods).filter (·.hasTag "Test")

theorem ofUnit?_eq_none_iff :
    Script.ofUnit? unit source fallback directory catalog settings = none
      ↔ testMethods unit = [] := by
  simp [Script.ofUnit?]

/-- A script has one case for each test method of the classes at top level, in their order. -/
theorem names_of_ofUnit? {script : Script}
    (built : Script.ofUnit? unit source fallback directory catalog settings = some script) :
    script.cases.map Case.name = (testMethods unit).map Method.name := by
  unfold Script.ofUnit? at built
  extract_lets tests at built
  split at built
  · cases built
  · cases built
    simp only [List.map_map, Function.comp_def, Case.name_ofBody]
    rfl

private theorem length_tests :
    (unit.allMethods.filter (·.hasTag "Test")).length
      = (testMethods unit).length + (nestedTestMethods unit).length := by
  rw [(unit.allMethods_perm.filter _).length_eq, List.filter_append, List.length_append]
  rfl

private theorem testMethods_withoutNested : testMethods unit.withoutNested = testMethods unit := by
  rw [testMethods, SourceUnit.withoutNested, List.flatMap_map]
  rfl

end Cases

private theorem publicName_withoutNested (unit : SourceUnit) (fallback : String) :
    unit.withoutNested.publicName fallback = unit.publicName fallback := by
  have public_eq : unit.withoutNested.publicClass?
      = unit.publicClass?.map fun decl => { decl with nested := [] } := by
    rw [SourceUnit.publicClass?, SourceUnit.withoutNested, List.find?_map]
    rfl
  unfold SourceUnit.publicName
  rw [public_eq]
  cases unit.publicClass? <;> rfl

private theorem ofUnit_withoutNested (unit : SourceUnit) :
    Table.ofUnit unit.withoutNested = Table.ofUnit unit := by
  have declarations_eq : Declaration.ofUnit unit.withoutNested = Declaration.ofUnit unit := by
    rw [Declaration.ofUnit, SourceUnit.withoutNested, List.flatMap_map]
    rfl
  rw [Table.ofUnit, declarations_eq]
  rfl

private theorem ofUnit?_withoutNested (unit : SourceUnit) (source fallback : String)
    (directory : Path) (catalog : Catalog) (settings : Settings) :
    Script.ofUnit? unit.withoutNested source fallback directory catalog settings
      = Script.ofUnit? unit source fallback directory catalog settings := by
  unfold Script.ofUnit?
  rw [testMethods_withoutNested, publicName_withoutNested]
  rfl

/-- The table has the names that classes at top level declare, and the script has a case for each of
their test methods; there is no script if there are none. Neither depends on the classes inside them,
so the script has as many cases as there are test methods only if none is in such a class. -/
theorem only_top_level_classes_count (unit : SourceUnit) (source fallback : String)
    (directory : Path) (catalog : Catalog) (settings : Settings) :
    (∀ name, (Table.ofUnit unit).contains name = true
      ↔ ∃ decl ∈ unit.classes, DeclaresLocator decl name) ∧
    (Script.ofUnit? unit source fallback directory catalog settings = none
      ↔ ∀ decl ∈ unit.classes, ∀ method ∈ decl.methods, method.hasTag "Test" = false) ∧
    (∀ script, Script.ofUnit? unit source fallback directory catalog settings = some script →
      script.cases.map Case.name
          = ((unit.classes.flatMap ClassDecl.methods).filter (·.hasTag "Test")).map Method.name ∧
      (script.cases.length = (unit.allMethods.filter (·.hasTag "Test")).length
        ↔ ∀ decl ∈ unit.nestedClasses, ∀ method ∈ decl.methods, method.hasTag "Test" = false)) ∧
    Table.ofUnit unit.withoutNested = Table.ofUnit unit ∧
    Script.ofUnit? unit.withoutNested source fallback directory catalog settings
      = Script.ofUnit? unit source fallback directory catalog settings := by
  refine ⟨contains_ofUnit_iff unit, ?_, fun script built => ⟨?_, ?_⟩, ofUnit_withoutNested unit,
    ofUnit?_withoutNested unit source fallback directory catalog settings⟩
  · rw [ofUnit?_eq_none_iff]
    exact filter_tests_eq_nil_iff unit.classes
  · exact names_of_ofUnit? unit source fallback directory catalog settings built
  · have names_eq := names_of_ofUnit? unit source fallback directory catalog settings built
    have length_eq := congrArg List.length names_eq
    rw [List.length_map, List.length_map] at length_eq
    -- The script has one case for each test at top level, so it lacks those of the nested classes.
    rw [length_eq, length_tests, ← filter_tests_eq_nil_iff unit.nestedClasses,
      ← List.length_eq_zero_iff, nestedTestMethods]
    omega

/-- A class with a test, and inside it one with another test. -/
def suiteSource : String :=
  "class P \x7b @Test void t() \x7b \x7d static class Q \x7b @Test void u() \x7b \x7d \x7d \x7d"

theorem only_top_level_classes_count_suite :
    ∃ unit, SourceUnit.parse suiteSource = .ok unit ∧
      unit.allMethods.map Method.name = ["t", "u"] ∧
      ∃ script, Script.ofUnit? unit suiteSource "P" ⟨"pages"⟩ ⟨⟨"pages"⟩, "pages", []⟩ ⟨"", true⟩
          = some script ∧
        script.cases.map Case.name = ["t"] := by
  have evaluated : (SourceUnit.parse suiteSource).toOption.map (fun unit =>
      (unit.allMethods.map Method.name,
        ((unit.classes.flatMap ClassDecl.methods).filter (·.hasTag "Test")).map Method.name))
      = some (["t", "u"], ["t"]) := by
    decide +kernel
  obtain ⟨unit, parsed, names_eq⟩ := exists_parsed evaluated
  obtain ⟨methods_eq, tests_eq⟩ := Prod.mk.inj names_eq
  refine ⟨unit, parsed, methods_eq, ?_⟩
  cases built :
      Script.ofUnit? unit suiteSource "P" ⟨"pages"⟩ ⟨⟨"pages"⟩, "pages", []⟩ ⟨"", true⟩ with
  | none =>
    rw [ofUnit?_eq_none_iff] at built
    rw [show (unit.classes.flatMap ClassDecl.methods).filter (·.hasTag "Test") = [] from built]
      at tests_eq
    cases tests_eq
  | some script =>
    have counted := only_top_level_classes_count unit suiteSource "P" ⟨"pages"⟩
      ⟨⟨"pages"⟩, "pages", []⟩ ⟨"", true⟩
    exact ⟨script, rfl, (counted.2.2.1 script built).1.trans tests_eq⟩

/-- The only class with a locator and a test is a nested one. -/
def nestedSource : String :=
  "class P \x7b static class Q \x7b @FindBy(id = \"a\") WebElement x; "
    ++ "@Test void u() \x7b \x7d \x7d \x7d"

/-- What a nested class declares is not in the table, and its test makes no script. -/
theorem only_top_level_classes_count_not_nested :
    (¬ ∀ (source : String) (unit : SourceUnit), SourceUnit.parse source = .ok unit →
      ∀ decl ∈ unit.allClasses, ∀ name, DeclaresLocator decl name →
        (Table.ofUnit unit).contains name = true) ∧
    ¬ ∀ (source : String) (unit : SourceUnit), SourceUnit.parse source = .ok unit →
      ∀ fallback directory catalog settings,
        Script.ofUnit? unit source fallback directory catalog settings = none →
        ∀ decl ∈ unit.allClasses, ∀ method ∈ decl.methods, method.hasTag "Test" = false := by
  have evaluated : (SourceUnit.parse nestedSource).toOption.map (fun unit =>
      (((unit.allClasses.flatMap Declaration.ofClass).flatMap Declaration.entries).map Entry.name,
        (unit.classes.flatMap Declaration.ofClass).length,
        (testMethods unit).length,
        (unit.allClasses.flatMap ClassDecl.methods).map (·.hasTag "Test")))
      = some (["x"], 0, 0, [true]) := by
    decide +kernel
  obtain ⟨unit, parsed, parts_eq⟩ := exists_parsed evaluated
  simp only [Prod.mk.injEq, List.length_eq_zero_iff] at parts_eq
  obtain ⟨names_eq, declarations_eq, tests_eq, tagged_eq⟩ := parts_eq
  constructor
  · -- The nested class declares a locator, and no class at the top declares any.
    intro in_table
    have declared : ∃ decl ∈ unit.allClasses, DeclaresLocator decl "x" := by
      have found : "x" ∈ _ := names_eq ▸ List.mem_singleton_self "x"
      obtain ⟨entry, entry_mem, name_eq⟩ := List.mem_map.mp found
      obtain ⟨declaration, declaration_mem, in_declaration⟩ := List.mem_flatMap.mp entry_mem
      obtain ⟨decl, decl_mem, in_class⟩ := List.mem_flatMap.mp declaration_mem
      exact ⟨decl, decl_mem, declaration, in_class, entry, in_declaration, name_eq⟩
    obtain ⟨decl, decl_mem, declares⟩ := declared
    obtain ⟨outer, outer_mem, declaration, in_class, -⟩ :=
      (contains_ofUnit_iff unit "x").mp (in_table _ unit parsed decl decl_mem "x" declares)
    have at_top := List.mem_flatMap.mpr ⟨outer, outer_mem, in_class⟩
    rw [declarations_eq] at at_top
    cases at_top
  · -- The nested class has a test, and a script needs one at the top.
    intro has_test
    have tagged : true ∈ _ := tagged_eq ▸ List.mem_singleton_self true
    obtain ⟨method, method_mem, is_test⟩ := List.mem_map.mp tagged
    obtain ⟨decl, decl_mem, in_class⟩ := List.mem_flatMap.mp method_mem
    have no_script := (ofUnit?_eq_none_iff unit nestedSource "P" ⟨"pages"⟩
      ⟨⟨"pages"⟩, "pages", []⟩ ⟨"", true⟩).mpr tests_eq
    have untagged := has_test _ unit parsed "P" _ _ _ no_script decl decl_mem method in_class
    rw [untagged] at is_test
    cases is_test

end SuiteMigration.Test
