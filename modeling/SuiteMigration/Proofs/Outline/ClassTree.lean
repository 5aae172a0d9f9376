import SuiteMigration.Proofs.Outline.Methods

/-!
# The tree of classes

All classes of a unit, and those that stand inside other ones. The methods of all classes are those
of the classes at top level and those of the classes inside them.
-/
namespace SuiteMigration.Outline

mutual

/-- A class and the classes inside it, however deep. -/
def ClassDecl.allClasses : ClassDecl → List ClassDecl
  | ⟨name, modifiers, tags, fields, methods, nested, line⟩ =>
    ⟨name, modifiers, tags, fields, methods, nested, line⟩ :: allClassesOf nested

def ClassDecl.allClassesOf : List ClassDecl → List ClassDecl
  | [] => []
  | decl :: rest => decl.allClasses ++ allClassesOf rest

end

namespace SourceUnit

def allClasses (unit : SourceUnit) : List ClassDecl :=
  ClassDecl.allClassesOf unit.classes

/-- The classes that stand inside other ones, however deep. -/
def nestedClasses (unit : SourceUnit) : List ClassDecl :=
  unit.classes.flatMap fun decl => ClassDecl.allClassesOf decl.nested

/-- The unit with nothing but its classes at top level. -/
def withoutNested (unit : SourceUnit) : SourceUnit :=
  { unit with classes := unit.classes.map fun decl => { decl with nested := [] } }

end SourceUnit

theorem ClassDecl.allClasses_eq (decl : ClassDecl) :
    decl.allClasses = decl :: allClassesOf decl.nested := by
  cases decl
  rw [allClasses]

mutual

theorem ClassDecl.allMethods_eq (decl : ClassDecl) :
    decl.allMethods = decl.allClasses.flatMap ClassDecl.methods := by
  cases decl with
  | mk name modifiers tags fields methods nested line =>
    rw [allMethods, allClasses, List.flatMap_cons, allMethodsOf_eq nested]

theorem ClassDecl.allMethodsOf_eq (classes : List ClassDecl) :
    allMethodsOf classes = (allClassesOf classes).flatMap ClassDecl.methods := by
  cases classes with
  | nil => rfl
  | cons decl rest =>
    rw [allMethodsOf, allClassesOf, List.flatMap_append, allMethods_eq decl, allMethodsOf_eq rest]

end

namespace SourceUnit

variable (unit : SourceUnit)

/-- A class stands at top level or inside another one. -/
theorem allClasses_perm : unit.allClasses.Perm (unit.classes ++ unit.nestedClasses) := by
  unfold allClasses nestedClasses
  induction unit.classes with
  | nil => exact .refl _
  | cons decl rest ih =>
    rw [ClassDecl.allClassesOf, decl.allClasses_eq, List.flatMap_cons, List.cons_append]
    exact ((ih.append_left _).trans (List.perm_append_comm_assoc _ _ _)).cons decl

theorem allMethods_perm :
    unit.allMethods.Perm
      (unit.classes.flatMap ClassDecl.methods ++ unit.nestedClasses.flatMap ClassDecl.methods) := by
  rw [allMethods, ClassDecl.allMethodsOf_eq, ← List.flatMap_append]
  exact unit.allClasses_perm.flatMap_right ClassDecl.methods

end SourceUnit

end SuiteMigration.Outline
