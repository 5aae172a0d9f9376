import Mathlib.Data.Char
import Mathlib.Data.List.Lex
import Mathlib.Data.List.Sort
import Mathlib.Data.Prod.Lex
import SuiteMigration.Proofs.FileSystem.Way

/-!
# The order of paths

Paths are ordered component by component and not by their text. The names in one directory are ordered
as their paths are.
-/
namespace SuiteMigration.Path

open FileSystem

variable {paths : List Path} {path : Path} {left right : List Component}

/-- The root comes before the two kinds of dots, and these before the names by their characters. -/
def Component.key (component : Component) : ℕ ×ₗ List Char :=
  toLex (component.rank, match component with
    | .normal name => name.toList
    | _ => [])

def key (path : Path) : List (ℕ ×ₗ List Char) :=
  path.components.map Component.key

/-- Strictly in front, component by component. -/
def Precedes (left right : Path) : Prop :=
  left.key < right.key

instance : Std.Irrefl Precedes where
  irrefl path := lt_irrefl path.key

instance : Std.Antisymm Precedes where
  antisymm _ right before after := absurd (lt_trans (c := right.key) after before) (lt_irrefl _)

theorem Component.before_iff (left right : Component) :
    left.before right = true ↔ left.key < right.key := by
  cases left with
  | normal left_name =>
    cases right with
    | normal right_name =>
      have names_iff : left_name < right_name ↔ left_name.toList < right_name.toList := Iff.rfl
      simp only [before, key, rank, Prod.Lex.toLex_lt_toLex, decide_eq_true_eq, lt_irrefl, false_or,
        true_and, names_iff]
    | root | current | parent => simp [before, key, rank, Prod.Lex.toLex_lt_toLex]
  | root | current | parent =>
    cases right <;> simp [before, key, rank, Prod.Lex.toLex_lt_toLex]

theorem Component.key_injective : Function.Injective Component.key := by
  intro left right same
  cases left <;> cases right <;> simp_all [key, rank, String.toList_inj]

/-- The first components that differ decide for the keys, too. -/
theorem componentsBefore_iff :
    componentsBefore left right = true ↔ left.map Component.key ≤ right.map Component.key := by
  rw [← not_lt]
  induction left generalizing right with
  | nil => simp [componentsBefore]
  | cons first lefts ih =>
    cases right with
    | nil => simp [componentsBefore]
    | cons second rights =>
      rw [componentsBefore, List.map_cons, List.map_cons, List.cons_lt_cons_iff]
      by_cases same : first = second
      · subst same
        simp [ih]
      · have keys_ne : second.key ≠ first.key := Component.key_injective.ne (Ne.symm same)
        have before_iff : first.key < second.key ↔ ¬second.key < first.key :=
          ⟨lt_asymm, fun not_after => lt_of_le_of_ne (not_lt.mp not_after) keys_ne.symm⟩
        simpa [same, keys_ne, Component.before_iff] using before_iff

theorem mem_sort : path ∈ sort paths ↔ path ∈ paths :=
  List.mem_mergeSort

/-- Sorting leaves paths in strictly ascending order. Two texts may have the same components, so the
paths have to differ in these. -/
theorem pairwise_sort
    (different : paths.Pairwise fun left right => left.components ≠ right.components) :
    (sort paths).Pairwise Precedes := by
  let before (left right : Path) : Bool := componentsBefore left.components right.components
  have sorted : (sort paths).Pairwise fun left right => before left right = true :=
    List.pairwise_mergeSort
      (fun first second third => by
        simp only [before, componentsBefore_iff]
        exact le_trans)
      (fun first second => by
        simp only [before, Bool.or_eq_true, componentsBefore_iff]
        exact le_total _ _) paths
  have sort_perm : paths.Perm (sort paths) := (List.mergeSort_perm paths _).symm
  refine sorted.imp₂ (fun left right before differs => ?_) (different.perm sort_perm Ne.symm)
  have keys_ne : left.key ≠ right.key := fun same =>
    differs (List.map_injective_iff.mpr Component.key_injective same)
  exact lt_of_le_of_ne (componentsBefore_iff.mp before) keys_ne

section Joining

variable {left right : String} (left_named : isEntryName left = true)
  (right_named : isEntryName right = true)
include left_named right_named

private theorem precedes_join (base : Path) (before : left < right) :
    (base.join ⟨left⟩).Precedes (base.join ⟨right⟩) := by
  unfold Precedes key
  rw [components_join left_named, components_join right_named, List.map_append, List.map_append]
  have name_before : (Component.normal left).key < (Component.normal right).key := by
    simpa [← Component.before_iff, Component.before] using before
  exact List.append_left_lt (List.cons_lt_cons_iff.mpr (.inl name_before))

theorem precedes_join_iff (base : Path) :
    (base.join ⟨left⟩).Precedes (base.join ⟨right⟩) ↔ left < right := by
  refine ⟨fun precedes => ?_, precedes_join left_named right_named base⟩
  by_contra not_before
  by_cases same : left = right
  · subst same
    exact lt_irrefl _ precedes
  · have after : right < left := by
      by_contra not_after
      exact same (String.le_antisymm (String.not_lt.mp not_after) (String.not_lt.mp not_before))
    exact lt_asymm precedes (precedes_join right_named left_named base after)

end Joining

end SuiteMigration.Path
