import SuiteMigration.Locator.Declaration

/-!
# The last entry of a name

A table holds for a name the entry that was inserted last. Since declarations are sorted by nothing
but their lines, that is the entry of the last declaration on the last line on which the name is
bound.
-/
namespace SuiteMigration.Locator

open Outline

section Table

variable (name : String)

theorem Table.find?_insert (table : Table) (entry : Entry) :
    (table.insert entry).find? name
      = if entry.name = name then some entry else table.find? name := by
  split
  · next same => rw [← same, find?_insert_self]
  · next other => exact find?_insert_of_ne table entry other

/-- Of the entries that are inserted the last one of its name counts. -/
theorem Table.find?_foldl_insert (entries : List Entry) (table : Table) :
    (entries.foldl insert table).find? name
      = (entries.reverse.find? (·.name == name)).or (table.find? name) := by
  induction entries generalizing table with
  | nil => rfl
  | cons entry rest ih =>
    rw [List.foldl_cons, ih, find?_insert, List.reverse_cons, List.find?_append, Option.or_assoc]
    by_cases same : entry.name = name <;> simp [same]

/-- The entry that counts among those of one declaration. -/
def Declaration.entryFor? (declaration : Declaration) : Option Entry :=
  declaration.entries.reverse.find? (·.name == name)

/-- The entry that a list of declarations leaves for the name. -/
def lastFor? (declarations : List Declaration) : Option Entry :=
  declarations.reverse.findSome? (·.entryFor? name)

theorem Table.find?_ofUnit (unit : SourceUnit) :
    (Table.ofUnit unit).find? name = lastFor? name (Declaration.ofUnit unit) := by
  rw [Table.ofUnit, find?_foldl_insert, find?_empty, Option.or_none, List.reverse_flatMap,
    List.find?_flatMap]
  rfl

variable {name}

theorem lastFor?_append (first second : List Declaration) :
    lastFor? name (first ++ second) = (lastFor? name second).or (lastFor? name first) := by
  rw [lastFor?, List.reverse_append, List.findSome?_append]
  rfl

theorem lastFor?_eq_none {declarations : List Declaration}
    (unbound : ∀ declaration ∈ declarations, declaration.entryFor? name = none) :
    lastFor? name declarations = none := by
  rw [lastFor?, List.findSome?_eq_none_iff]
  exact fun declaration member => unbound declaration (List.mem_reverse.mp member)

end Table

section Sorting

variable {α : Type} {before : α → α → Bool} {same : α → Bool}

/-- A stable sort leaves elements that are all in order with one another as they are. -/
theorem filter_mergeSort (items : List α)
    (before_trans : ∀ a b c, before a b = true → before b c = true → before a c = true)
    (before_total : ∀ a b, (before a b || before b a) = true)
    (alike : ∀ a b, same a = true → same b = true → before a b = true) :
    (items.mergeSort before).filter same = items.filter same := by
  have in_order : (items.filter same).Pairwise fun a b => before a b = true :=
    List.pairwise_iff_forall_sublist.mpr fun {a b} pair => by
      have a_mem := pair.subset (List.mem_cons_self ..)
      have b_mem := pair.subset (List.mem_cons_of_mem a (List.mem_singleton_self b))
      exact alike a b (List.mem_filter.mp a_mem).2 (List.mem_filter.mp b_mem).2
  have kept : (items.filter same).Sublist (items.mergeSort before) :=
    List.sublist_mergeSort before_trans before_total in_order List.filter_sublist
  -- What is kept is as long as the list of all such elements of the result, so it is that list.
  have kept_same := kept.filter same
  simp only [List.filter_filter, Bool.and_self] at kept_same
  have same_length := ((List.mergeSort_perm items before).filter same).length_eq
  exact (kept_same.eq_of_length same_length.symm).symm

end Sorting

section Lines

variable (unit : SourceUnit)

private theorem line_le_trans (a b c : Declaration) (first : decide (a.line ≤ b.line) = true)
    (second : decide (b.line ≤ c.line) = true) : decide (a.line ≤ c.line) = true := by
  rw [decide_eq_true_eq] at *
  exact Nat.le_trans first second

private theorem line_le_total (a b : Declaration) :
    (decide (a.line ≤ b.line) || decide (b.line ≤ a.line)) = true := by
  rw [Bool.or_eq_true, decide_eq_true_eq, decide_eq_true_eq]
  exact Nat.le_total a.line b.line

theorem Declaration.ofUnit_lines :
    (Declaration.ofUnit unit).Pairwise fun left right => left.line ≤ right.line := by
  have sorted := List.pairwise_mergeSort line_le_trans line_le_total
    (unit.classes.flatMap Declaration.ofClass)
  exact sorted.imp of_decide_eq_true

/-- On one line the declarations stand as the classes list them. -/
theorem Declaration.filter_ofUnit_line (line : Nat) :
    (Declaration.ofUnit unit).filter (·.line == line)
      = (unit.classes.flatMap Declaration.ofClass).filter (·.line == line) := by
  refine filter_mergeSort _ line_le_trans line_le_total fun a b a_eq b_eq => ?_
  rw [beq_iff_eq] at a_eq b_eq
  exact decide_eq_true (Nat.le_of_eq (a_eq.trans b_eq.symm))

end Lines

/-- In declarations whose lines never increase, all that counts is on the line of the first one that
binds the name. -/
theorem findSome?_filter_line {find : Declaration → Option Entry} {line : Nat}
    {declarations : List Declaration}
    (sorted : declarations.Pairwise fun first second => second.line ≤ first.line)
    (latest : ∀ declaration ∈ declarations, (find declaration).isSome → declaration.line ≤ line)
    (bound : ∃ declaration ∈ declarations, (find declaration).isSome ∧ declaration.line = line) :
    declarations.findSome? find = (declarations.filter (·.line == line)).findSome? find := by
  induction declarations with
  | nil => rfl
  | cons first rest ih =>
    obtain ⟨there, member, is_some, line_eq⟩ := bound
    rw [List.pairwise_cons] at sorted
    cases found : find first with
    | some entry =>
      -- Another one on the line stands behind it, so its own line is not earlier.
      have at_most := latest first (.head _) (by rw [found]; rfl)
      have at_least : line ≤ first.line := by
        rcases List.mem_cons.mp member with rfl | behind
        · exact Nat.le_of_eq line_eq.symm
        · exact line_eq ▸ sorted.1 there behind
      have on_line : first.line = line := Nat.le_antisymm at_most at_least
      simp [found, on_line]
    | none =>
      have behind : there ∈ rest := by
        rcases List.mem_cons.mp member with rfl | behind
        · simp [found] at is_some
        · exact behind
      have rest_eq := ih sorted.2 (fun declaration later => latest declaration (.tail _ later))
        ⟨there, behind, is_some, line_eq⟩
      rw [List.findSome?_cons_of_isNone (by rw [found]; rfl), rest_eq, List.filter_cons]
      split
      · exact (List.findSome?_cons_of_isNone (by rw [found]; rfl)).symm
      · rfl

/-- The table holds for a name the entry of the last declaration on the last line that binds it,
where fields of a class come before its statements and these before the next class. -/
theorem Table.find?_ofUnit_line {unit : SourceUnit} {name : String} {line : Nat}
    (latest : ∀ declaration ∈ unit.classes.flatMap Declaration.ofClass,
      (declaration.entryFor? name).isSome → declaration.line ≤ line)
    (bound : ∃ declaration ∈ unit.classes.flatMap Declaration.ofClass,
      (declaration.entryFor? name).isSome ∧ declaration.line = line) :
    (Table.ofUnit unit).find? name
      = lastFor? name ((unit.classes.flatMap Declaration.ofClass).filter (·.line == line)) := by
  rw [find?_ofUnit, lastFor?,
    findSome?_filter_line (List.pairwise_reverse.mpr (Declaration.ofUnit_lines unit))]
  · rw [List.filter_reverse, Declaration.filter_ofUnit_line]
    rfl
  · intro declaration member
    exact latest declaration (List.mem_mergeSort.mp (List.mem_reverse.mp member))
  · obtain ⟨declaration, member, is_bound⟩ := bound
    exact ⟨declaration, List.mem_reverse.mpr (List.mem_mergeSort.mpr member), is_bound⟩

end SuiteMigration.Locator
