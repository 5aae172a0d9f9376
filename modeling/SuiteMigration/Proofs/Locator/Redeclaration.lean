import SuiteMigration.Proofs.Locator.LastEntry
import SuiteMigration.Proofs.Locator.SourceOrder

/-!
# Redeclarations

Which declaration of a name counts. Of declarations on different lines it is the later one. On one
line a statement counts before any field of its class, also before one that stands behind it.
-/
namespace SuiteMigration.Locator

open Outline

/-- The declarations of a run as its class lists them. -/
def grouped (run : List Placed) : List Declaration :=
  (run.map Placed.declaration).filter isField ++ (run.map Placed.declaration).filter (!isField ·)

private theorem mem_grouped {run : List Placed} {declaration : Declaration} :
    declaration ∈ grouped run ↔ ∃ placed ∈ run, placed.declaration = declaration := by
  rw [grouped, List.mem_append, List.mem_filter, List.mem_filter, ← List.mem_map]
  cases isField declaration <;> simp

theorem mem_flatMap_grouped {runs : List (List Placed)} {declaration : Declaration} :
    declaration ∈ runs.flatMap grouped
      ↔ ∃ placed ∈ runs.flatten, placed.declaration = declaration := by
  simp only [List.mem_flatMap, mem_grouped, List.mem_flatten]
  grind

private theorem flatMap_ofClass {classes : List ClassDecl} {runs : List (List Placed)}
    (interleave : List.Forall₂ Interleaves classes runs) :
    classes.flatMap Declaration.ofClass = runs.flatMap grouped := by
  induction interleave with
  | nil => rfl
  | cons here _ ih =>
    rw [List.flatMap_cons, List.flatMap_cons, ih, Declaration.ofClass, here.fields]
    exact congrArg (_ ++ · ++ _) here.statements

/-- What the statements of a run on a line leave for the name. -/
def statementFor? (name : String) (line : Nat) (run : List Placed) : Option Entry :=
  lastFor? name
    (((run.map Placed.declaration).filter (!isField ·)).filter (·.line == line))

section Runs

variable {name : String} {earlier later : List (List Placed)} {front back run : List Placed}
  {last : Placed} {line : Nat}

private theorem lastFor?_filter_eq_none {declarations : List Declaration}
    (keep : Declaration → Bool)
    (unbound : ∀ declaration ∈ declarations, declaration.entryFor? name = none) :
    lastFor? name (declarations.filter keep) = none :=
  lastFor?_eq_none fun declaration member => unbound declaration (List.mem_filter.mp member).1

private theorem lastFor?_cons_of_unbound {entry : Entry} {declarations : List Declaration}
    {first : Declaration} (bound : first.entryFor? name = some entry)
    (unbound : lastFor? name declarations = none) :
    lastFor? name (first :: declarations) = some entry := by
  rw [← List.singleton_append, lastFor?_append, unbound, Option.none_or]
  simp [lastFor?, bound]

/-- The last declaration of its name in a run: a statement counts, a field gives way to a statement
on its line. -/
theorem lastFor?_grouped {entry : Entry} (bound : last.declaration.entryFor? name = some entry)
    (unbound : ∀ placed ∈ back, placed.declaration.entryFor? name = none) :
    lastFor? name ((grouped (front ++ last :: back)).filter (·.line == last.declaration.line))
      = if isField last.declaration then
          (statementFor? name last.declaration.line front).or (some entry)
        else some entry := by
  have back_unbound : ∀ declaration ∈ back.map Placed.declaration,
      declaration.entryFor? name = none := by simpa using unbound
  have none_behind (keep : Declaration → Bool) := lastFor?_filter_eq_none keep back_unbound
  simp only [grouped, List.filter_append, List.map_append, List.map_cons, List.filter_filter,
    lastFor?_append, List.filter_cons, statementFor?]
  cases is_field : isField last.declaration with
  -- A field stands in front of the statements of its class, wherever they stand in the source.
  | true =>
    simp [none_behind, lastFor?_cons_of_unbound bound (none_behind _)]
  | false =>
    simp [lastFor?_cons_of_unbound bound (none_behind _)]

/-- The last of the declarations that bind the name, what stands in front of it in its class, and
its entry. -/
structure IsLast (runs : List (List Placed)) (name : String) (front : List Placed) (last : Placed)
    (entry : Entry) : Prop where
  bound : last.declaration.entryFor? name = some entry
  split : ∃ earlier back later, runs = earlier ++ (front ++ last :: back) :: later ∧
    ∀ placed ∈ back ++ later.flatten, placed.declaration.entryFor? name = none

private theorem exists_last_split {α : Type} {holds : α → Bool} {items : List α}
    (some_holds : ∃ item ∈ items, holds item = true) :
    ∃ front last back, items = front ++ last :: back ∧ holds last = true ∧
      ∀ item ∈ back, holds item = false := by
  have found : (items.reverse.find? holds).isSome = true := by simpa using some_holds
  obtain ⟨last, last_eq⟩ := Option.isSome_iff_exists.mp found
  obtain ⟨last_holds, behind, ahead, reverse_eq, none_behind⟩ :=
    List.find?_eq_some_iff_append.mp last_eq
  refine ⟨ahead.reverse, last, behind.reverse, ?_, last_holds, by simpa using none_behind⟩
  rw [← List.reverse_reverse items, reverse_eq]
  simp

/-- Of the declarations that bind a name, if there are any, one is the last. -/
theorem exists_isLast {runs : List (List Placed)}
    (bound : ∃ placed ∈ runs.flatten, (placed.declaration.entryFor? name).isSome = true) :
    ∃ front last entry, IsLast runs name front last entry := by
  -- The last run that binds it, and the last declaration of that run.
  have in_run : ∃ run ∈ runs, run.any (·.declaration.entryFor? name |>.isSome) = true := by
    obtain ⟨placed, member, is_bound⟩ := bound
    obtain ⟨run, run_mem, in_run⟩ := List.mem_flatten.mp member
    exact ⟨run, run_mem, List.any_eq_true.mpr ⟨placed, in_run, is_bound⟩⟩
  obtain ⟨earlier, run, later, rfl, run_bound, later_unbound⟩ := exists_last_split in_run
  obtain ⟨front, last, back, rfl, last_bound, back_unbound⟩ :=
    exists_last_split (List.any_eq_true.mp run_bound)
  obtain ⟨entry, entry_eq⟩ := Option.isSome_iff_exists.mp last_bound
  refine ⟨front, last, entry, entry_eq, earlier, back, later, rfl, fun placed member => ?_⟩
  rcases List.mem_append.mp member with behind | in_later
  · simpa using back_unbound placed behind
  · obtain ⟨run, run_mem, in_run⟩ := List.mem_flatten.mp in_later
    have unbound := later_unbound run run_mem
    rw [List.any_eq_false] at unbound
    simpa using unbound placed in_run

end Runs

/-- The entry of the last declaration of a name counts, unless it is a field that gives way to a
statement in front of it. -/
theorem find?_of_isLast {tokens : List Token} {unit : SourceUnit} {runs : List (List Placed)}
    (order : SourceOrder tokens unit.classes runs) (sorted : tokens.Pairwise (·.line ≤ ·.line))
    {name : String} {front : List Placed} {last : Placed} {entry : Entry}
    (is_last : IsLast runs name front last entry) :
    (Table.ofUnit unit).find? name
      = if isField last.declaration then
          (statementFor? name last.declaration.line front).or (some entry)
        else some entry := by
  obtain ⟨bound, earlier, back, later, rfl, unbound⟩ := is_last
  have flat_eq : (earlier ++ (front ++ last :: back) :: later).flatten
      = (earlier.flatten ++ front) ++ last :: (back ++ later.flatten) := by simp
  have declarations_eq := flatMap_ofClass order.interleave
  have lines := order.inOrder.lines sorted
  rw [flat_eq, List.pairwise_append] at lines
  -- What binds the name stands in front of the last one, so no later line does.
  have latest : ∀ declaration ∈ unit.classes.flatMap Declaration.ofClass,
      (declaration.entryFor? name).isSome → declaration.line ≤ last.declaration.line := by
    intro declaration member is_bound
    rw [declarations_eq, mem_flatMap_grouped, flat_eq] at member
    obtain ⟨placed, placed_mem, rfl⟩ := member
    rcases List.mem_append.mp placed_mem with ahead | behind
    · exact lines.2.2 placed ahead last (.head _)
    · rcases List.mem_cons.mp behind with rfl | behind
      · exact Nat.le_refl _
      · simp [unbound placed behind] at is_bound
  have last_mem : last.declaration ∈ unit.classes.flatMap Declaration.ofClass := by
    rw [declarations_eq, mem_flatMap_grouped]
    exact ⟨last, by simp, rfl⟩
  rw [Table.find?_ofUnit_line latest ⟨_, last_mem, by rw [bound]; rfl, rfl⟩, declarations_eq]
  -- Nothing behind the class of the last declaration counts, and nothing in front of it.
  have later_unbound : ∀ declaration ∈ later.flatMap grouped,
      declaration.entryFor? name = none := by
    intro declaration member
    obtain ⟨placed, placed_mem, rfl⟩ := mem_flatMap_grouped.mp member
    exact unbound placed (List.mem_append_right _ placed_mem)
  rw [List.flatMap_append, List.flatMap_cons, List.filter_append, List.filter_append,
    lastFor?_append, lastFor?_append, lastFor?_filter_eq_none _ later_unbound,
    Option.none_or, lastFor?_grouped bound
      fun placed member => unbound placed (List.mem_append_left _ member)]
  cases isField last.declaration <;> simp

/-- For every source that is read, the declarations of its classes at top level stand in the source
one behind another. For every name that they bind, the table holds the entry of the last one, unless
that is a field with statements of its class in front of it that bind the name on its line; then it
is the entry of the last of those. -/
theorem last_declaration_counts {source : String} {unit : SourceUnit}
    (parsed : SourceUnit.parse source = .ok unit) :
    (∃ runs, SourceOrder (tokenize source.toList) unit.classes runs) ∧
    ∀ runs, SourceOrder (tokenize source.toList) unit.classes runs → ∀ name,
      ((∃ placed ∈ runs.flatten, (placed.declaration.entryFor? name).isSome = true) →
        ∃ front last entry, IsLast runs name front last entry) ∧
      ∀ front last entry, IsLast runs name front last entry →
        (Table.ofUnit unit).find? name
          = if isField last.declaration then
              (statementFor? name last.declaration.line front).or (some entry)
            else some entry := by
  refine ⟨exists_sourceOrder parsed, fun runs order name => ⟨exists_isLast, ?_⟩⟩
  intro front last entry is_last
  exact find?_of_isLast order (tokenizeAt_lines .start source.toList) is_last

/-- A statement and behind it a field of one name, all on one line. -/
def redeclared : String :=
  "class P \x7b void f() \x7b By x = By.id(\"a\"); \x7d By x = By.name(\"b\"); \x7d"

def redeclaredStatement : Placed :=
  ⟨(tokenize redeclared.toList).drop 8, .ofStatement ⟨"By x = By.id(\"a\")", 1⟩⟩

def redeclaredField : Placed :=
  ⟨(tokenize redeclared.toList).drop 19, .ofField ⟨[], [], "By", "x", some "By.name(\"b\")", 1⟩⟩

private theorem begins_redeclaredStatement :
    Begins redeclaredStatement.rest redeclaredStatement.declaration := by
  have rest_eq : redeclaredStatement.rest
      = (Piece.simple ⟨.ident, "By".toList, 21, 23, 1⟩
          (((tokenize redeclared.toList).drop 9).take 8)
          (some ⟨.punct, [';'], 38, 39, 1⟩)).tokens ++ (tokenize redeclared.toList).drop 18 := by
    decide +kernel
  rw [rest_eq]
  exact .statement (by unfold Piece.Genuine; decide) (by decide +kernel)

private theorem begins_redeclaredField :
    Begins redeclaredField.rest redeclaredField.declaration := by
  have rest_eq : redeclaredField.rest
      = ⟨.ident, "By".toList, 42, 44, 1⟩ :: (tokenize redeclared.toList).drop 20 := by
    decide +kernel
  have read_eq : (readMember .empty 1 (⟨.ident, "By".toList, 42, 44, 1⟩
      :: (tokenize redeclared.toList).drop 20)).1
        = some (.field ⟨[], [], "By", "x", some "By.name(\"b\")", 1⟩) := by
    decide +kernel
  rw [rest_eq]
  exact .field read_eq

private theorem inOrder_redeclared :
    InOrder (tokenize redeclared.toList) [] [redeclaredStatement, redeclaredField] where
  begins := by
    simp only [List.forall_mem_cons]
    exact ⟨begins_redeclaredStatement, begins_redeclaredField, by simp⟩
  suffix := by
    simp only [List.forall_mem_cons]
    exact ⟨List.drop_suffix 8 _, List.drop_suffix 19 _, by simp⟩
  before := by decide +kernel
  ordered := by decide +kernel

private theorem exists_redeclared :
    ∃ unit, SourceUnit.parse redeclared = .ok unit ∧
      SourceOrder (tokenize redeclared.toList) unit.classes
        [[redeclaredStatement, redeclaredField]] := by
  have evaluated : (SourceUnit.parse redeclared).toOption.map
      (fun unit => unit.classes.map fun decl => (decl.fields, decl.methods))
      = some [([⟨[], [], "By", "x", some "By.name(\"b\")", 1⟩],
          [⟨[], [], "f", [], some [⟨"By x = By.id(\"a\")", 1⟩], 1⟩])] := by
    decide +kernel
  obtain ⟨unit, parsed, classes_read⟩ := exists_parsed evaluated
  obtain ⟨decl, classes_eq, parts_eq⟩ := List.map_eq_singleton_iff.mp classes_read
  obtain ⟨fields_eq, methods_eq⟩ := Prod.mk.inj parts_eq
  refine ⟨unit, parsed, ?_, inOrder_redeclared⟩
  rw [classes_eq]
  refine .cons ⟨?_, ?_⟩ .nil
  · rw [fields_eq]
    rfl
  · rw [statementsOf, methods_eq]
    rfl

private theorem isLast_redeclared :
    ∃ entry, IsLast [[redeclaredStatement, redeclaredField]] "x" [redeclaredStatement]
      redeclaredField entry ∧ entry.value = "b" := by
  have evaluated : (redeclaredField.declaration.entryFor? "x").map Entry.value = some "b" := by
    decide +kernel
  obtain ⟨entry, bound, value_eq⟩ := Option.map_eq_some_iff.mp evaluated
  exact ⟨entry, ⟨bound, [], [], [], rfl, by simp⟩, value_eq⟩

private theorem statement_counts_redeclared (entry : Entry) :
    (if isField redeclaredField.declaration then
        (statementFor? "x" redeclaredField.declaration.line [redeclaredStatement]).or (some entry)
      else some entry).map Entry.value = some "a" := by
  have held : (statementFor? "x" 1 [redeclaredStatement]).map Entry.value = some "a" := by
    decide +kernel
  obtain ⟨counted, counted_eq, value_eq⟩ := Option.map_eq_some_iff.mp held
  have is_field : isField redeclaredField.declaration = true := rfl
  have line_eq : redeclaredField.declaration.line = 1 := rfl
  rw [if_pos is_field, line_eq, counted_eq, Option.some_or, Option.map_some, value_eq]

theorem last_declaration_counts_redeclared :
    ∃ unit, SourceUnit.parse redeclared = .ok unit ∧
      ∃ front last entry, IsLast [[redeclaredStatement, redeclaredField]] "x" front last entry ∧
        entry.value = "b" ∧ ((Table.ofUnit unit).find? "x").map Entry.value = some "a" := by
  obtain ⟨unit, parsed, order⟩ := exists_redeclared
  obtain ⟨entry, is_last, value_eq⟩ := isLast_redeclared
  refine ⟨unit, parsed, _, _, entry, is_last, value_eq, ?_⟩
  rw [((last_declaration_counts parsed).2 _ order "x").2 _ _ _ is_last]
  exact statement_counts_redeclared entry

/-- A field behind a statement on its line does not count, although it is the last declaration. -/
theorem last_declaration_counts_not_in_source_order :
    ¬ ∀ (source : String) (unit : SourceUnit), SourceUnit.parse source = .ok unit →
      ∀ runs, SourceOrder (tokenize source.toList) unit.classes runs →
      ∀ name front last entry, IsLast runs name front last entry →
        (Table.ofUnit unit).find? name = some entry := by
  intro last_counts
  obtain ⟨unit, parsed, order⟩ := exists_redeclared
  obtain ⟨entry, is_last, value_eq⟩ := isLast_redeclared
  have claimed := last_counts _ unit parsed _ order _ _ _ _ is_last
  have counted := statement_counts_redeclared entry
  rw [find?_of_isLast order (tokenizeAt_lines .start _) is_last] at claimed
  rw [claimed, Option.map_some, value_eq] at counted
  exact absurd counted (by decide)

end SuiteMigration.Locator
