import Mathlib.Data.List.Forall2
import SuiteMigration.Page.Module
import SuiteMigration.Proofs.Output.Comment

/-!
# Losses of a page conversion

What is lost on the way from a page to its module is told in the warnings of the module. Each
declaration that another one overrides has a warning, and so has each comment that stands for a
statement, or for a method of which nothing could be converted.
-/
namespace SuiteMigration.Page

open Outline Locator
open Output (CommentFor convertBody_cases commentFor_of_convert?)

/-- The warning for a comment names the method and tells what the comment says. -/
inductive Tells (method : String) : Output.Statement → String → Prop where
  | transition (said : String) : Tells method ⟨.transitionComment, "// " ++ said⟩
      (method ++ ": " ++ said ++ " is emitted as a comment only; page transitions are not modeled")
  | review (said : String) : Tells method ⟨.reviewComment, "// " ++ said⟩
      (method ++ ": needs review: " ++ said)
  | pending : Tells method .pending (method ++ ": no statements could be converted")

/-- The warning for an overwrite names the locator and both lines, that of the later declaration
first. -/
inductive TellsOverwrite : Overwrite → String → Prop where
  | told (name : String) (previous current : Provenance) :
      TellsOverwrite ⟨name, previous, current⟩
        ("locator '" ++ name ++ "' on line " ++ toString current.line
          ++ " overrides the declaration on line " ++ toString previous.line)

/-- Every loss of a conversion is told by one warning: first the overwrites in their order, and then
the comments in the order of the module. -/
structure TellsLosses (unit : SourceUnit) (module : Module) : Prop where
  warnings : ∃ overridden,
    List.Forall₂ TellsOverwrite (Table.ofUnit unit).overwrites overridden ∧
    module.warnings = overridden ++ module.methods.flatMap Method.warnings
  told : ∀ method ∈ module.methods, List.Forall₂ (Tells method.name)
    (method.statements.filter (·.kind.isComment)) method.warnings
  nonempty : ∀ method ∈ module.methods, method.statements ≠ []
  pending_alone : ∀ method ∈ module.methods, ∀ statement ∈ method.statements,
    statement.kind = .pending → method.statements = [statement]

section Warnings

variable {method : String} {statement : Output.Statement} {source : List Char}
  {statements : List Output.Statement}

private theorem tellsOverwrite (overwrite : Overwrite) :
    TellsOverwrite overwrite (overwriteWarning overwrite) :=
  .told overwrite.name overwrite.previous overwrite.current

private theorem forall₂_overwrites (overwrites : List Overwrite) :
    List.Forall₂ TellsOverwrite overwrites (overwrites.map overwriteWarning) := by
  rw [List.forall₂_map_right_iff, List.forall₂_same]
  exact fun overwrite _ => tellsOverwrite overwrite

private theorem commentText_eq {kind : Output.Kind} {said : String}
    (no_mark : said.toList.head? ≠ some '/') :
    (Output.Statement.mk kind ("// " ++ said)).commentText = said := by
  have kept : Output.Statement.commentText.dropMarks said.toList = said.toList := by
    unfold Output.Statement.commentText.dropMarks
    split
    · next marked => exact absurd rfl (marked ▸ no_mark)
    · rfl
  have text_eq : ("// " ++ said).toList = '/' :: '/' :: ' ' :: said.toList := by simp
  rw [Output.Statement.commentText, text_eq, Output.Statement.commentText.dropMarks, kept,
    String.ofList_toList]

private theorem statementWarning?_eq_none (no_comment : statement.kind.isComment = false) :
    statementWarning? method statement = none := by
  unfold statementWarning?
  split <;> simp_all [Output.Kind.isComment]

/-- A comment for a statement has a warning. -/
theorem exists_warning (comment : CommentFor source statement) :
    ∃ warning, statementWarning? method statement = some warning ∧
      Tells method statement warning := by
  obtain ⟨said, text_eq, no_mark⟩ := comment.exists_said
  have kind_cases : statement.kind = .transitionComment ∨ statement.kind = .reviewComment := by
    cases comment with
    | transition => exact .inl rfl
    | review | script => exact .inr rfl
  -- Behind its mark the comment says what the warning repeats.
  obtain ⟨kind, text⟩ := statement
  obtain rfl : text = "// " ++ said := text_eq
  rcases kind_cases with rfl | rfl
  · exact ⟨_, by simp only [statementWarning?, commentText_eq no_mark], .transition said⟩
  · exact ⟨_, by simp only [statementWarning?, commentText_eq no_mark], .review said⟩

private theorem forall₂_warnings
    (comments : ∀ statement ∈ statements, statement.kind.isComment = true →
      statement = .pending ∨ ∃ source, CommentFor source statement) :
    List.Forall₂ (Tells method) (statements.filter (·.kind.isComment))
      (statements.filterMap (statementWarning? method)) := by
  -- A statement that is no comment is left out on both sides, a comment goes with its warning.
  induction statements with
  | nil => exact .nil
  | cons statement statements ih =>
    obtain ⟨first, others⟩ := List.forall_mem_cons.mp comments
    cases is_comment : statement.kind.isComment with
    | false =>
      rw [List.filter_cons_of_neg (by simp [is_comment]),
        List.filterMap_cons_none (statementWarning?_eq_none is_comment)]
      exact ih others
    | true =>
      have told : ∃ warning, statementWarning? method statement = some warning ∧
          Tells method statement warning := by
        rcases first is_comment with rfl | ⟨source, comment⟩
        · exact ⟨_, rfl, .pending⟩
        · exact exists_warning comment
      obtain ⟨warning, warning_eq, tells⟩ := told
      rw [List.filter_cons_of_pos (by simp [is_comment]), List.filterMap_cons_some warning_eq]
      exact .cons tells (ih others)

end Warnings

section Bodies

variable {table : Table} {body : List String} {statement : Output.Statement}

/-- No rule leaves a statement pending. -/
theorem kind_ne_pending {text : String} (converted : convertStatement? table text = some statement) :
    statement.kind ≠ .pending := by
  obtain ⟨rule, -, rule_kind⟩ := rule_of_convertStatement? converted
  cases rule <;> rcases rule_kind with kind_eq | kind_eq <;> simp [kind_eq, Rule.kind]

private theorem comment_of_mem_convertBody (member : statement ∈ convertBody table body)
    (is_comment : statement.kind.isComment = true) :
    statement = .pending ∨ ∃ source, CommentFor source statement := by
  rcases convertBody_cases table body with alone | all_converted
  · exact .inl (List.mem_singleton.mp (alone ▸ member))
  · rw [all_converted] at member
    obtain ⟨text, -, converted⟩ := List.mem_filterMap.mp member
    obtain ⟨rule, rule_eq, -⟩ := rule_of_convertStatement? converted
    exact .inr ⟨_, commentFor_of_convert? rule_eq is_comment⟩

private theorem convertBody_eq_of_pending (member : statement ∈ convertBody table body)
    (is_pending : statement.kind = .pending) : convertBody table body = [statement] := by
  rcases convertBody_cases table body with alone | all_converted
  · rw [alone] at member ⊢
    rw [List.mem_singleton.mp member]
  · rw [all_converted] at member
    obtain ⟨text, -, converted⟩ := List.mem_filterMap.mp member
    exact absurd is_pending (kind_ne_pending converted)

end Bodies

private theorem tellsLosses_ofUnit (unit : SourceUnit) (fallback : String) :
    TellsLosses unit (Module.ofUnit unit fallback) := by
  have outlined : ∀ method ∈ (Module.ofUnit unit fallback).methods,
      ∃ body, method.statements = convertBody (Table.ofUnit unit) body := by
    refine List.forall_mem_map.mpr fun outline _ => ⟨outline.body, rfl⟩
  refine ⟨⟨_, forall₂_overwrites _, rfl⟩, fun method member => ?_, fun method member => ?_,
    fun method member => ?_⟩
  all_goals obtain ⟨body, statements_eq⟩ := outlined method member
  · refine forall₂_warnings fun statement in_method is_comment => ?_
    exact comment_of_mem_convertBody (statements_eq ▸ in_method) is_comment
  · exact statements_eq ▸ convertBody_ne_nil _ body
  · intro statement in_method is_pending
    rw [statements_eq] at in_method ⊢
    exact convertBody_eq_of_pending in_method is_pending

/-- Wherever the outline of a page can be told its module is built, and the warnings of the module tell
each loss: first the declarations that were overridden, and then the comments, method by method. -/
theorem ofSource_tells_losses (source fallback : String) :
    match SourceUnit.parse source with
    | .ok unit => ∃ module, Module.ofSource source fallback = .ok module ∧ TellsLosses unit module
    | .error cause => Module.ofSource source fallback = .error cause := by
  unfold Module.ofSource
  cases SourceUnit.parse source with
  | ok unit => exact ⟨_, rfl, tellsLosses_ofUnit unit fallback⟩
  | error cause => rfl

/-- A locator is declared twice, and of two methods nothing can be converted as it stands. -/
def redeclaredSource : String :=
  "class P \x7b\n  By a = By.id(\"x\");\n  By a = By.name(\"y\");\n"
    ++ "  void f() \x7b helper(); return new Q(); \x7d\n  void g() \x7b helper(); \x7d \x7d"

/-- Declarations that stand in the order of their lines are taken as they stand. -/
theorem table_of_ordered {unit : SourceUnit}
    (ordered : ((unit.classes.flatMap Declaration.ofClass).map Declaration.line).Pairwise (· ≤ ·)) :
    Table.ofUnit unit = ((unit.classes.flatMap Declaration.ofClass).flatMap
      Declaration.entries).foldl Table.insert .empty := by
  have sorted : Declaration.ofUnit unit = unit.classes.flatMap Declaration.ofClass :=
    List.mergeSort_of_pairwise (by simpa [List.pairwise_map] using ordered)
  rw [Table.ofUnit, sorted]

theorem ofSource_tells_losses_redeclared :
    ∃ unit module, SourceUnit.parse redeclaredSource = .ok unit ∧
      Module.ofSource redeclaredSource "P" = .ok module ∧ TellsLosses unit module ∧
      module.warnings = ["locator 'a' on line 3 overrides the declaration on line 2",
        "f: Page transition to Q is emitted as a comment only; page transitions are not modeled",
        "g: no statements could be converted"] := by
  have evaluated : (SourceUnit.parse redeclaredSource).toOption.map (fun unit =>
      let declarations := unit.classes.flatMap Declaration.ofClass
      let table := (declarations.flatMap Declaration.entries).foldl Table.insert .empty
      (declarations.map Declaration.line, table.overwrites.map overwriteWarning ++
        ((methodOutlines unit "P").map (Method.ofOutline table)).flatMap Method.warnings))
      = some ([2, 3, 4, 4, 5], ["locator 'a' on line 3 overrides the declaration on line 2",
        "f: Page transition to Q is emitted as a comment only; page transitions are not modeled",
        "g: no statements could be converted"]) := by decide +kernel
  have named : (SourceUnit.parse redeclaredSource).toOption.map (·.publicName "P") = some "P" := by
    decide +kernel
  have settled := ofSource_tells_losses redeclaredSource "P"
  cases parsed : SourceUnit.parse redeclaredSource with
  | error cause =>
    rw [parsed] at evaluated
    cases evaluated
  | ok unit =>
    rw [parsed] at settled evaluated named
    obtain ⟨module, built, tells⟩ := settled
    obtain ⟨lines_eq, warnings_eq⟩ := Prod.mk.inj (Option.some.inj evaluated)
    refine ⟨unit, module, rfl, built, tells, ?_⟩
    rw [Module.ofSource, parsed] at built
    obtain rfl := Except.ok.inj built
    have ordered : ((unit.classes.flatMap Declaration.ofClass).map Declaration.line).Pairwise
        (· ≤ ·) := by
      rw [lines_eq]
      decide
    rw [← table_of_ordered ordered, ← Option.some.inj named] at warnings_eq
    exact warnings_eq

end SuiteMigration.Page
