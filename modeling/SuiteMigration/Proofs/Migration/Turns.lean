import SuiteMigration.Migration.Run
import SuiteMigration.Proofs.FileSystem.FileName

/-!
# Turns

The sources of a run have their turns one after another, each in the tree that the one before it
left. A turn is recorded in one of the lists of the manifest, and what cannot be read or written
ends no run.
-/
namespace SuiteMigration.Migration

open FileSystem Manifest Outline

/-- The turn of a source: the tree that it is converted in, and what comes of it. -/
structure Turn where
  source : Path
  files : FileSystem
  outcome : Except FileSystem.Failure (Option Product)

namespace Turn

def entry? (kind : SourceKind) (directory : Path) (turn : Turn) : Option Entry :=
  match turn.outcome with
  | .ok (some product) =>
    some ⟨kind, turn.source, outputPath directory product, product.warnings⟩
  | _ => none

def failure? (kind : SourceKind) (turn : Turn) : Option Manifest.Failure :=
  match turn.outcome with
  | .error failure => some ⟨kind, turn.source, failure.message⟩
  | _ => none

def skipped? (turn : Turn) : Option Path :=
  match turn.outcome with
  | .ok none => some turn.source
  | _ => none

def name? (turn : Turn) : Option String :=
  match turn.outcome with
  | .ok (some product) => some product.name
  | _ => none

variable {kind : SourceKind} {directory : Path} {turn : Turn}

theorem input_of_entry? {entry : Entry} (entry_eq : turn.entry? kind directory = some entry) :
    entry.kind = kind ∧ entry.input = turn.source := by
  unfold entry? at entry_eq
  split at entry_eq
  · obtain rfl := Option.some.inj entry_eq
    exact ⟨rfl, rfl⟩
  · cases entry_eq

theorem input_of_failure? {failure : Manifest.Failure}
    (failure_eq : turn.failure? kind = some failure) :
    failure.kind = kind ∧ failure.input = turn.source := by
  unfold failure? at failure_eq
  split at failure_eq
  · obtain rfl := Option.some.inj failure_eq
    exact ⟨rfl, rfl⟩
  · cases failure_eq

theorem skipped?_eq_some {path : Path} (skipped_eq : turn.skipped? = some path) :
    path = turn.source ∧ turn.outcome = .ok none := by
  unfold skipped? at skipped_eq
  split at skipped_eq
  · next outcome_eq => exact ⟨(Option.some.inj skipped_eq).symm, outcome_eq⟩
  · cases skipped_eq

private theorem skipped?_eq_none (not_skipped : turn.outcome ≠ .ok none) :
    turn.skipped? = none := by
  unfold skipped?
  split
  · next skipped => exact absurd skipped not_skipped
  · rfl

end Turn

/-- Turns that lead from one tree to another, each from the tree that the one before it left. -/
inductive Follows (builder : Builder) (directory : Path) :
    FileSystem → List Turn → FileSystem → Prop where
  | nil (files : FileSystem) : Follows builder directory files [] files
  | cons {files next after : FileSystem} {source : Path}
      {outcome : Except FileSystem.Failure (Option Product)} {turns : List Turn}
      (converted : convert builder directory files source = (next, outcome.mapError .access))
      (rest : Follows builder directory next turns after) :
      Follows builder directory files (⟨source, files, outcome⟩ :: turns) after

section Fold

variable {kind : SourceKind} {builder : Builder} {directory source : Path} {paths : List Path}
  {progress next : Progress} {stop : Stop}

/-- What is known when some turns have been taken. -/
structure Taken (kind : SourceKind) (directory : Path) (turns : List Turn)
    (progress next : Progress) : Prop where
  entries : next.manifest.entries
    = progress.manifest.entries ++ turns.filterMap (Turn.entry? kind directory)
  failures : next.manifest.failures
    = progress.manifest.failures ++ turns.filterMap (Turn.failure? kind)
  skipped : next.manifest.skipped = progress.manifest.skipped ++ turns.filterMap Turn.skipped?
  names : next.names = progress.names ++ turns.filterMap Turn.name?

theorem Taken.cons {turn : Turn} {turns : List Turn} {middle : Progress}
    (first : Taken kind directory [turn] progress middle)
    (rest : Taken kind directory turns middle next) :
    Taken kind directory (turn :: turns) progress next := by
  have split_eq : turn :: turns = [turn] ++ turns := rfl
  constructor
  · rw [rest.entries, first.entries, split_eq, List.filterMap_append, List.append_assoc]
  · rw [rest.failures, first.failures, split_eq, List.filterMap_append, List.append_assoc]
  · rw [rest.skipped, first.skipped, split_eq, List.filterMap_append, List.append_assoc]
  · rw [rest.names, first.names, split_eq, List.filterMap_append, List.append_assoc]

/-- A turn is recorded in one of the lists. -/
theorem convertNext_ok (step_eq : convertNext kind builder directory progress source = .ok next) :
    ∃ outcome : Except FileSystem.Failure (Option Product),
      convert builder directory progress.files source = (next.files, outcome.mapError .access) ∧
      Taken kind directory [⟨source, progress.files, outcome⟩] progress next := by
  unfold convertNext at step_eq
  -- One case for each list; in the last one the run ends.
  split at step_eq
  · next files product convert_eq =>
    obtain rfl := Except.ok.inj step_eq
    refine ⟨.ok (some product), convert_eq, ?_, ?_, ?_, ?_⟩ <;>
      simp [Manifest.record, Turn.entry?, Turn.failure?, Turn.skipped?, Turn.name?]
  · next files convert_eq =>
    obtain rfl := Except.ok.inj step_eq
    refine ⟨.ok none, convert_eq, ?_, ?_, ?_, ?_⟩ <;>
      simp [Manifest.recordSkipped, Turn.entry?, Turn.failure?, Turn.skipped?, Turn.name?]
  · next files failure convert_eq =>
    obtain rfl := Except.ok.inj step_eq
    refine ⟨.error failure, convert_eq, ?_, ?_, ?_, ?_⟩ <;>
      simp [Manifest.recordFailure, Turn.entry?, Turn.failure?, Turn.skipped?, Turn.name?]
  · cases step_eq

/-- Every source has its turn, whatever came of those before it. -/
theorem foldlM_turns
    (fold_eq : paths.foldlM (convertNext kind builder directory) progress = .ok next) :
    ∃ turns, Follows builder directory progress.files turns next.files ∧
      turns.map Turn.source = paths ∧ Taken kind directory turns progress next := by
  induction paths generalizing progress with
  | nil =>
    obtain rfl := Except.ok.inj fold_eq
    exact ⟨[], .nil _, rfl, by simp, by simp, by simp, by simp⟩
  | cons path paths ih =>
    rw [List.foldlM_cons] at fold_eq
    obtain ⟨middle, step_eq, fold_eq⟩ := bind_eq_ok.mp fold_eq
    obtain ⟨outcome, converted, first⟩ := convertNext_ok step_eq
    obtain ⟨turns, follows, sources_eq, rest⟩ := ih fold_eq
    exact ⟨_ :: turns, .cons converted follows, by rw [List.map_cons, sources_eq], first.cons rest⟩

end Fold

section Builders

variable {builder : Builder} {directory source : Path} {files next : FileSystem}

/-- A builder that fails was given a text that has no outline. -/
def FailsOnOutline (builder : Builder) : Prop :=
  ∀ fallback text cause, builder fallback text = .error cause →
    SourceUnit.parse text = .error cause

private theorem map_eq_error {ε α β : Type} {value : Except ε α} {make : α → β} {cause : ε} :
    value.map make = .error cause ↔ value = .error cause := by
  cases value <;> simp [Except.map]

theorem failsOnOutline_page : FailsOnOutline pageBuilder := by
  intro fallback text cause failed
  cases module_eq : Page.Module.ofSource text fallback with
  | error other =>
    simp only [pageBuilder, module_eq] at failed
    cases failed
    exact map_eq_error.mp module_eq
  | ok module =>
    simp only [pageBuilder, module_eq] at failed
    cases failed

theorem failsOnOutline_test (directory : Path) (catalog : Test.Catalog)
    (settings : Test.Settings) : FailsOnOutline (testBuilder directory catalog settings) := by
  intro fallback text cause failed
  cases script_eq : Test.Script.ofSource? text fallback directory catalog settings with
  | error other =>
    simp only [testBuilder, script_eq] at failed
    cases failed
    exact map_eq_error.mp script_eq
  | ok script? =>
    simp only [testBuilder, script_eq] at failed
    cases failed

private theorem convert_eq_none :
    (convert builder directory files source).2 = .ok none ↔ build builder files source = .ok none := by
  unfold convert
  split
  · next build_eq => simp [build_eq]
  · next build_eq => simp [build_eq]
  · next build_eq =>
    rw [build_eq]
    split <;> simp

private theorem build_eq_none : build builder files source = .ok none ↔
    ∃ text, files.readText source = .ok text ∧ builder (source.stem?.getD "") text = .ok none := by
  unfold build load
  cases files.readText source with
  | error fault => simp [Except.mapError]
  | ok text =>
    cases built_eq : builder (source.stem?.getD "") text <;> simp [Except.mapError, built_eq]

private theorem build_eq_outline {cause : ParseError} :
    build builder files source = .error (.outline cause) ↔
      ∃ text, files.readText source = .ok text ∧
        builder (source.stem?.getD "") text = .error cause := by
  unfold build load
  cases files.readText source with
  | error fault => simp [Except.mapError]
  | ok text =>
    cases built_eq : builder (source.stem?.getD "") text <;> simp [Except.mapError, built_eq]

/-- A run is stopped by a source that it could read and that has no outline. -/
theorem convert_eq_outline {cause : ParseError} (on_outline : FailsOnOutline builder)
    (convert_eq : convert builder directory files source = (next, .error (.outline cause))) :
    ∃ text, next.readText source = .ok text ∧ SourceUnit.parse text = .error cause := by
  unfold convert at convert_eq
  split at convert_eq
  · next failure build_eq =>
    obtain ⟨rfl, failure_eq⟩ := Prod.mk.inj convert_eq
    obtain rfl := Except.error.inj failure_eq
    obtain ⟨text, read_eq, failed⟩ := build_eq_outline.mp build_eq
    exact ⟨text, read_eq, on_outline _ text cause failed⟩
  · cases convert_eq
  · split at convert_eq <;> cases convert_eq

theorem foldlM_outline {kind : SourceKind} {paths : List Path} {progress : Progress} {stop : Stop}
    (on_outline : FailsOnOutline builder)
    (fold_eq : paths.foldlM (convertNext kind builder directory) progress = .error stop) :
    ∃ path ∈ paths, ∃ text, stop.files.readText path = .ok text ∧
      SourceUnit.parse text = .error stop.cause := by
  induction paths generalizing progress with
  | nil => cases fold_eq
  | cons path paths ih =>
    rw [List.foldlM_cons] at fold_eq
    cases step_eq : convertNext kind builder directory progress path with
    | ok middle =>
      rw [step_eq] at fold_eq
      obtain ⟨other, member, stopped⟩ := ih fold_eq
      exact ⟨other, List.mem_cons_of_mem _ member, stopped⟩
    | error other =>
      rw [step_eq] at fold_eq
      obtain rfl := Except.error.inj fold_eq
      refine ⟨path, List.mem_cons_self, ?_⟩
      unfold convertNext at step_eq
      split at step_eq
      · cases step_eq
      · cases step_eq
      · cases step_eq
      · next convert_eq =>
        obtain rfl := Except.error.inj step_eq
        exact convert_eq_outline on_outline convert_eq

/-- A text that has an outline, but no test method in a class at top level. -/
def Testless (text : String) : Prop :=
  ∃ unit, SourceUnit.parse text = .ok unit ∧
    ∀ decl ∈ unit.classes, ∀ method ∈ decl.methods, method.hasTag "Test" = false

private theorem testMethods_eq_nil {unit : SourceUnit} : Test.testMethods unit = [] ↔
    ∀ decl ∈ unit.classes, ∀ method ∈ decl.methods, method.hasTag "Test" = false := by
  simp only [Test.testMethods, List.filter_eq_nil_iff, List.mem_flatMap, Bool.not_eq_true,
    forall_exists_index, and_imp]
  exact ⟨fun none decl decl_mem method method_mem => none method decl decl_mem method_mem,
    fun none method decl decl_mem method_mem => none decl decl_mem method method_mem⟩

theorem testBuilder_eq_none {fallback text : String} {catalog : Test.Catalog}
    {settings : Test.Settings} :
    testBuilder directory catalog settings fallback text = .ok none ↔ Testless text := by
  simp only [testBuilder, Test.Script.ofSource?, Testless]
  cases SourceUnit.parse text with
  | error cause => exact ⟨nofun, nofun⟩
  | ok unit =>
    simp only [Except.ok.injEq, exists_eq_left', ← testMethods_eq_nil]
    by_cases no_tests : Test.testMethods unit = []
    · simp [Test.Script.ofUnit?, no_tests, Except.map, bind, Except.bind, pure, Except.pure]
    · simp [Test.Script.ofUnit?, no_tests, Except.map, bind, Except.bind, pure, Except.pure]

private theorem pageBuilder_ne_none {fallback text : String} :
    pageBuilder fallback text ≠ .ok none := by
  simp only [pageBuilder]
  cases Page.Module.ofSource text fallback <;> nofun

end Builders

section Follows

variable {builder : Builder} {directory : Path} {files after : FileSystem} {turns : List Turn}
  {turn : Turn}

theorem Follows.converted (follows : Follows builder directory files turns after)
    (member : turn ∈ turns) :
    ∃ next, convert builder directory turn.files turn.source
      = (next, turn.outcome.mapError .access) := by
  induction follows with
  | nil => cases member
  | cons converted rest ih =>
    rcases List.mem_cons.mp member with rfl | later
    · exact ⟨_, converted⟩
    · exact ih later

/-- A source is skipped where it can be read and its builder makes nothing of it. -/
theorem Follows.outcome_eq_none (follows : Follows builder directory files turns after)
    (member : turn ∈ turns) :
    turn.outcome = .ok none ↔ ∃ text, turn.files.readText turn.source = .ok text ∧
      builder (turn.source.stem?.getD "") text = .ok none := by
  obtain ⟨next, converted⟩ := follows.converted member
  rw [← build_eq_none, ← @convert_eq_none _ directory, converted]
  cases turn.outcome <;> simp [Except.mapError]

theorem Follows.skipped_page (follows : Follows pageBuilder directory files turns after) :
    turns.filterMap Turn.skipped? = [] := by
  refine List.filterMap_eq_nil_iff.mpr fun turn member => Turn.skipped?_eq_none fun skipped => ?_
  obtain ⟨text, -, none_made⟩ := (follows.outcome_eq_none member).mp skipped
  exact pageBuilder_ne_none none_made

end Follows

end SuiteMigration.Migration
