import SuiteMigration.Proofs.Migration.Collecting
import SuiteMigration.Proofs.Migration.Turns

/-!
# Accounting

The manifest of a run holds what came of its sources, in their order: every source is in one of its
lists, once, and besides the sources there is only the root of a walk that failed.
-/
namespace SuiteMigration.Migration

open FileSystem Manifest Outline

/-- The sources are in three lists, each of them in one list and once, and in their order. -/
structure Shares (sources converted failed skipped : List Path) : Prop where
  once : (converted ++ failed ++ skipped).Perm sources
  converted : converted.Sublist sources
  failed : failed.Sublist sources
  skipped : skipped.Sublist sources

theorem sublist_sources {α : Type} {pick : Turn → Option α} {input : α → Path}
    (picks : ∀ turn picked, pick turn = some picked → input picked = turn.source)
    (turns : List Turn) :
    ((turns.filterMap pick).map input).Sublist (turns.map Turn.source) := by
  induction turns with
  | nil => exact .slnil
  | cons turn turns ih =>
    cases pick_eq : pick turn with
    | none =>
      rw [List.filterMap_cons_none pick_eq]
      exact ih.cons turn.source
    | some picked =>
      rw [List.filterMap_cons_some pick_eq, List.map_cons, picks turn picked pick_eq, List.map_cons]
      exact ih.cons_cons turn.source

/-- Each turn is recorded in one of the lists. -/
theorem shares_turns (kind : SourceKind) (directory : Path) (turns : List Turn) :
    Shares (turns.map Turn.source)
      ((turns.filterMap (Turn.entry? kind directory)).map Entry.input)
      ((turns.filterMap (Turn.failure? kind)).map Manifest.Failure.input)
      (turns.filterMap Turn.skipped?) where
  once := by
    induction turns with
    | nil => exact .nil
    | cons turn turns ih =>
      -- The source goes to the front of the list for its outcome, from where it is moved ahead.
      obtain ⟨source, files, _ | _ | product⟩ := turn
      · refine .trans ?_ (ih.cons source)
        simp [List.filterMap_cons, Turn.entry?, Turn.failure?, Turn.skipped?, List.perm_middle]
      · refine .trans ?_ (ih.cons source)
        simp only [List.filterMap_cons, Turn.entry?, Turn.failure?, Turn.skipped?]
        exact List.perm_middle
      · simpa [List.filterMap_cons, Turn.entry?, Turn.failure?, Turn.skipped?] using ih
  converted := sublist_sources (fun _ _ entry_eq => (Turn.input_of_entry? entry_eq).2) turns
  failed := sublist_sources (fun _ _ failure_eq => (Turn.input_of_failure? failure_eq).2) turns
  skipped := by
    simpa using sublist_sources (fun _ _ skipped_eq => (Turn.skipped?_eq_some skipped_eq).1) turns

section Run

variable {config : Config} {files after : FileSystem} {manifest : Manifest} {kind : SourceKind}
  {builder : Builder} {directory : Path} {progress next : Progress}

/-- The walk to the sources of a kind gets to a directory of which the names cannot be read. -/
def WalkFails (config : Config) (files : FileSystem) (kind : SourceKind) : Prop :=
  files.view.isDirectory (sourceRoot config kind).1 = true ∧
    ∃ way fault, files.view.Fails (sourceRoot config kind).1 way fault

/-- A failed walk is a failure of its root. -/
theorem walkFailure?_cases (config : Config) (files : FileSystem) (kind : SourceKind) :
    (walkFailure? config files kind = none ∧ ¬WalkFails config files kind) ∨
    (∃ message, walkFailure? config files kind = some ⟨kind, (sourceRoot config kind).1, message⟩ ∧
      WalkFails config files kind) := by
  cases seen : files.view.isDirectory (sourceRoot config kind).1 with
  | false =>
    have absent : files.isDirectory (sourceRoot config kind).1 = false := seen
    exact .inl ⟨by simp [walkFailure?, absent], by simp [WalkFails, seen]⟩
  | true =>
    have present : files.isDirectory (sourceRoot config kind).1 = true := seen
    have lawful := files.view_lawful
    by_cases fails : ∃ way fault, files.view.Fails (sourceRoot config kind).1 way fault
    · obtain ⟨_, _, failing⟩ := fails
      obtain ⟨way, fault, -, collected⟩ :=
        collectSources_of_fails lawful seen failing (sourceRoot config kind).2
      have failure_eq : walkFailure? config files kind = some ⟨kind, (sourceRoot config kind).1,
          (FileSystem.Failure.read (joinWay (sourceRoot config kind).1 way) fault).message⟩ := by
        simp only [walkFailure?, present, collected, ↓reduceIte]
      exact .inr ⟨_, failure_eq, seen, _, _, failing⟩
    · obtain ⟨paths, collected, -⟩ := collectSources_of_readable lawful seen
        (fun way fault failing => fails ⟨way, fault, failing⟩) (sourceRoot config kind).2
      exact .inl ⟨by simp only [walkFailure?, collected, ite_self], fun failing => fails failing.2⟩

private theorem convertKind_turns
    (convert_eq : convertKind config kind builder directory progress = .ok next) :
    ∃ turns, Follows builder directory progress.files turns next.files ∧
      turns.map Turn.source = sources config progress.files kind ∧
      Taken kind directory turns
        (progress.recordWalk (walkFailure? config progress.files kind)) next := by
  obtain ⟨turns, follows, sources_eq, taken⟩ := foldlM_turns convert_eq
  rw [Progress.recordWalk_files] at follows
  exact ⟨turns, follows, sources_eq, taken⟩

/-- What a run records that takes the pages in one tree and then the tests in another one. -/
structure Recorded (config : Config) (files middle after : FileSystem) (pages tests : List Turn)
    (manifest : Manifest) : Prop where
  page_turns : Follows pageBuilder config.pagesOutput files pages middle
  test_turns : Follows
    (testBuilder config.testsOutput (catalog config (pages.filterMap Turn.name?)) config.settings)
    config.testsOutput middle tests after
  page_sources : pages.map Turn.source = sources config files .page
  test_sources : tests.map Turn.source = sources config middle .test
  entries : manifest.entries = pages.filterMap (Turn.entry? .page config.pagesOutput)
    ++ tests.filterMap (Turn.entry? .test config.testsOutput)
  failures : manifest.failures = (walkFailure? config files .page).toList
    ++ pages.filterMap (Turn.failure? .page) ++ (walkFailure? config middle .test).toList
    ++ tests.filterMap (Turn.failure? .test)
  skipped : manifest.skipped = tests.filterMap Turn.skipped?

theorem run_recorded (ran : run config files = (after, .ok manifest)) :
    ∃ middle pages tests, Recorded config files middle after pages tests manifest := by
  unfold run at ran
  split at ran
  · next progress convert_eq =>
    obtain ⟨rfl, manifest_eq⟩ := Prod.mk.inj ran
    obtain rfl := Except.ok.inj manifest_eq
    obtain ⟨middle, pages_eq, tests_eq⟩ := bind_eq_ok.mp convert_eq
    -- The tests are found and converted in the tree that the pages were written to.
    obtain ⟨pages, page_turns, page_sources, pages_taken⟩ := convertKind_turns pages_eq
    obtain ⟨tests, test_turns, test_sources, tests_taken⟩ := convertKind_turns tests_eq
    have names_eq : middle.names = pages.filterMap Turn.name? := by simpa using pages_taken.names
    rw [names_eq] at test_turns
    refine ⟨middle.files, pages, tests, page_turns, test_turns, page_sources, test_sources, ?_, ?_,
      ?_⟩
    · rw [tests_taken.entries]
      simpa [Manifest.empty] using pages_taken.entries
    · rw [tests_taken.failures]
      simp [pages_taken.failures, Manifest.empty]
    · rw [tests_taken.skipped]
      simpa [Manifest.empty, page_turns.skipped_page] using pages_taken.skipped
  · cases (Prod.mk.inj ran).2

/-- What ends a run is a source that can be read and that has no outline. -/
theorem run_error {cause : ParseError} (ran : run config files = (after, .error cause)) :
    ∃ source text, after.readText source = .ok text ∧ SourceUnit.parse text = .error cause := by
  unfold run at ran
  split at ran
  · cases (Prod.mk.inj ran).2
  · next stop convert_eq =>
    obtain ⟨rfl, cause_eq⟩ := Prod.mk.inj ran
    obtain rfl := Except.error.inj cause_eq
    unfold convertAll at convert_eq
    cases pages_eq : convertKind config .page pageBuilder config.pagesOutput
        ⟨files, .empty, []⟩ with
    | error other =>
      rw [pages_eq] at convert_eq
      obtain rfl := Except.error.inj convert_eq
      obtain ⟨source, -, stopped⟩ := foldlM_outline failsOnOutline_page pages_eq
      exact ⟨source, stopped⟩
    | ok middle =>
      rw [pages_eq] at convert_eq
      obtain ⟨source, -, stopped⟩ := foldlM_outline (failsOnOutline_test _ _ _) convert_eq
      exact ⟨source, stopped⟩

end Run

section Account

variable {config : Config} {files middle after : FileSystem} {manifest : Manifest}
  {pages tests : List Turn}

/-- The sources of a kind that a manifest has entries for. -/
def convertedInputs (manifest : Manifest) (kind : SourceKind) : List Path :=
  (manifest.entries.filter (·.kind = kind)).map Entry.input

def failedInputs (manifest : Manifest) (kind : SourceKind) : List Path :=
  (manifest.failures.filter (·.kind = kind)).map Manifest.Failure.input

/-- The sources of a kind are shared by the lists of a manifest. Besides them, its failures of the
kind name the root of a walk that failed. -/
def AccountsFor (manifest : Manifest) (config : Config) (files : FileSystem) (kind : SourceKind)
    (skipped : List Path) : Prop :=
  ∃ walks failed, failedInputs manifest kind = walks ++ failed ∧
    (walks = [] ∧ ¬WalkFails config files kind ∨
      walks = [(sourceRoot config kind).1] ∧ WalkFails config files kind) ∧
    Shares (sources config files kind) (convertedInputs manifest kind) failed skipped

theorem filter_filterMap_of_kind {α : Type} {kindOf : α → SourceKind} {pick : Turn → Option α}
    {kind : SourceKind} (picks : ∀ turn picked, pick turn = some picked → kindOf picked = kind)
    (other : SourceKind) (turns : List Turn) :
    (turns.filterMap pick).filter (kindOf · = other)
      = if kind = other then turns.filterMap pick else [] := by
  have same : ∀ picked ∈ turns.filterMap pick, kindOf picked = kind := by
    intro picked member
    obtain ⟨turn, -, pick_eq⟩ := List.mem_filterMap.mp member
    exact picks turn picked pick_eq
  split
  · next kind_eq =>
    exact List.filter_eq_self.mpr fun picked member => by simp [same picked member, kind_eq]
  · next kind_ne =>
    exact List.filter_eq_nil_iff.mpr fun picked member => by simp [same picked member, kind_ne]

private theorem filter_walkFailure? (kind other : SourceKind) :
    (walkFailure? config files kind).toList.filter (·.kind = other)
      = if kind = other then (walkFailure? config files kind).toList else [] := by
  obtain ⟨no_failure, -⟩ | ⟨message, failure_eq, -⟩ := walkFailure?_cases config files kind
  · simp [no_failure]
  · simp [failure_eq, List.filter_singleton]

private theorem walks_cases (config : Config) (files : FileSystem) (kind : SourceKind) :
    let walks := (walkFailure? config files kind).toList.map Manifest.Failure.input
    walks = [] ∧ ¬WalkFails config files kind ∨
      walks = [(sourceRoot config kind).1] ∧ WalkFails config files kind := by
  obtain ⟨no_failure, reached⟩ | ⟨message, failure_eq, fails⟩ := walkFailure?_cases config files kind
  · exact .inl ⟨by simp [no_failure], reached⟩
  · exact .inr ⟨by simp [failure_eq], fails⟩

variable (recorded : Recorded config files middle after pages tests manifest)
include recorded

theorem Recorded.convertedInputs_eq (kind : SourceKind) : convertedInputs manifest kind
    = (match kind with
      | .page => pages.filterMap (Turn.entry? .page config.pagesOutput)
      | .test => tests.filterMap (Turn.entry? .test config.testsOutput)).map Entry.input := by
  have picks (kind : SourceKind) (directory : Path) (turn : Turn) (entry : Entry)
      (entry_eq : turn.entry? kind directory = some entry) : entry.kind = kind :=
    (Turn.input_of_entry? entry_eq).1
  rw [convertedInputs, recorded.entries, List.filter_append,
    filter_filterMap_of_kind (picks .page _), filter_filterMap_of_kind (picks .test _)]
  cases kind <;> simp

theorem Recorded.failedInputs_eq (kind : SourceKind) : failedInputs manifest kind
    = (match kind with
      | .page => (walkFailure? config files .page).toList ++ pages.filterMap (Turn.failure? .page)
      | .test => (walkFailure? config middle .test).toList ++ tests.filterMap (Turn.failure? .test)).map
        Manifest.Failure.input := by
  have picks (kind : SourceKind) (turn : Turn) (failure : Manifest.Failure)
      (failure_eq : turn.failure? kind = some failure) : failure.kind = kind :=
    (Turn.input_of_failure? failure_eq).1
  rw [failedInputs, recorded.failures, List.filter_append, List.filter_append, List.filter_append,
    filter_filterMap_of_kind (picks .page), filter_filterMap_of_kind (picks .test),
    filter_walkFailure?, filter_walkFailure?]
  cases kind <;> simp

theorem Recorded.accountsFor_page : AccountsFor manifest config files .page [] := by
  have shares := shares_turns .page config.pagesOutput pages
  rw [recorded.page_sources, recorded.page_turns.skipped_page] at shares
  refine ⟨_, (pages.filterMap (Turn.failure? .page)).map Manifest.Failure.input, ?_,
    walks_cases config files .page, ?_⟩
  · rw [recorded.failedInputs_eq, List.map_append]
  · rwa [recorded.convertedInputs_eq]

theorem Recorded.accountsFor_test : AccountsFor manifest config middle .test manifest.skipped := by
  have shares := shares_turns .test config.testsOutput tests
  rw [recorded.test_sources, ← recorded.skipped] at shares
  refine ⟨_, (tests.filterMap (Turn.failure? .test)).map Manifest.Failure.input, ?_,
    walks_cases config middle .test, ?_⟩
  · rw [recorded.failedInputs_eq, List.map_append]
  · rwa [recorded.convertedInputs_eq]

/-- A test is skipped where it can be read at its turn and has no test method. -/
theorem Recorded.outcome_eq_none {turn : Turn} (member : turn ∈ tests) :
    turn.outcome = .ok none ↔
      ∃ text, turn.files.readText turn.source = .ok text ∧ Testless text := by
  rw [recorded.test_turns.outcome_eq_none member]
  simp only [testBuilder_eq_none]

theorem Recorded.mem_skipped {path : Path} : path ∈ manifest.skipped ↔
    ∃ turn ∈ tests, turn.source = path ∧
      ∃ text, turn.files.readText path = .ok text ∧ Testless text := by
  rw [recorded.skipped, List.mem_filterMap]
  constructor
  · rintro ⟨turn, member, skipped_eq⟩
    obtain ⟨rfl, outcome_eq⟩ := Turn.skipped?_eq_some skipped_eq
    exact ⟨turn, member, rfl, (recorded.outcome_eq_none member).mp outcome_eq⟩
  · rintro ⟨turn, member, rfl, testless⟩
    refine ⟨turn, member, ?_⟩
    rw [Turn.skipped?, (recorded.outcome_eq_none member).mpr testless]

end Account

/-- The manifest of a run accounts for the pages and the tests that it found. Each source had its
turn, whatever came of those before it, and the manifest holds what came of the turns, in their
order, with the walks that failed. A test is skipped where it could be read and has no test method
in a class at top level. A run without a manifest was ended by a source that could be read. -/
theorem run_accounts (config : Config) (files : FileSystem) :
    (∀ after cause, run config files = (after, .error cause) →
      ∃ source text, after.readText source = .ok text ∧ SourceUnit.parse text = .error cause) ∧
    ∀ after manifest, run config files = (after, .ok manifest) →
      ∃ middle pages tests, Recorded config files middle after pages tests manifest ∧
        AccountsFor manifest config files .page [] ∧
        AccountsFor manifest config middle .test manifest.skipped ∧
        ∀ path, path ∈ manifest.skipped ↔ ∃ turn ∈ tests, turn.source = path ∧
          ∃ text, turn.files.readText path = .ok text ∧ Testless text := by
  refine ⟨fun after cause ran => run_error ran, fun after manifest ran => ?_⟩
  obtain ⟨middle, pages, tests, recorded⟩ := run_recorded ran
  exact ⟨middle, pages, tests, recorded, recorded.accountsFor_page, recorded.accountsFor_test,
    fun _ => recorded.mem_skipped⟩

/-- Two pages, of which the first is no text, and a test without a test method. -/
def mixedSources : FileSystem where
  nodes :=
    let pages := ["src", "main", "java", "pages"]
    let tests := ["src", "test", "java"]
    [["src"], ["src", "main"], ["src", "main", "java"], pages, ["src", "test"], tests].map
      (·, .directory)
    ++ [(pages ++ ["P.java"], .file (.raw [255])),
      (pages ++ ["Q.java"], .file (.text "class Q \x7b void f() \x7b \x7d \x7d")),
      (tests ++ ["T.java"], .file (.text "class T \x7b void g() \x7b \x7d \x7d"))]
  working := []

def mixedManifest : Manifest where
  entries := [⟨.page, ⟨"./src/main/java/pages/Q.java"⟩, ⟨"converted/pages/Q.ts"⟩,
    ["f: no statements could be converted"]⟩]
  failures := [⟨.page, ⟨"./src/main/java/pages/P.java"⟩, "Failed to read "
    ++ "./src/main/java/pages/P.java: stream did not contain valid UTF-8"⟩]
  skipped := [⟨"./src/test/java/T.java"⟩]

private theorem sources_mixedSources : sources .default mixedSources .page
    = [⟨"./src/main/java/pages/P.java"⟩, ⟨"./src/main/java/pages/Q.java"⟩] := by
  let pages : List Path := [⟨"./src/main/java/pages/P.java"⟩, ⟨"./src/main/java/pages/Q.java"⟩]
  have walked : mixedSources.view.walk (pathLimit + 1) Config.default.pagesInput = .ok pages := by
    decide +kernel
  have collected : collectSources mixedSources.view Config.default.pagesInput
      Config.default.layout.pageFilter = .ok pages :=
    collectSources_of_walk (by decide +kernel) walked (by decide +kernel) (by decide +kernel)
  simp only [sources, sourceRoot, collected, pages]

private theorem run_mixedSources :
    run .default mixedSources = ((run .default mixedSources).1, .ok mixedManifest) := by
  refine Prod.ext rfl ?_
  unfold run convertAll convertKind
  rw [sources_mixedSources]
  decide +kernel

theorem run_accounts_mixedSources :
    ∃ middle pages tests, Recorded .default mixedSources middle (run .default mixedSources).1 pages
        tests mixedManifest ∧
      AccountsFor mixedManifest .default mixedSources .page [] ∧
      AccountsFor mixedManifest .default middle .test mixedManifest.skipped ∧
      ∀ path, path ∈ mixedManifest.skipped ↔ ∃ turn ∈ tests, turn.source = path ∧
        ∃ text, turn.files.readText path = .ok text ∧ Testless text :=
  (run_accounts .default mixedSources).2 _ _ run_mixedSources

end SuiteMigration.Migration
