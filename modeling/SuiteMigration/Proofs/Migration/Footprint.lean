import SuiteMigration.Proofs.FileSystem.Making
import SuiteMigration.Proofs.Migration.Entries
import SuiteMigration.Proofs.Migration.Repetition

/-!
# The footprint of a run

A run makes the directories on the way to its outputs, and it writes the modules that its entries
tell. A turn that is no entry of the manifest writes nothing, and no source is ever written.
-/
namespace SuiteMigration.Migration

open FileSystem Manifest Outline SuiteMigration.Path

variable {config : Config} {kind : SourceKind} {builder : Builder} {directory source : Path}
  {files next middle after : FileSystem} {turns pages tests : List Turn} {turn : Turn}
  {entries : List Entry} {entry : Entry} {place : Location} {product : Product} {manifest : Manifest}

section Turns

/-- A conversion makes directories on the way to its output directory only. -/
theorem convert_makesWithin (formed : files.WellFormed) (names : NamesFiles builder)
    {outcome : Except Failure (Option Product)}
    (converted : convert builder directory files source = (next, outcome)) :
    MakesWithin (files.OnWay directory) files next := by
  unfold convert at converted
  split at converted
  · obtain ⟨rfl, -⟩ := Prod.mk.inj converted
    exact .refl files
  · obtain ⟨rfl, -⟩ := Prod.mk.inj converted
    exact .refl files
  · next product built =>
    have no_slash := no_slash_of_build names built
    obtain ⟨parent, leads_from, makes⟩ :=
      @save_makesWithin _ _ (.text product.text) formed (lastPiece_outputPath directory no_slash)
    obtain ⟨moves_eq, absolute_eq⟩ := moves_of_leadsFrom directory no_slash leads_from
    have on_way := makes.mono fun place => (onWay_congr moves_eq absolute_eq).mp
    split at converted
    · next save_eq =>
      obtain ⟨rfl, -⟩ := Prod.mk.inj converted
      rwa [save_eq] at on_way
    · next save_eq =>
      obtain ⟨rfl, -⟩ := Prod.mk.inj converted
      rwa [save_eq] at on_way

theorem Follows.makesWithin (follows : Follows builder directory files turns after)
    (formed : files.WellFormed) (names : NamesFiles builder) :
    MakesWithin (files.OnWay directory) files after := by
  induction follows with
  | nil files => exact .refl files
  | cons converted _ ih =>
    have grows := convert_grows formed converted
    have first := convert_makesWithin formed names converted
    have rest := (ih (grows.wellFormed formed)).mono fun _ on_way => on_way.keep grows.keeps.working
    exact first.trans rest

/-- Some output leads to a place. -/
def IsOutput (files : FileSystem) (entries : List Entry) (place : Location) : Prop :=
  ∃ entry ∈ entries, files.locate entry.output = .ok place

theorem IsOutput.keep {written : Location → Prop} (is_output : IsOutput files entries place)
    (keeps : Keeps written files after) : IsOutput after entries place := by
  obtain ⟨entry, member, leads⟩ := is_output
  exact ⟨entry, member, keeps.locate leads⟩

theorem IsOutput.mono {more : List Entry} (is_output : IsOutput files entries place)
    (covers : entries ⊆ more) : IsOutput files more place := by
  obtain ⟨entry, member, leads⟩ := is_output
  exact ⟨entry, covers member, leads⟩

/-- A turn with a product saves it, and any other turn leaves all files as they are. -/
theorem convert_keeps_output {outcome : Except FileSystem.Failure (Option Product)}
    (converted : convert builder directory files source = (next, outcome.mapError .access)) :
    Keeps (IsOutput next (Turn.entry? kind directory ⟨source, files, outcome⟩).toList) files next := by
  rcases convert_cases converted with ⟨product, location, made, -, leads, -, keeps, -⟩ | ⟨-, keeps⟩
  · have outcome_eq : outcome = .ok (some product) := by
      cases outcome with
      | error failure => cases made
      | ok product? => exact congrArg Except.ok (Except.ok.inj made)
    subst outcome_eq
    refine keeps.mono ?_
    rintro _ rfl
    exact ⟨_, List.mem_singleton_self _, leads⟩
  · exact keeps.mono fun _ => False.elim

/-- The files that turns write are the outputs of their entries. -/
theorem Follows.keeps (follows : Follows builder directory files turns after) :
    Keeps (IsOutput after (turns.filterMap (Turn.entry? kind directory))) files after := by
  induction follows with
  | nil files => exact .refl files
  | @cons files next after source outcome turns converted _ ih =>
    have first := @convert_keeps_output kind _ _ _ _ _ _ converted
    have within : (Turn.entry? kind directory ⟨source, files, outcome⟩).toList
        ⊆ (⟨source, files, outcome⟩ :: turns).filterMap (Turn.entry? kind directory) := by
      intro entry member
      rw [List.mem_filterMap]
      exact ⟨_, List.mem_cons_self, Option.mem_toList.mp member⟩
    have later : turns.filterMap (Turn.entry? kind directory)
        ⊆ (⟨source, files, outcome⟩ :: turns).filterMap (Turn.entry? kind directory) := by
      exact List.filterMap_subset _ (List.subset_cons_self _ _)
    refine (first.mono fun _ is_output => ?_).trans (ih.mono fun _ is_output => is_output.mono later)
    exact (is_output.keep ih).mono within

/-- A turn after which every file is as it was. -/
def Turn.LeavesFiles (builder : Builder) (directory : Path) (turn : Turn) : Prop :=
  ∀ place content, (convert builder directory turn.files turn.source).1.node? place
    = some (.file content) ↔ turn.files.node? place = some (.file content)

theorem Follows.leavesFiles (follows : Follows builder directory files turns after)
    (member : turn ∈ turns) (no_entry : turn.entry? kind directory = none) :
    turn.LeavesFiles builder directory := by
  obtain ⟨next, converted⟩ := follows.converted member
  have keeps := @convert_keeps_output kind _ _ _ _ _ _ converted
  rw [Turn.LeavesFiles, converted]
  refine fun place content => keeps.file ?_
  rintro ⟨entry, entry_mem, -⟩
  rw [no_entry] at entry_mem
  cases entry_mem

end Turns

section Run

/-- The place of a module that an entry tells: its output leads there, directly into the folder for
modules of its kind. -/
structure IsModuleOf (config : Config) (files : FileSystem) (entry : Entry) (place : Location) :
    Prop where
  leads : files.locate entry.output = .ok place
  in_folder : ∃ folder name, files.IsFolder (outputDirectory config entry.kind) folder ∧
    place = folder ++ [name] ∧ Path.extension? ⟨name⟩ = some "ts"

/-- What a run changes in a tree. -/
structure TouchesOutputs (config : Config) (before after : FileSystem) (manifest : Manifest) :
    Prop where
  /-- A file that is new, or not the one it was, is the module of an entry. -/
  written : ∀ {place content}, after.node? place = some (.file content) →
    before.node? place ≠ some (.file content) → ∃ entry ∈ manifest.entries,
      IsModuleOf config after entry place
  files_stay : ∀ {place content}, before.node? place = some (.file content) →
    ∃ other, after.node? place = some (.file other)
  directories_stay : ∀ {place}, before.node? place = some .directory →
    after.node? place = some .directory
  made : ∀ {place}, after.node? place = some .directory → before.node? place = some .directory ∨
    before.OnWay config.pagesOutput place ∨ before.OnWay config.testsOutput place
  sources : ∀ {folder name content}, isSource name = true →
    (after.node? (folder ++ [name]) = some (.file content)
      ↔ before.node? (folder ++ [name]) = some (.file content))

/-- Where the output of an entry leads, its module is. -/
theorem Made.isModuleOf {before : FileSystem}
    (made : Made config builder before next after entry product)
    (leads : after.locate entry.output = .ok place) : IsModuleOf config after entry place := by
  obtain ⟨nonempty, no_slash⟩ := made.product_name
  refine ⟨leads, ?_⟩
  rw [made.output_eq] at leads
  obtain ⟨folder, is_folder, place_eq⟩ := folder_of_locate _ no_slash leads
  exact ⟨folder, _, is_folder, place_eq, extension?_fileName no_slash nonempty⟩

variable (recorded : Recorded config files middle after pages tests manifest)
include recorded

theorem Recorded.keeps : Keeps (IsOutput after manifest.entries) files after := by
  have tests_keep := @Follows.keeps .test _ _ _ _ _ recorded.test_turns
  have pages_keep := @Follows.keeps .page _ _ _ _ _ recorded.page_turns
  rw [recorded.entries]
  refine (pages_keep.mono fun place is_output => ?_).trans (tests_keep.mono fun place is_output => ?_)
  · exact (is_output.keep tests_keep).mono (List.subset_append_left _ _)
  · exact is_output.mono (List.subset_append_right _ _)

theorem Recorded.touchesOutputs (formed : files.WellFormed) :
    TouchesOutputs config files after manifest := by
  obtain ⟨pages_grow, tests_grow⟩ := recorded.grows formed
  have pages_formed := pages_grow.wellFormed formed
  have grows := pages_grow.trans tests_grow
  refine ⟨?_, grows.file_stays, grows.keeps.directory, ?_, ?_⟩
  · intro place content is_file changed
    by_cases is_output : IsOutput after manifest.entries place
    · obtain ⟨entry, member, leads⟩ := is_output
      obtain ⟨builder, before, next, product, made⟩ := recorded.made formed member
      exact ⟨entry, member, made.isModuleOf leads⟩
    · exact absurd ((recorded.keeps.file is_output).mp is_file) changed
  · have pages_make := recorded.page_turns.makesWithin formed namesFiles_page
    have tests_make := recorded.test_turns.makesWithin pages_formed (namesFiles_test _ _ _)
    intro place is_directory
    rcases tests_make place is_directory with earlier | on_way
    · exact (pages_make place earlier).imp_right .inl
    · exact .inr (.inr (on_way.keep pages_grow.keeps.working))
  · intro folder name content is_source
    exact grows.keeps.file (not_isModule_of_isSource (by simp) is_source)

end Run

/-- A run touches its outputs only. Every file that it writes is the module of an entry, directly in
the directory for modules of that kind. No file and no directory goes away, the directories it makes
are on the way to the two output directories, and the sources stay as they are. A source that is no
entry, because its turn failed or it was skipped, has written nothing. -/
theorem run_touches_outputs (formed : files.WellFormed)
    (ran : run config files = (after, .ok manifest)) :
    TouchesOutputs config files after manifest ∧
    ∃ middle pages tests, Recorded config files middle after pages tests manifest ∧
      (∀ turn ∈ pages, turn.entry? .page config.pagesOutput = none →
        turn.LeavesFiles pageBuilder config.pagesOutput) ∧
      ∀ turn ∈ tests, turn.entry? .test config.testsOutput = none → turn.LeavesFiles
        (testBuilder config.testsOutput (catalog config (pages.filterMap Turn.name?)) config.settings)
        config.testsOutput := by
  obtain ⟨middle, pages, tests, recorded⟩ := run_recorded ran
  refine ⟨recorded.touchesOutputs formed, middle, pages, tests, recorded, ?_, ?_⟩
  · exact fun turn member => recorded.page_turns.leavesFiles member
  · exact fun turn member => recorded.test_turns.leavesFiles member

/-- Modules are saved beside their sources. -/
def besideConfig : Config :=
  { Config.default with
    layout := { Config.Layout.default with
      pagesSubtree := ⟨"suite"⟩
      testsSubtree := ⟨"suite/tests"⟩
      outputRoot := ⟨"suite"⟩ } }

/-- A page, and a test with a directory in the way of its module. -/
def besideSuite : FileSystem where
  nodes := [["suite"], ["suite", "pages"], ["suite", "tests"], ["suite", "tests", "HomeTest.ts"]].map
      (·, .directory)
    ++ [(["suite", "pages", "Home.java"],
        .file (.text "public class Home \x7b void open() \x7b \x7d \x7d")),
      (["suite", "tests", "HomeTest.java"],
        .file (.text "class HomeTest \x7b @Test void opens() \x7b \x7d \x7d"))]
  working := []

def besideManifest : Manifest where
  entries := [⟨.page, ⟨"./suite/pages/Home.java"⟩, ⟨"suite/pages/Home.ts"⟩,
    ["open: no statements could be converted"]⟩]
  failures := [⟨.test, ⟨"./suite/tests/HomeTest.java"⟩,
    (FileSystem.Failure.write ⟨"suite/tests/HomeTest.ts"⟩ .isDirectory).message⟩]
  skipped := []

theorem run_touches_outputs_beside :
    TouchesOutputs besideConfig besideSuite (run besideConfig besideSuite).1 besideManifest ∧
    ∃ middle pages tests, Recorded besideConfig besideSuite middle (run besideConfig besideSuite).1
        pages tests besideManifest ∧
      (∀ turn ∈ pages, turn.entry? .page besideConfig.pagesOutput = none →
        turn.LeavesFiles pageBuilder besideConfig.pagesOutput) ∧
      ∀ turn ∈ tests, turn.entry? .test besideConfig.testsOutput = none → turn.LeavesFiles
        (testBuilder besideConfig.testsOutput
          (catalog besideConfig (pages.filterMap Turn.name?)) besideConfig.settings)
        besideConfig.testsOutput :=
  run_touches_outputs (by decide +kernel) (run_eq_of_snd (by decide +kernel))

end SuiteMigration.Migration
