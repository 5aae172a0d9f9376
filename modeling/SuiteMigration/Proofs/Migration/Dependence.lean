import SuiteMigration.Proofs.FileSystem.Agreement
import SuiteMigration.Proofs.Migration.Accounting
import SuiteMigration.Proofs.Migration.Repetition

/-!
# What a run depends on

A run depends on the directories and the sources. Other files, such as modules of earlier runs, are
neither imported nor recorded, as long as they are not in the way of the output directories.
-/
namespace SuiteMigration.Migration

open FileSystem Manifest Outline SuiteMigration.Path

variable {config : Config} {kind : SourceKind} {builder : Builder} {directory source parent : Path}
  {files other after left right next : FileSystem} {manifest : Manifest} {entries : List Entry}
  {entry : Entry} {product : Product} {place location : Location} {strays : Location → Prop}
  {outcome : Except Failure (Option Product)}

/-- What a run looks at is the same in two trees: the directories, the sources, and what is on the way
of the output directories. Other files may differ. -/
structure SameInputs (config : Config) (left right : FileSystem) : Prop where
  working : right.working = left.working
  locked : right.locked = left.locked
  directory : ∀ place, right.node? place = some .directory ↔ left.node? place = some .directory
  source : ∀ place, ∀ name ∈ place.getLast?, isSource name = true →
    right.node? place = left.node? place
  pages_way : ∀ place, left.OnWay config.pagesOutput place → right.node? place = left.node? place
  tests_way : ∀ place, left.OnWay config.testsOutput place → right.node? place = left.node? place

/-- The places where two trees differ. -/
def Differ (left right : FileSystem) (place : Location) : Prop :=
  right.node? place ≠ left.node? place

theorem SameInputs.agree (same : SameInputs config left right) (left_formed : left.WellFormed)
    (right_formed : right.WellFormed) : Agree (Differ left right) left right where
  left_formed := left_formed
  right_formed := right_formed
  working := same.working
  locked := same.locked
  node := Decidable.not_not.mp
  stray {place} differ := by
    -- A directory in one tree is one in the other.
    constructor
    · intro is_directory
      exact differ (((same.directory place).mpr is_directory).trans is_directory.symm)
    · intro is_directory
      exact differ (is_directory.trans ((same.directory place).mp is_directory).symm)

/-- Trees that differ at no source have the same sources, wherever they are looked for. -/
theorem SameSources.of_agree (agree : Agree strays left right)
    (no_source : ∀ place, strays place → ∀ name ∈ place.getLast?, isSource name = false)
    (root : Path) : SameSources root left right := by
  have same {place : Location} {name : String} (last_eq : place.getLast? = some name)
      (is_source : isSource name = true) : right.node? place = left.node? place := by
    refine agree.node fun is_stray => ?_
    rw [no_source place is_stray name last_eq] at is_source
    cases is_source
  refine ⟨agree.locked, fun last_eq is_source => by rw [same last_eq is_source], ?_⟩
  intro place way name _ last_eq is_source _
  have place_last : (place ++ way).getLast? = some name := by
    rw [List.getLast?_append, last_eq]
    rfl
  rw [same place_last is_source]

/-- The module of an entry is at the same place in two trees, with the same text. -/
def SameOutput (left right : FileSystem) (entry : Entry) : Prop :=
  ∃ location text, left.locate entry.output = .ok location ∧
    right.locate entry.output = .ok location ∧
    left.node? location = some (.file (.text text)) ∧
    right.node? location = some (.file (.text text)) ∧ endsInSlash entry.output = false

theorem SameOutput.readText (same : SameOutput left right entry) :
    ∃ text, left.readText entry.output = .ok text ∧ right.readText entry.output = .ok text := by
  obtain ⟨location, text, left_found, right_found, left_file, right_file, no_slash⟩ := same
  exact ⟨text, readText_eq_ok.mpr ⟨location, left_found, left_file, no_slash⟩,
    readText_eq_ok.mpr ⟨location, right_found, right_file, no_slash⟩⟩

theorem SameOutput.keep (same : SameOutput left right entry)
    (left_keeps : Keeps (fun _ => False) left next) (right_keeps : Keeps (fun _ => False) right after) :
    SameOutput next after entry := by
  obtain ⟨location, text, left_found, right_found, left_file, right_file, no_slash⟩ := same
  exact ⟨location, text, left_keeps.locate left_found, right_keeps.locate right_found,
    (left_keeps.file id).mpr left_file, (right_keeps.file id).mpr right_file, no_slash⟩

/-- A text that is written in both trees leaves the outputs the same, though it may replace one. -/
theorem SameOutput.write (same : SameOutput left right entry) {text : String}
    (left_keeps : Keeps (· = place) left next) (right_keeps : Keeps (· = place) right after)
    (left_stored : next.node? place = some (.file (.text text)))
    (right_stored : after.node? place = some (.file (.text text))) : SameOutput next after entry := by
  obtain ⟨location, old, left_found, right_found, left_file, right_file, no_slash⟩ := same
  by_cases here : location = place
  · subst here
    exact ⟨location, text, left_keeps.locate left_found, right_keeps.locate right_found, left_stored,
      right_stored, no_slash⟩
  · exact ⟨location, old, left_keeps.locate left_found, right_keeps.locate right_found,
      (left_keeps.file here).mpr left_file, (right_keeps.file here).mpr right_file, no_slash⟩

/-- The parent of a module's path comes by what its directory comes by. -/
theorem avoids_parent (no_slash : '/' ∉ product.name.toList) (avoids : Avoids strays left directory)
    (leads_from : parent.LeadsFrom (outputPath directory product)) : Avoids strays left parent := by
  obtain ⟨moves_eq, absolute_eq⟩ := moves_of_leadsFrom directory no_slash leads_from
  rintro place ⟨front, front_prefix, rfl⟩
  rw [start_congr absolute_eq]
  exact avoids _ ⟨front, moves_eq ▸ front_prefix, rfl⟩

/-- A conversion comes out alike in two trees that agree, and they go on agreeing. -/
theorem convert_agrees (agree : Agree strays left right) (avoids : Avoids strays left directory)
    (names : NamesFiles builder) (loaded : right.load source = left.load source)
    (converted : convert builder directory left source = (next, outcome)) :
    ∃ after, convert builder directory right source = (after, outcome) ∧ Agree strays next after := by
  unfold convert at converted ⊢
  rw [build_congr loaded]
  split at converted
  · obtain ⟨rfl, rfl⟩ := Prod.mk.inj converted
    exact ⟨right, rfl, agree⟩
  · obtain ⟨rfl, rfl⟩ := Prod.mk.inj converted
    exact ⟨right, rfl, agree⟩
  · next product built =>
    have no_slash := no_slash_of_build names built
    obtain ⟨result, saved, other, left_eq, right_eq, saved_agree⟩ :=
      @Agree.save _ _ _ _ (.text product.text) agree (lastPiece_outputPath directory no_slash)
        fun parent => avoids_parent no_slash avoids
    rw [left_eq] at converted
    simp only [right_eq]
    cases result with
    | error failure =>
      obtain ⟨rfl, rfl⟩ := Prod.mk.inj converted
      exact ⟨other, rfl, saved_agree⟩
    | ok =>
      obtain ⟨rfl, rfl⟩ := Prod.mk.inj converted
      exact ⟨other, rfl, saved_agree⟩

/-- A module that two conversions save is at the same place in their trees. -/
theorem convert_sameOutput (agree : Agree strays next after) (avoids : Avoids strays next directory)
    (names : NamesFiles builder)
    (converted : convert builder directory left source = (next, .ok (some product)))
    (again : convert builder directory right source = (after, .ok (some product))) :
    ∃ location, next.locate (outputPath directory product) = .ok location ∧
      after.locate (outputPath directory product) = .ok location ∧
      endsInSlash (outputPath directory product) = false ∧
      (Keeps (· = location) left next ∧ next.node? location = some (.file (.text product.text))) ∧
      Keeps (· = location) right after ∧ after.node? location = some (.file (.text product.text)) := by
  obtain ⟨saved, location, saved_eq, built, found, ends, keeps, stored⟩ | ⟨not_saved, -⟩ :=
    convert_cases converted
  · obtain rfl := Option.some.inj (Except.ok.inj saved_eq)
    obtain ⟨other, place, other_eq, -, other_found, -, other_keeps, other_stored⟩ | ⟨not_saved, -⟩ :=
      convert_cases again
    · obtain rfl := Option.some.inj (Except.ok.inj other_eq)
      have no_slash := no_slash_of_build names built
      have leading := lastPiece_outputPath directory no_slash
      obtain ⟨parent, -, leads_from⟩ := exists_parent leading
      have same_place := agree.locate_eq leading leads_from (avoids_parent no_slash avoids leads_from)
      rw [found, other_found] at same_place
      obtain rfl := Except.ok.inj same_place
      exact ⟨place, found, other_found, ends, ⟨keeps, stored⟩, other_keeps, other_stored⟩
    · exact absurd rfl (not_saved product)
  · exact absurd rfl (not_saved product)

theorem convert_keeps (converted : convert builder directory left source = (next, outcome))
    (not_saved : ∀ product, outcome ≠ .ok (some product)) : Keeps (fun _ => False) left next := by
  obtain ⟨product, -, saved, -⟩ | ⟨-, keeps⟩ := convert_cases converted
  · exact absurd saved (not_saved product)
  · exact keeps

/-- What two runs keep between them that began in two trees: they agree, and what was recorded so far
is in both. -/
structure Alongside (strays : Location → Prop) (files other left : FileSystem) (entries : List Entry)
    (right : FileSystem) : Prop where
  agree : Agree strays left right
  left_grows : Grows IsModule files left
  right_grows : Grows IsModule other right
  outputs : ∀ entry ∈ entries, SameOutput left right entry

private theorem keptByTurns_alongside {final : FileSystem} (agree : Agree strays files other)
    (no_source : ∀ place, strays place → ∀ name ∈ place.getLast?, isSource name = false)
    (avoids : Avoids strays files directory) (names : NamesFiles builder) :
    KeptByTurns (Alongside strays files other) kind builder directory (sources config files kind)
      final := by
  intro source member left next right entries outcome alongside converted _
  have same_root : ∀ location, files.directory? (sourceRoot config kind).1 = some location →
      other.directory? (sourceRoot config kind).1 = some location :=
    fun location found => (agree.directory?_eq _).trans found
  have loaded := load_of_mem_sources agree.left_formed agree.right_formed
    (SameSources.of_agree agree no_source (sourceRoot config kind).1).file
    same_root alongside.left_grows alongside.right_grows member
  obtain ⟨after, again, next_agree⟩ := convert_agrees alongside.agree
    (avoids.keep alongside.left_grows.keeps.working) names loaded converted
  have left_grows := alongside.left_grows.trans (convert_grows alongside.agree.left_formed converted)
  have right_grows := alongside.right_grows.trans (convert_grows alongside.agree.right_formed again)
  refine ⟨after, again, next_agree, left_grows, right_grows, ?_⟩
  -- The outputs of the earlier entries, and the one of this turn if it has one.
  rcases outcome with failure | _ | product
  · have left_keeps := convert_keeps converted (by simp [Except.mapError])
    have right_keeps := convert_keeps again (by simp [Except.mapError])
    simpa [Turn.entry?] using fun entry entry_mem =>
      (alongside.outputs entry entry_mem).keep left_keeps right_keeps
  · have left_keeps := convert_keeps converted (by simp [Except.mapError])
    have right_keeps := convert_keeps again (by simp [Except.mapError])
    simpa [Turn.entry?] using fun entry entry_mem =>
      (alongside.outputs entry entry_mem).keep left_keeps right_keeps
  · obtain ⟨location, found, other_found, ends, ⟨left_keeps, left_stored⟩, right_keeps, right_stored⟩ :=
      convert_sameOutput next_agree (avoids.keep left_grows.keeps.working) names converted again
    intro entry entry_mem
    rcases List.mem_append.mp entry_mem with earlier | newest
    · exact (alongside.outputs entry earlier).write left_keeps right_keeps left_stored right_stored
    · obtain rfl := List.mem_singleton.mp newest
      exact ⟨location, product.text, found, other_found, left_stored, right_stored, ends⟩

/-- A run from a tree with the same inputs records the same, and the same texts are at the outputs. -/
theorem run_alongside (formed : files.WellFormed) (ran : run config files = (after, .ok manifest))
    (other_formed : other.WellFormed) (same : SameInputs config files other) :
    ∃ other_after, run config other = (other_after, .ok manifest) ∧
      ∀ entry ∈ manifest.entries, ∃ text,
        after.readText entry.output = .ok text ∧ other_after.readText entry.output = .ok text := by
  obtain ⟨pages, last, pages_eq, tests_eq, rfl, rfl⟩ := run_eq_ok.mp ran
  have agree := same.agree formed other_formed
  have no_source : ∀ place, Differ files other place → ∀ name ∈ place.getLast?, isSource name = false := by
    intro place differ name last_eq
    by_contra is_source
    exact differ (same.source place name last_eq (by simpa using is_source))
  have pages_avoid : Avoids (Differ files other) files config.pagesOutput :=
    fun place on_way differ => differ (same.pages_way place on_way)
  have tests_avoid : Avoids (Differ files other) files config.testsOutput :=
    fun place on_way differ => differ (same.tests_way place on_way)
  have start_formed : (Progress.mk files .empty []).files.WellFormed := formed
  have start : Alongside (Differ files other) files other files [] other :=
    ⟨agree, .refl, .refl, by simp⟩
  -- The pages of both runs.
  have same_pages : sources config other .page = sources config files .page
      ∧ walkFailure? config other .page = walkFailure? config files .page :=
    (SameSources.of_agree agree no_source _).sources_eq formed other_formed (agree.directory?_eq _)
  obtain ⟨second, second_eq, pages_alongside⟩ := convertKind_lockstep start_formed start same_pages
    pages_eq (keptByTurns_alongside agree no_source pages_avoid namesFiles_page)
  -- The tests of both runs.
  have pages_agree := pages_alongside.agree
  have tests_start : Alongside (Differ files other) pages.files second pages.files
      pages.manifest.entries second :=
    ⟨pages_agree, .refl, .refl, pages_alongside.outputs⟩
  have same_tests : sources config second .test = sources config pages.files .test
      ∧ walkFailure? config second .test = walkFailure? config pages.files .test :=
    (SameSources.of_agree pages_agree no_source _).sources_eq pages_agree.left_formed
      pages_agree.right_formed (pages_agree.directory?_eq _)
  obtain ⟨other_after, after_eq, tests_alongside⟩ := convertKind_lockstep pages_agree.left_formed
    tests_start same_tests tests_eq (keptByTurns_alongside pages_agree no_source
      (tests_avoid.keep pages_alongside.left_grows.keeps.working) (namesFiles_test _ _ _))
  refine ⟨other_after, ?_, fun entry member => (tests_alongside.outputs entry member).readText⟩
  exact run_eq_ok.mpr ⟨pages.on second, last.on other_after, second_eq, after_eq, rfl, rfl⟩

/-- A file that is no source, and not on the way of the output directories, is no input. -/
theorem SameInputs.set (no_directory : files.node? place ≠ some .directory)
    (no_source : ∀ name ∈ place.getLast?, isSource name = false)
    (off_pages : ¬files.OnWay config.pagesOutput place)
    (off_tests : ¬files.OnWay config.testsOutput place) (content : Content) :
    SameInputs config files (files.set place (.file content)) where
  working := rfl
  locked := rfl
  directory other := by
    -- No directory comes or goes.
    by_cases here : other = place
    · subst here
      rw [node?_set_self files _ (ne_root_of_node? no_directory)]
      exact iff_of_false (by simp) no_directory
    · rw [node?_set_of_ne files _ here]
  source other name last_eq is_source := by
    apply node?_set_of_ne
    rintro rfl
    rw [no_source name last_eq] at is_source
    cases is_source
  pages_way other on_way := by
    apply node?_set_of_ne
    rintro rfl
    exact off_pages on_way
  tests_way other on_way := by
    apply node?_set_of_ne
    rintro rfl
    exact off_tests on_way

/-- A path without double dots goes up from nowhere. -/
theorem grounded_of_names {path : Path} (names : ['.', '.'] ∉ path.moves) : files.Grounded path := by
  intro front back moves_eq
  exact absurd (by simp [moves_eq]) names

/-- What is made is in reach, if no directory is named like a source. -/
theorem inReach_of_names {root : Path} (plain : ∀ entry ∈ after.nodes, entry.2 = .directory →
    ∀ name ∈ entry.1.getLast?, isSource name = false) : InReach root files after := by
  intro place way name _ last_eq is_source is_directory
  have nonempty : place ++ way ≠ [] := by
    intro empty
    rw [(List.append_eq_nil_iff.mp empty).2] at last_eq
    cases last_eq
  have place_last : (place ++ way).getLast? = some name := by
    rw [List.getLast?_append, last_eq]
    rfl
  have not_source := plain _ (mem_nodes_of_node? is_directory nonempty) rfl name place_last
  rw [is_source] at not_source
  cases not_source

/-- A run depends on its inputs only. Taken again from where it ended, it records the same and changes
nothing, if no double dot of the page root or an output directory goes up from a place where nothing is
before the run, and if no directory that the run makes is out of reach and named like a source. And it
comes to the same in every tree with the same inputs. -/
theorem run_depends_on_inputs (formed : files.WellFormed)
    (ran : run config files = (after, .ok manifest)) :
    (files.Grounded config.pagesInput → files.Grounded config.pagesOutput →
      files.Grounded config.testsOutput → (∀ kind, InReach (sourceRoot config kind).1 files after) →
      ∃ again, run config after = (again, .ok manifest) ∧ SameTree after again) ∧
    ∀ other : FileSystem, other.WellFormed → SameInputs config files other →
      ∃ other_after, run config other = (other_after, .ok manifest) ∧
        ∀ entry ∈ manifest.entries, ∃ text,
          after.readText entry.output = .ok text ∧ other_after.readText entry.output = .ok text :=
  ⟨fun pages_input pages_output tests_output reach =>
    run_again formed ran reach pages_input pages_output tests_output, fun _ => run_alongside formed ran⟩

/-- A page, a test that imports all pages, and what was made before. -/
def homeSuite (made : List Location) : FileSystem where
  nodes :=
    let pages := ["src", "main", "java", "pages"]
    let tests := ["src", "test", "java"]
    ([["src"], ["src", "main"], ["src", "main", "java"], pages, ["src", "test"], tests] ++ made).map
      (·, .directory)
    ++ [(pages ++ ["Home.java"], .file (.text "public class Home \x7b void open() \x7b \x7d \x7d")),
      (tests ++ ["HomeTest.java"], .file (.text ("import pages.*; class HomeTest \x7b "
        ++ "Home home; Old old; @Test void opens() \x7b \x7d \x7d")))]
  working := []

def homeEntry : Entry :=
  ⟨.page, ⟨"./src/main/java/pages/Home.java"⟩, ⟨"converted/pages/Home.ts"⟩,
    ["open: no statements could be converted"]⟩

def homeTestEntry : Entry :=
  ⟨.test, ⟨"./src/test/java/HomeTest.java"⟩, ⟨"converted/tests/HomeTest.ts"⟩, []⟩

/-- The suite with the directory of an earlier run's pages. -/
def madeSuite : FileSystem :=
  homeSuite [["converted"], ["converted", "pages"]]

theorem run_madeSuite : run .default madeSuite
    = ((run .default madeSuite).1, .ok ⟨[homeEntry, homeTestEntry], [], []⟩) :=
  run_eq_of_snd (by decide +kernel)

/-- A page that has no source any more, and that the test could mean. -/
def oldPage : Location :=
  ["converted", "pages", "Old.ts"]

/-- The old page is neither imported nor recorded. -/
theorem run_depends_on_inputs_oldPage :
    let manifest : Manifest := ⟨[homeEntry, homeTestEntry], [], []⟩
    let after := (run .default madeSuite).1
    (∃ again, run .default after = (again, .ok manifest) ∧ SameTree after again) ∧
    ∃ other_after, run .default (madeSuite.set oldPage (.file (.text "export class Old \x7b\x7d")))
        = (other_after, .ok manifest) ∧
      ∀ entry ∈ [homeEntry, homeTestEntry], ∃ text,
        after.readText entry.output = .ok text ∧ other_after.readText entry.output = .ok text := by
  intro manifest after
  have formed : madeSuite.WellFormed := by decide +kernel
  have settled := run_depends_on_inputs formed run_madeSuite
  constructor
  · apply settled.1
    · exact grounded_of_names (by decide +kernel)
    · exact grounded_of_names (by decide +kernel)
    · exact grounded_of_names (by decide +kernel)
    · exact fun kind => inReach_of_names (by decide +kernel)
  · apply settled.2
    · exact formed.set (by decide +kernel) (by decide +kernel) _
    · exact .set (by decide +kernel) (by decide +kernel) (by decide +kernel) (by decide +kernel) _

/-- The pages are looked for behind a directory that the first run makes. -/
def upConfig : Config :=
  { Config.default with
    layout := { Config.Layout.default with pagesSubtree := ⟨"converted/../src/main/java"⟩ } }

/-- A second run finds a root that was not there for the first one. -/
theorem run_again_not_of_up :
    ¬ ∀ (config : Config) (files after : FileSystem) (manifest : Manifest), files.WellFormed →
      run config files = (after, .ok manifest) →
      ∃ again, run config after = (again, .ok manifest) ∧ SameTree after again := by
  intro idempotent
  let suite := homeSuite []
  have formed : suite.WellFormed := by decide +kernel
  have ran : run upConfig suite = ((run upConfig suite).1, .ok ⟨[homeTestEntry], [], []⟩) :=
    run_eq_of_snd (by decide +kernel)
  obtain ⟨again, again_eq, -⟩ := idempotent _ _ _ _ formed ran
  -- The page is converted by the second run.
  have different : (run upConfig (run upConfig suite).1).2 ≠ .ok ⟨[homeTestEntry], [], []⟩ := by
    decide +kernel
  exact different (congrArg Prod.snd again_eq)

/-- The output directories are behind a directory that the first run makes, and below a file. -/
def upOutputConfig : Config :=
  { Config.default with layout := { Config.Layout.default with outputRoot := ⟨"made/../taken"⟩ } }

/-- The first run comes upon the file only after it has made a directory, and the second one at once,
so they do not tell the same failure. -/
theorem run_again_not_of_up_output :
    ¬ ∀ (config : Config) (files after : FileSystem) (manifest : Manifest), files.WellFormed →
      run config files = (after, .ok manifest) → files.Grounded config.pagesInput →
      ∃ again, run config after = (again, .ok manifest) ∧ SameTree after again := by
  intro idempotent
  let suite := ((homeSuite []).erase ["src", "test"]).set ["taken"] (.file (.text ""))
  let manifest : Manifest := ⟨[], [⟨.page, homeEntry.input,
    (FileSystem.Failure.write ⟨"made/../taken/pages"⟩ .alreadyThere).message⟩], []⟩
  have formed : suite.WellFormed := by decide +kernel
  have ran : run upOutputConfig suite = ((run upOutputConfig suite).1, .ok manifest) :=
    run_eq_of_snd (by decide +kernel)
  obtain ⟨again, again_eq, -⟩ := idempotent _ _ _ _ formed ran (grounded_of_names (by decide +kernel))
  -- The second run tells that the file is no directory.
  have different : (run upOutputConfig (run upOutputConfig suite).1).2 ≠ .ok manifest := by
    decide +kernel
  exact different (congrArg Prod.snd again_eq)

section Far

variable {root : Path}

/-- The pages are in a directory of any path, and the output directory is named like a source. -/
def farConfig (root : Path) : Config :=
  { Config.default with
    layout := { Config.Layout.default with
      inputRoot := ⟨""⟩
      pagesSubtree := root
      testsSubtree := ⟨"none"⟩
      pageFilter := none
      outputRoot := ⟨"output.java"⟩ } }

def nearSuite : FileSystem where
  nodes := [(["A.java"], .file (.text "class A \x7b \x7d"))]
  working := []

/-- What comes of the page, whatever path it is found by. -/
def nearConversion : FileSystem × Except Failure (Option Product) :=
  convert pageBuilder ⟨"output.java/pages"⟩ nearSuite ⟨"A.java"⟩

private theorem nearSource_node : nearSuite.node? ([] ++ ["A.java"])
    = some (.file (.text "class A \x7b \x7d")) := rfl

private theorem wellFormed_nearSuite : nearSuite.WellFormed := by
  decide

/-- What the conversion leaves. -/
private theorem nearConversion_evaluated :
    nearConversion.1.WellFormed ∧ nearConversion.1.locked = [] ∧ nearConversion.1.working = [] ∧
      nearConversion.1.node? ["output.java"] = some .directory ∧
      nearConversion.1.directory? ⟨"none"⟩ = none ∧
      (nearConversion.2.toOption.bind id).isSome = true := by
  decide +kernel

private theorem sourceRoot_farConfig (root : Path) :
    sourceRoot (farConfig root) .page = (root, none) ∧
      (sourceRoot (farConfig root) .test).1 = ⟨"none"⟩ := by
  constructor
  · simp [sourceRoot, Config.pagesInput, farConfig, Path.join]
  · simp [sourceRoot, Config.testsInput, farConfig, Path.join]

private theorem outputs_farConfig (root : Path) :
    (farConfig root).pagesOutput = ⟨"output.java/pages"⟩ ∧
      (farConfig root).testsOutput = ⟨"output.java/tests"⟩ := by
  simp only [Config.pagesOutput, Config.testsOutput, farConfig]
  decide

private theorem sources_nearSuite (root_eq : nearSuite.directory? root = some []) :
    sources (farConfig root) nearSuite .page = [root.join ⟨"A.java"⟩] ∧
      walkFailure? (farConfig root) nearSuite .page = none := by
  have formed := wellFormed_nearSuite
  have extension_eq : (joinWay root ["A.java"]).extension? = some "java" :=
    (extension?_joinWay_iff root (by decide) rfl).mpr (by decide)
  -- The page is all that is found.
  have page_source : AreSources nearSuite.view root none [root.join ⟨"A.java"⟩] := by
    refine ⟨List.pairwise_singleton _ _, fun path => ⟨?_, ?_⟩⟩
    · intro member
      obtain rfl := List.mem_singleton.mp member
      exact ⟨["A.java"], (finds_view_iff formed root_eq).mpr ⟨by simp, ⟨List.not_mem_nil, trivial⟩,
        (directory?_iff.mp root_eq).1, _, nearSource_node, by simp⟩, rfl, extension_eq, by simp⟩
    · rintro ⟨way, finds, rfl, -⟩
      obtain ⟨nonempty, -, -, node, found, -⟩ := (finds_view_iff formed root_eq).mp finds
      have in_nodes := mem_nodes_of_node? found nonempty
      obtain ⟨rfl, -⟩ := Prod.mk.inj (List.mem_singleton.mp in_nodes)
      exact List.mem_singleton_self _
  obtain ⟨paths, collected⟩ :=
    exists_sources_of_unlocked formed root_eq rfl none
  have are_sources := areSources_of_ok nearSuite.view_lawful collected
  obtain rfl := are_sources.unique page_source
  constructor
  · simp only [sources, (sourceRoot_farConfig root).1, collected]
  · simp only [walkFailure?, (sourceRoot_farConfig root).1, collected, ite_self]

private theorem convert_nearSuite (root_eq : nearSuite.directory? root = some [])
    (accepted : refusal? (root.join ⟨"A.java"⟩) = none) :
    convert pageBuilder ⟨"output.java/pages"⟩ nearSuite (root.join ⟨"A.java"⟩) = nearConversion := by
  have no_slash : endsInSlash (root.join ⟨"A.java"⟩) = false :=
    endsInSlash_of_leads (by rw [lastPiece_join _ (by decide)]; decide)
  have read : nearSuite.readText (root.join ⟨"A.java"⟩) = .ok "class A \x7b \x7d" :=
    readText_of_file (locate_join wellFormed_nearSuite root_eq nearSource_node accepted)
      nearSource_node no_slash
  have loaded : nearSuite.load (root.join ⟨"A.java"⟩) = nearSuite.load ⟨"A.java"⟩ := by
    rw [load, read]
    rfl
  have stem_eq : (root.join ⟨"A.java"⟩).stem? = (Path.mk "A.java").stem? := by
    rw [Path.stem?, Path.fileName?_join_name (by decide)]
    decide
  simp only [nearConversion, convert, build, loaded, stem_eq]

private theorem run_nearSuite (root_eq : nearSuite.directory? root = some [])
    (accepted : refusal? (root.join ⟨"A.java"⟩) = none) :
    ∃ product, run (farConfig root) nearSuite = (nearConversion.1,
      .ok ⟨[⟨.page, root.join ⟨"A.java"⟩, outputPath ⟨"output.java/pages"⟩ product,
        product.warnings⟩], [], []⟩) := by
  obtain ⟨-, -, -, -, no_root, is_some⟩ := nearConversion_evaluated
  obtain ⟨product, product_eq⟩ : ∃ product, nearConversion.2 = .ok (some product) := by
    revert is_some
    rcases nearConversion.2 with _ | _ | product <;> simp [Except.toOption]
  obtain ⟨sources_eq, walk_eq⟩ := sources_nearSuite root_eq
  have converted := convert_nearSuite root_eq accepted
  have no_tests : nearConversion.1.directory? (sourceRoot (farConfig root) .test).1 = none := by
    rwa [(sourceRoot_farConfig root).2]
  obtain ⟨tests_eq, no_walk⟩ := sources_of_none no_tests
  let progress : Progress := ⟨nearConversion.1, ⟨[⟨.page, root.join ⟨"A.java"⟩,
    outputPath ⟨"output.java/pages"⟩ product, product.warnings⟩], [], []⟩, [product.name]⟩
  refine ⟨product, run_eq_ok.mpr ⟨progress, progress, ?_, ?_, rfl, rfl⟩⟩
  · have next_eq : convertNext .page pageBuilder ⟨"output.java/pages"⟩ ⟨nearSuite, .empty, []⟩
        (root.join ⟨"A.java"⟩) = .ok progress := by
      have pair_eq : nearConversion = (nearConversion.1, .ok (some product)) :=
        Prod.ext rfl product_eq
      unfold convertNext
      rw [converted, pair_eq]
      rfl
    rw [convertKind, sources_eq, walk_eq, List.foldlM_cons, (outputs_farConfig root).1,
      Progress.recordWalk, next_eq]
    rfl
  · rw [convertKind, tests_eq, no_walk]
    rfl

/-- The output directory is found as a source behind the page. -/
private theorem far_mem_sources (far : refusal? (root.join ⟨"output.java"⟩) ≠ none)
    (after_root : nearConversion.1.directory? root = some []) :
    root.join ⟨"output.java"⟩ ∈ sources (farConfig root) nearConversion.1 .page := by
  obtain ⟨formed, unlocked, -, made, -⟩ := nearConversion_evaluated
  obtain ⟨paths, collected⟩ := exists_sources_of_unlocked formed after_root unlocked none
  have are_sources := areSources_of_ok nearConversion.1.view_lawful collected
  have extension_eq : (joinWay root ["output.java"]).extension? = some "java" :=
    (extension?_joinWay_iff root (by decide) rfl).mpr (by decide)
  have finds : nearConversion.1.view.Finds root ["output.java"] :=
    (finds_view_iff formed after_root).mpr ⟨by simp, ⟨by simp [unlocked], trivial⟩,
      (directory?_iff.mp after_root).1, _, made, fun near => absurd near far⟩
  simp only [sources, (sourceRoot_farConfig root).1, collected]
  exact (are_sources.mem_iff _).mpr ⟨["output.java"], finds, rfl, extension_eq, by simp⟩

/-- A root from where the page can be looked at and the output directory cannot. -/
private theorem exists_farRoot : ∃ root : Path,
    (∀ files : FileSystem, files.WellFormed → files.directory? root = some files.working) ∧
      root.moves = [] ∧ refusal? (root.join ⟨"A.java"⟩) = none ∧
      refusal? (root.join ⟨"output.java"⟩) ≠ none := by
  obtain ⟨root, size_eq, no_moves, leads⟩ := @exists_path_of_size 4086 (by decide) (by decide)
  have room : 4086 + 1 + "A.java".utf8ByteSize ≤ pathLimit := by decide
  have no_room : pathLimit < 4086 + "output.java".utf8ByteSize := by decide
  refine ⟨root, leads, no_moves, ?_, fun accepted => ?_⟩
  · refine refusal?_join (by decide) (directory?_iff.mp (leads _ wellFormed_nearSuite)).1 (by decide) ?_
    rwa [size_eq]
  · have longer := Path.size_le_join (by decide : isEntryName "output.java" = true) root
    rw [size_eq] at longer
    exact absurd (le_trans longer (refusal?_eq_none.mp accepted).2.2) (not_le.mpr no_room)

/-- A directory that the first run makes is out of reach and named like a source, and the second run
fails to read it. -/
theorem run_again_not_of_far :
    ¬ ∀ (config : Config) (files after : FileSystem) (manifest : Manifest), files.WellFormed →
      run config files = (after, .ok manifest) → files.Grounded config.pagesInput →
      files.Grounded config.pagesOutput → files.Grounded config.testsOutput →
      ∃ again, run config after = (again, .ok manifest) ∧ SameTree after again := by
  intro idempotent
  obtain ⟨root, leads, no_moves, accepted, far⟩ := exists_farRoot
  have suite_root : nearSuite.directory? root = some [] := leads _ wellFormed_nearSuite
  obtain ⟨formed, -, working_eq, -⟩ := nearConversion_evaluated
  have after_root : nearConversion.1.directory? root = some [] := working_eq ▸ leads _ formed
  obtain ⟨product, ran⟩ := run_nearSuite suite_root accepted
  have pages_grounded : nearSuite.Grounded (farConfig root).pagesInput := by
    have input_eq : (farConfig root).pagesInput = root :=
      congrArg Prod.fst (sourceRoot_farConfig root).1
    exact grounded_of_names (by simp [input_eq, no_moves])
  obtain ⟨again, again_eq, -⟩ := idempotent _ _ _ _ wellFormed_nearSuite ran pages_grounded
    (grounded_of_names (by rw [(outputs_farConfig root).1]; decide))
    (grounded_of_names (by rw [(outputs_farConfig root).2]; decide))
  -- The manifest accounts for the page alone, but the second run has another source.
  obtain ⟨middle, pages, tests, recorded⟩ := run_recorded again_eq
  obtain ⟨walks, failed, failed_eq, -, shares⟩ := recorded.accountsFor_page
  obtain rfl : failed = [] := (List.append_eq_nil_iff.mp failed_eq.symm).2
  have member := shares.once.mem_iff.mpr (far_mem_sources far after_root)
  have same : root.join ⟨"output.java"⟩ = root.join ⟨"A.java"⟩ := by
    simpa [convertedInputs] using member
  have names_eq := congrArg Path.fileName? same
  rw [Path.fileName?_join_name (by decide), Path.fileName?_join_name (by decide)] at names_eq
  exact absurd names_eq (by decide)

end Far

end SuiteMigration.Migration
