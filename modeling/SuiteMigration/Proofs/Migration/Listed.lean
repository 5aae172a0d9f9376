import SuiteMigration.Proofs.Migration.Dependence
import SuiteMigration.Proofs.Migration.Entries
import SuiteMigration.Proofs.TestRun.Discovery

/-!
# What a run leaves to be listed and run

The modules that a run has saved are listed by their names, and its scripts are discovered and run,
whatever was in the output directories before. To be listed, a directory needs a path that is not
empty, and names that can be read. Neither is needed to save a module.
-/
namespace SuiteMigration.Migration

open FileSystem Manifest Outline TestRun SuiteMigration.Path

variable {config : Config} {builder : Builder} {files before next after : FileSystem} {entry : Entry}
  {product : Product} {manifest : Manifest}

/-- The name of the public class of an entry's source, or else of its file. -/
def className? (files : FileSystem) (entry : Entry) : Option String :=
  (files.readText entry.input).toOption.bind fun source =>
    (SourceUnit.parse source).toOption.map (·.publicName (entry.input.stem?.getD ""))

section Made

variable (made : Made config builder before next after entry product)
include made

theorem Made.className?_eq : className? after entry = some product.name := by
  obtain ⟨text, unit, read_eq, parsed, name_eq⟩ := made.exists_unit
  have grows := (convert_grows made.formed made.converted).trans made.grows
  have still_read : after.readText entry.input = .ok text :=
    grows.keeps.readText read_eq fun _ => not_isModule_of_locate made.is_source
  rw [className?, still_read, name_eq]
  simp [Except.toOption, parsed]

theorem Made.stem?_eq : entry.output.stem? = some product.name := by
  obtain ⟨nonempty, no_slash⟩ := made.product_name
  rw [made.output_eq, outputPath, stem?, fileName?_join _ (fileName?_fileName no_slash), Option.map_some,
    splitName_append nonempty]

/-- A module is seen as a script in the directory that it was saved to. -/
theorem Made.holdsScript (formed : after.WellFormed)
    (named : outputDirectory config entry.kind ≠ ⟨""⟩)
    (readable : TestRun.Readable after.view (outputDirectory config entry.kind)) :
    after.view.isDirectory (outputDirectory config entry.kind) = true ∧
      HoldsScript after.view (outputDirectory config entry.kind) (product.name ++ ".ts") := by
  obtain ⟨nonempty, no_slash⟩ := made.product_name
  obtain ⟨location, leads, content, is_file⟩ := made.saved
  rw [made.output_eq] at leads
  obtain ⟨folder, is_folder, rfl⟩ := folder_of_locate _ no_slash leads
  rcases is_folder with found | ⟨empty, -⟩
  · refine ⟨view_isDirectory.mpr ⟨folder, found⟩,
      holdsScript_of_node formed found readable is_file (accepted_of_locate leads) ?_⟩
    rw [extension?, fileName?_join _ (fileName?_fileName no_slash), Option.bind_some,
      splitName_append nonempty]
  · exact absurd empty named

end Made

/-- The listed modules of a kind. -/
def listedNames (listing : Listing) : SourceKind → List String
  | .page => listing.pages
  | .test => listing.tests

/-- What is listed of the directories that a run saves to. -/
theorem exists_listing
    (pages_readable : TestRun.Readable after.view config.pagesOutput)
    (tests_readable : TestRun.Readable after.view config.testsOutput) :
    ∃ listing, listConverted after.view config.pagesOutput config.testsOutput = .ok listing ∧
      ∀ kind name, after.view.isDirectory (outputDirectory config kind) = true →
        HoldsScript after.view (outputDirectory config kind) name →
        (splitName name).1 ∈ listedNames listing kind := by
  obtain ⟨pages, pages_eq, pages_listed⟩ := pages_readable.moduleNames after.view_lawful
  obtain ⟨tests, tests_eq, tests_listed⟩ := tests_readable.moduleNames after.view_lawful
  refine ⟨⟨pages, tests⟩, ?_, ?_⟩
  · rw [listConverted, pages_eq, tests_eq]
    rfl
  · intro kind
    cases kind with
    | page => exact pages_listed
    | test => exact tests_listed

private theorem run_locked (formed : files.WellFormed)
    (ran : run config files = (after, .ok manifest)) :
    after.locked = files.locked := by
  obtain ⟨middle, pages, tests, recorded⟩ := run_recorded ran
  obtain ⟨pages_grow, tests_grow⟩ := recorded.grows formed
  exact tests_grow.locked.trans pages_grow.locked

/-- What a run has saved can be listed and run afterwards. Every module is listed by the name of its
class, which is the stem of its output. If there is a test, the scripts are discovered in the order of
their names, and the output of each test is one of them, once. Running all of them gives one outcome for
each, whatever the runner answers. -/
theorem run_listed (formed : files.WellFormed) (ran : run config files = (after, .ok manifest)) :
    (TestRun.Readable after.view config.pagesOutput → TestRun.Readable after.view config.testsOutput →
      ∃ listing, listConverted after.view config.pagesOutput config.testsOutput = .ok listing ∧
        ∀ entry ∈ manifest.entries, outputDirectory config entry.kind ≠ ⟨""⟩ →
          ∃ name ∈ listedNames listing entry.kind, className? after entry = some name ∧
            entry.output.stem? = some name) ∧
    (TestRun.Readable after.view config.testsOutput → config.testsOutput ≠ ⟨""⟩ →
      (∃ entry ∈ manifest.entries, entry.kind = .test) →
      ∃ scripts, RunsAll after.view config.testsOutput scripts ∧
        ∀ entry ∈ manifest.entries, entry.kind = .test → scripts.count entry.output = 1) := by
  obtain ⟨middle, pages, tests, recorded⟩ := run_recorded ran
  obtain ⟨pages_grow, tests_grow⟩ := recorded.grows formed
  have after_formed := (pages_grow.trans tests_grow).wellFormed formed
  constructor
  · intro pages_readable tests_readable
    obtain ⟨listing, listing_eq, listed⟩ := exists_listing pages_readable tests_readable
    refine ⟨listing, listing_eq, fun entry member named => ?_⟩
    obtain ⟨builder, before, next, product, made⟩ := recorded.made formed member
    have readable : TestRun.Readable after.view (outputDirectory config entry.kind) := by
      cases entry.kind with
      | page => exact pages_readable
      | test => exact tests_readable
    obtain ⟨is_directory, holds⟩ := made.holdsScript after_formed named readable
    have in_listing := listed _ _ is_directory holds
    rw [splitName_append made.product_name.1] at in_listing
    exact ⟨product.name, in_listing, made.className?_eq, made.stem?_eq⟩
  · rintro readable named ⟨test, test_mem, is_test⟩
    -- The script of every test is in the output directory when the run is over.
    have saved : ∀ entry ∈ manifest.entries, entry.kind = .test →
        ∃ product, after.view.isDirectory config.testsOutput = true ∧
          HoldsScript after.view config.testsOutput (product.name ++ ".ts") ∧
          entry.output = outputPath config.testsOutput product := by
      intro entry member is_test
      obtain ⟨builder, before, next, product, made⟩ := recorded.made formed member
      have directory_eq : outputDirectory config entry.kind = config.testsOutput := by rw [is_test]; rfl
      obtain ⟨is_directory, holds⟩ :=
        made.holdsScript after_formed (directory_eq ▸ named) (directory_eq ▸ readable)
      exact ⟨product, directory_eq ▸ is_directory, directory_eq ▸ holds, directory_eq ▸ made.output_eq⟩
    obtain ⟨first, is_directory, first_holds, -⟩ := saved test test_mem is_test
    obtain ⟨scripts, runs_all, complete⟩ := first_holds.runsAll after.view_lawful is_directory readable
    refine ⟨scripts, runs_all, fun entry member is_test => ?_⟩
    obtain ⟨product, -, holds, output_eq⟩ := saved entry member is_test
    -- It is discovered, and once, since names are discovered in strictly ascending order.
    rw [output_eq]
    exact List.count_eq_one_of_mem runs_all.nodup (complete _ holds)

theorem run_listed_madeSuite :
    let after := (run .default madeSuite).1
    let pages := Config.default.pagesOutput
    let tests := Config.default.testsOutput
    (∃ listing, listConverted after.view pages tests = .ok listing ∧
      ∀ entry ∈ [homeEntry, homeTestEntry], outputDirectory .default entry.kind ≠ ⟨""⟩ →
        ∃ name ∈ listedNames listing entry.kind, className? after entry = some name ∧
          entry.output.stem? = some name) ∧
    ∃ scripts, RunsAll after.view tests scripts ∧
      ∀ entry ∈ [homeEntry, homeTestEntry], entry.kind = .test → scripts.count entry.output = 1 := by
  intro after pages tests
  have formed : madeSuite.WellFormed := by decide +kernel
  have unlocked : after.locked = [] := run_locked formed run_madeSuite
  have readable : ∀ directory, TestRun.Readable after.view directory := readable_of_unlocked unlocked
  have settled := run_listed formed run_madeSuite
  exact ⟨settled.1 (readable pages) (readable tests),
    settled.2 (readable tests) (by decide) ⟨homeTestEntry, by decide, rfl⟩⟩

/-- Modules are saved into the working directory. -/
def flatConfig : Config :=
  { Config.default with
    layout := { Config.Layout.default with
      outputRoot := ⟨""⟩
      pagesOutput := ⟨""⟩
      testsOutput := ⟨""⟩ } }

/-- A page without a test. -/
def pageSuite : FileSystem :=
  madeSuite.erase ["src", "test"]

private theorem run_pageSuite :
    run .default pageSuite = ((run .default pageSuite).1, .ok ⟨[homeEntry], [], []⟩) :=
  run_eq_of_snd (by decide +kernel)

/-- Modules that are saved by an empty path are not listed, a directory that cannot be read is an error
for the listing of all, and without a test there may be nothing to discover. -/
theorem run_not_listed :
    (¬ ∀ (config : Config) (files after : FileSystem) (manifest : Manifest) (listing : Listing),
      files.WellFormed → run config files = (after, .ok manifest) →
      listConverted after.view config.pagesOutput config.testsOutput = .ok listing →
      ∀ entry ∈ manifest.entries, ∀ name, entry.output.stem? = some name →
        name ∈ listedNames listing entry.kind) ∧
    (¬ ∀ (config : Config) (files after : FileSystem) (manifest : Manifest),
      files.WellFormed → run config files = (after, .ok manifest) →
      ∃ listing, listConverted after.view config.pagesOutput config.testsOutput = .ok listing) ∧
    ¬ ∀ (config : Config) (files after : FileSystem) (manifest : Manifest),
      files.WellFormed → run config files = (after, .ok manifest) →
      ∃ scripts, discover after.view config.testsOutput = .ok scripts := by
  have formed : pageSuite.WellFormed := by decide +kernel
  refine ⟨fun lists => ?_, fun can_list => ?_, fun discovers => ?_⟩
  · -- An empty output path saves the module in the working directory.
    let flat : Entry := { homeEntry with output := ⟨"Home.ts"⟩ }
    have ran : run flatConfig pageSuite = ((run flatConfig pageSuite).1, .ok ⟨[flat], [], []⟩) :=
      run_eq_of_snd (by decide +kernel)
    have listed : listConverted (run flatConfig pageSuite).1.view flatConfig.pagesOutput
        flatConfig.testsOutput = .ok ⟨[], []⟩ := by decide +kernel
    cases lists _ _ _ _ _ formed ran listed flat List.mem_cons_self "Home" (by decide +kernel)
  · -- The directory of the pages was locked before and takes new files all the same.
    let suite : FileSystem := { pageSuite with locked := [["converted", "pages"]] }
    have ran : run .default suite = ((run .default suite).1, .ok ⟨[homeEntry], [], []⟩) :=
      run_eq_of_snd (by decide +kernel)
    obtain ⟨listing, listed⟩ := can_list _ _ _ _ (by decide +kernel) ran
    have refused : listConverted (run .default suite).1.view Config.default.pagesOutput
        Config.default.testsOutput = .error (.access (.read ⟨"converted/pages"⟩ .denied)) := by
      decide +kernel
    cases listed.symm.trans refused
  · -- Without a test the directory of the tests is never made.
    obtain ⟨scripts, discovered⟩ := discovers _ _ _ _ formed run_pageSuite
    have absent : discover (run .default pageSuite).1.view Config.default.testsOutput
        = .error (.access (.noDirectory ⟨"converted/tests"⟩)) := by decide +kernel
    cases discovered.symm.trans absent

end SuiteMigration.Migration
