import Mathlib.Data.List.Basic
import SuiteMigration.Proofs.Migration.Outputs

/-!
# The last write

A run goes through its sources one after another, and what it has recorded stays `Faithful` at each
of them. Two sources of one class name have the same output, so the module of the last one is on
disk.
-/
namespace SuiteMigration.Migration

open FileSystem Manifest Outline

variable {config : Config} {pages names : List String} {kind : SourceKind} {builder : Builder}
  {directory source : Path} {initial files after : FileSystem} {manifest : Manifest} {entry : Entry}
  {product : Product} {progress next : Progress} {text : String}

/-- A source is built into the same module after other modules are written. -/
theorem build_keep {written : Location → Prop} (is_source : source.extension? = some "java")
    (built : build builder files source = .ok (some product)) (keeps : Keeps written files after)
    (modules : ∀ location, written location → IsModule location) :
    build builder after source = .ok (some product) := by
  obtain ⟨text, read_eq, built⟩ := build_eq_ok.mp built
  refine build_eq_ok.mpr ⟨text, keeps.readText read_eq fun location found is_written => ?_, built⟩
  exact not_isModule_of_locate is_source found (modules location is_written)

/-- The builder of a kind makes the modules of that kind, and a page has its class name. -/
structure Builds (config : Config) (pages : List String) (kind : SourceKind) (builder : Builder) :
    Prop where
  text : ∀ {fallback source product}, builder fallback source = .ok (some product) →
    moduleText? config pages kind fallback source = some product.text
  name : ∀ {fallback source product}, kind = .page → builder fallback source = .ok (some product) →
    (Page.Module.ofSource source fallback).toOption.map Page.Module.className = some product.name

private theorem builds_page (config : Config) (pages : List String) :
    Builds config pages .page pageBuilder where
  text {fallback source product} built := by
    obtain ⟨module, module_eq, built⟩ := bind_eq_ok.mp built
    obtain rfl := Option.some.inj (Except.ok.inj built)
    simp [moduleText?, module_eq, Except.toOption]
  name {fallback source product} _ built := by
    obtain ⟨module, module_eq, built⟩ := bind_eq_ok.mp built
    obtain rfl := Option.some.inj (Except.ok.inj built)
    simp [module_eq, Except.toOption]

private theorem builds_test (config : Config) (pages : List String) :
    Builds config pages .test
      (testBuilder config.testsOutput (catalog config pages) config.settings) where
  text {fallback source product} built := by
    obtain ⟨script?, script_eq, built⟩ := bind_eq_ok.mp built
    obtain ⟨script, rfl, rfl⟩ := Option.map_eq_some_iff.mp (Except.ok.inj built)
    simp [moduleText?, script_eq, Except.toOption]
  name := nofun

section Built

variable (builds : Builds config pages entry.kind builder)
  (built : build builder files entry.input = .ok (some product))
include builds built

theorem Builds.rendering_eq : rendering? config pages files entry = some product.text := by
  obtain ⟨text, read_eq, built⟩ := build_eq_ok.mp built
  simp [rendering?, read_eq, Except.toOption, builds.text built]

theorem Builds.pageName_eq (is_page : entry.kind = .page) :
    pageName? files entry = some product.name := by
  obtain ⟨text, read_eq, built⟩ := build_eq_ok.mp built
  simpa [pageName?, read_eq, Except.toOption] using builds.name is_page built

end Built

/-- A conversion that saves the module of an entry and records the entry. -/
structure Records (builder : Builder) (progress next : Progress) (entry : Entry)
    (product : Product) (location : Location) : Prop where
  built : build builder progress.files entry.input = .ok (some product)
  entries : next.manifest.entries = progress.manifest.entries ++ [entry]
  names : next.names = progress.names ++ [product.name]
  found : next.files.locate entry.output = .ok location
  is_module : IsModule location
  no_slash : endsInSlash entry.output = false
  keeps : Keeps (· = location) progress.files next.files
  stored : next.files.node? location = some (.file (.text product.text))

/-- One conversion records the entry of its source, or changes no file and records no entry. -/
theorem convertNext_cases
    (step_eq : convertNext kind builder directory progress source = .ok next) :
    (∃ entry product location, entry.kind = kind ∧ entry.input = source ∧
      Records builder progress next entry product location) ∨
    (next.manifest.entries = progress.manifest.entries ∧ next.names = progress.names ∧
      Keeps (fun _ => False) progress.files next.files) := by
  unfold convertNext at step_eq
  split at step_eq
  · next convert_eq =>
    obtain rfl := Except.ok.inj step_eq
    obtain ⟨product, location, result_eq, built, found, no_slash, keeps, stored⟩ | ⟨none, -⟩ :=
      convert_cases convert_eq
    · obtain rfl := Option.some.inj (Except.ok.inj result_eq)
      exact .inl ⟨_, _, location, rfl, rfl,
        ⟨built, rfl, rfl, found, isModule_of_locate found, no_slash, keeps, stored⟩⟩
    · exact absurd rfl (none _)
  · next convert_eq =>
    obtain rfl := Except.ok.inj step_eq
    obtain ⟨_, _, result_eq, -⟩ | ⟨-, keeps⟩ := convert_cases convert_eq
    · cases result_eq
    · exact .inr ⟨rfl, rfl, keeps⟩
  · next convert_eq =>
    obtain rfl := Except.ok.inj step_eq
    obtain ⟨_, _, result_eq, -⟩ | ⟨-, keeps⟩ := convert_cases convert_eq
    · cases result_eq
    · exact .inr ⟨rfl, rfl, keeps⟩
  · cases step_eq

/-- What a run keeps: its entries are faithful, and the names are those of the pages recorded, as
far as pages are converted. -/
structure Kept (config : Config) (pages : List String) (initial : FileSystem) (kind : SourceKind)
    (before : List String) (progress : Progress) : Prop where
  faithful : Faithful config pages initial progress.files progress.manifest.entries
  names : convertedPages progress.files progress.manifest
    = if kind = .page then progress.names else before

/-- A change that keeps the sources keeps the names of the pages. -/
theorem Faithful.convertedPages_eq {written : Location → Prop} {later : Manifest}
    {added : List Entry} (faithful : Faithful config pages initial files manifest.entries)
    (keeps : Keeps written files after) (modules : ∀ location, written location → IsModule location)
    (entries_eq : later.entries = manifest.entries ++ added) :
    convertedPages after later = convertedPages files manifest
      ++ (added.filter (·.kind = .page)).filterMap (pageName? after) := by
  unfold convertedPages
  rw [entries_eq, List.filter_append, List.filterMap_append]
  congr 1
  refine List.filterMap_congr fun entry member => ?_
  obtain ⟨text, sourced⟩ := faithful.sourced (List.mem_of_mem_filter member)
  simp only [pageName?, sourced.readText_eq keeps modules]

private theorem convertNext_kept (builds : Builds config pages kind builder)
    (is_source : source.extension? = some "java")
    (kept : Kept config pages initial kind names progress)
    (step_eq : convertNext kind builder directory progress source = .ok next) :
    Kept config pages initial kind names next := by
  obtain ⟨entry, product, location, rfl, rfl, records⟩ | ⟨entries_eq, names_eq, keeps⟩ :=
    convertNext_cases step_eq
  · have modules : ∀ other, other = location → IsModule other :=
      fun _ is_here => is_here ▸ records.is_module
    constructor
    · rw [records.entries]
      exact kept.faithful.record is_source (builds.rendering_eq records.built) records.found
        records.is_module records.no_slash records.keeps records.stored
    · rw [kept.faithful.convertedPages_eq records.keeps modules records.entries, kept.names,
        records.names]
      by_cases is_page : entry.kind = .page
      · have still_built := build_keep is_source records.built records.keeps modules
        simp [is_page, builds.pageName_eq still_built is_page]
      · simp [is_page]
  · have same_entries : next.manifest.entries = progress.manifest.entries ++ [] := by
      rw [entries_eq, List.append_nil]
    constructor
    · rw [entries_eq]
      exact kept.faithful.keep keeps
    · rw [kept.faithful.convertedPages_eq keeps (fun _ => False.elim) same_entries, kept.names,
        names_eq]
      simp

private theorem foldlM_kept (builds : Builds config pages kind builder) {paths : List Path}
    (are_sources : ∀ path ∈ paths, path.extension? = some "java")
    (kept : Kept config pages initial kind names progress)
    (fold_eq : paths.foldlM (convertNext kind builder directory) progress = .ok next) :
    Kept config pages initial kind names next := by
  induction paths generalizing progress with
  | nil =>
    obtain rfl := Except.ok.inj fold_eq
    exact kept
  | cons path paths ih =>
    rw [List.foldlM_cons] at fold_eq
    obtain ⟨middle, step_eq, fold_eq⟩ := bind_eq_ok.mp fold_eq
    have is_source := are_sources path List.mem_cons_self
    exact ih (fun other member => are_sources other (List.mem_cons_of_mem _ member))
      (convertNext_kept builds is_source kept step_eq) fold_eq

private theorem convertKind_kept (builds : Builds config pages kind builder)
    (kept : Kept config pages initial kind names progress)
    (convert_eq : convertKind config kind builder directory progress = .ok next) :
    Kept config pages initial kind names next := by
  -- The record of a failed walk is no entry.
  have walked : Kept config pages initial kind names
      (progress.recordWalk (walkFailure? config progress.files kind)) :=
    ⟨by simpa using kept.faithful, by simpa [convertedPages] using kept.names⟩
  exact foldlM_kept builds (fun _ => extension?_of_mem_sources) walked convert_eq

/-- After a run every entry is faithful, where tests know the pages that the run recorded. -/
theorem run_faithful (ran : run config files = (after, .ok manifest)) :
    Faithful config (convertedPages after manifest) files after manifest.entries := by
  unfold run at ran
  split at ran
  · next progress convert_eq =>
    obtain ⟨rfl, manifest_eq⟩ := Prod.mk.inj ran
    obtain rfl := Except.ok.inj manifest_eq
    obtain ⟨middle, pages_eq, tests_eq⟩ := bind_eq_ok.mp convert_eq
    -- The pages do not depend on what tests can import, so the names may be those of the pages.
    have start : Kept config middle.names files .page [] ⟨files, .empty, []⟩ := ⟨.nil files, rfl⟩
    have pages_kept := convertKind_kept (builds_page config middle.names) start pages_eq
    have before_tests : Kept config middle.names files .test middle.names middle :=
      ⟨pages_kept.faithful, by simpa using pages_kept.names⟩
    have tests_kept := convertKind_kept (builds_test config middle.names) before_tests tests_eq
    have names_eq : convertedPages progress.files progress.manifest = middle.names := by
      simpa using tests_kept.names
    rw [names_eq]
    exact tests_kept.faithful
  · cases (Prod.mk.inj ran).2

/-- The last entry that has the output of an entry. -/
def LastWrite (files : FileSystem) (manifest : Manifest) (entry last : Entry) : Prop :=
  ∃ front back, manifest.entries = front ++ last :: back ∧
    files.locate last.output = files.locate entry.output ∧
    ∀ later ∈ back, files.locate later.output ≠ files.locate entry.output

private theorem exists_lastWrite (files : FileSystem) (member : entry ∈ manifest.entries) :
    ∃ last, LastWrite files manifest entry last := by
  let same (other : Entry) : Bool := files.locate other.output = files.locate entry.output
  have some_same : (manifest.entries.reverse.find? same).isSome := by
    rw [List.find?_isSome]
    exact ⟨entry, List.mem_reverse.mpr member, by simp [same]⟩
  obtain ⟨last, find_eq⟩ := Option.isSome_iff_exists.mp some_same
  obtain ⟨is_same, later, earlier, reverse_eq, not_same⟩ := List.find?_eq_some_iff_append.mp find_eq
  refine ⟨last, earlier.reverse, later.reverse, ?_, by simpa [same] using is_same, ?_⟩
  · rw [← List.reverse_reverse manifest.entries, reverse_eq]
    simp
  · intro other other_mem
    simpa [same] using not_same other (List.mem_reverse.mp other_mem)

/-- The output of every entry of a run holds the module built from the source of the last entry with
this output. The sources are as they were before the run. -/
theorem run_outputs (ran : run config files = (after, .ok manifest))
    (member : entry ∈ manifest.entries) :
    ∃ last text, LastWrite after manifest entry last ∧
      (∃ location, after.locate last.input = .ok location ∧
        after.node? location = files.node? location) ∧
      rendering? config (convertedPages after manifest) after last = some text ∧
      after.readText entry.output = .ok text := by
  have faithful := run_faithful ran
  obtain ⟨last, lastWrite⟩ := exists_lastWrite after member
  obtain ⟨front, back, entries_eq, same, none_later⟩ := lastWrite
  obtain ⟨text, sourced, -, holds⟩ := faithful.outputs entries_eq
  obtain ⟨location, found, unchanged, -⟩ := sourced.source
  refine ⟨last, text, ⟨front, back, entries_eq, same, none_later⟩, ⟨location, found, unchanged⟩,
    sourced.rendered, ?_⟩
  rcases holds with read_eq | ⟨later, later_mem, later_same⟩
  · obtain ⟨before, behind, entry_eq⟩ := List.mem_iff_append.mp member
    obtain ⟨-, -, placed, -⟩ := faithful.outputs entry_eq
    obtain ⟨place, place_eq, is_file, -⟩ := readText_eq_ok.mp read_eq
    exact readText_eq_ok.mpr ⟨place, same.symm.trans place_eq, is_file, placed.no_slash⟩
  · exact absurd (later_same.trans same) (none_later later later_mem)

/-- Two pages of one class name in two packages. -/
def twinPages : FileSystem where
  nodes :=
    let java := ["src", "main", "java"]
    [["src"], ["src", "main"], java, java ++ ["a"], java ++ ["a", "pages"], java ++ ["b"],
      java ++ ["b", "pages"]].map (·, .directory)
    ++ [(java ++ ["a", "pages", "P.java"], .file (.text "class P \x7b void f() \x7b \x7d \x7d")),
      (java ++ ["b", "pages", "P.java"], .file (.text "class P \x7b void g() \x7b \x7d \x7d"))]
  working := []

def twinEntry (directory method : String) : Entry where
  kind := .page
  input := ⟨"./src/main/java/" ++ directory ++ "/pages/P.java"⟩
  output := ⟨"converted/pages/P.ts"⟩
  warnings := [method ++ ": no statements could be converted"]

def twinManifest : Manifest :=
  ⟨[twinEntry "a" "f", twinEntry "b" "g"], [], []⟩

private theorem sources_twinPages : sources .default twinPages .page
    = [(twinEntry "a" "f").input, (twinEntry "b" "g").input] := by
  let pages := [(twinEntry "a" "f").input, (twinEntry "b" "g").input]
  have walked : twinPages.view.walk (pathLimit + 1) Config.default.pagesInput = .ok pages := by
    decide +kernel
  have collected : collectSources twinPages.view Config.default.pagesInput
      Config.default.layout.pageFilter = .ok pages :=
    collectSources_of_walk (by decide +kernel) walked (by decide +kernel) (by decide +kernel)
  simp only [sources, sourceRoot, collected, pages]

theorem run_twinPages :
    run .default twinPages = ((run .default twinPages).1, .ok twinManifest) := by
  refine Prod.ext rfl ?_
  unfold run convertAll convertKind
  rw [sources_twinPages]
  decide +kernel

theorem run_outputs_twinPages :
    ∃ last text, LastWrite (run .default twinPages).1 twinManifest (twinEntry "a" "f") last ∧
      (∃ location, (run .default twinPages).1.locate last.input = .ok location ∧
        (run .default twinPages).1.node? location = twinPages.node? location) ∧
      rendering? .default (convertedPages (run .default twinPages).1 twinManifest)
        (run .default twinPages).1 last = some text ∧
      (run .default twinPages).1.readText (twinEntry "a" "f").output = .ok text :=
  run_outputs run_twinPages List.mem_cons_self

/-- The module of a source is lost when a later source has its class name. -/
theorem run_outputs_not_of_own_source :
    ¬ ∀ (config : Config) (files after : FileSystem) (manifest : Manifest),
      run config files = (after, .ok manifest) → ∀ entry ∈ manifest.entries,
      ∃ text, rendering? config (convertedPages after manifest) after entry = some text ∧
        after.readText entry.output = .ok text := by
  intro own
  -- Both entries have one output, so their modules would be the same.
  obtain ⟨first, first_eq, first_read⟩ :=
    own _ _ _ _ run_twinPages (twinEntry "a" "f") List.mem_cons_self
  obtain ⟨second, second_eq, second_read⟩ :=
    own _ _ _ _ run_twinPages (twinEntry "b" "g") (List.mem_cons_of_mem _ List.mem_cons_self)
  obtain rfl : first = second := Except.ok.inj (first_read.symm.trans second_read)
  have different : rendering? .default (convertedPages (run .default twinPages).1 twinManifest)
        (run .default twinPages).1 (twinEntry "a" "f")
      ≠ rendering? .default (convertedPages (run .default twinPages).1 twinManifest)
        (run .default twinPages).1 (twinEntry "b" "g") := by
    unfold run convertAll convertKind
    rw [sources_twinPages]
    decide +kernel
  exact different (first_eq.trans second_eq.symm)

end SuiteMigration.Migration
