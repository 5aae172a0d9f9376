import Mathlib.Data.List.Basic
import SuiteMigration.Migration.Run
import SuiteMigration.Proofs.FileSystem.Keeping
import SuiteMigration.Proofs.Migration.Collecting

/-!
# Modules on disk

What a run records is on disk when it ends: the output of every entry holds the module built from
the source of the last entry with that output. Modules and sources differ in their extension, so a
run never writes over a source.
-/
namespace SuiteMigration.Migration

open FileSystem Manifest

/-- The text of the module that a source is built into; a test can import the given pages. -/
def moduleText? (config : Config) (pages : List String) (kind : SourceKind)
    (fallback source : String) : Option String :=
  match kind with
  | .page => (Page.Module.ofSource source fallback).toOption.map Page.Module.render
  | .test => (Test.Script.ofSource? source fallback config.testsOutput (catalog config pages)
      config.settings).toOption.join.map Test.Script.render

/-- The module of an entry's source as the tree has it. -/
def rendering? (config : Config) (pages : List String) (files : FileSystem) (entry : Entry) :
    Option String :=
  (files.readText entry.input).toOption.bind
    (moduleText? config pages entry.kind (entry.input.stem?.getD ""))

def pageName? (files : FileSystem) (entry : Entry) : Option String :=
  (files.readText entry.input).toOption.bind fun source =>
    (Page.Module.ofSource source (entry.input.stem?.getD "")).toOption.map Page.Module.className

/-- The class names of the pages that a manifest records. -/
def convertedPages (files : FileSystem) (manifest : Manifest) : List String :=
  (manifest.entries.filter (·.kind = .page)).filterMap (pageName? files)

/-- Does a location end in the extension of a module? -/
def IsModule (location : Location) : Prop :=
  ∃ name, location.getLast? = some name ∧ ".ts".toList <:+ name.toList

section Extension

variable {files : FileSystem} {location : Location} {path : Path}

theorem isModule_of_locate {directory : Path} {product : Product}
    (found : files.locate (outputPath directory product) = .ok location) : IsModule location := by
  obtain ⟨name, named, ending⟩ :=
    Path.fileName?_append product.name ".ts" (by decide) (by decide)
  exact ⟨name, getLast?_of_locate found (Path.fileName?_join directory named), ending⟩

theorem splitName_of_ending {name : String} (ending : ".ts".toList <:+ name.toList) :
    (Path.splitName name).2 ≠ some "java" := by
  obtain ⟨front, name_eq⟩ := ending
  have reversed_eq : name.toList.reverse = 's' :: 't' :: '.' :: front.reverse := by
    rw [← name_eq]
    simp
  unfold Path.splitName
  rw [reversed_eq]
  cases front.reverse <;> simp

theorem not_isModule_of_locate (is_source : path.extension? = some "java")
    (found : files.locate path = .ok location) : ¬IsModule location := by
  rintro ⟨name, last_eq, ending⟩
  unfold Path.extension? at is_source
  obtain ⟨other, named, extension_eq⟩ := Option.bind_eq_some_iff.mp is_source
  rw [getLast?_of_locate found named] at last_eq
  obtain rfl := Option.some.inj last_eq
  exact splitName_of_ending ending extension_eq

theorem extension?_of_mem_sources {config : Config} {kind : SourceKind}
    (member : path ∈ sources config files kind) : path.extension? = some "java" := by
  simp only [sources] at member
  split at member
  · next collected =>
    obtain ⟨way, -, -, extension_eq, -⟩ := ((areSources_of_ok files.view_lawful collected).mem_iff _).mp
      member
    exact extension_eq
  · cases member

end Extension

theorem build_eq_ok {builder : Builder} {files : FileSystem} {source : Path} {product : Product} :
    build builder files source = .ok (some product) ↔
      ∃ text, files.readText source = .ok text ∧
        builder (source.stem?.getD "") text = .ok (some product) := by
  unfold build load
  cases files.readText source with
  | error fault => simp [Except.mapError]
  | ok text =>
    cases built_eq : builder (source.stem?.getD "") text <;> simp [Except.mapError, built_eq]

/-- What one conversion does to a tree: it saves a module, or changes no file. -/
theorem convert_cases {builder : Builder} {directory source : Path} {files after : FileSystem}
    {result : Except Failure (Option Product)}
    (convert_eq : convert builder directory files source = (after, result)) :
    (∃ product location, result = .ok (some product) ∧
      build builder files source = .ok (some product) ∧
      after.locate (outputPath directory product) = .ok location ∧
      endsInSlash (outputPath directory product) = false ∧
      Keeps (· = location) files after ∧
      after.node? location = some (.file (.text product.text))) ∨
    ((∀ product, result ≠ .ok (some product)) ∧ Keeps (fun _ => False) files after) := by
  unfold convert at convert_eq
  split at convert_eq
  · obtain ⟨rfl, rfl⟩ := Prod.mk.inj convert_eq
    exact .inr ⟨nofun, .refl files⟩
  · obtain ⟨rfl, rfl⟩ := Prod.mk.inj convert_eq
    exact .inr ⟨nofun, .refl files⟩
  · next product build_eq =>
    split at convert_eq
    · next save_eq =>
      obtain ⟨rfl, rfl⟩ := Prod.mk.inj convert_eq
      exact .inr ⟨nofun, save_error save_eq⟩
    · next save_eq =>
      obtain ⟨rfl, rfl⟩ := Prod.mk.inj convert_eq
      obtain ⟨location, found, no_slash, kept, stored⟩ := save_ok save_eq
      exact .inl ⟨product, location, rfl, build_eq, found, no_slash, kept, stored⟩

section Entry

variable {config : Config} {pages : List String} {start files later : FileSystem} {entry : Entry}
  {text : String} {written : Location → Prop}

/-- The entry's module is made of a source that was there when the run began. -/
structure Sourced (config : Config) (pages : List String) (start files : FileSystem) (entry : Entry)
    (text : String) : Prop where
  source : ∃ location, files.locate entry.input = .ok location ∧
    files.node? location = start.node? location ∧ ¬IsModule location
  rendered : rendering? config pages files entry = some text

/-- The entry's output leads to a place for modules. -/
structure Placed (files : FileSystem) (entry : Entry) : Prop where
  output : ∃ location, files.locate entry.output = .ok location ∧ IsModule location
  no_slash : endsInSlash entry.output = false

theorem readText_of_rendering (rendered : rendering? config pages files entry = some text) :
    ∃ source, files.readText entry.input = .ok source := by
  unfold rendering? at rendered
  cases read_eq : files.readText entry.input with
  | error fault =>
    rw [read_eq] at rendered
    cases rendered
  | ok source => exact ⟨source, rfl⟩

/-- Writing modules changes no source. -/
theorem Sourced.readText_eq (sourced : Sourced config pages start files entry text)
    (keeps : Keeps written files later)
    (modules : ∀ location, written location → IsModule location) :
    later.readText entry.input = files.readText entry.input := by
  obtain ⟨source, read_eq⟩ := readText_of_rendering sourced.rendered
  obtain ⟨location, found, -, not_module⟩ := sourced.source
  rw [read_eq]
  refine keeps.readText read_eq fun other other_eq is_written => not_module ?_
  obtain rfl := Except.ok.inj (found.symm.trans other_eq)
  exact modules _ is_written

theorem Sourced.keep (sourced : Sourced config pages start files entry text)
    (keeps : Keeps written files later)
    (modules : ∀ location, written location → IsModule location) :
    Sourced config pages start later entry text := by
  have same_text := sourced.readText_eq keeps modules
  obtain ⟨location, found, unchanged, not_module⟩ := sourced.source
  refine ⟨⟨location, keeps.locate found, ?_, not_module⟩, ?_⟩
  · -- The source is still the file it was.
    obtain ⟨source, read_eq⟩ := readText_of_rendering sourced.rendered
    obtain ⟨other, other_eq, is_file, -⟩ := readText_eq_ok.mp read_eq
    obtain rfl := Except.ok.inj (found.symm.trans other_eq)
    rw [← unchanged, is_file]
    exact (keeps.file (mt (modules _) not_module)).mpr is_file
  · unfold rendering?
    rw [same_text]
    exact sourced.rendered

theorem Placed.keep (placed : Placed files entry) (keeps : Keeps written files later) :
    Placed later entry := by
  obtain ⟨location, found, is_module⟩ := placed.output
  exact ⟨⟨location, keeps.locate found, is_module⟩, placed.no_slash⟩

end Entry

section Faithful

variable {config : Config} {pages : List String} {initial files after : FileSystem}
  {entries : List Entry} {written : Location → Prop}

/-- Every output holds its module, unless a later entry has the same output. -/
structure Faithful (config : Config) (pages : List String) (initial files : FileSystem)
    (entries : List Entry) : Prop where
  kept : Keeps IsModule initial files
  outputs : ∀ {front entry back}, entries = front ++ entry :: back →
    ∃ text, Sourced config pages initial files entry text ∧ Placed files entry ∧
      (files.readText entry.output = .ok text ∨
        ∃ later ∈ back, files.locate later.output = files.locate entry.output)

theorem Faithful.sourced (faithful : Faithful config pages initial files entries) {entry : Entry}
    (member : entry ∈ entries) : ∃ text, Sourced config pages initial files entry text := by
  obtain ⟨front, back, entries_eq⟩ := List.mem_iff_append.mp member
  obtain ⟨text, sourced, -⟩ := faithful.outputs entries_eq
  exact ⟨text, sourced⟩

theorem Faithful.nil (files : FileSystem) : Faithful config pages files files [] :=
  ⟨.refl files, fun entries_eq => by simp at entries_eq⟩

/-- Where one entry is kept, those with its output go on having it. -/
theorem locate_later {later entry : Entry} (keeps : Keeps written files after)
    (placed : Placed files entry) (same : files.locate later.output = files.locate entry.output) :
    after.locate later.output = after.locate entry.output := by
  obtain ⟨place, place_eq, -⟩ := placed.output
  rw [keeps.locate place_eq, keeps.locate (same.trans place_eq)]

theorem Faithful.keep (faithful : Faithful config pages initial files entries)
    (keeps : Keeps (fun _ => False) files after) : Faithful config pages initial after entries where
  kept := faithful.kept.trans (keeps.mono fun _ => False.elim)
  outputs {front entry back} entries_eq := by
    obtain ⟨text, sourced, placed, holds⟩ := faithful.outputs entries_eq
    refine ⟨text, sourced.keep keeps fun _ => False.elim, placed.keep keeps, ?_⟩
    rcases holds with read_eq | ⟨later, later_mem, same⟩
    · exact .inl (keeps.readText read_eq fun _ _ => id)
    · exact .inr ⟨later, later_mem, locate_later keeps placed same⟩

/-- A module is built, saved and recorded. The entries before it that have its output are
overwritten, and the others keep theirs. -/
theorem Faithful.record (faithful : Faithful config pages initial files entries) {entry : Entry}
    {text : String} {location : Location} (is_source : entry.input.extension? = some "java")
    (rendered : rendering? config pages files entry = some text)
    (found : after.locate entry.output = .ok location) (is_module : IsModule location)
    (no_slash : endsInSlash entry.output = false) (keeps : Keeps (· = location) files after)
    (stored : after.node? location = some (.file (.text text))) :
    Faithful config pages initial after (entries ++ [entry]) where
  kept := faithful.kept.trans (keeps.mono fun _ is_here => is_here ▸ is_module)
  outputs {front earlier back} entries_eq := by
    have modules : ∀ other, other = location → IsModule other :=
      fun _ is_here => is_here ▸ is_module
    rcases List.eq_nil_or_concat back with rfl | ⟨back, last, rfl⟩
    · -- The entry is the new one.
      obtain ⟨rfl, last_eq⟩ := List.append_inj' entries_eq rfl
      obtain rfl := (List.cons.inj last_eq).1
      obtain ⟨source, read_eq⟩ := readText_of_rendering rendered
      obtain ⟨place, place_eq, is_file, -⟩ := readText_eq_ok.mp read_eq
      have not_module := not_isModule_of_locate is_source place_eq
      have unchanged : files.node? place = initial.node? place := by
        rw [is_file, (faithful.kept.file not_module).mp is_file]
      have sourced : Sourced config pages initial files entry text :=
        ⟨⟨place, place_eq, unchanged, not_module⟩, rendered⟩
      exact ⟨text, sourced.keep keeps modules, ⟨⟨location, found, is_module⟩, no_slash⟩,
        .inl (readText_eq_ok.mpr ⟨location, found, stored, no_slash⟩)⟩
    · -- An earlier entry keeps its text, unless the new module is where its module was.
      have split_eq : entries ++ [entry] = (front ++ earlier :: back) ++ [last] := by
        simpa using entries_eq
      obtain ⟨front_eq, last_eq⟩ := List.append_inj' split_eq rfl
      obtain rfl := (List.cons.inj last_eq).1
      obtain ⟨other, sourced, placed, holds⟩ := faithful.outputs front_eq
      refine ⟨other, sourced.keep keeps modules, placed.keep keeps, ?_⟩
      rcases holds with read_eq | ⟨later, later_mem, same⟩
      · obtain ⟨place, place_eq, -⟩ := placed.output
        by_cases here : place = location
        · exact .inr ⟨entry, by simp, by rw [found, keeps.locate place_eq, here]⟩
        · refine .inl (keeps.readText read_eq fun other other_eq => ?_)
          obtain rfl := Except.ok.inj (place_eq.symm.trans other_eq)
          exact here
      · exact .inr ⟨later, by simp [later_mem], locate_later keeps placed same⟩

end Faithful

end SuiteMigration.Migration
