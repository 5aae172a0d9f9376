import SuiteMigration.Migration.Conversion
import SuiteMigration.Migration.Source

/-!
# Conversion runs

A run converts every page and then every test, so that the tests know the pages of the same run. A
file that cannot be read or written and a walk that cannot be finished are failures in the manifest
and the run goes on; a source whose outline cannot be told ends the run without a manifest.
-/
namespace SuiteMigration.Migration

open FileSystem Outline

/-- What a run has done so far. -/
structure Progress where
  files : FileSystem
  manifest : Manifest
  /-- The class names of the modules written. -/
  names : List String

/-- A run that was ended, with the tree it left behind. -/
structure Stop where
  files : FileSystem
  cause : ParseError

/-- Converts one source and records what came of it. -/
def convertNext (kind : SourceKind) (builder : Builder) (directory : Path) (progress : Progress)
    (source : Path) : Except Stop Progress :=
  match convert builder directory progress.files source with
  | (files, .ok (some product)) => .ok {
      files := files
      manifest := progress.manifest.record
        ⟨kind, source, outputPath directory product, product.warnings⟩
      names := progress.names ++ [product.name] }
  | (files, .ok none) =>
    .ok { progress with files := files, manifest := progress.manifest.recordSkipped source }
  | (files, .error (.access failure)) => .ok { progress with
      files := files
      manifest := progress.manifest.recordFailure ⟨kind, source, failure.message⟩ }
  | (files, .error (.outline cause)) => .error ⟨files, cause⟩

/-- Records the failure of a walk, if it failed. -/
def Progress.recordWalk (progress : Progress) (failure? : Option Manifest.Failure) : Progress :=
  match failure? with
  | none => progress
  | some failure => { progress with manifest := progress.manifest.recordFailure failure }

@[simp] theorem Progress.recordWalk_files (progress : Progress)
    (failure? : Option Manifest.Failure) : (progress.recordWalk failure?).files = progress.files := by
  cases failure? <;> rfl

@[simp] theorem Progress.recordWalk_names (progress : Progress)
    (failure? : Option Manifest.Failure) : (progress.recordWalk failure?).names = progress.names := by
  cases failure? <;> rfl

@[simp] theorem Progress.recordWalk_manifest (progress : Progress)
    (failure? : Option Manifest.Failure) : (progress.recordWalk failure?).manifest
      = { progress.manifest with failures := progress.manifest.failures ++ failure?.toList } := by
  cases failure? with
  | none => simp [recordWalk]
  | some failure => rfl

/-- Converts all sources of one kind in their order. -/
def convertKind (config : Config) (kind : SourceKind) (builder : Builder) (directory : Path)
    (progress : Progress) : Except Stop Progress :=
  (sources config progress.files kind).foldlM (convertNext kind builder directory)
    (progress.recordWalk (walkFailure? config progress.files kind))

/-- The pages that the tests of a run can import. -/
def catalog (config : Config) (converted : List String) : Test.Catalog :=
  ⟨config.pagesOutput, config.layout.pageMarker, converted⟩

def convertAll (config : Config) (files : FileSystem) : Except Stop Progress := do
  let pages ← convertKind config .page pageBuilder config.pagesOutput ⟨files, .empty, []⟩
  convertKind config .test
    (testBuilder config.testsOutput (catalog config pages.names) config.settings)
    config.testsOutput pages

/-- Converts what a configuration names, and gives the tree afterwards with the manifest. -/
def run (config : Config) (files : FileSystem) : FileSystem × Except ParseError Manifest :=
  match convertAll config files with
  | .ok progress => (progress.files, .ok progress.manifest)
  | .error stop => (stop.files, .error stop.cause)

end SuiteMigration.Migration
