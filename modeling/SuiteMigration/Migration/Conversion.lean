import SuiteMigration.FileSystem.Transfer
import SuiteMigration.Page.Module
import SuiteMigration.Test.Script

/-!
# Converting one file

A source is loaded, its module is built, and the module is saved under its class name. Nothing is
saved for a test source without a test method.
-/
namespace SuiteMigration.Migration

open FileSystem Outline

/-- The module built from a source. -/
structure Product where
  name : String
  text : String
  warnings : List String
  /-- The names of its test cases; a page has none. -/
  cases : List String

/-- Builds the module of a source from the name it falls back on and its text. -/
abbrev Builder := (fallback source : String) → Except ParseError (Option Product)

def pageBuilder : Builder := fun fallback source => do
  let module ← Page.Module.ofSource source fallback
  return some ⟨module.className, module.render, module.warnings, []⟩

def testBuilder (directory : Path) (catalog : Test.Catalog) (settings : Test.Settings) :
    Builder := fun fallback source => do
  let script? ← Test.Script.ofSource? source fallback directory catalog settings
  return script?.map fun script =>
    ⟨script.className, script.render, script.warnings, script.cases.map Test.Case.name⟩

def outputPath (directory : Path) (product : Product) : Path :=
  directory.join ⟨product.name ++ ".ts"⟩

/-- Why a source was not converted. -/
inductive Failure where
  | access (failure : FileSystem.Failure)
  | outline (error : ParseError)
  deriving DecidableEq

/-- The module of a source in the tree as it is, if the source has one. -/
def build (builder : Builder) (files : FileSystem) (source : Path) :
    Except Failure (Option Product) :=
  match files.load source with
  | .error failure => .error (.access failure)
  | .ok text => (builder (source.stem?.getD "") text).mapError .outline

/-- Builds the module of a source and saves it into a directory. -/
def convert (builder : Builder) (directory : Path) (files : FileSystem) (source : Path) :
    FileSystem × Except Failure (Option Product) :=
  match build builder files source with
  | .error failure => (files, .error failure)
  | .ok none => (files, .ok none)
  | .ok (some product) =>
    match files.save (outputPath directory product) (.text product.text) with
    | (saved, .error failure) => (saved, .error (.access failure))
    | (saved, .ok ()) => (saved, .ok (some product))

end SuiteMigration.Migration
