import SuiteMigration.Outline.Parsing
import SuiteMigration.Output.Layout
import SuiteMigration.Output.ModulePath
import SuiteMigration.Test.Catalog
import SuiteMigration.Test.Rule

/-!
# Test scripts

A test class becomes one script that opens a browser, builds the pages it refers to and runs the
test methods one after another, each in a block of its own.
-/
namespace SuiteMigration.Test

open Outline

/-- What a script is told about the site and the browser. -/
structure Settings where
  baseUrl : String
  headless : Bool
  deriving DecidableEq

/-- A page that a script imports, with the specifier of its module. -/
structure PageImport where
  name : String
  module : String
  deriving DecidableEq

structure Script where
  className : String
  pages : List PageImport
  cases : List Case
  settings : Settings

def testMethods (unit : SourceUnit) : List Method :=
  (unit.classes.flatMap ClassDecl.methods).filter (·.hasTag "Test")

namespace Script

/-- The script for a source file; there is none without a test method in a class at top level. -/
def ofUnit? (unit : SourceUnit) (source fallback : String) (directory : Path) (catalog : Catalog)
    (settings : Settings) : Option Script :=
  let tests := testMethods unit
  if tests.isEmpty then none
  else
    let names := catalog.referencedPages unit source
    let instances := names.map Output.lowerCamel
    some {
      className := unit.publicName fallback
      pages := names.map fun name => ⟨name, Output.modulePath directory catalog.directory name⟩
      cases := tests.map fun test =>
        Case.ofBody test.name instances (test.statements.map Outline.Statement.text)
      settings := settings }

def ofSource? (source fallback : String) (directory : Path) (catalog : Catalog)
    (settings : Settings) : Except ParseError (Option Script) :=
  (SourceUnit.parse source).map (ofUnit? · source fallback directory catalog settings)

def fileName (script : Script) : String :=
  script.className ++ ".ts"

def assertionsDropped (script : Script) : Nat :=
  script.cases.foldl (fun total case => total + case.assertionsDropped) 0

/-- The warnings of a script: how many assertions were dropped, and each request for review. -/
def warnings (script : Script) : List String :=
  let dropped := script.assertionsDropped
  (if dropped = 0 then []
    else ["verification not ported: " ++ toString dropped ++ " assertion(s) dropped"])
    ++ script.cases.flatMap fun case =>
      (case.statements.filter (·.kind == .reviewComment)).map fun statement =>
        case.name ++ ": needs review: " ++ statement.commentText

end Script

/-- The lines of a case: a blank one, its name, and its statements in a block unless it has none. -/
def Case.render (case : Case) : List String :=
  ["", "// @Test: " ++ case.name]
    ++ if case.statements.isEmpty then []
      else
        let body := "\n".intercalate (case.statements.map Output.Statement.text)
        ["\x7b\n" ++ Output.indent 1 body ++ "\n\x7d"]

namespace Script

def importLine (page : PageImport) : String :=
  "import \x7b " ++ page.name ++ " \x7d from " ++ Output.singleQuoted page.module ++ ";\n"

def instanceLine (page : PageImport) : String :=
  "const " ++ Output.lowerCamel page.name ++ " = new " ++ page.name ++ "(page);"

/-- What is done in the browser: the pages are built, the site is opened, the cases follow. -/
def steps (script : Script) : List String :=
  ["const page = await browser.newPage();"] ++ script.pages.map instanceLine
    ++ ["await page.goto(BASE_URL);"] ++ script.cases.flatMap Case.render
    ++ ["", "console.log('All tests passed!');"]

/-- The browser is closed whatever the steps do, and a failure sets the exit code. -/
def render (script : Script) : String :=
  "import \x7b chromium \x7d from 'playwright';\n"
    ++ String.join (script.pages.map importLine)
    ++ "\n(async () => \x7b\n  const HEADLESS = (process.env.HEADLESS ?? "
    ++ Output.singleQuoted (if script.settings.headless then "true" else "false")
    ++ ") === 'true';\n  const BASE_URL = process.env.BASE_URL ?? "
    ++ Output.singleQuoted script.settings.baseUrl ++ ";\n"
    ++ "  const browser = await chromium.launch(\x7b headless: HEADLESS \x7d);\n\n  try \x7b\n"
    ++ Output.indent 2 ("\n".intercalate script.steps)
    ++ "\n  \x7d catch (err) \x7b\n    console.error('Test failed:', err);\n"
    ++ "    process.exitCode = 1;\n  \x7d finally \x7b\n    await browser.close();\n  \x7d\n"
    ++ "\x7d)();\n"

end Script

end SuiteMigration.Test
