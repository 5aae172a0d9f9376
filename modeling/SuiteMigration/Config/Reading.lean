import SuiteMigration.Config.Basic
import SuiteMigration.Json.Parsing

/-!
# Reading a configuration

Every record may leave fields out, which then have their defaults, and is written as an object or as
the list of its fields in order. Unknown members are passed over, a known one given twice is an
error.
-/
namespace SuiteMigration.Config

/-- The members given for a record with these field names. -/
def givenFields? (names : List String) : Json → Option (List (String × Json))
  | .object members =>
    let known := members.filter fun (name, _) => names.contains name
    if (known.map Prod.fst).Nodup then some known else none
  | .array items => if items.length ≤ names.length then some (names.zip items) else none
  | _ => none

/-- The value of a field: what `read` makes of it, or the default where it is not given. -/
def fieldOr? (given : List (String × Json)) (name : String) (read : Json → Option α) (default : α) :
    Option α :=
  match given.lookup name with
  | none => some default
  | some value => read value

def path? (value : Json) : Option Path :=
  value.string?.map Path.mk

/-- A text, or `null` for none. -/
def optional? : Json → Option (Option String)
  | .null => some none
  | value => value.string?.map some

def strings? (value : Json) : Option (List String) := do
  (← value.array?).mapM Json.string?

/-- A whole number of at most 64 bits. -/
def word? (value : Json) : Option Nat := do
  let n ← value.nat?
  if n < 0x10000000000000000 then some n else none

def Layout.ofJson? (value : Json) : Option Layout := do
  let given ← givenFields? ["input_root", "pages_subtree", "tests_subtree", "page_path_filter",
    "test_path_filter", "output_root", "pages_output", "tests_output", "page_package_marker"] value
  let standard := Layout.default
  some {
    inputRoot := ← fieldOr? given "input_root" path? standard.inputRoot
    pagesSubtree := ← fieldOr? given "pages_subtree" path? standard.pagesSubtree
    testsSubtree := ← fieldOr? given "tests_subtree" path? standard.testsSubtree
    pageFilter := ← fieldOr? given "page_path_filter" optional? standard.pageFilter
    testFilter := ← fieldOr? given "test_path_filter" optional? standard.testFilter
    outputRoot := ← fieldOr? given "output_root" path? standard.outputRoot
    pagesOutput := ← fieldOr? given "pages_output" path? standard.pagesOutput
    testsOutput := ← fieldOr? given "tests_output" path? standard.testsOutput
    pageMarker := ← fieldOr? given "page_package_marker" Json.string? standard.pageMarker }

def settingsOfJson? (value : Json) : Option Test.Settings := do
  let given ← givenFields? ["base_url", "headless"] value
  some {
    baseUrl := ← fieldOr? given "base_url" Json.string? defaultSettings.baseUrl
    headless := ← fieldOr? given "headless" Json.bool? defaultSettings.headless }

def Runner.ofJson? (value : Json) : Option Runner := do
  let given ← givenFields? ["command", "args", "timeout_ms"] value
  some {
    command := ← fieldOr? given "command" Json.string? Runner.default.command
    arguments := ← fieldOr? given "args" strings? Runner.default.arguments
    timeout := ← fieldOr? given "timeout_ms" word? Runner.default.timeout }

def ofJson? (value : Json) : Option Config := do
  let given ← givenFields? ["paths", "script", "runner"] value
  some {
    layout := ← fieldOr? given "paths" Layout.ofJson? .default
    settings := ← fieldOr? given "script" settingsOfJson? defaultSettings
    runner := ← fieldOr? given "runner" Runner.ofJson? .default }

def parse? (text : String) : Option Config := do
  ofJson? (← Json.parse? text)

end SuiteMigration.Config
