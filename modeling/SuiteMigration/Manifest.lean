import SuiteMigration.Json.Printing
import SuiteMigration.Path

/-!
# Conversion manifests

What a run made of its inputs: converted files with their warnings, failures, and tests without a
test method. A manifest is only ever added to.
-/
namespace SuiteMigration

inductive SourceKind where
  | page
  | test
  deriving DecidableEq

def SourceKind.name : SourceKind → String
  | page => "page"
  | test => "test"

namespace Manifest

structure Entry where
  kind : SourceKind
  input : Path
  output : Path
  warnings : List String
  deriving DecidableEq

structure Failure where
  kind : SourceKind
  input : Path
  message : String
  deriving DecidableEq

end Manifest

structure Manifest where
  entries : List Manifest.Entry
  failures : List Manifest.Failure
  /-- Test sources without a test method. -/
  skipped : List Path
  deriving DecidableEq

namespace Manifest

def empty : Manifest := ⟨[], [], []⟩

def record (manifest : Manifest) (entry : Entry) : Manifest :=
  { manifest with entries := manifest.entries ++ [entry] }

def recordFailure (manifest : Manifest) (failure : Failure) : Manifest :=
  { manifest with failures := manifest.failures ++ [failure] }

def recordSkipped (manifest : Manifest) (input : Path) : Manifest :=
  { manifest with skipped := manifest.skipped ++ [input] }

def size (manifest : Manifest) : Nat :=
  manifest.entries.length

def hasFailures (manifest : Manifest) : Bool :=
  !manifest.failures.isEmpty

def Entry.report (entry : Entry) : List String :=
  ("- " ++ entry.input.text ++ " -> " ++ entry.output.text)
    :: entry.warnings.map ("    warning: " ++ ·)

def Failure.report (failure : Failure) : String :=
  "- [" ++ failure.kind.name ++ "] " ++ failure.input.text ++ ": " ++ failure.message

/-- A heading with its lines, or nothing if there are none. -/
def sectionReport (heading : String) (lines : List String) : List String :=
  if lines.isEmpty then [] else heading :: lines

/-- The lines of the console report; it says so if nothing was converted. -/
def reportLines (manifest : Manifest) : List String :=
  "Conversion complete. Files converted:" :: manifest.entries.flatMap Entry.report
    ++ sectionReport "Skipped (no @Test methods):"
      (manifest.skipped.map fun path => "- " ++ path.text)
    ++ sectionReport "Failed conversions:" (manifest.failures.map Failure.report)
    ++ if manifest.entries.isEmpty then
        ["No matching Java page/test files found for conversion."]
      else []

def report (manifest : Manifest) : String :=
  String.join (manifest.reportLines.map (· ++ "\n"))

def Entry.toJson (entry : Entry) : Json :=
  .object [("kind", .string entry.kind.name), ("input", .string entry.input.text),
    ("output", .string entry.output.text), ("warnings", .strings entry.warnings)]

def Failure.toJson (failure : Failure) : Json :=
  .object [("kind", .string failure.kind.name), ("input", .string failure.input.text),
    ("message", .string failure.message)]

/-- What tells one run from another. -/
structure Stamp where
  runId : String
  startedAt : String

def toJson (manifest : Manifest) (stamp : Stamp) : Json :=
  .object [("run_id", .string stamp.runId), ("started_at", .string stamp.startedAt),
    ("entries", .array (manifest.entries.map Entry.toJson)),
    ("failures", .array (manifest.failures.map Failure.toJson)),
    ("skipped", .strings (manifest.skipped.map Path.text))]

end Manifest

end SuiteMigration
