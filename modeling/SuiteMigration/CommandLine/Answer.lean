import SuiteMigration.CommandLine.Request
import SuiteMigration.Config.Loading
import SuiteMigration.Migration.Run
import SuiteMigration.TestRun.Launch

/-!
# Answering a request

A request is answered by a text and an exit code, and leaves a file tree behind. The configuration
is loaded first, whatever the task.
-/
namespace SuiteMigration.CommandLine

/-- What the tool relies on beside its files. -/
structure Surroundings where
  checkAddress : Config.AddressCheck
  /-- The commands, as they find the files. -/
  commands : FileSystem → TestRun.Commands
  stamp : Manifest.Stamp

structure Answer where
  exitCode : Nat
  printed : String
  /-- What is told apart from the output where something went wrong. -/
  complaint? : Option String
  deriving DecidableEq

namespace Answer

/-- The exit codes where something failed, the arguments make no sense, and a source cannot be
converted at all. -/
def failureCode : Nat := 1

def usageCode : Nat := 2

def stoppedCode : Nat := 101

def ofText (text : String) : Answer := ⟨0, text, none⟩

/-- Nothing is printed but a complaint. -/
def ofFault (exitCode : Nat) (complaint : String) : Answer :=
  ⟨exitCode, "", some ("error: " ++ complaint)⟩

end Answer

def replaceRoots (config : Config) (input? output? : Option String) : Config :=
  { config with
    layout := { config.layout with
      inputRoot := (input?.map Path.mk).getD config.layout.inputRoot
      outputRoot := (output?.map Path.mk).getD config.layout.outputRoot } }

/-- What is printed of a manifest: its report, or itself as JSON. -/
def manifestText (json : Bool) (stamp : Manifest.Stamp) (manifest : Manifest) : String :=
  if json then (manifest.toJson stamp).pretty ++ "\n" else manifest.report

def convert (config : Config) (json : Bool) (stamp : Manifest.Stamp) (files : FileSystem) :
    FileSystem × Answer :=
  match Migration.run config files with
  | (left, .ok manifest) =>
    (left, ⟨if manifest.hasFailures then Answer.failureCode else 0,
      manifestText json stamp manifest, none⟩)
  | (left, .error .memberWithoutName) =>
    (left, .ofFault Answer.stoppedCode "a class member has no name")

def listingText (listing : TestRun.Listing) : String :=
  let block (heading : String) (names : List String) :=
    heading ++ ":\n" ++ String.join (names.map fun name => "  - " ++ name ++ "\n")
  block "Pages" listing.pages ++ block "Tests" listing.tests

def list (config : Config) (files : FileSystem) : Answer :=
  match TestRun.listConverted files.view config.pagesOutput config.testsOutput with
  | .error failure => .ofFault Answer.failureCode failure.message
  | .ok listing => .ofText (listingText listing)

def summaryText (summary : TestRun.Summary) : String :=
  "Passed: " ++ toString summary.passed ++ "\nFailed: " ++ toString summary.failed
    ++ "\nTotal: " ++ toString summary.total ++ "\n"

/-- Runs the converted tests. What the scripts print stands in front of the summary. -/
def runTests (commands : TestRun.Commands) (config : Config) (files : FileSystem) : Answer :=
  match TestRun.runAll (TestRun.launch commands config.runner) files.view config.testsOutput with
  | .error failure => .ofFault Answer.failureCode failure.message
  | .ok summary =>
    ⟨if summary.allPassed then 0 else Answer.failureCode,
      String.join (summary.outcomes.map fun outcome =>
        TestRun.printed commands config.runner outcome.script) ++ summaryText summary,
      none⟩

def perform (around : Surroundings) (config : Config) (files : FileSystem) :
    Task → FileSystem × Answer
  | .convert input? output? json => convert (replaceRoots config input? output?) json around.stamp files
  | .list => (files, list config files)
  | .runTests => (files, runTests (around.commands files) config files)
  | .describe => (files, .ofText toolHelp)

/-- Answers the arguments of the tool. -/
def answer (around : Surroundings) (files : FileSystem) (arguments : List String) :
    FileSystem × Answer :=
  match Request.ofArguments? arguments with
  | none => (files, .ofFault Answer.usageCode "the arguments make no sense")
  | some (.help text) => (files, .ofText text)
  | some (.perform configFile? task) =>
    let config := match configFile? with
      | some path => Config.load around.checkAddress files ⟨path⟩
      | none => .ok .default
    match config with
    | .error failure => (files, .ofFault Answer.failureCode failure.message)
    | .ok config => perform around config files task

end SuiteMigration.CommandLine
