import SuiteMigration.TestRun.Script

/-!
# Running all scripts

Every script of a directory is run once, one after another, whatever became of those before it. A
script that could not be run counts as failed.
-/
namespace SuiteMigration.TestRun

/-- What became of a script; a script ended by a signal has no exit code. -/
structure Outcome where
  script : Path
  success : Bool
  exitCode : Option Int
  deriving DecidableEq

def Outcome.ofExitCode (script : Path) (exitCode : Option Int) : Outcome :=
  ⟨script, exitCode == some 0, exitCode⟩

/-- Why a script has no outcome of its own. -/
inductive Fault where
  | notRun (reason : String)
  | timedOut (limit : Nat)
  deriving DecidableEq

def Fault.message : Fault → String
  | .notRun reason => "Script runner error: " ++ reason
  | .timedOut limit => "Script timed out after " ++ toString limit ++ " ms"

/-- Whatever executes scripts. -/
abbrev Runner := Path → Except Fault Outcome

structure Summary where
  passed : Nat
  failed : Nat
  total : Nat
  outcomes : List Outcome
  deriving DecidableEq

namespace Summary

def start (scripts : List Path) : Summary :=
  ⟨0, 0, scripts.length, []⟩

def allPassed (summary : Summary) : Bool :=
  summary.failed == 0

/-- Counts an outcome. -/
def add (summary : Summary) (outcome : Outcome) : Summary :=
  { summary with
    passed := summary.passed + (if outcome.success then 1 else 0)
    failed := summary.failed + (if outcome.success then 0 else 1)
    outcomes := summary.outcomes ++ [outcome] }

/-- Runs one script and counts what became of it. -/
def runNext (runner : Runner) (summary : Summary) (script : Path) : Summary :=
  match runner script with
  | .ok outcome => summary.add outcome
  | .error _ => summary.add ⟨script, false, none⟩

end Summary

/-- Runs every script of a directory. -/
def runAll (runner : Runner) (view : View) (directory : Path) : Except Failure Summary := do
  let scripts ← discover view directory
  return scripts.foldl (Summary.runNext runner) (.start scripts)

end SuiteMigration.TestRun
