import SuiteMigration.Config.Basic
import SuiteMigration.TestRun.Summary

/-!
# Launching a script

A script is run by the configured command with the script as its last argument. A command that takes
longer than the limit is given up. What a command does is up to the machine.
-/
namespace SuiteMigration.TestRun

inductive Ending where
  | exited (code : Nat)
  /-- Ended by a signal. -/
  | killed
  deriving DecidableEq

def Ending.exitCode? : Ending → Option Int
  | .exited code => some code
  | .killed => none

/-- What a command does. -/
structure Effect where
  printed : String
  /-- The milliseconds until it ends. -/
  slept : Nat
  ending : Ending
  deriving DecidableEq

/-- What a machine makes of a command with arguments, or why it cannot be started. -/
abbrev Commands := (name : String) → (arguments : List String) → Except String Effect

/-- What the configured command does with a script. -/
def effect (commands : Commands) (config : Config.Runner) (script : Path) : Except String Effect :=
  commands config.command (config.arguments ++ [script.text])

/-- Runs a script by the configured command. -/
def launch (commands : Commands) (config : Config.Runner) : Runner := fun script =>
  match effect commands config script with
  | .error reason => .error (.notRun (config.command ++ ": " ++ reason))
  | .ok effect =>
    if config.timeout ≤ effect.slept then .error (.timedOut config.timeout)
    else .ok (.ofExitCode script effect.ending.exitCode?)

/-- What a script prints while it runs. -/
def printed (commands : Commands) (config : Config.Runner) (script : Path) : String :=
  match effect commands config script with
  | .error _ => ""
  | .ok effect => effect.printed

end SuiteMigration.TestRun
