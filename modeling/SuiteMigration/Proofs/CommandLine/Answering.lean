import SuiteMigration.CommandLine.Answer
import SuiteMigration.Proofs.Config.Validity
import SuiteMigration.Proofs.TestRun.Summing
import SuiteMigration.TestRun.Shell

/-!
# What an answer tells and leaves

The exit code of a test run tells whether every script has passed, on whatever machine it runs. Only a
conversion changes the tree, and only under a valid configuration.
-/
namespace SuiteMigration.TestRun

/-- The configured command can be started with the script, and ends in time and with success. -/
def Passes (commands : Commands) (config : Config.Runner) (script : Path) : Prop :=
  ∃ effect, commands config.command (config.arguments ++ [script.text]) = .ok effect ∧
    effect.slept < config.timeout ∧ effect.ending = .exited 0

private theorem succeeds_ofExitCode (script : Path) (ending : Ending) :
    succeeds (.ok (.ofExitCode script ending.exitCode?)) = true ↔ ending = .exited 0 := by
  cases ending with
  | killed => simp [succeeds, Outcome.ofExitCode, Ending.exitCode?]
  | exited code => simp [succeeds, Outcome.ofExitCode, Ending.exitCode?]

private theorem succeeds_launch (commands : Commands) (config : Config.Runner) (script : Path) :
    succeeds (launch commands config script) = true ↔ Passes commands config script := by
  unfold launch effect Passes
  cases commands config.command (config.arguments ++ [script.text]) with
  | error reason => simp [succeeds]
  | ok effect =>
    by_cases late : config.timeout ≤ effect.slept
    · simp [late, succeeds, not_lt.mpr late]
    · simp only [if_neg late, succeeds_ofExitCode, Except.ok.injEq, exists_eq_left', lt_of_not_ge late,
        true_and]

/-- A script that is ended by a signal has no exit code. -/
example : launch (Shell.commands ((FileSystem.empty []).set ["t.ts"] (.file (.text "kill -9 $$\n"))))
    ⟨"sh", [], 300⟩ ⟨"t.ts"⟩ = .ok ⟨⟨"t.ts"⟩, false, none⟩ := by
  decide +kernel

end SuiteMigration.TestRun

namespace SuiteMigration.CommandLine

open TestRun

variable {around : Surroundings} {config : Config} {files : FileSystem}

/-- The exit code is zero exactly if there are scripts and all of them pass. -/
theorem runTests_exitCode (commands : Commands) (config : Config) (files : FileSystem) :
    (runTests commands config files).exitCode = 0 ↔
      ∃ scripts, discover files.view config.testsOutput = .ok scripts ∧
        ∀ script ∈ scripts, Passes commands config.runner script := by
  unfold runTests runAll
  cases discover files.view config.testsOutput with
  | error failure =>
    refine iff_of_false (show Answer.failureCode ≠ 0 by decide) ?_
    rintro ⟨_, ⟨⟩, _⟩
  | ok scripts =>
    have all_passed := (sumsUp_foldl (launch commands config.runner) scripts).allPassed
    simp only [succeeds_launch] at all_passed
    simp only [Except.ok.injEq, exists_eq_left', ← all_passed]
    change (if _ then 0 else Answer.failureCode) = 0 ↔ _
    split
    · next passed => exact iff_of_true rfl passed
    · next failed => exact iff_of_false (by decide) failed

section Leaving

/-- Other roots do not make a configuration invalid. -/
theorem replaceRoots_valid (valid : config.Valid around.checkAddress) (input? output? : Option String) :
    (replaceRoots config input? output?).Valid around.checkAddress :=
  ⟨valid.address, valid.command, valid.timeout⟩

private theorem convert_leaves (config : Config) (json : Bool) (stamp : Manifest.Stamp)
    (files : FileSystem) :
    (convert config json stamp files).1 = (Migration.run config files).1 := by
  unfold convert
  rcases Migration.run config files with ⟨left, _ | _⟩ <;> rfl

private theorem perform_leaves (valid : config.Valid around.checkAddress) (task : Task) :
    (perform around config files task).1 = files ∨
      ∃ used : Config, used.Valid around.checkAddress ∧
        (perform around config files task).1 = (Migration.run used files).1 := by
  cases task with
  | convert input? output? json =>
    exact .inr ⟨_, replaceRoots_valid valid input? output?, convert_leaves _ json _ files⟩
  | list => exact .inl rfl
  | runTests => exact .inl rfl
  | describe => exact .inl rfl

/-- The tree is left as it was, or as the run of a valid configuration leaves it. -/
theorem answer_leaves (accepted : around.checkAddress Config.defaultSettings.baseUrl = .ok ())
    (files : FileSystem) (arguments : List String) :
    (answer around files arguments).1 = files ∨
      ∃ config : Config, config.Valid around.checkAddress ∧
        (answer around files arguments).1 = (Migration.run config files).1 := by
  unfold answer
  split
  · exact .inl rfl
  · exact .inl rfl
  · next configFile? task _ =>
    cases configFile? with
    | none => exact perform_leaves (Config.default_valid accepted) task
    | some path =>
      dsimp only
      cases loaded : Config.load around.checkAddress files ⟨path⟩ with
      | error failure => exact .inl rfl
      | ok config =>
        obtain ⟨_, _, _, valid⟩ := Config.load_eq_ok.mp loaded
        exact perform_leaves valid task

end Leaving

end SuiteMigration.CommandLine
