import SuiteMigration.Proofs.Migration.OutputPath
import SuiteMigration.Proofs.TestRun.Discovery

/-!
# Summing up a run

A run of all scripts fails only where there is nothing to run. Otherwise the runner is asked for every
script once, in the order of their paths. Whatever it answers, the summary has one outcome for each
script and counts it on one side.
-/
namespace SuiteMigration.TestRun

open FileSystem SuiteMigration.Path

variable {view : View} {directory : Path} {runner : Runner} {scripts : List Path} {summary : Summary}

def succeeds : Except Fault Outcome → Bool
  | .ok outcome => outcome.success
  | .error _ => false

/-- The script was run and did not succeed. -/
def fails : Except Fault Outcome → Bool
  | .ok outcome => !outcome.success
  | .error _ => false

/-- A summary of some scripts: every answer has its outcome and is counted. -/
structure SumsUp (runner : Runner) (scripts : List Path) (summary : Summary) : Prop where
  total : summary.total = scripts.length
  outcomes : summary.outcomes = scripts.map (answered runner)
  passed : summary.passed = scripts.countP fun script => succeeds (runner script)
  failed : summary.failed = (scripts.countP fun script => fails (runner script)) +
    scripts.countP fun script => !(runner script).isOk
  counted : summary.passed + summary.failed = summary.total
  allPassed : summary.allPassed = true ↔ ∀ script ∈ scripts, succeeds (runner script) = true

section Counting

private theorem countP_success (runner : Runner) (scripts : List Path) :
    (scripts.map (answered runner)).countP Outcome.success
      = scripts.countP fun script => succeeds (runner script) := by
  rw [List.countP_map]
  refine List.countP_congr fun script _ => ?_
  rw [Function.comp_apply, answered]
  cases runner script <;> rfl

private theorem countP_failure (runner : Runner) (scripts : List Path) :
    (scripts.map (answered runner)).countP (!Outcome.success ·)
      = (scripts.countP fun script => fails (runner script)) +
        scripts.countP fun script => !(runner script).isOk := by
  induction scripts with
  | nil => rfl
  | cons script scripts ih =>
    rw [List.map_cons, List.countP_cons, ih, List.countP_cons, List.countP_cons, answered]
    cases answer : runner script with
    | error fault => simp [fails, Except.isOk, Except.toBool, Nat.add_assoc]
    | ok outcome =>
      cases success : outcome.success <;>
        simp [fails, success, Except.isOk, Except.toBool, Nat.add_right_comm]

theorem sumsUp_foldl (runner : Runner) (scripts : List Path) :
    SumsUp runner scripts (scripts.foldl (Summary.runNext runner) (.start scripts)) := by
  have counted := List.length_eq_countP_add_countP Outcome.success (l := scripts.map (answered runner))
  simp only [Bool.not_eq_true, ← Bool.not_eq_true', Bool.decide_eq_true] at counted
  rw [List.length_map, countP_success, countP_failure] at counted
  have passed_le : (scripts.countP fun script => succeeds (runner script)) ≤ scripts.length :=
    List.countP_le_length
  rw [foldl_runNext, countP_failure, countP_success]
  constructor
  · rfl
  · rfl
  · exact Nat.zero_add _
  · exact Nat.zero_add _
  · simp only [Summary.start, Nat.zero_add]
    exact counted.symm
  · -- Nothing failed exactly if as many passed as there are.
    rw [Summary.allPassed, beq_iff_eq, ← List.countP_eq_length]
    simp only [Summary.start, Nat.zero_add]
    omega

end Counting

section Asking

/-- Asks a runner that may do more than answer, and counts what it says. -/
def askNext {m : Type → Type} [Monad m] (ask : Path → m (Except Fault Outcome)) (summary : Summary)
    (script : Path) : m Summary := do
  let answer ← ask script
  return summary.runNext (fun _ => answer) script

def askAll {m : Type → Type} [Monad m] (ask : Path → m (Except Fault Outcome)) (scripts : List Path) :
    m Summary :=
  scripts.foldlM (askNext ask) (.start scripts)

/-- A runner that does nothing but answer runs the scripts as they are run. -/
theorem askAll_pure (runner : Runner) (scripts : List Path) :
    Id.run (askAll (fun script => pure (runner script)) scripts)
      = scripts.foldl (Summary.runNext runner) (.start scripts) :=
  List.idRun_foldlM

/-- The runner with a note of each script that it is asked for. -/
def noting (runner : Runner) (script : Path) : StateM (List Path) (Except Fault Outcome) := do
  modify (· ++ [script])
  return runner script

private theorem foldlM_noting (runner : Runner) (scripts noted : List Path) (summary : Summary) :
    (scripts.foldlM (askNext (noting runner)) summary).run noted
      = (scripts.foldl (Summary.runNext runner) summary, noted ++ scripts) := by
  -- Asking for one script adds it to the notes, whatever was noted before.
  induction scripts generalizing summary noted with
  | nil => rw [List.append_nil]; rfl
  | cons script scripts ih =>
    have asked : (askNext (noting runner) summary script).run noted
        = (summary.runNext runner script, noted ++ [script]) := rfl
    rw [List.foldlM_cons, StateT.run_bind, asked]
    exact (ih (noted ++ [script]) _).trans (by rw [List.append_assoc]; rfl)

/-- Every script is asked for once and in its turn. -/
theorem askAll_noting (runner : Runner) (scripts : List Path) :
    (askAll (noting runner) scripts).run []
      = (scripts.foldl (Summary.runNext runner) (.start scripts), scripts) :=
  foldlM_noting runner scripts [] _

end Asking

section Running

/-- There is nothing to run where there is no directory, where it cannot be read, or without a script
in it. -/
def NothingToRun (view : View) (directory : Path) : Prop :=
  view.isDirectory directory = true →
    (∃ fault, .error fault ∈ view.entries directory) ∨ ∀ name, ¬HoldsScript view directory name

private theorem discover_of_error {fault : FileSystem.Fault}
    (is_directory : view.isDirectory directory = true)
    (failing : .error fault ∈ view.entries directory) :
    ∃ failure, discover view directory = .error failure := by
  cases paths_eq : (view.paths directory).mapM id with
  | error failure =>
    refine ⟨.access failure, ?_⟩
    simp only [discover, is_directory, paths_eq, ↓reduceIte]
  | ok paths =>
    have failed : .error (.read directory fault) ∈ view.paths directory :=
      List.mem_map.mpr ⟨_, failing, rfl⟩
    obtain ⟨_, failed_ok⟩ := View.exists_of_mapM_eq_ok paths_eq failed
    cases failed_ok

private theorem discover_cases (lawful : view.Lawful) (directory : Path) :
    (NothingToRun view directory ∧ ∃ failure, discover view directory = .error failure) ∨
    ∃ scripts, ¬NothingToRun view directory ∧ discover view directory = .ok scripts ∧
      AreScripts view directory scripts := by
  cases is_directory : view.isDirectory directory with
  | false =>
    refine .inl ⟨fun seen => ?_, _, discover_of_absent is_directory⟩
    rw [is_directory] at seen
    cases seen
  | true =>
    -- Either the names cannot all be told, or there are scripts among them or not.
    by_cases failing : ∃ fault, .error fault ∈ view.entries directory
    · obtain ⟨fault, member⟩ := failing
      exact .inl ⟨fun _ => .inl ⟨fault, member⟩, discover_of_error is_directory member⟩
    · obtain ⟨scripts, are_scripts, discover_eq⟩ :=
        discover_of_told lawful is_directory fun fault member => failing ⟨fault, member⟩
      by_cases no_scripts : scripts = []
      · rw [if_pos no_scripts] at discover_eq
        refine .inl ⟨fun _ => .inr fun name holds => ?_, _, discover_eq⟩
        have member := (are_scripts.mem_iff _).mpr ⟨name, holds, rfl⟩
        rw [no_scripts] at member
        cases member
      · rw [if_neg no_scripts] at discover_eq
        refine .inr ⟨scripts, fun nothing => ?_, discover_eq, are_scripts⟩
        obtain ⟨script, member⟩ := List.exists_mem_of_ne_nil scripts no_scripts
        obtain ⟨name, holds, -⟩ := (are_scripts.mem_iff script).mp member
        exact (nothing is_directory).elim failing fun no_script => no_script name holds

/-- A run of all scripts fails exactly where there is nothing to run. Otherwise every script that was
discovered is asked for once and in the order of the paths, and the summary is one of all of them. -/
theorem runAll_sums_up (lawful : view.Lawful) (runner : Runner) (directory : Path) :
    ((∃ failure, runAll runner view directory = .error failure) ↔ NothingToRun view directory) ∧
    ∀ summary, runAll runner view directory = .ok summary →
      ∃ scripts, discover view directory = .ok scripts ∧ AreScripts view directory scripts ∧
        SumsUp runner scripts summary ∧
        (askAll (noting runner) scripts).run [] = (summary, scripts) := by
  rcases discover_cases lawful directory with
    ⟨nothing, failure, discover_eq⟩ | ⟨scripts, something, discover_eq, are_scripts⟩
  · have failed : runAll runner view directory = .error failure := by
      rw [runAll, discover_eq]
      rfl
    refine ⟨iff_of_true ⟨failure, failed⟩ nothing, fun summary ran => ?_⟩
    cases failed.symm.trans ran
  · have ran : runAll runner view directory
        = .ok (scripts.foldl (Summary.runNext runner) (.start scripts)) := by
      rw [runAll, discover_eq]
      rfl
    have no_failure : ¬∃ failure, runAll runner view directory = .error failure := by
      rintro ⟨failure, failed⟩
      cases ran.symm.trans failed
    refine ⟨iff_of_false no_failure something, fun summary ran_again => ?_⟩
    obtain rfl := Except.ok.inj (ran.symm.trans ran_again)
    exact ⟨scripts, discover_eq, are_scripts, sumsUp_foldl runner scripts, askAll_noting runner scripts⟩

/-- A directory with three scripts and a note. -/
def scriptTree : FileSystem where
  nodes := (["tests"], .directory) ::
    ["BrokenTest.ts", "LoginPageTest.ts", "MissingTest.ts", "notes.md"].map fun name =>
      (["tests", name], .file (.text ""))
  working := []

/-- One script fails and one cannot be run. -/
def fakeRunner : Runner := fun script =>
  if script = ⟨"tests/MissingTest.ts"⟩ then .error (.notRun "not found")
  else if script = ⟨"tests/BrokenTest.ts"⟩ then .ok ⟨script, false, some 1⟩
  else .ok ⟨script, true, some 0⟩

/-- A script that cannot be run is one of the failed ones, and the run goes on. -/
theorem runAll_sums_up_scriptTree :
    let scripts : List Path :=
      [⟨"tests/BrokenTest.ts"⟩, ⟨"tests/LoginPageTest.ts"⟩, ⟨"tests/MissingTest.ts"⟩]
    scriptTree.view.Lawful ∧ ∃ summary, runAll fakeRunner scriptTree.view ⟨"tests"⟩ = .ok summary ∧
      SumsUp fakeRunner scripts summary ∧ summary.passed = 1 ∧ summary.failed = 2 ∧
      (askAll (noting fakeRunner) scripts).run [] = (summary, scripts) := by
  intro scripts
  let paths : List Path := scripts ++ [⟨"tests/notes.md"⟩]
  have discovered : discover scriptTree.view ⟨"tests"⟩ = .ok scripts := by
    have is_directory : scriptTree.view.isDirectory ⟨"tests"⟩ = true := by decide +kernel
    have paths_eq : (scriptTree.view.paths ⟨"tests"⟩).mapM id = .ok paths := by decide +kernel
    have kept : paths.filter (isScript scriptTree.view) = scripts := by decide +kernel
    have sorted : Path.sort scripts = scripts := List.mergeSort_of_pairwise (by decide +kernel)
    rw [discover, if_pos is_directory, paths_eq]
    simp only [kept, sorted]
    rfl
  obtain ⟨summary, ran⟩ : ∃ summary, runAll fakeRunner scriptTree.view ⟨"tests"⟩ = .ok summary := by
    rw [runAll, discovered]
    exact ⟨_, rfl⟩
  obtain ⟨_, discover_eq, -, sums_up, asked⟩ :=
    (runAll_sums_up scriptTree.view_lawful fakeRunner ⟨"tests"⟩).2 summary ran
  obtain rfl := Except.ok.inj (discovered.symm.trans discover_eq)
  exact ⟨scriptTree.view_lawful, summary, ran, sums_up, sums_up.passed.trans (by decide +kernel),
    sums_up.failed.trans (by decide +kernel), asked⟩

def farScript : FileSystem where
  nodes := [(["far.ts"], .file (.text ""))]
  working := []

/-- A script is not seen if its path is too long, so a run may fail though there is one. -/
theorem runAll_not_of_far :
    ¬ ∀ (runner : Runner) (files : FileSystem) (directory : Path) (folder : Location) (name : String)
      (content : Content), files.WellFormed → files.directory? directory = some folder →
      folder ∉ files.locked → files.node? (folder ++ [name]) = some (.file content) →
      (Path.mk name).extension? = some "ts" →
      ∃ summary, runAll runner files.view directory = .ok summary := by
  intro runs
  have formed : farScript.WellFormed := by decide +kernel
  obtain ⟨directory, size_eq, -, leads⟩ := @exists_path_of_size 4094 (by decide) (by decide)
  have directory_eq : farScript.directory? directory = some [] := leads farScript formed
  have nothing : NothingToRun farScript.view directory := by
    refine fun _ => .inr fun name ⟨listed, is_script⟩ => ?_
    obtain ⟨-, node, found⟩ := (ok_mem_entries formed directory_eq).mp listed
    have in_nodes := mem_nodes_of_node? found (by simp)
    obtain rfl : name = "far.ts" := by
      simpa using congrArg Prod.fst (List.mem_singleton.mp in_nodes)
    have seen := (Bool.and_eq_true_iff.mp is_script).1
    -- The script is looked at by a path of more than 4095 bytes.
    have accepted := ((isFile_join formed directory_eq found).mp seen).1
    have longer := size_le_join (by decide : isEntryName "far.ts" = true) directory
    have far : pathLimit < 4094 + "far.ts".utf8ByteSize := by decide +kernel
    rw [size_eq] at longer
    exact absurd (le_trans longer (refusal?_eq_none.mp accepted).2.2) (not_le.mpr far)
  obtain ⟨summary, ran⟩ := runs fakeRunner farScript directory [] "far.ts" (.text "") formed
    directory_eq List.not_mem_nil (by decide +kernel) (by decide +kernel)
  rcases discover_cases farScript.view_lawful directory with ⟨-, failure, failed⟩ | ⟨_, something, -⟩
  · rw [runAll, failed] at ran
    cases ran
  · exact something nothing

end Running

end SuiteMigration.TestRun
