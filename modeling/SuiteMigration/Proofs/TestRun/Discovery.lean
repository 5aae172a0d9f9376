import Mathlib.Data.Set.List
import SuiteMigration.Proofs.FileSystem.TreeView
import SuiteMigration.Proofs.Migration.PathOrder
import SuiteMigration.TestRun.Summary

/-!
# What is discovered in a directory

The scripts of a directory that can be read are the script files in it, each once and in the order of
their paths. A run of all of them has one outcome for each, whatever the runner answers.
-/
namespace SuiteMigration.TestRun

open FileSystem SuiteMigration.Path

variable {view : View} {directory : Path} {name : String} {names : List String} {scripts : List Path}
  {runner : Runner}

section Scripts

/-- A script file directly in a directory. -/
def HoldsScript (view : View) (directory : Path) (name : String) : Prop :=
  .ok name ∈ view.entries directory ∧ isScript view (directory.join ⟨name⟩) = true

/-- All scripts of a directory in strictly ascending order. -/
structure AreScripts (view : View) (directory : Path) (scripts : List Path) : Prop where
  ascending : scripts.Pairwise Path.Precedes
  mem_iff : ∀ path, path ∈ scripts ↔
    ∃ name, HoldsScript view directory name ∧ path = directory.join ⟨name⟩

variable (lawful : view.Lawful)
include lawful

theorem HoldsScript.stem? (holds : HoldsScript view directory name) :
    (directory.join ⟨name⟩).stem? = some (splitName name).1 := by
  rw [Path.stem?, fileName?_join_name (lawful.named holds.1)]
  rfl

/-- The paths of scripts are ordered as their names are. -/
theorem AreScripts.exists_names (are_scripts : AreScripts view directory scripts) :
    ∃ names : List String, names.Pairwise (· < ·) ∧
      scripts = names.map fun name => directory.join ⟨name⟩ := by
  let joined (name : { name // isEntryName name = true }) : Path := directory.join ⟨name⟩
  have in_range : scripts ∈ Set.range (List.map joined) := by
    rw [Set.range_list_map]
    intro path member
    obtain ⟨name, holds, rfl⟩ := (are_scripts.mem_iff path).mp member
    exact ⟨⟨name, lawful.named holds.1⟩, rfl⟩
  obtain ⟨names, rfl⟩ := in_range
  refine ⟨names.map Subtype.val, List.pairwise_map.mpr ?_, by rw [List.map_map]; rfl⟩
  exact (List.pairwise_map.mp are_scripts.ascending).imp fun {left right} =>
    (precedes_join_iff left.2 right.2 directory).mp

private theorem areScripts_sort (told : view.entries directory = names.map .ok) :
    AreScripts view directory
      (Path.sort ((names.map fun name => directory.join ⟨name⟩).filter (isScript view))) where
  ascending := by
    have listed : ∀ name ∈ names, isEntryName name = true := fun name member =>
      lawful.named (by rw [told]; exact List.mem_map_of_mem member)
    have distinct := lawful.distinct directory
    rw [told, List.pairwise_map] at distinct
    refine pairwise_sort (.filter _ (List.pairwise_map.mpr (distinct.imp_of_mem ?_)))
    intro first second first_mem second_mem apart same
    rw [components_join (listed first first_mem), components_join (listed second second_mem)] at same
    obtain ⟨-, same_last⟩ := List.append_inj' same rfl
    exact apart first rfl (congrArg Except.ok (Component.normal.inj (List.cons.inj same_last).1).symm)
  mem_iff path := by
    rw [mem_sort, List.mem_filter, List.mem_map]
    constructor
    · rintro ⟨⟨name, member, rfl⟩, is_script⟩
      exact ⟨name, ⟨by rw [told]; exact List.mem_map_of_mem member, is_script⟩, rfl⟩
    · rintro ⟨name, ⟨listed, is_script⟩, rfl⟩
      rw [told, List.mem_map] at listed
      obtain ⟨_, member, ⟨⟩⟩ := listed
      exact ⟨⟨name, member, rfl⟩, is_script⟩

end Scripts

section Discovering

private theorem exists_names_of_told (told : ∀ fault, .error fault ∉ view.entries directory) :
    ∃ names : List String, view.entries directory = names.map .ok := by
  have in_range : view.entries directory ∈ Set.range (List.map .ok) := by
    rw [Set.range_list_map]
    intro entry member
    cases entry with
    | error fault => exact absurd member (told fault)
    | ok name => exact ⟨name, rfl⟩
  obtain ⟨names, same⟩ := in_range
  exact ⟨names, same.symm⟩

/-- If all names in a directory are told, all its scripts are discovered. There is an error if there are
none. -/
theorem discover_of_told (lawful : view.Lawful) (is_directory : view.isDirectory directory = true)
    (told : ∀ fault, .error fault ∉ view.entries directory) :
    ∃ scripts, AreScripts view directory scripts ∧ discover view directory
      = if scripts = [] then .error (.noScripts directory) else .ok scripts := by
  obtain ⟨names, told_eq⟩ := exists_names_of_told told
  refine ⟨_, areScripts_sort lawful told_eq, ?_⟩
  have paths_eq : (view.paths directory).mapM id
      = .ok (names.map fun name => directory.join ⟨name⟩) := by
    rw [View.paths, told_eq, List.map_map, List.mapM_map]
    exact List.mapM_pure
  simp only [discover, is_directory, paths_eq, ↓reduceIte]
  split
  · next none_found => rw [if_pos none_found]
  · next some_found => rw [if_neg some_found]

theorem discover_of_absent (absent : view.isDirectory directory = false) :
    discover view directory = .error (.access (.noDirectory directory)) := by
  rw [discover, absent]
  rfl

/-- The names in a directory can be read, if there is one. -/
def Readable (view : View) (directory : Path) : Prop :=
  view.isDirectory directory = true → ∀ fault, .error fault ∉ view.entries directory

/-- Every script of a readable directory is listed. -/
theorem Readable.moduleNames (readable : Readable view directory) (lawful : view.Lawful) :
    ∃ listed, moduleNames view directory = .ok listed ∧
      ∀ name, view.isDirectory directory = true → HoldsScript view directory name →
        (splitName name).1 ∈ listed := by
  cases is_directory : view.isDirectory directory with
  | false => exact ⟨[], by rw [TestRun.moduleNames, discover_of_absent is_directory], nofun⟩
  | true =>
    obtain ⟨scripts, are_scripts, discover_eq⟩ :=
      discover_of_told lawful is_directory (readable is_directory)
    refine ⟨scripts.filterMap Path.stem?, ?_, fun name _ holds => ?_⟩
    · by_cases no_scripts : scripts = []
      · rw [if_pos no_scripts] at discover_eq
        rw [TestRun.moduleNames, discover_eq, no_scripts]
        rfl
      · rw [if_neg no_scripts] at discover_eq
        rw [TestRun.moduleNames, discover_eq]
    · exact List.mem_filterMap.mpr
        ⟨_, (are_scripts.mem_iff _).mpr ⟨name, holds, rfl⟩, holds.stem? lawful⟩

end Discovering

section Tree

variable {files : FileSystem} {folder : Location}

/-- A file of a tree is seen as a script, if the names beside it can be read and its path is
accepted. -/
theorem holdsScript_of_node (formed : files.WellFormed)
    (found : files.directory? directory = some folder) (readable : Readable files.view directory)
    {content : Content} (is_file : files.node? (folder ++ [name]) = some (.file content))
    (accepted : refusal? (directory.join ⟨name⟩) = none)
    (extension_eq : (directory.join ⟨name⟩).extension? = some "ts") :
    HoldsScript files.view directory name := by
  have unlocked : folder ∉ files.locked := fun locked =>
    readable (view_isDirectory.mpr ⟨_, found⟩) .denied ((error_mem_entries found).mpr ⟨locked, rfl⟩)
  refine ⟨(ok_mem_entries formed found).mpr ⟨unlocked, _, is_file⟩, ?_⟩
  rw [isScript, (isFile_join formed found is_file).mpr ⟨accepted, _, rfl⟩, extension_eq]
  rfl

theorem readable_of_unlocked (unlocked : files.locked = []) (directory : Path) :
    Readable files.view directory := by
  intro seen fault failing
  obtain ⟨folder, found⟩ := view_isDirectory.mp seen
  have locked := ((error_mem_entries found).mp failing).1
  simp [unlocked] at locked

end Tree

section Running

/-- What is told of a script: the runner's outcome, or that it failed. -/
def answered (runner : Runner) (script : Path) : Outcome :=
  match runner script with
  | .ok outcome => outcome
  | .error _ => ⟨script, false, none⟩

private theorem runNext_eq (runner : Runner) (summary : Summary) (script : Path) :
    summary.runNext runner script = summary.add (answered runner script) := by
  unfold Summary.runNext answered
  cases runner script <;> rfl

theorem foldl_runNext (runner : Runner) (scripts : List Path) (summary : Summary) :
    scripts.foldl (Summary.runNext runner) summary =
      { summary with
        passed := summary.passed + (scripts.map (answered runner)).countP Outcome.success
        failed := summary.failed + (scripts.map (answered runner)).countP (!Outcome.success ·)
        outcomes := summary.outcomes ++ scripts.map (answered runner) } := by
  induction scripts generalizing summary with
  | nil => simp
  | cons script scripts ih =>
    rw [List.foldl_cons, ih, runNext_eq]
    cases success : (answered runner script).success <;>
      simp [Summary.add, success, Nat.add_assoc, Nat.add_comm]

/-- The summary of a run has the outcomes of the scripts in their order, and counts them. -/
theorem runAll_of_discover {scripts : List Path} (discovered : discover view directory = .ok scripts)
    (runner : Runner) : ∃ summary, runAll runner view directory = .ok summary ∧
      summary.outcomes = scripts.map (answered runner) ∧ summary.total = scripts.length ∧
      summary.passed = summary.outcomes.countP Outcome.success ∧
      summary.passed + summary.failed = summary.total := by
  have counted := List.length_eq_countP_add_countP Outcome.success (l := scripts.map (answered runner))
  refine ⟨scripts.foldl (Summary.runNext runner) (.start scripts), ?_, ?_⟩
  · rw [runAll, discovered]
    rfl
  · rw [foldl_runNext]
    simp_all [Summary.start]

/-- The scripts of a directory: they are discovered in the order of their names, each once, and a run
of all of them has one outcome for each. -/
structure RunsAll (view : View) (directory : Path) (scripts : List Path) : Prop where
  discovered : discover view directory = .ok scripts
  ascending : ∃ names : List String, names.Pairwise (· < ·) ∧
    scripts = names.map fun name => directory.join ⟨name⟩
  nodup : scripts.Nodup
  outcomes : ∀ runner, ∃ summary, runAll runner view directory = .ok summary ∧
    summary.outcomes = scripts.map (answered runner) ∧ summary.total = scripts.length ∧
    summary.passed = summary.outcomes.countP Outcome.success ∧
    summary.passed + summary.failed = summary.total

theorem HoldsScript.runsAll (holds : HoldsScript view directory name) (lawful : view.Lawful)
    (is_directory : view.isDirectory directory = true) (readable : Readable view directory) :
    ∃ scripts, RunsAll view directory scripts ∧
      ∀ other, HoldsScript view directory other → directory.join ⟨other⟩ ∈ scripts := by
  obtain ⟨scripts, are_scripts, discover_eq⟩ :=
    discover_of_told lawful is_directory (readable is_directory)
  have member (other : String) (other_holds : HoldsScript view directory other) :
      directory.join ⟨other⟩ ∈ scripts := (are_scripts.mem_iff _).mpr ⟨other, other_holds, rfl⟩
  rw [if_neg (List.ne_nil_of_mem (member name holds))] at discover_eq
  have distinct : scripts.Nodup := by
    refine are_scripts.ascending.imp ?_
    rintro path _ before rfl
    exact lt_irrefl path.key before
  exact ⟨scripts, ⟨discover_eq, are_scripts.exists_names lawful, distinct,
    runAll_of_discover discover_eq⟩, member⟩

end Running

end SuiteMigration.TestRun
