import SuiteMigration.Migration.Run
import SuiteMigration.Proofs.FileSystem.Remaking
import SuiteMigration.Proofs.Migration.Collecting

/-!
# The sources of a tree

Which sources a walk finds, and what is read from them, is settled by the locked directories of a tree
and what is named like a source. The order of the nodes and all other files do not matter.
-/
namespace SuiteMigration.FileSystem

open SuiteMigration.Path

variable {files other : FileSystem} {root path : Path} {location way : Location} {content : Content}
  {fault : Fault}

theorem load_refused (refused : refusal? path = some fault) :
    files.load path = .error (.read path fault) := by
  simp [load, readText, open?, locate_refused refused, bind, Except.bind, Except.mapError]

/-- What is read from a file is settled by what it holds. -/
theorem readText_of_file (located : files.locate path = .ok location)
    (is_file : files.node? location = some (.file content)) (no_slash : endsInSlash path = false) :
    files.readText path = match content with
      | .text text => .ok text
      | .raw _ => .error .notText := by
  unfold readText open?
  simp only [located, is_file, no_slash, bind, Except.bind, Bool.false_eq_true, ↓reduceIte]
  cases content <;> rfl

/-- A file on a way is loaded alike from two trees that have it there. -/
theorem load_joinWay_eq (formed : files.WellFormed) (other_formed : other.WellFormed)
    (root_eq : files.directory? root = some location)
    (other_root : other.directory? root = some location) (nonempty : way ≠ [])
    (accepted : refusal? (joinWay root way) = none)
    (found : files.node? (location ++ way) = some (.file content))
    (other_found : other.node? (location ++ way) = some (.file content)) :
    other.load (joinWay root way) = files.load (joinWay root way) := by
  have no_slash :=
    endsInSlash_of_leads (lastPiece_joinWay root (formed.entryNames found) nonempty)
  rw [load, load, readText_of_file (formed.locate_joinWay root_eq nonempty found accepted) found no_slash,
    readText_of_file (other_formed.locate_joinWay other_root nonempty other_found accepted) other_found
      no_slash]
  cases content <;> rfl

end SuiteMigration.FileSystem

namespace SuiteMigration.Migration

open FileSystem

/-- Is this the name of a source? -/
def isSource (name : String) : Bool :=
  Path.extension? ⟨name⟩ == some "java"

variable {config : Config} {kind : SourceKind} {files left right : FileSystem} {root source : Path}
  {location way : Location} {name : String}

section Views

variable {left right : View}

private theorem exists_first_failure {view : View} (lawful : view.Lawful) (orderly : view.Orderly)
    (is_directory : view.isDirectory root = true) {fault : Fault} (fails : view.Fails root way fault)
    (filter : Option String) : ∃ first cause, view.Fails root first cause ∧
      collectSources view root filter = .error (.read (joinWay root first) cause) ∧
      ∀ other fault, view.Fails root other fault → wayBefore first other = true := by
  rcases View.walk_cases lawful is_directory with ⟨found, -, covers⟩ | ⟨_, _, -, walked⟩
  · exact absurd fails (covers.readable way fault)
  · obtain ⟨first, cause, first_fails, failure_eq, before⟩ :=
      View.first_of_walk lawful orderly is_directory (by omega) walked
    refine ⟨first, cause, first_fails, ?_, before⟩
    rw [collectSources, if_pos is_directory, walked, failure_eq]
    rfl

/-- Sources are collected alike from two views of the same tree, as far as it matters to them. -/
theorem collectSources_congr (left_lawful : left.Lawful) (right_lawful : right.Lawful)
    (left_orderly : left.Orderly) (right_orderly : right.Orderly)
    (left_root : left.isDirectory root = true) (right_root : right.isDirectory root = true)
    (fails_iff : ∀ way fault, right.Fails root way fault ↔ left.Fails root way fault)
    (finds_iff : ∀ way, (joinWay root way).extension? = some "java" →
      (right.Finds root way ↔ left.Finds root way)) (filter : Option String) :
    collectSources right root filter = collectSources left root filter := by
  by_cases readable : ∀ way fault, ¬left.Fails root way fault
  · obtain ⟨paths, paths_eq, are_sources⟩ :=
      collectSources_of_readable left_lawful left_root readable filter
    obtain ⟨others, others_eq, others_are⟩ := collectSources_of_readable right_lawful right_root
      (fun way fault => mt (fails_iff way fault).mp (readable way fault)) filter
    have same : AreSources left root filter others := by
      refine ⟨others_are.ascending, fun path => (others_are.mem_iff path).trans ?_⟩
      refine exists_congr fun way => and_congr_left ?_
      rintro ⟨rfl, extension_eq, -⟩
      exact finds_iff way extension_eq
    rw [paths_eq, others_eq, are_sources.unique same]
  · -- Both walks fail at the first directory of which the names are not told.
    obtain ⟨way, fault, fails⟩ : ∃ way fault, left.Fails root way fault := by simpa using readable
    obtain ⟨first, cause, first_fails, left_eq, before⟩ :=
      exists_first_failure left_lawful left_orderly left_root fails filter
    obtain ⟨other, other_cause, other_fails, right_eq, other_before⟩ := exists_first_failure right_lawful
      right_orderly right_root ((fails_iff way fault).mpr fails) filter
    have other_fails := (fails_iff other other_cause).mp other_fails
    obtain rfl := wayBefore_antisymm (before other other_cause other_fails)
      (other_before first cause ((fails_iff first cause).mpr first_fails))
    rw [left_eq, right_eq, first_fails.fault_eq left_orderly other_fails]

end Views

section Named

theorem extension?_joinWay_iff (root : Path) (named : ∀ name ∈ way, isEntryName name = true)
    (last_eq : way.getLast? = some name) :
    (joinWay root way).extension? = some "java" ↔ isSource name = true := by
  obtain ⟨front, rfl⟩ := List.getLast?_eq_some_iff.mp last_eq
  have name_named := named name (by simp)
  obtain ⟨leads, not_up, no_slash⟩ := isEntryName_iff.mp name_named
  rw [isSource, beq_iff_eq, joinWay_append, Path.extension?, Path.extension?,
    Path.fileName?_join_name name_named, Path.fileName?_name no_slash leads not_up]

/-- Two trees with the same files that are named like a source. -/
def SameFiles (left right : FileSystem) : Prop :=
  ∀ {place name content}, place.getLast? = some name → isSource name = true →
    (right.node? place = some (.file content) ↔ left.node? place = some (.file content))

/-- Two trees in which the same directories are locked and the same is found that is named like a
source: files, and directories that are too far from the root to be seen as such. -/
structure SameSources (root : Path) (left right : FileSystem) : Prop where
  locked : right.locked = left.locked
  file : SameFiles left right
  far : ∀ {place way name}, left.directory? root = some place → way.getLast? = some name →
    isSource name = true → refusal? (joinWay root way) ≠ none →
    (right.node? (place ++ way) = some .directory ↔ left.node? (place ++ way) = some .directory)

end Named

section SameSources

variable (left_formed : left.WellFormed) (right_formed : right.WellFormed)
  (same : SameSources root left right)
include left_formed right_formed same

theorem SameSources.finds_iff (left_root : left.directory? root = some location)
    (right_root : right.directory? root = some location)
    (extension_eq : (joinWay root way).extension? = some "java") :
    right.view.Finds root way ↔ left.view.Finds root way := by
  rw [finds_view_iff right_formed right_root, finds_view_iff left_formed left_root, same.locked]
  refine and_congr_right fun nonempty => and_congr_right fun _ => and_congr_right fun _ => ?_
  have last_eq := List.getLast?_eq_some_getLast nonempty
  have place_last : (location ++ way).getLast? = some (way.getLast nonempty) := by
    rw [List.getLast?_append, last_eq]
    rfl
  have is_source {files : FileSystem} {node : Node} (formed : files.WellFormed)
      (found : files.node? (location ++ way) = some node) : isSource (way.getLast nonempty) = true :=
    (extension?_joinWay_iff root (formed.entryNames found) last_eq).mp extension_eq
  -- The trees have the same sources, and the same directories where a path is too long.
  refine exists_congr fun node => ?_
  constructor
  · rintro ⟨found, ending⟩
    refine ⟨?_, ending⟩
    cases node with
    | file content => exact (same.file place_last (is_source right_formed found)).mp found
    | directory =>
      exact (same.far left_root last_eq (is_source right_formed found) fun accepted =>
        ending accepted rfl).mp found
  · rintro ⟨found, ending⟩
    refine ⟨?_, ending⟩
    cases node with
    | file content => exact (same.file place_last (is_source left_formed found)).mpr found
    | directory =>
      exact (same.far left_root last_eq (is_source left_formed found) fun accepted =>
        ending accepted rfl).mpr found

/-- The same sources are collected from two trees where the root leads to the same place. -/
theorem SameSources.collectSources_eq (root_eq : right.directory? root = left.directory? root)
    (filter : Option String) :
    collectSources right.view root filter = collectSources left.view root filter := by
  cases left_root : left.directory? root with
  | none =>
    have right_root := root_eq.trans left_root
    have left_seen : left.view.isDirectory root = false := by simp [view, isDirectory, left_root]
    have right_seen : right.view.isDirectory root = false := by simp [view, isDirectory, right_root]
    rw [collectSources_of_absent left_seen, collectSources_of_absent right_seen]
  | some location =>
    have right_root := root_eq.trans left_root
    apply collectSources_congr left.view_lawful right.view_lawful left.view_orderly right.view_orderly
      (view_isDirectory.mpr ⟨_, left_root⟩) (view_isDirectory.mpr ⟨_, right_root⟩)
    · intro way fault
      rw [fails_view_iff right_formed right_root, fails_view_iff left_formed left_root, same.locked]
    · exact fun way => same.finds_iff left_formed right_formed left_root right_root

end SameSources

section Sources

theorem SameSources.sources_eq (same : SameSources (sourceRoot config kind).1 left right)
    (left_formed : left.WellFormed) (right_formed : right.WellFormed)
    (root_eq : right.directory? (sourceRoot config kind).1 = left.directory? (sourceRoot config kind).1) :
    sources config right kind = sources config left kind
      ∧ walkFailure? config right kind = walkFailure? config left kind := by
  have collected := same.collectSources_eq left_formed right_formed root_eq
  constructor
  · simp only [sources, collected]
  · simp only [walkFailure?, isDirectory, root_eq, collected]
    rfl

/-- Without its root a kind has no sources, and that is no failure. -/
theorem sources_of_none (no_root : files.directory? (sourceRoot config kind).1 = none) :
    sources config files kind = [] ∧ walkFailure? config files kind = none := by
  have not_seen : files.view.isDirectory (sourceRoot config kind).1 = false := by
    simp [view, isDirectory, no_root]
  constructor
  · simp only [sources, collectSources_of_absent not_seen]
  · simp [walkFailure?, isDirectory, no_root]

/-- A root with no locked directory below it, and with nothing that is named like a source but
directories that are seen as such, is like none. -/
theorem sources_of_bare (formed : files.WellFormed)
    (root_eq : files.directory? (sourceRoot config kind).1 = some location)
    (no_source : ∀ way name node, way.getLast? = some name → isSource name = true →
      files.node? (location ++ way) = some node →
      node = .directory ∧ refusal? (joinWay (sourceRoot config kind).1 way) = none)
    (unlocked : ∀ way, location ++ way ∉ files.locked) :
    sources config files kind = [] ∧ walkFailure? config files kind = none := by
  have readable : ∀ way fault, ¬files.view.Fails (sourceRoot config kind).1 way fault :=
    fun way fault fails => unlocked way ((fails_view_iff formed root_eq).mp fails).2.1
  have collected (filter : Option String) :
      collectSources files.view (sourceRoot config kind).1 filter = .ok [] := by
    obtain ⟨paths, collected, are_sources⟩ := collectSources_of_readable files.view_lawful
      (view_isDirectory.mpr ⟨_, root_eq⟩) readable filter
    refine collected.trans (congrArg Except.ok (List.eq_nil_iff_forall_not_mem.mpr ?_))
    intro path member
    obtain ⟨way, finds, rfl, extension_eq, -⟩ := (are_sources.mem_iff path).mp member
    obtain ⟨nonempty, -, -, node, found, ending⟩ := (finds_view_iff formed root_eq).mp finds
    have last_eq := List.getLast?_eq_some_getLast nonempty
    have is_source := (extension?_joinWay_iff _ (formed.entryNames found) last_eq).mp extension_eq
    obtain ⟨is_directory, accepted⟩ := no_source way _ node last_eq is_source found
    exact ending accepted is_directory
  constructor
  · simp only [sources, collected]
  · simp only [walkFailure?, collected, ite_self]

/-- A source stands on a way below its root and is named like one. If it can be looked at, it is a
file. -/
theorem way_of_mem_sources (formed : files.WellFormed) (member : source ∈ sources config files kind) :
    ∃ location way name node, files.directory? (sourceRoot config kind).1 = some location
      ∧ source = joinWay (sourceRoot config kind).1 way ∧ files.node? (location ++ way) = some node
      ∧ (refusal? source = none → node ≠ .directory)
      ∧ way.getLast? = some name ∧ isSource name = true := by
  simp only [sources] at member
  split at member
  · next collected =>
    obtain ⟨way, finds, rfl, extension_eq, -⟩ :=
      ((areSources_of_ok files.view_lawful collected).mem_iff _).mp member
    cases root_eq : files.directory? (sourceRoot config kind).1 with
    | none =>
      have not_seen : files.view.isDirectory (sourceRoot config kind).1 = false := by
        simp [view, isDirectory, root_eq]
      cases (collectSources_of_absent not_seen _).symm.trans collected
    | some location =>
      obtain ⟨nonempty, -, -, node, found, ending⟩ := (finds_view_iff formed root_eq).mp finds
      have last_eq := List.getLast?_eq_some_getLast nonempty
      exact ⟨location, way, _, node, rfl, rfl, found, ending, last_eq,
        (extension?_joinWay_iff _ (formed.entryNames found) last_eq).mp extension_eq⟩
  · cases member

end Sources

end SuiteMigration.Migration
