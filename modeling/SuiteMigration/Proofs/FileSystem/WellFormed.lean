import Mathlib.Data.List.Induction
import SuiteMigration.Proofs.FileSystem.Keeping
import SuiteMigration.Proofs.FileSystem.Walk

/-!
# Well-formed trees and how they grow

In a well-formed tree every node has a proper name in a directory. Making directories and writing
files are the only changes a run makes; they keep a tree well formed, and what was a directory or a
file stays one.
-/
namespace SuiteMigration.FileSystem

open SuiteMigration.Path

/-- A name that an entry of a directory can have. -/
structure ProperName (name : String) : Prop where
  leads : stays name.toList = false
  not_up : name.toList ≠ ['.', '.']
  no_slash : '/' ∉ name.toList
  no_nul : '\x00' ∉ name.toList
  short : name.utf8ByteSize ≤ 255

/-- A place with a proper name in a directory. -/
def HasRoom (files : FileSystem) (place : Location) : Prop :=
  ∃ above name, place = above ++ [name] ∧ files.node? above = some .directory ∧ ProperName name

structure WellFormed (files : FileSystem) : Prop where
  distinct : (files.nodes.map Prod.fst).Nodup
  room : ∀ {place node}, files.node? place = some node → place ≠ [] → files.HasRoom place
  working : files.node? files.working = some .directory
  locked : ∀ place ∈ files.locked, files.node? place = some .directory

variable {files before middle after made saved : FileSystem} {place location : Location}
  {node : Node} {path : Path} {content : Content} {written larger : Location → Prop}

theorem HasRoom.ne_root (room : files.HasRoom place) : place ≠ [] := by
  obtain ⟨above, name, rfl, -⟩ := room
  simp

theorem HasRoom.keep (room : before.HasRoom place) (keeps : Keeps written before after) :
    after.HasRoom place := by
  obtain ⟨above, name, place_eq, is_directory, proper⟩ := room
  exact ⟨above, name, place_eq, keeps.directory is_directory, proper⟩

/-- A path to a directory goes on leading there. -/
theorem Keeps.directory? (keeps : Keeps written before after)
    (found : before.directory? path = some location) : after.directory? path = some location := by
  obtain ⟨located, is_directory⟩ := directory?_eq_some.mp found
  exact directory?_eq_some.mpr ⟨keeps.locate located, keeps.directory is_directory⟩

section Nodes

theorem mem_nodes_of_node? (found : files.node? place = some node) (not_root : place ≠ []) :
    (place, node) ∈ files.nodes := by
  rw [node?, if_neg not_root] at found
  obtain ⟨front, back, nodes_eq, -⟩ := List.lookup_eq_some_iff.mp found
  simp [nodes_eq]

theorem node?_of_mem_nodes (distinct : (files.nodes.map Prod.fst).Nodup)
    (member : (place, node) ∈ files.nodes) (not_root : place ≠ []) :
    files.node? place = some node := by
  obtain ⟨front, back, nodes_eq⟩ := List.mem_iff_append.mp member
  rw [node?, if_neg not_root]
  refine List.lookup_eq_some_iff.mpr ⟨front, back, nodes_eq, fun other other_mem => ?_⟩
  rw [nodes_eq, List.map_append, List.map_cons, List.nodup_append] at distinct
  have different := distinct.2.2 other.1 (List.mem_map_of_mem other_mem) place List.mem_cons_self
  simpa using Ne.symm different

private theorem distinct_set (distinct : (files.nodes.map Prod.fst).Nodup) (place : Location)
    (node : Node) :
    ((files.set place node).nodes.map Prod.fst).Nodup := by
  simp only [set, List.map_append, List.map_cons, List.map_nil]
  refine List.nodup_append.mpr ⟨distinct.sublist (List.filter_sublist.map Prod.fst), by simp, ?_⟩
  intro other other_mem same same_mem
  obtain ⟨entry, entry_mem, rfl⟩ := List.mem_map.mp other_mem
  have different := (List.mem_filter.mp entry_mem).2
  obtain rfl := List.mem_singleton.mp same_mem
  simpa using different

end Nodes

section Checking

instance (name : String) : Decidable (ProperName name) :=
  decidable_of_iff (stays name.toList = false ∧ name.toList ≠ ['.', '.'] ∧ '/' ∉ name.toList ∧
    '\x00' ∉ name.toList ∧ name.utf8ByteSize ≤ 255)
    ⟨fun ⟨leads, not_up, no_slash, no_nul, short⟩ => ⟨leads, not_up, no_slash, no_nul, short⟩,
      fun proper => ⟨proper.leads, proper.not_up, proper.no_slash, proper.no_nul, proper.short⟩⟩

private theorem hasRoom_iff : files.HasRoom place ↔ ∃ name ∈ place.getLast?,
    files.node? place.dropLast = some .directory ∧ ProperName name := by
  constructor
  · rintro ⟨above, name, rfl, is_directory, proper⟩
    exact ⟨name, by simp, by simpa using is_directory, proper⟩
  · rintro ⟨name, last_eq, is_directory, proper⟩
    refine ⟨place.dropLast, name, ?_, is_directory, proper⟩
    exact (List.dropLast_append_getLast? name last_eq).symm

instance (files : FileSystem) (place : Location) : Decidable (files.HasRoom place) :=
  decidable_of_iff _ hasRoom_iff.symm

private theorem wellFormed_iff : files.WellFormed ↔ (files.nodes.map Prod.fst).Nodup ∧
    (∀ entry ∈ files.nodes, entry.1 ≠ [] → files.HasRoom entry.1) ∧
    files.node? files.working = some .directory ∧
    ∀ place ∈ files.locked, files.node? place = some .directory := by
  constructor
  · intro formed
    refine ⟨formed.distinct, fun entry member not_root => ?_, formed.working, formed.locked⟩
    exact formed.room (node?_of_mem_nodes formed.distinct member not_root) not_root
  · rintro ⟨distinct, room, working, locked⟩
    exact ⟨distinct, fun found not_root => room _ (mem_nodes_of_node? found not_root) not_root, working,
      locked⟩

instance (files : FileSystem) : Decidable files.WellFormed :=
  decidable_of_iff _ wellFormed_iff.symm

end Checking

section Below

/-- Everything above a node is a directory. -/
theorem WellFormed.above (formed : files.WellFormed) {way : Location} (nonempty : way ≠ [])
    (found : files.node? (place ++ way) = some node) : files.node? place = some .directory := by
  induction way using List.reverseRecOn generalizing node with
  | nil => exact absurd rfl nonempty
  | append_singleton front name ih =>
    rw [← List.append_assoc] at found
    obtain ⟨above, other, append_eq, is_directory, -⟩ := formed.room found (by simp)
    obtain rfl := (List.append_inj' append_eq rfl).1
    by_cases front_nil : front = []
    · simpa [front_nil] using is_directory
    · exact ih front_nil is_directory

theorem WellFormed.absent_below (formed : files.WellFormed) (absent : files.node? place = none)
    (way : Location) : files.node? (place ++ way) = none := by
  by_cases empty : way = []
  · simpa [empty] using absent
  · cases found : files.node? (place ++ way) with
    | none => rfl
    | some node =>
      rw [formed.above empty found] at absent
      cases absent

theorem WellFormed.properName (formed : files.WellFormed) {name : String}
    (found : files.node? (place ++ [name]) = some node) : ProperName name := by
  obtain ⟨above, other, append_eq, -, proper⟩ := formed.room found (by simp)
  obtain ⟨-, name_eq⟩ := List.append_inj' append_eq rfl
  exact (List.cons.inj name_eq).1 ▸ proper

theorem WellFormed.set (formed : files.WellFormed) (room : files.HasRoom place)
    (no_directory : files.node? place ≠ some .directory) (node : Node) :
    (files.set place node).WellFormed := by
  have kept := keeps_set node no_directory
  refine ⟨distinct_set formed.distinct place node, ?_, kept.directory formed.working, ?_⟩
  · intro other found_node found not_root
    by_cases here : other = place
    · subst here
      exact room.keep kept
    · rw [node?_set_of_ne files node here] at found
      exact (formed.room found not_root).keep kept
  · exact fun other member => kept.directory (formed.locked other member)

end Below

/-- Directories are made where nothing is, and files are written where no directory is. -/
inductive Grows (written : Location → Prop) (before : FileSystem) : FileSystem → Prop where
  | refl : Grows written before before
  | directory {middle : FileSystem} {place : Location} (grows : Grows written before middle)
      (absent : middle.node? place = none) (room : middle.HasRoom place) :
      Grows written before (middle.set place .directory)
  | file {middle : FileSystem} {place : Location} {content : Content}
      (grows : Grows written before middle) (no_directory : middle.node? place ≠ some .directory)
      (room : middle.HasRoom place) (is_written : written place) :
      Grows written before (middle.set place (.file content))

namespace Grows

theorem trans (first : Grows written before middle) (second : Grows written middle after) :
    Grows written before after := by
  induction second with
  | refl => exact first
  | directory _ absent room ih => exact ih.directory absent room
  | file _ no_directory room is_written ih => exact ih.file no_directory room is_written

theorem mono (grows : Grows written before after)
    (within : ∀ location, written location → larger location) : Grows larger before after := by
  induction grows with
  | refl => exact .refl
  | directory _ absent room ih => exact ih.directory absent room
  | file _ no_directory room is_written ih =>
    exact ih.file no_directory room (within _ is_written)

/-- Whatever keeps nodes that are no change to a directory keeps directories. -/
theorem keeps (grows : Grows written before after) : Keeps written before after := by
  induction grows with
  | refl => exact .refl _
  | @directory middle place _ absent room ih =>
    refine ih.trans ⟨rfl, ?_, ?_⟩
    · intro other is_directory
      have different : other ≠ place := by
        rintro rfl
        rw [absent] at is_directory
        cases is_directory
      rwa [node?_set_of_ne middle _ different]
    · intro other content _
      by_cases here : other = place
      · subst here
        simp [node?_set_self middle .directory room.ne_root, absent]
      · rw [node?_set_of_ne middle _ here]
  | @file middle place content _ no_directory room is_written ih =>
    exact ih.trans ((keeps_set _ no_directory).mono fun _ here => here ▸ is_written)

theorem locked (grows : Grows written before after) : after.locked = before.locked := by
  induction grows with
  | refl => rfl
  | directory _ _ _ ih => exact ih
  | file _ _ _ _ ih => exact ih

/-- A file stays a file, though another text may be written to it. -/
theorem file_stays (grows : Grows written before after)
    (is_file : before.node? place = some (.file content)) :
    ∃ other, after.node? place = some (.file other) := by
  induction grows generalizing content with
  | refl => exact ⟨content, is_file⟩
  | @directory middle changed _ absent room ih =>
    obtain ⟨other, found⟩ := ih is_file
    have different : place ≠ changed := by
      rintro rfl
      rw [absent] at found
      cases found
    exact ⟨other, by rwa [node?_set_of_ne middle _ different]⟩
  | @file middle changed newer _ no_directory room is_written ih =>
    obtain ⟨other, found⟩ := ih is_file
    by_cases here : place = changed
    · subst here
      exact ⟨newer, node?_set_self middle _ room.ne_root⟩
    · exact ⟨other, by rwa [node?_set_of_ne middle _ here]⟩

theorem wellFormed (grows : Grows written before after) (formed : before.WellFormed) :
    after.WellFormed := by
  induction grows with
  | refl => exact formed
  | directory _ absent room ih => exact ih.set room (by simp [absent]) _
  | file _ no_directory room _ ih => exact ih.set room no_directory _

end Grows

section Access

/-- A path leads to a directory, or to a place for a node. -/
theorem room_of_locate (formed : files.WellFormed) (found : files.locate path = .ok location) :
    files.node? location = some .directory ∨ files.HasRoom location := by
  have accepted := accepted_of_locate found
  rw [locate_accepted accepted] at found
  have proper : ∀ piece ∈ pathPieces path, '/' ∉ piece ∧ '\x00' ∉ piece := by
    intro piece member
    have split_mem : piece ∈ Text.splitAt '/' path.text.toList :=
      List.mem_reverse.mp ((List.dropWhile_sublist _).subset (List.mem_reverse.mp member))
    obtain ⟨no_slash, within⟩ := Text.chars_of_mem_splitAt split_mem
    refine ⟨no_slash, fun nul_mem => ?_⟩
    have has_nul := within _ nul_mem
    unfold refusal? at accepted
    split_ifs at accepted
    simp_all
  have start_directory : files.node? (files.start path) = some .directory := by
    unfold start
    split
    · rfl
    · exact formed.working
  -- On the pieces from the right, since the last step settles what is found.
  generalize files.start path = here at found start_directory
  generalize pathPieces path = pieces at found proper
  induction pieces using List.reverseRecOn generalizing location with
  | nil =>
    obtain rfl := Except.ok.inj found
    exact .inl start_directory
  | append_singleton front piece ih =>
    rw [List.foldlM_append] at found
    obtain ⟨middle, middle_eq, found⟩ := bind_eq_ok.mp found
    have stepped : files.step middle piece = .ok location := by
      simpa [List.foldlM_cons, List.foldlM_nil] using found
    obtain ⟨is_directory, ⟨-, rfl⟩ | ⟨-, rfl⟩ | ⟨leads, not_up, short, rfl⟩⟩ := step_cases stepped
    · exact .inl is_directory
    · -- What is above a directory is one.
      cases middle using List.reverseRecOn with
      | nil => exact .inl rfl
      | append_singleton above name =>
        rw [List.dropLast_concat]
        exact .inl (formed.above (List.cons_ne_nil name []) is_directory)
    · obtain ⟨no_slash, no_nul⟩ := proper piece (by simp)
      refine .inr ⟨middle, _, rfl, is_directory, ?_⟩
      constructor <;> simpa

theorem makeDirectory_grows (formed : files.WellFormed)
    (made_eq : files.makeDirectory path = .ok made) : Grows written files made := by
  unfold makeDirectory at made_eq
  obtain ⟨location, found, made_eq⟩ := bind_eq_ok.mp made_eq
  split at made_eq
  · cases made_eq
  · next absent =>
    obtain rfl := Except.ok.inj made_eq
    rcases room_of_locate formed found with is_directory | room
    · rw [absent] at is_directory
      cases is_directory
    · exact Grows.refl.directory absent room

theorem makeAncestors_grows (formed : files.WellFormed) (paths : List Path) :
    Grows written files (files.makeAncestors paths).1 := by
  induction paths with
  | nil => exact .refl
  | cons path parents ih =>
    unfold makeAncestors
    split
    · exact .refl
    split
    · next made_eq => exact makeDirectory_grows formed made_eq
    · split
      · next parents_eq => exact parents_eq ▸ ih
      · next parents_eq =>
        have parents_grow : Grows written files _ := parents_eq ▸ ih
        split
        · next made_eq =>
          exact parents_grow.trans (makeDirectory_grows (parents_grow.wellFormed formed) made_eq)
        · exact parents_grow
    · exact .refl

theorem makeParents_grows (formed : files.WellFormed) (path : Path) :
    Grows written files (files.makeParents path).1 := by
  unfold makeParents
  split
  · exact .refl
  · exact makeAncestors_grows formed _

theorem write_grows (formed : files.WellFormed) (found : files.locate path = .ok location)
    (no_directory : files.node? location ≠ some .directory) (is_written : written location) :
    Grows written files (files.set location (.file content)) := by
  rcases room_of_locate formed found with is_directory | room
  · exact absurd is_directory no_directory
  · exact Grows.refl.file no_directory room is_written

/-- Writing a file sets a node where the path leads. -/
theorem write_eq_set (write_eq : files.write path content = .ok saved) :
    ∃ location, files.locate path = .ok location ∧ files.node? location ≠ some .directory ∧
      saved = files.set location (.file content) := by
  unfold write at write_eq
  obtain ⟨location, found, write_eq⟩ := bind_eq_ok.mp write_eq
  split at write_eq
  · cases write_eq
  · next writable =>
    simp only [Bool.or_eq_true, decide_eq_true_eq, not_or] at writable
    exact ⟨location, found, writable.2, (Except.ok.inj write_eq).symm⟩

theorem save_grows (formed : files.WellFormed)
    (is_written : ∀ (tree : FileSystem) location, tree.locate path = .ok location →
      written location) :
    Grows written files (files.save path content).1 := by
  have parents_grow : Grows written files (files.makeParents path).1 := makeParents_grows formed path
  unfold save
  split
  · next made_eq => rwa [made_eq] at parents_grow
  · next made made_eq =>
    rw [made_eq] at parents_grow
    split
    · exact parents_grow
    · next write_eq =>
      obtain ⟨location, found, no_directory, rfl⟩ := write_eq_set write_eq
      exact parents_grow.trans (write_grows (parents_grow.wellFormed formed) found no_directory
        (is_written made location found))

end Access

end SuiteMigration.FileSystem
