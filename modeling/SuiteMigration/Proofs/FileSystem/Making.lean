import SuiteMigration.Proofs.FileSystem.Agreement

/-!
# The directories that a save makes

The directories of a path are made from the top down, and none is made that the path does not come
by. A file is saved below the directory above it, so a save makes no other directories either.
-/
namespace SuiteMigration.FileSystem

open SuiteMigration.Path

variable {files made before middle after saved : FileSystem} {path parent : Path}
  {location : Location} {content : Content} {within larger : Location → Prop}

section OnWay

/-- Pieces that stay where they are lead nowhere. -/
theorem foldl_movedBy_filter (pieces : List (List Char)) (location : Location) :
    (pieces.filter (!stays ·)).foldl movedBy location = pieces.foldl movedBy location := by
  induction pieces generalizing location with
  | nil => rfl
  | cons piece pieces ih =>
    cases staying : stays piece with
    | true =>
      have moved_eq : movedBy location piece = location := if_pos staying
      rw [List.filter_cons_of_neg (by simp [staying]), List.foldl_cons, moved_eq, ih]
    | false =>
      rw [List.filter_cons_of_pos (by simp [staying]), List.foldl_cons, List.foldl_cons, ih]

/-- A path comes by the place that it leads to. -/
theorem onWay_of_locate (found : files.locate path = .ok location) : files.OnWay path location := by
  rw [locate_accepted (accepted_of_locate found)] at found
  refine ⟨path.moves, List.prefix_rfl, ?_⟩
  rw [← filter_pathPieces, foldl_movedBy_filter, foldlM_eq_movedBy found]

end OnWay

/-- All directories that a change makes are within some places. -/
def MakesWithin (within : Location → Prop) (before after : FileSystem) : Prop :=
  ∀ place, after.node? place = some .directory → before.node? place = some .directory ∨ within place

namespace MakesWithin

theorem refl (files : FileSystem) : MakesWithin within files files :=
  fun _ => .inl

theorem trans (first : MakesWithin within before middle) (second : MakesWithin within middle after) :
    MakesWithin within before after := by
  intro place is_directory
  rcases second place is_directory with earlier | in_places
  · exact first place earlier
  · exact .inr in_places

theorem mono (makes : MakesWithin within before after)
    (covers : ∀ place, within place → larger place) : MakesWithin larger before after :=
  fun place is_directory => (makes place is_directory).imp_right (covers place)

end MakesWithin

/-- Setting a node makes a directory at its place at most. -/
theorem makesWithin_set (files : FileSystem) (node : Node) :
    MakesWithin (fun place => place = location ∧ node = .directory) files
      (files.set location node) := by
  intro place is_directory
  by_cases here : place = location
  · subst here
    by_cases is_root : place = []
    · exact .inl (if_pos is_root)
    · rw [node?_set_self files node is_root] at is_directory
      exact .inr ⟨rfl, Option.some.inj is_directory⟩
  · rw [node?_set_of_ne files node here] at is_directory
    exact .inl is_directory

section Making

private theorem makeDirectory_makesWithin (made_eq : files.makeDirectory path = .ok made) :
    MakesWithin (files.OnWay path) files made := by
  unfold makeDirectory at made_eq
  obtain ⟨location, found, made_eq⟩ := bind_eq_ok.mp made_eq
  split at made_eq
  · cases made_eq
  · obtain rfl := Except.ok.inj made_eq
    refine (makesWithin_set files .directory).mono ?_
    rintro _ ⟨rfl, -⟩
    exact onWay_of_locate found

private theorem makeAgain_makesWithin (files : FileSystem) (path : Path) :
    MakesWithin (files.OnWay path) files (files.makeAgain path).1 := by
  unfold makeAgain
  split
  · next made_eq => exact makeDirectory_makesWithin made_eq
  · exact .refl files

/-- No directory is made that a path does not come by, along the line of its ancestors. -/
theorem Ancestry.makesWithin {parents : List Path} (line : Ancestry path parents)
    (formed : files.WellFormed) :
    MakesWithin (files.OnWay path) files (files.makeAncestors (path :: parents)).1 := by
  induction line with
  | start trimmed staying =>
    rw [(Settled.of_stays formed trimmed staying).again]
    exact .refl files
  | @above path parent parents leading leads_from line ih =>
    have not_empty := not_empty_of_leads leading
    -- The directory is made at once, behind its parents, or not at all.
    cases attempt : files.makeDirectory path with
    | ok made =>
      rw [makeAncestors_made not_empty attempt]
      exact makeDirectory_makesWithin attempt
    | error fault =>
      by_cases missing : fault = .missing
      · subst missing
        rw [makeAncestors_missing not_empty attempt]
        have keeps := makeAncestors_keeps files (parent :: parents)
        rcases parents_eq : files.makeAncestors (parent :: parents) with ⟨grown, result⟩
        rw [parents_eq] at ih keeps
        have above := ih.mono fun _ => OnWay.of_leadsFrom leads_from
        cases result with
        | error fault => exact above
        | ok =>
          have again := (makeAgain_makesWithin grown path).mono fun _ on_way =>
            on_way.keep keeps.working
          exact above.trans again
      · rw [makeAncestors_stopped not_empty attempt missing]
        exact .refl files

private theorem makeParents_makesWithin (formed : files.WellFormed)
    (leads_from : parent.LeadsFrom path) (parent_eq : path.parent? = some parent) :
    MakesWithin (files.OnWay parent) files (files.makeParents path).1 := by
  obtain ⟨parents, ancestors_eq, line⟩ :=
    exists_ancestry leads_from.trimmed (Nat.le_of_eq String.length_toList)
  have makes := line.makesWithin formed
  rw [← ancestors_eq] at makes
  rw [makeParents, parent_eq]
  exact makes

private theorem write_makesWithin (write_eq : files.write path content = .ok saved) :
    MakesWithin within files saved := by
  obtain ⟨location, -, -, rfl⟩ := write_eq_set write_eq
  refine (makesWithin_set files _).mono ?_
  rintro place ⟨-, is_directory⟩
  cases is_directory

/-- Saving makes the directories on the way to the one above the file. -/
theorem save_makesWithin (formed : files.WellFormed)
    (leading : stays (lastPiece path.text.toList) = false) :
    ∃ parent, parent.LeadsFrom path ∧
      MakesWithin (files.OnWay parent) files (files.save path content).1 := by
  obtain ⟨parent, parent_eq, leads_from⟩ := exists_parent leading
  refine ⟨parent, leads_from, ?_⟩
  have makes := makeParents_makesWithin formed leads_from parent_eq
  unfold save
  split
  · next made_eq => rwa [made_eq] at makes
  · next made_eq =>
    rw [made_eq] at makes
    split
    · exact makes
    · next write_eq => exact makes.trans (write_makesWithin write_eq)

end Making

end SuiteMigration.FileSystem
