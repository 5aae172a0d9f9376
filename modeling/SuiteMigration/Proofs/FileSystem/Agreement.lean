import Mathlib.Data.List.Infix
import SuiteMigration.Proofs.FileSystem.Remaking

/-!
# Trees that agree but for strays

Strays are places where two trees may differ, as long as neither has a directory there. A path that
comes by no stray leads to the same place in both, and what is made or written on it is the same.
-/
namespace SuiteMigration.FileSystem

open SuiteMigration.Path

variable {strays : Location → Prop} {files left right after : FileSystem} {path parent : Path}
  {location next place : Location} {piece : List Char} {moves : List (List Char)} {node : Node}
  {content : Content} {written : Location → Prop}

/-- Where a move leads, whatever is there. -/
def movedBy (location : Location) (piece : List Char) : Location :=
  if stays piece then location
  else if piece = ['.', '.'] then location.dropLast
  else location ++ [String.ofList piece]

private theorem step_eq_movedBy (stepped : files.step location piece = .ok next) :
    next = movedBy location piece := by
  obtain ⟨-, ⟨staying, rfl⟩ | ⟨rfl, rfl⟩ | ⟨leading, not_up, -, rfl⟩⟩ := step_cases stepped
  · simp [movedBy, staying]
  · simp [movedBy, stays]
  · simp [movedBy, leading, not_up]

theorem foldlM_eq_movedBy (walked : moves.foldlM files.step location = .ok next) :
    next = moves.foldl movedBy location := by
  induction moves generalizing location with
  | nil => exact (Except.ok.inj walked).symm
  | cons piece rest ih =>
    rw [List.foldlM_cons] at walked
    obtain ⟨middle, stepped, walked⟩ := bind_eq_ok.mp walked
    obtain rfl := step_eq_movedBy stepped
    exact ih walked

/-- Some moves of a path come by a place, or lead there. -/
def OnWay (files : FileSystem) (path : Path) (place : Location) : Prop :=
  ∃ front, front <+: path.moves ∧ front.foldl movedBy (files.start path) = place

instance (files : FileSystem) (path : Path) (place : Location) : Decidable (files.OnWay path place) :=
  decidable_of_iff
    (∃ front ∈ path.moves.inits, front.foldl movedBy (files.start path) = place)
    (by simp only [OnWay, List.mem_inits])

/-- Moves decide which places a path comes by. -/
theorem onWay_congr {other : Path} (moves_eq : path.moves = other.moves)
    (absolute_eq : path.isAbsolute = other.isAbsolute) :
    files.OnWay path place ↔ files.OnWay other place := by
  rw [OnWay, OnWay, moves_eq, start_congr absolute_eq]

/-- A path comes by what its parent comes by. -/
theorem OnWay.of_leadsFrom (leads_from : parent.LeadsFrom path) (on_way : files.OnWay parent place) :
    files.OnWay path place := by
  obtain ⟨front, front_prefix, rfl⟩ := on_way
  refine ⟨front, front_prefix.trans ?_, by rw [start_eq leads_from]⟩
  rw [leads_from.moves_eq]
  exact List.prefix_append _ _

theorem OnWay.keep (on_way : after.OnWay path place) (working : after.working = files.working) :
    files.OnWay path place := by
  obtain ⟨front, front_prefix, rfl⟩ := on_way
  have same_start : files.start path = after.start path := by
    rw [start, start, working]
  exact ⟨front, front_prefix, by rw [same_start]⟩

/-- A path that neither comes by a stray nor leads to one. -/
def Avoids (strays : Location → Prop) (files : FileSystem) (path : Path) : Prop :=
  ∀ place, files.OnWay path place → ¬strays place

theorem Avoids.of_leadsFrom (avoids : Avoids strays files path) (leads_from : parent.LeadsFrom path) :
    Avoids strays files parent :=
  fun place on_way => avoids place (on_way.of_leadsFrom leads_from)

theorem Avoids.keep (avoids : Avoids strays files path) (working : after.working = files.working) :
    Avoids strays after path :=
  fun place on_way => avoids place (on_way.keep working)

/-- Two trees that are the same but for strays, which are no directories. -/
structure Agree (strays : Location → Prop) (left right : FileSystem) : Prop where
  left_formed : left.WellFormed
  right_formed : right.WellFormed
  working : right.working = left.working
  locked : right.locked = left.locked
  node : ∀ {place}, ¬strays place → right.node? place = left.node? place
  stray : ∀ {place}, strays place →
    left.node? place ≠ some .directory ∧ right.node? place ≠ some .directory

namespace Agree

section Walking

variable (agree : Agree strays left right)
include agree

theorem directory_iff : right.node? place = some .directory ↔ left.node? place = some .directory := by
  by_cases is_stray : strays place
  · obtain ⟨left_not, right_not⟩ := agree.stray is_stray
    exact ⟨fun found => absurd found right_not, fun found => absurd found left_not⟩
  · rw [agree.node is_stray]

theorem same_start (path : Path) : right.start path = left.start path := by
  rw [start, start, agree.working]

/-- A path leads to a directory in both trees or in none. -/
theorem directory?_eq (path : Path) : right.directory? path = left.directory? path := by
  have forth : Keeps (fun _ => True) left right :=
    ⟨agree.working, agree.directory_iff.mpr, fun unwritten => absurd trivial unwritten⟩
  have back : Keeps (fun _ => True) right left :=
    ⟨agree.working.symm, agree.directory_iff.mp, fun unwritten => absurd trivial unwritten⟩
  cases found : left.directory? path with
  | some location => exact forth.directory? found
  | none =>
    cases other_found : right.directory? path with
    | none => rfl
    | some location =>
      rw [back.directory? other_found] at found
      cases found

private theorem isDirectory_eq (path : Path) : right.isDirectory path = left.isDirectory path := by
  rw [isDirectory, isDirectory, agree.directory?_eq]

theorem step_eq (off : ¬strays location) (piece : List Char) :
    right.step location piece = left.step location piece := by
  unfold step
  rw [agree.node off]

private theorem foldlM_eq
    (avoids : ∀ front, front <+: moves → ¬strays (front.foldl movedBy location)) :
    moves.foldlM right.step location = moves.foldlM left.step location := by
  induction moves generalizing location with
  | nil => rfl
  | cons piece rest ih =>
    have off : ¬strays location := avoids [] List.nil_prefix
    rw [List.foldlM_cons, List.foldlM_cons, agree.step_eq off]
    cases stepped : left.step location piece with
    | error fault => rfl
    | ok next =>
      obtain rfl := step_eq_movedBy stepped
      apply ih
      intro front front_prefix
      exact avoids (piece :: front) (List.prefix_cons_inj piece |>.mpr front_prefix)

/-- Below a parent that comes by no stray, a path leads to the same place. There may be a stray. -/
theorem locate_eq (leading : stays (lastPiece path.text.toList) = false)
    (leads_from : parent.LeadsFrom path) (avoids : Avoids strays left parent) :
    right.locate path = left.locate path := by
  cases refused : refusal? path with
  | some fault => rw [locate_refused refused, locate_refused refused]
  | none =>
    have parent_eq : parent.moves.foldlM right.step (left.start path)
        = parent.moves.foldlM left.step (left.start path) := by
      apply agree.foldlM_eq
      intro front front_prefix
      exact avoids _ ⟨front, front_prefix, by rw [start_eq leads_from]⟩
    rw [locate_leads refused leading, locate_leads refused leading, agree.same_start,
      leads_from.moves_eq, List.foldlM_append, List.foldlM_append, parent_eq]
    cases walked : parent.moves.foldlM left.step (left.start path) with
    | error fault => rfl
    | ok place =>
      obtain rfl := foldlM_eq_movedBy walked
      have off : ¬strays (parent.moves.foldl movedBy (left.start path)) :=
        avoids _ ⟨parent.moves, List.prefix_rfl, by rw [start_eq leads_from]⟩
      show [lastPiece path.text.toList].foldlM right.step _ = [lastPiece path.text.toList].foldlM _ _
      rw [List.foldlM_cons, List.foldlM_cons, agree.step_eq off]
      rfl

end Walking

/-- A path that avoids strays leads to none. -/
theorem off_of_locate (leading : stays (lastPiece path.text.toList) = false)
    (avoids : Avoids strays files path) (found : files.locate path = .ok location) :
    ¬strays location := by
  rw [locate_leads (accepted_of_locate found) leading] at found
  exact avoids _ ⟨path.moves, List.prefix_rfl, (foldlM_eq_movedBy found).symm⟩

/-- Setting a node in both trees, where it is no directory if there is a stray. -/
theorem set (agree : Agree strays left right) (not_root : place ≠ [])
    (left_formed : (left.set place node).WellFormed) (right_formed : (right.set place node).WellFormed)
    (at_stray : strays place → node ≠ .directory) :
    Agree strays (left.set place node) (right.set place node) where
  left_formed := left_formed
  right_formed := right_formed
  working := agree.working
  locked := agree.locked
  node {other} off := by
    by_cases here : other = place
    · rw [here, node?_set_self left node not_root, node?_set_self right node not_root]
    · rw [node?_set_of_ne left node here, node?_set_of_ne right node here, agree.node off]
  stray {other} is_stray := by
    by_cases here : other = place
    · subst here
      rw [node?_set_self left node not_root, node?_set_self right node not_root]
      have no_directory : some node ≠ some .directory :=
        fun same => at_stray is_stray (Option.some.inj same)
      exact ⟨no_directory, no_directory⟩
    · rw [node?_set_of_ne left node here, node?_set_of_ne right node here]
      exact agree.stray is_stray

section Making

theorem makeDirectory (agree : Agree strays left right)
    (leading : stays (lastPiece path.text.toList) = false) (avoids : Avoids strays left path) :
    (∃ fault, left.makeDirectory path = .error fault ∧ right.makeDirectory path = .error fault) ∨
    ∃ grown other, left.makeDirectory path = .ok grown ∧ right.makeDirectory path = .ok other ∧
      Agree strays grown other := by
  obtain ⟨parent, -, leads_from⟩ := exists_parent leading
  have same := agree.locate_eq leading leads_from (avoids.of_leadsFrom leads_from)
  cases located : left.locate path with
  | error fault =>
    rw [located] at same
    exact .inl ⟨fault, makeDirectory_of_locate_error located, makeDirectory_of_locate_error same⟩
  | ok location =>
    rw [located] at same
    have off := off_of_locate leading avoids located
    -- The location is no stray, so both trees have the same node there.
    cases node_eq : left.node? location with
    | some node =>
      refine .inl ⟨.alreadyThere, makeDirectory_of_node? located node_eq, ?_⟩
      exact makeDirectory_of_node? same ((agree.node off).trans node_eq)
    | none =>
      have other_eq := (agree.node off).trans node_eq
      have left_made : left.makeDirectory path = .ok (left.set location .directory) := by
        simp [FileSystem.makeDirectory, located, node_eq, bind, Except.bind]
      have right_made : right.makeDirectory path = .ok (right.set location .directory) := by
        simp [FileSystem.makeDirectory, same, other_eq, bind, Except.bind]
      have left_grows : Grows (fun _ => False) left _ := makeDirectory_grows agree.left_formed left_made
      have right_grows : Grows (fun _ => False) right _ :=
        makeDirectory_grows agree.right_formed right_made
      refine .inr ⟨_, _, left_made, right_made, ?_⟩
      exact agree.set (@ne_root_of_node? left _ (by simp [node_eq]))
        (left_grows.wellFormed agree.left_formed) (right_grows.wellFormed agree.right_formed)
        fun is_stray => absurd is_stray off

/-- The second attempt to make a directory, for which those above it are there. -/
theorem makeAgain (agree : Agree strays left right)
    (leading : stays (lastPiece path.text.toList) = false) (avoids : Avoids strays left path) :
    ∃ result grown other, left.makeAgain path = (grown, result) ∧
      right.makeAgain path = (other, result) ∧ Agree strays grown other := by
  rcases agree.makeDirectory leading avoids with
    ⟨fault, left_failed, right_failed⟩ | ⟨grown, other, left_made, right_made, made_agree⟩
  · refine ⟨if left.isDirectory path then .ok () else .error fault, left, right, ?_, ?_, agree⟩
    · simp only [FileSystem.makeAgain, left_failed]
    · simp only [FileSystem.makeAgain, right_failed, agree.isDirectory_eq]
  · refine ⟨.ok (), grown, other, ?_, ?_, made_agree⟩
    · simp only [FileSystem.makeAgain, left_made]
    · simp only [FileSystem.makeAgain, right_made]

/-- The directories of a path are made alike. -/
theorem makeAncestors (agree : Agree strays left right) {parents : List Path}
    (line : Ancestry path parents) (avoids : Avoids strays left path) :
    ∃ result grown other, left.makeAncestors (path :: parents) = (grown, result) ∧
      right.makeAncestors (path :: parents) = (other, result) ∧ Agree strays grown other := by
  induction line with
  | start trimmed staying =>
    exact ⟨.ok (), left, right, (Settled.of_stays agree.left_formed trimmed staying).again _,
      (Settled.of_stays agree.right_formed trimmed staying).again _, agree⟩
  | @above path parent parents leading leads_from line ih =>
    have not_empty := not_empty_of_leads leading
    rcases agree.makeDirectory leading avoids with
      ⟨fault, left_failed, right_failed⟩ | ⟨grown, other, left_made, right_made, made_agree⟩
    · by_cases missing : fault = .missing
      · subst missing
        obtain ⟨result, grown, other, left_eq, right_eq, grown_agree⟩ :=
          ih (avoids.of_leadsFrom leads_from)
        have keeps := makeAncestors_keeps left (parent :: parents)
        rw [left_eq] at keeps
        rw [makeAncestors_missing not_empty left_failed, makeAncestors_missing not_empty right_failed,
          left_eq, right_eq]
        cases result with
        | error fault => exact ⟨.error fault, grown, other, rfl, rfl, grown_agree⟩
        | ok => exact grown_agree.makeAgain leading (avoids.keep keeps.working)
      · refine ⟨_, left, right, makeAncestors_stopped not_empty left_failed missing _, ?_, agree⟩
        rw [makeAncestors_stopped not_empty right_failed missing, agree.isDirectory_eq]
    · exact ⟨.ok (), grown, other, makeAncestors_made not_empty left_made _,
        makeAncestors_made not_empty right_made _, made_agree⟩

/-- The directories above a file are made alike. -/
theorem makeParents (agree : Agree strays left right)
    (leading : stays (lastPiece path.text.toList) = false)
    (avoids : ∀ parent, parent.LeadsFrom path → Avoids strays left parent) :
    ∃ result grown other, left.makeParents path = (grown, result) ∧
      right.makeParents path = (other, result) ∧ Agree strays grown other := by
  obtain ⟨parent, parent_eq, leads_from⟩ := exists_parent leading
  obtain ⟨parents, ancestors_eq, line⟩ :=
    exists_ancestry leads_from.trimmed (Nat.le_of_eq String.length_toList)
  obtain ⟨outcome, grown, other, left_eq, right_eq, grown_agree⟩ :=
    agree.makeAncestors line (avoids parent leads_from)
  refine ⟨outcome.mapError (.write parent), grown, other, ?_, ?_, grown_agree⟩
  · simp only [FileSystem.makeParents, parent_eq, makeDirectories, ancestors_eq, left_eq]
  · simp only [FileSystem.makeParents, parent_eq, makeDirectories, ancestors_eq, right_eq]

end Making

section Saving

theorem write (agree : Agree strays left right) (same : right.locate path = left.locate path) :
    (∃ fault, left.write path content = .error fault ∧ right.write path content = .error fault) ∨
    ∃ saved other, left.write path content = .ok saved ∧ right.write path content = .ok other ∧
      Agree strays saved other := by
  cases located : left.locate path with
  | error fault =>
    rw [located] at same
    refine .inl ⟨fault, ?_, ?_⟩
    · simp [FileSystem.write, located, bind, Except.bind]
    · simp [FileSystem.write, same, bind, Except.bind]
  | ok location =>
    rw [located] at same
    by_cases blocked : endsInSlash path = true ∨ left.node? location = some .directory
    · refine .inl ⟨.isDirectory, ?_, ?_⟩
      · simp [FileSystem.write, located, bind, Except.bind, blocked]
      · simp [FileSystem.write, same, bind, Except.bind, agree.directory_iff, blocked]
    · have no_directory := (not_or.mp blocked).2
      have other_no_directory : right.node? location ≠ some .directory :=
        no_directory ∘ agree.directory_iff.mp
      have left_grows : Grows (fun _ => True) left (left.set location (.file content)) :=
        write_grows agree.left_formed located no_directory trivial
      have right_grows : Grows (fun _ => True) right (right.set location (.file content)) :=
        write_grows agree.right_formed same other_no_directory trivial
      refine .inr ⟨left.set location (.file content), right.set location (.file content), ?_, ?_, ?_⟩
      · simp [FileSystem.write, located, bind, Except.bind, blocked]
      · simp [FileSystem.write, same, bind, Except.bind, agree.directory_iff, blocked]
      · exact agree.set (ne_root_of_node? no_directory) (left_grows.wellFormed agree.left_formed)
          (right_grows.wellFormed agree.right_formed) fun _ => Node.noConfusion

/-- A file is saved alike below directories that come by no stray. It may take the place of one. -/
theorem save (agree : Agree strays left right)
    (leading : stays (lastPiece path.text.toList) = false)
    (avoids : ∀ parent, parent.LeadsFrom path → Avoids strays left parent) :
    ∃ result saved other, left.save path content = (saved, result) ∧
      right.save path content = (other, result) ∧ Agree strays saved other := by
  obtain ⟨result, grown, other, left_eq, right_eq, grown_agree⟩ := agree.makeParents leading avoids
  cases result with
  | error failure =>
    refine ⟨.error failure, grown, other, ?_, ?_, grown_agree⟩
    · simp only [FileSystem.save, left_eq]
    · simp only [FileSystem.save, right_eq]
  | ok =>
    obtain ⟨parent, -, leads_from⟩ := exists_parent leading
    have grown_avoids : Avoids strays grown parent := by
      have keeps := makeParents_keeps left path
      rw [left_eq] at keeps
      exact (avoids parent leads_from).keep keeps.working
    rcases @write _ _ _ path content grown_agree
        (grown_agree.locate_eq leading leads_from grown_avoids) with
      ⟨fault, left_failed, right_failed⟩ | ⟨saved, other_saved, left_saved, right_saved, saved_agree⟩
    · refine ⟨.error (.write path fault), grown, other, ?_, ?_, grown_agree⟩
      · simp only [FileSystem.save, left_eq, left_failed]
      · simp only [FileSystem.save, right_eq, right_failed]
    · refine ⟨.ok (), saved, other_saved, ?_, ?_, saved_agree⟩
      · simp only [FileSystem.save, left_eq, left_saved]
      · simp only [FileSystem.save, right_eq, right_saved]

end Saving

end Agree

end SuiteMigration.FileSystem
