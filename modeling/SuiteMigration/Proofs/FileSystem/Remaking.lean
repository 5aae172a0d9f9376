import SuiteMigration.Proofs.FileSystem.WellFormed

/-!
# Making directories again

Making a directory a second time ends as it did the first time and changes nothing, however the tree
has grown in between. The one exception is a path that goes up by a double dot from a place where
nothing was.
-/
namespace SuiteMigration.FileSystem

open SuiteMigration.Path

variable {files before after made : FileSystem} {path parent : Path}
  {location : Location} {content : Content} {written : Location → Prop} {fault : Fault}
  {result : Except Fault Unit} {moves : List (List Char)}

section Failing

private theorem foldlM_step_error {start : Location}
    (failed : moves.foldlM files.step start = .error fault) :
    ∃ front piece back place, moves = front ++ piece :: back ∧
      front.foldlM files.step start = .ok place ∧ files.step place piece = .error fault := by
  induction moves generalizing start with
  | nil => cases failed
  | cons piece rest ih =>
    rw [List.foldlM_cons] at failed
    cases stepped : files.step start piece with
    | error other =>
      rw [stepped] at failed
      obtain rfl := Except.error.inj failed
      exact ⟨[], piece, rest, start, rfl, rfl, stepped⟩
    | ok next =>
      rw [stepped] at failed
      obtain ⟨front, last, back, place, rfl, found, last_failed⟩ := ih failed
      refine ⟨piece :: front, last, back, place, rfl, ?_, last_failed⟩
      rw [List.foldlM_cons, stepped]
      exact found

private theorem foldlM_absent (absent : files.node? location = none) (piece : List Char)
    (rest : List (List Char)) :
    (piece :: rest).foldlM files.step location = .error .missing := by
  rw [List.foldlM_cons, step_absent absent]
  rfl

private theorem foldlM_error_append {start : Location} (more : List (List Char))
    (failed : moves.foldlM files.step start = .error fault) :
    (moves ++ more).foldlM files.step start = .error fault := by
  rw [List.foldlM_append, failed]
  rfl

/-- A walk that something stops is stopped there for good; only what was missing can come. -/
theorem Grows.foldlM_error (grows : Grows written before after) {start : Location}
    (failed : moves.foldlM before.step start = .error fault) (lasting : fault ≠ .missing) :
    moves.foldlM after.step start = .error fault := by
  obtain ⟨front, piece, back, place, rfl, found, stopped⟩ := foldlM_step_error failed
  have still_stopped : after.step place piece = .error fault := by
    rcases step_error stopped with ⟨-, rfl⟩ | ⟨⟨content, is_file⟩, rfl⟩ | ⟨is_directory, rfl, -⟩
    · exact absurd rfl lasting
    · obtain ⟨other, is_file⟩ := grows.file_stays is_file
      exact step_file is_file
    · -- The name is too long in every directory.
      unfold step at stopped ⊢
      rw [is_directory] at stopped
      rw [grows.keeps.directory is_directory]
      exact stopped
  rw [List.foldlM_append, grows.keeps.foldlM_step found]
  show (do let next ← after.step place piece; back.foldlM after.step next) = _
  rw [still_stopped]
  rfl

theorem Grows.start (grows : Grows written before after) (path : Path) :
    after.start path = before.start path := by
  rw [FileSystem.start, FileSystem.start, grows.keeps.working]

theorem Grows.locate_error (grows : Grows written before after)
    (failed : before.locate path = .error fault) (lasting : fault ≠ .missing) :
    after.locate path = .error fault := by
  cases refused : refusal? path with
  | some other => rwa [locate_refused refused] at failed ⊢
  | none =>
    rw [locate_accepted refused] at failed ⊢
    rw [grows.start]
    exact grows.foldlM_error failed lasting

end Failing

section Grounded

/-- No double dot of the path goes up from a place where nothing is. -/
def Grounded (files : FileSystem) (path : Path) : Prop :=
  ∀ front back, path.moves = front ++ ['.', '.'] :: back →
    (front ++ [['.', '.']]).foldlM files.step (files.start path) ≠ .error .missing

theorem Grounded.of_leadsFrom (grounded : files.Grounded path) (leads_from : parent.LeadsFrom path) :
    files.Grounded parent := by
  intro front back moves_eq
  rw [start_congr leads_from.isAbsolute_eq]
  refine grounded front (back ++ [lastPiece path.text.toList]) ?_
  rw [leads_from.moves_eq, moves_eq]
  simp

private theorem exists_way_of_names {start : Location} (names : ['.', '.'] ∉ moves)
    (found : moves.foldlM files.step start = .ok location) : ∃ way, location = start ++ way := by
  induction moves generalizing start with
  | nil => exact ⟨[], by simpa using (Except.ok.inj found).symm⟩
  | cons piece rest ih =>
    rw [List.mem_cons, not_or] at names
    rw [List.foldlM_cons] at found
    obtain ⟨next, stepped, found⟩ := bind_eq_ok.mp found
    obtain ⟨way, rfl⟩ := ih names.2 found
    obtain ⟨-, ⟨-, rfl⟩ | ⟨up, -⟩ | ⟨-, -, -, rfl⟩⟩ := step_cases stepped
    · exact ⟨way, rfl⟩
    · exact absurd up.symm names.1
    · exact ⟨String.ofList piece :: way, by simp⟩

/-- Where a grounded path leads that led nowhere before, nothing was before. -/
theorem Grounded.absent (grounded : files.Grounded path) (formed : files.WellFormed)
    (keeps : Keeps written files after)
    (missing : path.moves.foldlM files.step (files.start path) = .error .missing)
    (found : path.moves.foldlM after.step (files.start path) = .ok location) (way : Location) :
    files.node? (location ++ way) = none := by
  obtain ⟨front, piece, back, place, moves_eq, front_eq, stopped⟩ := foldlM_step_error missing
  have absent : files.node? place = none := by
    rcases step_error stopped with ⟨absent, -⟩ | ⟨-, fault_eq⟩ | ⟨-, fault_eq, -⟩
    · exact absent
    · cases fault_eq
    · cases fault_eq
  -- A double dot from there on would go up from nothing.
  have names : ['.', '.'] ∉ piece :: back := by
    intro up_mem
    obtain ⟨inner, outer, rest_eq⟩ := List.mem_iff_append.mp up_mem
    refine grounded (front ++ inner) outer (by rw [moves_eq, rest_eq, List.append_assoc]) ?_
    rw [List.append_assoc, List.foldlM_append, front_eq]
    show (inner ++ [['.', '.']]).foldlM files.step place = .error .missing
    cases inner with
    | nil => exact foldlM_absent absent _ []
    | cons other others => exact foldlM_absent absent other _
  rw [moves_eq, List.foldlM_append, keeps.foldlM_step front_eq] at found
  obtain ⟨behind, rfl⟩ := exists_way_of_names names found
  rw [List.append_assoc]
  exact formed.absent_below absent _

end Grounded

section Attempt

theorem not_empty_of_locate (not_missing : files.locate path ≠ .error .missing) :
    path.text.isEmpty = false := by
  cases empty : path.text.isEmpty with
  | false => rfl
  | true =>
    unfold locate at not_missing
    exact absurd (if_pos empty) not_missing

theorem not_empty_of_leads (leading : stays (lastPiece path.text.toList) = false) :
    path.text.isEmpty = false := by
  cases empty : path.text.isEmpty with
  | false => rfl
  | true =>
    have text_eq : path.text.toList = [] := by simpa using empty
    simp [text_eq, lastPiece, stays] at leading

private theorem makeDirectory_error_cases (failed : files.makeDirectory path = .error fault) :
    files.locate path = .error fault ∨
      (fault = .alreadyThere ∧ ∃ location node, files.locate path = .ok location ∧
        files.node? location = some node) := by
  unfold makeDirectory at failed
  cases located : files.locate path with
  | error other =>
    rw [located] at failed
    exact .inl (congrArg Except.error (Except.error.inj failed))
  | ok location =>
    simp only [located, bind, Except.bind] at failed
    split at failed
    · next node node_eq =>
      exact .inr ⟨(Except.error.inj failed).symm, location, node, rfl, node_eq⟩
    · cases failed

private theorem locate_of_makeDirectory_missing
    (failed : files.makeDirectory path = .error .missing) :
    files.locate path = .error .missing := by
  rcases makeDirectory_error_cases failed with missing | ⟨fault_eq, -⟩
  · exact missing
  · cases fault_eq

theorem makeDirectory_of_locate_error (failed : files.locate path = .error fault) :
    files.makeDirectory path = .error fault := by
  simp [makeDirectory, failed, bind, Except.bind]

theorem makeDirectory_of_node? {node : Node} (located : files.locate path = .ok location)
    (node_eq : files.node? location = some node) :
    files.makeDirectory path = .error .alreadyThere := by
  simp [makeDirectory, located, node_eq, bind, Except.bind]

private theorem isDirectory_of_locate_error (failed : files.locate path = .error fault) :
    files.isDirectory path = false := by
  simp [isDirectory, directory?, open?, failed, bind, Except.bind]

theorem isDirectory_of_locate (located : files.locate path = .ok location) :
    files.isDirectory path = decide (files.node? location = some .directory) := by
  cases found : files.directory? path with
  | some other =>
    obtain ⟨other_eq, is_directory⟩ := directory?_eq_some.mp found
    obtain rfl := Except.ok.inj (located.symm.trans other_eq)
    simp [isDirectory, found, is_directory]
  | none =>
    have no_directory : files.node? location ≠ some .directory := by
      intro is_directory
      rw [directory?_eq_some.mpr ⟨located, is_directory⟩] at found
      cases found
    simp [isDirectory, found, no_directory]

theorem makeAncestors_made (not_empty : path.text.isEmpty = false)
    (made_eq : files.makeDirectory path = .ok made) (parents : List Path) :
    files.makeAncestors (path :: parents) = (made, .ok ()) := by
  rw [makeAncestors, not_empty, if_neg Bool.false_ne_true, made_eq]

/-- The second attempt to make a directory. -/
def makeAgain (files : FileSystem) (path : Path) : FileSystem × Except Fault Unit :=
  match files.makeDirectory path with
  | .ok made => (made, .ok ())
  | .error fault => (files, if files.isDirectory path then .ok () else .error fault)

/-- An attempt that a missing directory stops is made again with the directories above. -/
theorem makeAncestors_missing (not_empty : path.text.isEmpty = false)
    (missing : files.makeDirectory path = .error .missing) (parents : List Path) :
    files.makeAncestors (path :: parents) = match files.makeAncestors parents with
      | (grown, .error fault) => (grown, .error fault)
      | (grown, .ok ()) => grown.makeAgain path := by
  rw [makeAncestors, not_empty, if_neg Bool.false_ne_true, missing]
  rfl

/-- An attempt that something other than a missing directory stops is the only one. -/
theorem makeAncestors_stopped (not_empty : path.text.isEmpty = false)
    (failed : files.makeDirectory path = .error fault) (lasting : fault ≠ .missing)
    (parents : List Path) : files.makeAncestors (path :: parents)
      = (files, if files.isDirectory path then .ok () else .error fault) := by
  unfold makeAncestors
  rw [not_empty, if_neg Bool.false_ne_true, failed]
  cases fault <;> first | rfl | exact absurd rfl lasting

end Attempt

/-- How making the directories of a path ends, and why it will end like this from now on. -/
inductive Settled (files : FileSystem) (path : Path) : Except Fault Unit → Prop where
  | nowhere (empty : path.text.isEmpty = true) : Settled files path (.ok ())
  | there {location : Location} (found : files.directory? path = some location) :
      Settled files path (.ok ())
  | stopped {fault : Fault} (failed : files.locate path = .error fault)
      (lasting : fault ≠ .missing) : Settled files path (.error fault)
  | file {location : Location} {content : Content} (found : files.locate path = .ok location)
      (is_file : files.node? location = some (.file content)) :
      Settled files path (.error .alreadyThere)

namespace Settled

theorem grow (settled : before.Settled path result) (grows : Grows written before after) :
    after.Settled path result := by
  cases settled with
  | nowhere empty => exact .nowhere empty
  | there found => exact .there (grows.keeps.directory? found)
  | stopped failed lasting => exact .stopped (grows.locate_error failed lasting) lasting
  | file found is_file =>
    obtain ⟨other, is_file⟩ := grows.file_stays is_file
    exact .file (grows.keeps.locate found) is_file

/-- An attempt to make a directory that ends for another reason than a missing one. -/
theorem of_makeDirectory_error (failed : files.makeDirectory path = .error fault)
    (lasting : fault ≠ .missing) :
    files.Settled path (if files.isDirectory path then .ok () else .error fault) := by
  rcases makeDirectory_error_cases failed with not_found | ⟨rfl, location, node, found, node_eq⟩
  · rw [isDirectory_of_locate_error not_found, if_neg Bool.false_ne_true]
    exact .stopped not_found lasting
  · rw [isDirectory_of_locate found]
    cases node with
    | directory => simpa [node_eq] using Settled.there (directory?_eq_some.mpr ⟨found, node_eq⟩)
    | file content => simpa [node_eq] using Settled.file found node_eq

private theorem of_makeDirectory_ok (formed : files.WellFormed)
    (made_eq : files.makeDirectory path = .ok made) : made.Settled path (.ok ()) := by
  have grows : Grows (fun _ => False) files made := makeDirectory_grows formed made_eq
  unfold makeDirectory at made_eq
  obtain ⟨location, found, made_eq⟩ := bind_eq_ok.mp made_eq
  split at made_eq
  · cases made_eq
  · next absent =>
    obtain rfl := Except.ok.inj made_eq
    have not_root : location ≠ [] := @ne_root_of_node? files _ (by simp [absent])
    exact .there (directory?_eq_some.mpr
      ⟨grows.keeps.locate found, node?_set_self files .directory not_root⟩)

private theorem of_makeAgain (formed : files.WellFormed)
    (made_eq : files.makeAgain path = (made, result))
    (not_missing : files.locate path ≠ .error .missing) : made.Settled path result := by
  unfold makeAgain at made_eq
  split at made_eq
  · next attempt_eq =>
    obtain ⟨rfl, rfl⟩ := Prod.mk.inj made_eq
    exact .of_makeDirectory_ok formed attempt_eq
  · next fault attempt_eq =>
    obtain ⟨rfl, rfl⟩ := Prod.mk.inj made_eq
    refine .of_makeDirectory_error attempt_eq ?_
    rintro rfl
    exact not_missing (locate_of_makeDirectory_missing attempt_eq)

/-- Made again, the directories of a path are as they were. -/
theorem again (settled : files.Settled path result) (parents : List Path) :
    files.makeAncestors (path :: parents) = (files, result) := by
  cases settled with
  | nowhere empty =>
    unfold makeAncestors
    rw [if_pos empty]
  | there found =>
    obtain ⟨located, is_directory⟩ := directory?_eq_some.mp found
    rw [makeAncestors_stopped (@not_empty_of_locate files _ (by simp [located]))
      (makeDirectory_of_node? located is_directory) (by decide),
      isDirectory_of_locate located]
    simp [is_directory]
  | @stopped fault failed lasting =>
    rw [makeAncestors_stopped (@not_empty_of_locate files _ (by simpa [failed] using lasting))
      (makeDirectory_of_locate_error failed) lasting, isDirectory_of_locate_error failed]
    rfl
  | file found is_file =>
    rw [makeAncestors_stopped (@not_empty_of_locate files _ (by simp [found]))
      (makeDirectory_of_node? found is_file) (by decide),
      isDirectory_of_locate found]
    simp [is_file]

private theorem of_before {other : Except Fault Unit} (settled : files.Settled path other)
    {parents : List Path} (made_eq : files.makeAncestors (path :: parents) = (made, result)) :
    made.Settled path result := by
  rw [settled.again] at made_eq
  obtain ⟨rfl, rfl⟩ := Prod.mk.inj made_eq
  exact settled

end Settled

section Making

theorem start_eq (leads_from : parent.LeadsFrom path) : files.start parent = files.start path :=
  start_congr leads_from.isAbsolute_eq

theorem start_directory (formed : files.WellFormed) (path : Path) :
    files.node? (files.start path) = some .directory := by
  unfold start
  split
  · rfl
  · exact formed.working

/-- The front of a path that is accepted is accepted, unless it is empty. -/
theorem accepted_of_front (accepted : refusal? path = none)
    (front : parent.text.toList <+: path.text.toList) (not_empty : parent.text.isEmpty = false) :
    refusal? parent = none := by
  obtain ⟨rest, text_eq⟩ := front
  have append_eq : path.text = parent.text ++ String.ofList rest := by
    rw [← String.toList_inj, String.toList_append, String.toList_ofList, text_eq]
  unfold refusal? at accepted ⊢
  split_ifs at accepted with _ has_nul long
  rw [← text_eq] at has_nul
  rw [append_eq, String.utf8ByteSize_append] at long
  simp only [List.contains_eq_mem, List.mem_append, decide_eq_true_eq, not_or] at has_nul
  rw [not_empty, if_neg Bool.false_ne_true, if_neg (by simpa using has_nul.1), if_neg (by omega)]

/-- Where a parent's directories are made or were, there is a directory to go on from. -/
theorem Settled.directory (settled : files.Settled parent (.ok ())) (formed : files.WellFormed)
    (leads_from : parent.LeadsFrom path) :
    ∃ place, parent.moves.foldlM files.step (files.start path) = .ok place ∧
      files.node? place = some .directory := by
  cases settled with
  | nowhere empty =>
    have text_eq : parent.text.toList = [] := by simpa using empty
    refine ⟨files.start path, ?_, start_directory formed path⟩
    simp [moves, movesOf, text_eq, Text.splitAt, stays]
    rfl
  | @there place found =>
    obtain ⟨-, moves_eq, is_directory⟩ := directory?_iff.mp found
    exact ⟨place, start_eq leads_from ▸ moves_eq, is_directory⟩

private theorem accepted_of_missing (not_empty : path.text.isEmpty = false)
    (missing : files.locate path = .error .missing) : refusal? path = none := by
  cases refused : refusal? path with
  | none => rfl
  | some fault =>
    rw [locate_refused refused] at missing
    obtain rfl := Except.error.inj missing
    unfold refusal? at refused
    split_ifs at refused <;> simp_all

/-- The root and the dot are there in every tree. -/
theorem directory?_of_stays (formed : files.WellFormed) (not_empty : path.text.isEmpty = false)
    (trimmed : IsTrimmed path.text.toList) (staying : stays (lastPiece path.text.toList) = true) :
    files.directory? path = some (files.start path) := by
  obtain ⟨text⟩ := path
  have short : text.toList = ['/'] ∨ text.toList = ['.'] := by
    rcases trimmed with short | leading
    · simp only [List.mem_cons, List.not_mem_nil, or_false] at short
      rcases short with empty | short
      · simp_all
      · exact short
    · rw [leading] at staying
      cases staying
  have accepted : refusal? ⟨text⟩ = none ∧ moves ⟨text⟩ = [] := by
    rcases short with text_eq | text_eq <;> rw [← String.ofList_toList (s := text), text_eq] <;> decide
  refine directory?_iff.mpr ⟨accepted.1, ?_, start_directory formed _⟩
  rw [accepted.2]
  rfl

/-- What stops a parent stops the path, too. A file in its way was there before, so the path was not
missing. -/
theorem Settled.stopped_below {grown : FileSystem} (settled : grown.Settled parent (.error fault))
    (formed : files.WellFormed) (grows : Grows (fun _ => False) files grown)
    (grounded : files.Grounded parent) (trimmed : IsTrimmed parent.text.toList)
    (missing : files.locate path = .error .missing) (leads_from : parent.LeadsFrom path)
    (accepted : refusal? path = none) (leading : stays (lastPiece path.text.toList) = false) :
    grown.Settled path (.error fault) := by
  have not_empty : parent.text.isEmpty = false := by
    cases settled with
    | stopped failed lasting => exact @not_empty_of_locate grown _ (by simpa [failed])
    | file found is_file => exact @not_empty_of_locate grown _ (by simp [found])
  have parent_accepted := accepted_of_front accepted leads_from.front not_empty
  have grown_formed := grows.wellFormed formed
  have parent_locate (tree : FileSystem) (tree_formed : tree.WellFormed) :
      tree.locate parent = parent.moves.foldlM tree.step (tree.start path) := by
    rw [locate_trimmed parent_accepted trimmed (start_directory tree_formed parent),
      start_eq leads_from]
  cases settled with
  | stopped failed lasting =>
    -- The path begins with the moves of its parent and fails where they do.
    refine .stopped ?_ lasting
    rw [parent_locate grown grown_formed] at failed
    rw [locate_leads accepted leading, leads_from.moves_eq]
    exact foldlM_error_append _ failed
  | @file place content found is_file =>
    rw [locate_leads accepted leading, leads_from.moves_eq, List.foldlM_append] at missing
    have was_file := (grows.keeps.file id).mp is_file
    -- If the parent was found before, it is that file. If not, there was no file.
    cases before_eq : parent.moves.foldlM files.step (files.start path) with
    | ok other =>
      rw [parent_locate grown grown_formed, grows.start,
        grows.keeps.foldlM_step before_eq] at found
      obtain rfl := Except.ok.inj found
      simp [before_eq, step_file was_file, bind, Except.bind] at missing
    | error other =>
      rw [before_eq] at missing
      obtain rfl := Except.error.inj missing
      rw [parent_locate grown grown_formed, grows.start] at found
      rw [← start_eq leads_from] at before_eq found
      have absent := grounded.absent formed grows.keeps before_eq found []
      rw [List.append_nil, was_file] at absent
      cases absent

/-- What only stays where it starts needs no directory to be made. -/
theorem Settled.of_stays (formed : files.WellFormed) (trimmed : IsTrimmed path.text.toList)
    (staying : stays (lastPiece path.text.toList) = true) : files.Settled path (.ok ()) := by
  cases empty : path.text.isEmpty with
  | true => exact .nowhere empty
  | false => exact .there (directory?_of_stays formed empty trimmed staying)

/-- Below a directory that was made, no path is stopped by a missing one. -/
theorem Settled.locate_ne_missing (settled : files.Settled parent (.ok ())) (formed : files.WellFormed)
    (leads_from : parent.LeadsFrom path) (leading : stays (lastPiece path.text.toList) = false) :
    files.locate path ≠ .error .missing := by
  intro missing
  have accepted := accepted_of_missing (not_empty_of_leads leading) missing
  obtain ⟨place, place_eq, is_directory⟩ := settled.directory formed leads_from
  rw [locate_leads accepted leading, leads_from.moves_eq, List.foldlM_append, place_eq] at missing
  have not_missing := step_ne_missing is_directory (lastPiece path.text.toList)
  cases stepped : files.step place (lastPiece path.text.toList) <;>
    simp_all [bind, Except.bind, pure, Except.pure]

/-- A path with its ancestors: each leads one move further than the next one, up to one that stays
where it starts. -/
inductive Ancestry : Path → List Path → Prop where
  | start {path : Path} {parents : List Path} (trimmed : IsTrimmed path.text.toList)
      (staying : stays (lastPiece path.text.toList) = true) : Ancestry path parents
  | above {path parent : Path} {parents : List Path}
      (leading : stays (lastPiece path.text.toList) = false) (leads_from : parent.LeadsFrom path)
      (line : Ancestry parent parents) : Ancestry path (parent :: parents)

theorem exists_ancestry {fuel : Nat} (trimmed : IsTrimmed path.text.toList)
    (enough : path.text.toList.length ≤ fuel) :
    ∃ parents, ancestors fuel path = path :: parents ∧ Ancestry path parents := by
  -- The induction is on the bound for the number of ancestors.
  induction fuel generalizing path with
  | zero =>
    have empty : path.text.toList = [] := by simpa using enough
    exact ⟨[], rfl, .start trimmed (by simp [empty, lastPiece, stays])⟩
  | succ fuel ih =>
    cases leading : stays (lastPiece path.text.toList) with
    | true =>
      cases parent_eq : path.parent? with
      | none => exact ⟨[], by rw [ancestors, parent_eq], .start trimmed leading⟩
      | some parent => exact ⟨_, by rw [ancestors, parent_eq], .start trimmed leading⟩
    | false =>
      obtain ⟨parent, parent_eq, leads_from⟩ := exists_parent leading
      have parent_enough : parent.text.toList.length ≤ fuel := by
        have shorter := leads_from.shorter
        omega
      obtain ⟨parents, ancestors_eq, line⟩ := ih leads_from.trimmed parent_enough
      exact ⟨parent :: parents, by rw [ancestors, parent_eq, ← ancestors_eq],
        .above leading leads_from line⟩

/-- Once the directories of a path are made, the outcome stands. -/
theorem Ancestry.settled {parents : List Path} (line : Ancestry path parents)
    (formed : files.WellFormed) (grounded : files.Grounded path)
    (made_eq : files.makeAncestors (path :: parents) = (made, result)) : made.Settled path result := by
  induction line generalizing made result with
  | start trimmed staying => exact (Settled.of_stays formed trimmed staying).of_before made_eq
  | @above path parent parents leading leads_from line ih =>
    have parent_grounded := grounded.of_leadsFrom leads_from
    have not_empty := not_empty_of_leads leading
    cases attempt_eq : files.makeDirectory path with
    | ok grown =>
      rw [makeAncestors_made not_empty attempt_eq] at made_eq
      obtain ⟨rfl, rfl⟩ := Prod.mk.inj made_eq
      exact .of_makeDirectory_ok formed attempt_eq
    | error fault =>
    by_cases is_missing : fault = .missing
    · subst is_missing
      have missing := locate_of_makeDirectory_missing attempt_eq
      have accepted := accepted_of_missing not_empty missing
      have parents_grow : Grows (fun _ => False) files (files.makeAncestors (parent :: parents)).1 :=
        makeAncestors_grows formed _
      rw [makeAncestors_missing not_empty attempt_eq] at made_eq
      rcases parents_eq : files.makeAncestors (parent :: parents) with ⟨grown, outcome⟩
      rw [parents_eq] at made_eq parents_grow
      have parent_settled := ih parent_grounded parents_eq
      have grown_formed := parents_grow.wellFormed formed
      cases outcome with
      | error fault =>
        obtain ⟨rfl, rfl⟩ := Prod.mk.inj made_eq
        exact parent_settled.stopped_below formed parents_grow parent_grounded leads_from.trimmed
          missing leads_from accepted leading
      | ok =>
        -- The directory above is there by now, so it is not missing for the second attempt.
        exact .of_makeAgain grown_formed made_eq
          (parent_settled.locate_ne_missing grown_formed leads_from leading)
    · rw [makeAncestors_stopped not_empty attempt_eq is_missing] at made_eq
      obtain ⟨rfl, rfl⟩ := Prod.mk.inj made_eq
      exact .of_makeDirectory_error attempt_eq is_missing

end Making

section Saving

variable {later saved : FileSystem} {other : Content} {failure : Failure}

/-- No double dot on the way to a file goes up from a place where nothing is. -/
def GroundedFile (files : FileSystem) (path : Path) : Prop :=
  stays (lastPiece path.text.toList) = false ∧
    ∀ parent, path.parent? = some parent → files.Grounded parent

private theorem makeParents_settled (formed : files.WellFormed) (grounded : files.GroundedFile path)
    {result : Except Failure Unit} (made_eq : files.makeParents path = (made, result)) :
    ∃ parent outcome, path.parent? = some parent ∧ parent.LeadsFrom path ∧
      result = outcome.mapError (.write parent) ∧ made.Settled parent outcome := by
  obtain ⟨parent, parent_eq, leads_from⟩ := exists_parent grounded.1
  unfold makeParents at made_eq
  simp only [parent_eq] at made_eq
  obtain ⟨rfl, rfl⟩ := Prod.mk.inj made_eq
  refine ⟨parent, _, parent_eq, leads_from, rfl, ?_⟩
  obtain ⟨parents, ancestors_eq, line⟩ :=
    exists_ancestry leads_from.trimmed (Nat.le_of_eq String.length_toList)
  rw [makeDirectories, ancestors_eq]
  exact line.settled formed (grounded.2 parent parent_eq) rfl

/-- The directories above a file are made once. -/
theorem makeParents_again (formed : files.WellFormed) (grounded : files.GroundedFile path)
    {result : Except Failure Unit} (made_eq : files.makeParents path = (made, result))
    (grows : Grows written made later) : later.makeParents path = (later, result) := by
  obtain ⟨parent, outcome, parent_eq, leads_from, rfl, settled⟩ :=
    makeParents_settled formed grounded made_eq
  have again_eq : later.makeDirectories parent = (later, outcome) := by
    obtain ⟨parents, ancestors_eq, -⟩ :=
      exists_ancestry leads_from.trimmed (Nat.le_of_eq String.length_toList)
    rw [makeDirectories, ancestors_eq]
    exact (settled.grow grows).again parents
  unfold makeParents
  simp only [parent_eq, again_eq]

/-- A file that cannot be located below its directories will never be. -/
theorem locate_error_lasts (formed : files.WellFormed) (grounded : files.GroundedFile path)
    (made_eq : files.makeParents path = (made, .ok ()))
    (failed : made.locate path = .error fault) (grows : Grows written made later) :
    later.locate path = .error fault := by
  obtain ⟨parent, outcome, -, leads_from, result_eq, settled⟩ :=
    makeParents_settled formed grounded made_eq
  obtain rfl : outcome = .ok () := by
    cases outcome with
    | error fault => cases result_eq
    | ok => rfl
  have made_grows : Grows (fun _ => False) files (files.makeParents path).1 :=
    makeParents_grows formed path
  rw [made_eq] at made_grows
  apply grows.locate_error failed
  rintro rfl
  exact settled.locate_ne_missing (made_grows.wellFormed formed) leads_from grounded.1 failed

private theorem write_error_lasts (formed : files.WellFormed) (grounded : files.GroundedFile path)
    (made_eq : files.makeParents path = (made, .ok ()))
    (failed : made.write path content = .error fault) (grows : Grows written made later) :
    later.write path other = .error fault := by
  unfold write at failed ⊢
  cases located : made.locate path with
  | error cause =>
    rw [located] at failed
    obtain rfl := Except.error.inj failed
    rw [locate_error_lasts formed grounded made_eq located grows]
    rfl
  | ok place =>
    simp only [located, bind, Except.bind] at failed
    simp only [grows.keeps.locate located, bind, Except.bind]
    split_ifs at failed with blocked
    obtain rfl := Except.error.inj failed
    refine if_pos ?_
    simp only [Bool.or_eq_true, decide_eq_true_eq] at blocked ⊢
    exact blocked.imp_right grows.keeps.directory

/-- A save that failed will fail like this again. -/
theorem save_again_error (formed : files.WellFormed) (grounded : files.GroundedFile path)
    (save_eq : files.save path content = (saved, .error failure))
    (grows : Grows written saved later) :
    later.save path other = (later, .error failure) := by
  unfold save at save_eq ⊢
  split at save_eq
  · next made_eq =>
    obtain ⟨rfl, failure_eq⟩ := Prod.mk.inj save_eq
    obtain rfl := Except.error.inj failure_eq
    rw [makeParents_again formed grounded made_eq grows]
  · next made made_eq =>
    split at save_eq
    · next write_eq =>
      obtain ⟨rfl, failure_eq⟩ := Prod.mk.inj save_eq
      obtain rfl := Except.error.inj failure_eq
      simp only [makeParents_again formed grounded made_eq grows,
        write_error_lasts formed grounded made_eq write_eq grows]
    · cases (Prod.mk.inj save_eq).2

/-- A file that was saved can be saved again, with whatever text. -/
theorem save_again_ok (formed : files.WellFormed) (grounded : files.GroundedFile path)
    (save_eq : files.save path content = (saved, .ok ()))
    (found : saved.locate path = .ok location) (grows : Grows written saved later) :
    later.save path other = (later.set location (.file other), .ok ()) := by
  obtain ⟨place, place_eq, no_slash, keeps, stored⟩ := save_ok save_eq
  obtain rfl := Except.ok.inj (found.symm.trans place_eq)
  -- The file is still there, so its directories are, and writing finds the same location.
  obtain ⟨old, is_file⟩ := grows.file_stays stored
  have write_again : later.write path other = .ok (later.set location (.file other)) := by
    simp [write, grows.keeps.locate found, no_slash, is_file, bind, Except.bind]
  unfold save at save_eq ⊢
  split at save_eq
  · cases (Prod.mk.inj save_eq).2
  · next made made_eq =>
    split at save_eq
    · cases (Prod.mk.inj save_eq).2
    · next write_eq =>
      obtain ⟨rfl, -⟩ := Prod.mk.inj save_eq
      have made_formed : made.WellFormed := by
        have made_grows : Grows (fun _ => False) files (files.makeParents path).1 :=
          makeParents_grows formed path
        rw [made_eq] at made_grows
        exact made_grows.wellFormed formed
      obtain ⟨first, first_eq, no_directory, rfl⟩ := write_eq_set write_eq
      have made_grows : Grows (fun _ => True) made later :=
        (write_grows made_formed first_eq no_directory trivial).trans (grows.mono fun _ _ => trivial)
      simp only [makeParents_again formed grounded made_eq made_grows, write_again]

end Saving

end SuiteMigration.FileSystem
