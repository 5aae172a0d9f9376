import SuiteMigration.Proofs.FileSystem.Traversal

/-!
# Trees of directories and files as they are seen

What is seen of a tree is lawful, and its names are told in order. A walk through a well-formed tree
finds the files, except those behind a path that is too long, where it ends at the directory.
-/
namespace SuiteMigration.FileSystem

open SuiteMigration.Path

variable {files : FileSystem} {root directory path : Path} {place location way : Location} {node : Node}
  {name other : String} {names : List String} {fault : Fault}

private theorem mem_below (distinct : (files.nodes.map Prod.fst).Nodup) :
    (way, node) ∈ files.below location ↔ way ≠ [] ∧ files.node? (location ++ way) = some node := by
  constructor
  · intro member
    obtain ⟨⟨place, other⟩, in_nodes, kept⟩ := List.mem_filterMap.mp member
    simp only [Option.ite_none_right_eq_some, Bool.and_eq_true, List.isPrefixOf_iff_prefix,
      decide_eq_true_eq, Option.some.injEq] at kept
    obtain ⟨⟨⟨behind, rfl⟩, longer⟩, way_eq⟩ := kept
    rw [List.drop_left, Prod.mk.injEq] at way_eq
    obtain ⟨rfl, rfl⟩ := way_eq
    have nonempty : behind ≠ [] := by
      rintro rfl
      simp at longer
    exact ⟨nonempty, node?_of_mem_nodes distinct in_nodes (by simp [nonempty])⟩
  · rintro ⟨nonempty, found⟩
    refine List.mem_filterMap.mpr ⟨_, mem_nodes_of_node? found (by simp [nonempty]), ?_⟩
    simp [List.length_pos_iff, nonempty]

theorem WellFormed.entryNames (formed : files.WellFormed)
    (found : files.node? (location ++ way) = some node) :
    ∀ name ∈ way, isEntryName name = true := by
  induction way generalizing location with
  | nil => simp
  | cons name rest ih =>
    have found_behind : files.node? ((location ++ [name]) ++ rest) = some node := by simpa using found
    intro other member
    rcases List.mem_cons.mp member with rfl | later
    · by_cases last : rest = []
      · subst last
        exact (formed.properName found).isEntryName
      · exact (formed.properName (formed.above last found_behind)).isEntryName
    · exact ih found_behind other later

section Names

private theorem mem_insertName : other ∈ insertName name names ↔ other = name ∨ other ∈ names := by
  induction names with
  | nil => simp [insertName]
  | cons first names ih =>
    unfold insertName
    split_ifs with before same
    · exact List.mem_cons
    · simp [same]
    · rw [List.mem_cons, ih, List.mem_cons, or_left_comm]

private theorem ascending_insertName (ascending : names.Pairwise (· < ·)) :
    (insertName name names).Pairwise (· < ·) := by
  induction names with
  | nil => exact List.pairwise_singleton _ _
  | cons first names ih =>
    have first_before : ∀ other ∈ names, first < other :=
      fun _ member => List.rel_of_pairwise_cons ascending member
    unfold insertName
    split_ifs with before same
    · refine List.pairwise_cons.mpr ⟨fun other member => ?_, ascending⟩
      rcases List.mem_cons.mp member with rfl | later
      · exact before
      · exact String.lt_trans before (first_before _ later)
    · exact ascending
    · refine List.pairwise_cons.mpr ⟨fun other member => ?_, ih ascending.of_cons⟩
      rcases mem_insertName.mp member with rfl | later
      · by_contra not_after
        exact same (String.le_antisymm (String.not_lt.mp not_after) (String.not_lt.mp before))
      · exact first_before _ later

private theorem child_eq : (match way with
      | [name] => if isEntryName name then some name else none
      | _ => none) = some name ↔ way = [name] ∧ isEntryName name = true := by
  match way with
  | [] => simp
  | [only] =>
    simp only [Option.ite_none_right_eq_some, Option.some.injEq, List.cons.injEq, and_true]
    exact ⟨fun ⟨named, same⟩ => ⟨same, same ▸ named⟩, fun ⟨same, named⟩ => ⟨same ▸ named, same⟩⟩
  | _ :: _ :: _ => simp

private theorem mem_names : name ∈ files.names location ↔
    isEntryName name = true ∧ ∃ node, ([name], node) ∈ files.below location := by
  have mem_fold (children : List String) : name ∈ children.foldr insertName [] ↔ name ∈ children := by
    induction children with
    | nil => rfl
    | cons first children ih => rw [List.foldr_cons, mem_insertName, ih, List.mem_cons]
  rw [FileSystem.names, mem_fold, List.mem_filterMap]
  constructor
  · rintro ⟨⟨way, node⟩, member, kept⟩
    obtain ⟨rfl, named⟩ := child_eq.mp kept
    exact ⟨named, node, member⟩
  · rintro ⟨named, node, member⟩
    exact ⟨_, member, child_eq.mpr ⟨rfl, named⟩⟩

private theorem ascending_names (files : FileSystem) (location : Location) :
    (files.names location).Pairwise (· < ·) := by
  rw [FileSystem.names]
  induction (files.below location).filterMap _ with
  | nil => exact .nil
  | cons first children ih => exact ascending_insertName ih

private theorem mem_names_iff (formed : files.WellFormed) :
    name ∈ files.names location ↔ ∃ node, files.node? (location ++ [name]) = some node := by
  rw [mem_names]
  simp only [mem_below formed.distinct]
  exact ⟨fun ⟨_, node, _, found⟩ => ⟨node, found⟩, fun ⟨node, found⟩ =>
    ⟨formed.entryNames found name List.mem_cons_self, node, List.cons_ne_nil _ _, found⟩⟩

end Names

section View

theorem view_isDirectory : files.view.isDirectory path = true ↔
    ∃ location, files.directory? path = some location :=
  Option.isSome_iff_exists

theorem entries_cases (files : FileSystem) (directory : Path) :
    (∃ fault, files.view.entries directory = [.error fault]) ∨
    ∃ location, files.view.entries directory = (files.names location).map .ok := by
  unfold view
  dsimp only
  split
  · exact .inl ⟨_, rfl⟩
  · exact .inl ⟨_, rfl⟩
  · split
    · exact .inl ⟨_, rfl⟩
    · exact .inr ⟨_, rfl⟩

theorem view_lawful (files : FileSystem) : files.view.Lawful where
  short {path} is_directory := by
    obtain ⟨location, found⟩ := view_isDirectory.mp is_directory
    exact (refusal?_eq_none.mp (directory?_iff.mp found).1).2.2
  named {directory name} listed := by
    obtain ⟨fault, only⟩ | ⟨location, entries_eq⟩ := entries_cases files directory
    · rw [only] at listed
      cases List.mem_singleton.mp listed
    · rw [entries_eq, List.mem_map] at listed
      obtain ⟨_, member, ⟨⟩⟩ := listed
      exact (mem_names.mp member).1
  distinct directory := by
    obtain ⟨fault, only⟩ | ⟨location, entries_eq⟩ := entries_cases files directory
    · rw [only]
      exact List.pairwise_singleton _ _
    · rw [entries_eq]
      refine List.pairwise_map.mpr ((ascending_names files location).imp ?_)
      rintro first second before _ ⟨⟩ ⟨⟩
      exact String.lt_irrefl _ before

theorem view_orderly (files : FileSystem) : files.view.Orderly := fun directory =>
  (entries_cases files directory).imp_right fun ⟨location, entries_eq⟩ =>
    ⟨_, ascending_names files location, entries_eq⟩

end View

theorem endsInSlash_of_leads (leading : stays (lastPiece path.text.toList) = false) :
    endsInSlash path = false := by
  cases slash : endsInSlash path with
  | false => rfl
  | true =>
    obtain ⟨front, text_eq⟩ := List.getLast?_eq_some_iff.mp (eq_of_beq slash)
    rw [text_eq, lastPiece_append (by simp)] at leading
    cases leading

section Directory

variable (formed : files.WellFormed) (directory_eq : files.directory? directory = some place)
include directory_eq

theorem entries_eq : files.view.entries directory
    = if place ∈ files.locked then [.error .denied] else (files.names place).map .ok := by
  have opened : files.open? directory = .ok (place, .directory) := by
    unfold directory? at directory_eq
    split at directory_eq
    · next open_eq =>
      obtain rfl := Option.some.inj directory_eq
      exact open_eq
    · cases directory_eq
  simp only [view, opened]

theorem error_mem_entries :
    .error fault ∈ files.view.entries directory ↔ place ∈ files.locked ∧ fault = .denied := by
  rw [entries_eq directory_eq]
  split_ifs with locked <;> simp [locked]

include formed

theorem ok_mem_entries : .ok name ∈ files.view.entries directory ↔
    place ∉ files.locked ∧ ∃ node, files.node? (place ++ [name]) = some node := by
  rw [entries_eq directory_eq, ← mem_names_iff formed]
  split_ifs with locked <;> simp [locked]

/-- A name that is joined to the path of a directory leads into the directory. -/
theorem locate_join (found : files.node? (place ++ [name]) = some node)
    (accepted : refusal? (directory.join ⟨name⟩) = none) :
    files.locate (directory.join ⟨name⟩) = .ok (place ++ [name]) := by
  have proper := formed.properName found
  obtain ⟨-, moves_eq, is_directory⟩ := directory?_iff.mp directory_eq
  have leads : stays (lastPiece (directory.join ⟨name⟩).text.toList) = false := by
    rw [lastPiece_join _ proper.no_slash]
    exact proper.leads
  have stepped : files.step place name.toList = .ok (place ++ [name]) := by
    have stays_not : ¬(name.toList = [] ∨ name.toList = ['.']) := by
      simpa [stays] using proper.leads
    have short : ¬name.utf8ByteSize > 255 := Nat.not_lt.mpr proper.short
    simp only [step, is_directory, if_neg stays_not, if_neg proper.not_up, String.ofList_toList,
      if_neg short]
  rw [locate_leads accepted leads, moves_join _ proper.no_slash proper.leads,
    start_congr (isAbsolute_join _ proper.no_slash), List.foldlM_append, moves_eq]
  change [name.toList].foldlM files.step place = _
  rw [List.foldlM_cons, stepped]
  rfl

theorem directory?_join : files.directory? (directory.join ⟨name⟩) = some (place ++ [name]) ↔
    refusal? (directory.join ⟨name⟩) = none ∧ files.node? (place ++ [name]) = some .directory := by
  constructor
  · intro found
    obtain ⟨accepted, -, is_directory⟩ := directory?_iff.mp found
    exact ⟨accepted, is_directory⟩
  · rintro ⟨accepted, is_directory⟩
    exact directory?_eq_some.mpr
      ⟨locate_join formed directory_eq is_directory accepted, is_directory⟩

/-- What a directory holds is seen as a directory if it is one and its path is accepted. -/
theorem isDirectory_join (found : files.node? (place ++ [name]) = some node) :
    files.view.isDirectory (directory.join ⟨name⟩) = true ↔
      refusal? (directory.join ⟨name⟩) = none ∧ node = .directory := by
  constructor
  · intro seen
    obtain ⟨location, joined_eq⟩ := view_isDirectory.mp seen
    have accepted := (directory?_iff.mp joined_eq).1
    obtain ⟨located, is_directory⟩ := directory?_eq_some.mp joined_eq
    obtain rfl := Except.ok.inj ((locate_join formed directory_eq found accepted).symm.trans located)
    exact ⟨accepted, Option.some.inj (found.symm.trans is_directory)⟩
  · rintro ⟨accepted, rfl⟩
    exact view_isDirectory.mpr ⟨_, (directory?_join formed directory_eq).mpr ⟨accepted, found⟩⟩

theorem isFile_join (found : files.node? (place ++ [name]) = some node) :
    files.view.isFile (directory.join ⟨name⟩) = true ↔
      refusal? (directory.join ⟨name⟩) = none ∧ ∃ content, node = .file content := by
  have proper := formed.properName found
  have no_slash : endsInSlash (directory.join ⟨name⟩) = false :=
    endsInSlash_of_leads (by rw [lastPiece_join _ proper.no_slash]; exact proper.leads)
  change files.isFile _ = true ↔ _
  unfold isFile open?
  cases refused : refusal? (directory.join ⟨name⟩) with
  | some fault => simp [locate_refused refused, bind, Except.bind]
  | none =>
    rw [locate_join formed directory_eq found refused]
    cases node <;> simp [bind, Except.bind, found, no_slash]

end Directory

section Ways

/-- No directory that a way leads through is locked; the one at its end may be. -/
def OpenWay (locked : List Location) (place : Location) : Location → Prop
  | [] => True
  | name :: rest => place ∉ locked ∧ OpenWay locked (place ++ [name]) rest

variable (formed : files.WellFormed)
include formed

/-- A way leads on into the directory that its first name is joined for. -/
theorem WellFormed.directory?_first {rest : Location} (root_eq : files.directory? root = some place)
    (named : ∀ other ∈ name :: rest, isEntryName other = true)
    (is_directory : files.node? (place ++ [name]) = some .directory)
    (accepted : refusal? (joinWay root (name :: rest)) = none) :
    files.directory? (root.join ⟨name⟩) = some (place ++ [name]) := by
  refine (directory?_join formed root_eq).mpr ⟨?_, is_directory⟩
  exact refusal?_of_joinWay (fun other member => named other (List.mem_cons_of_mem _ member))
    (isEmpty_join (named name List.mem_cons_self) root) accepted

/-- A walk fails at the locked directories, as far as it gets. -/
theorem fails_view_iff (root_eq : files.directory? root = some place) :
    files.view.Fails root way fault ↔ OpenWay files.locked place way ∧ place ++ way ∈ files.locked ∧
      refusal? (joinWay root way) = none ∧ fault = .denied := by
  induction way generalizing root place with
  | nil =>
    have accepted : refusal? (joinWay root []) = none := (directory?_iff.mp root_eq).1
    rw [View.fails_nil, error_mem_entries root_eq, List.append_nil]
    simp [OpenWay, accepted]
  | cons name rest ih =>
    rw [View.fails_cons, ok_mem_entries formed root_eq, OpenWay]
    constructor
    · rintro ⟨⟨unlocked, node, found⟩, seen, fails⟩
      obtain ⟨accepted, rfl⟩ := (isDirectory_join formed root_eq found).mp seen
      have inside_eq := (directory?_join formed root_eq).mpr ⟨accepted, found⟩
      obtain ⟨open_way, locked, still_accepted, fault_eq⟩ := (ih inside_eq).mp fails
      exact ⟨⟨unlocked, open_way⟩, by simpa using locked, still_accepted, fault_eq⟩
    · rintro ⟨⟨unlocked, open_way⟩, locked, accepted, fault_eq⟩
      have is_directory := formed.locked _ locked
      have first_directory : files.node? (place ++ [name]) = some .directory := by
        -- The locked directory is the first one on the way, or below it.
        by_cases last : rest = []
        · rwa [last] at is_directory
        · exact formed.above last (by simpa using is_directory)
      have inside_eq := formed.directory?_first root_eq (formed.entryNames is_directory)
        first_directory accepted
      have seen : files.view.isDirectory (root.join ⟨name⟩) = true :=
        view_isDirectory.mpr ⟨_, inside_eq⟩
      exact ⟨⟨unlocked, _, first_directory⟩, seen, (ih inside_eq).mpr
        ⟨open_way, by simpa using locked, accepted, fault_eq⟩⟩

/-- A walk finds the files, and the directories with a path that is too long. -/
theorem finds_view_iff (root_eq : files.directory? root = some place) :
    files.view.Finds root way ↔ way ≠ [] ∧ OpenWay files.locked place way ∧
      refusal? (joinWay root way.dropLast) = none ∧
      ∃ node, files.node? (place ++ way) = some node ∧
        (refusal? (joinWay root way) = none → node ≠ .directory) := by
  have root_accepted : refusal? root = none := (directory?_iff.mp root_eq).1
  -- On the way: the walk goes into a name exactly if the path up to it is seen as a directory.
  induction way generalizing root place with
  | nil => simp [View.finds_iff]
  | cons first rest ih =>
    rw [View.finds_iff, OpenWay]
    constructor
    · rintro ⟨name, _, same, listed, behind⟩
      obtain ⟨rfl, rfl⟩ := List.cons.inj same
      obtain ⟨unlocked, node, found⟩ := (ok_mem_entries formed root_eq).mp listed
      have seen_iff := isDirectory_join formed root_eq found
      rcases behind with ⟨seen, finds⟩ | ⟨not_seen, rfl⟩
      · obtain ⟨accepted, rfl⟩ := seen_iff.mp seen
        obtain ⟨nonempty, open_way, front_accepted, last, last_found, ending⟩ :=
          (ih ((directory?_join formed root_eq).mpr ⟨accepted, found⟩) accepted).mp finds
        rw [List.dropLast_cons_of_ne_nil nonempty]
        exact ⟨List.cons_ne_nil _ _, ⟨unlocked, open_way⟩, front_accepted, last,
          by simpa using last_found, ending⟩
      · -- A name that is not seen as a directory ends the way: a file, or a path that is too long.
        refine ⟨List.cons_ne_nil _ _, ⟨unlocked, trivial⟩, root_accepted, node, found, ?_⟩
        intro accepted is_directory
        rw [seen_iff.mpr ⟨accepted, is_directory⟩] at not_seen
        cases not_seen
    · rintro ⟨-, ⟨unlocked, open_way⟩, front_accepted, node, found, ending⟩
      by_cases last : rest = []
      · -- The last name of the way is not to be gone into.
        subst last
        have not_seen : files.view.isDirectory (root.join ⟨first⟩) = false := by
          by_contra seen
          obtain ⟨accepted, is_directory⟩ :=
            (isDirectory_join formed root_eq found).mp (by simpa using seen)
          exact ending accepted is_directory
        exact ⟨first, [], rfl, (ok_mem_entries formed root_eq).mpr ⟨unlocked, node, found⟩,
          .inr ⟨not_seen, rfl⟩⟩
      · -- What has a node below it is a directory, and the path up to it is not too long.
        rw [List.dropLast_cons_of_ne_nil last] at front_accepted
        have named := formed.entryNames found
        have found_behind : files.node? ((place ++ [first]) ++ rest) = some node := by
          simpa using found
        have is_directory := formed.above last found_behind
        have inside_eq := formed.directory?_first root_eq
          (fun other member => named other ((rest.dropLast_sublist.cons_cons first).subset member))
          is_directory front_accepted
        have seen : files.view.isDirectory (root.join ⟨first⟩) = true :=
          view_isDirectory.mpr ⟨_, inside_eq⟩
        refine ⟨first, rest, rfl,
          (ok_mem_entries formed root_eq).mpr ⟨unlocked, _, is_directory⟩, .inl ⟨seen, ?_⟩⟩
        exact (ih inside_eq (directory?_iff.mp inside_eq).1).mpr
          ⟨last, open_way, front_accepted, node, found_behind, ending⟩

/-- An accepted path that is joined by a way leads to the node on the way. -/
theorem WellFormed.locate_joinWay (root_eq : files.directory? root = some place) (nonempty : way ≠ [])
    (found : files.node? (place ++ way) = some node) (accepted : refusal? (joinWay root way) = none) :
    files.locate (joinWay root way) = .ok (place ++ way) := by
  induction way generalizing root place with
  | nil => exact absurd rfl nonempty
  | cons first rest ih =>
    by_cases last : rest = []
    · subst last
      exact locate_join formed root_eq found accepted
    · have found_behind : files.node? ((place ++ [first]) ++ rest) = some node := by
        simpa using found
      have inside_eq := formed.directory?_first root_eq (formed.entryNames found)
        (formed.above last found_behind) accepted
      rw [List.append_cons]
      exact ih inside_eq last found_behind accepted

end Ways

section Far

/-- The working directory, with slashes behind its dot. -/
def slashed (count : Nat) : Path :=
  ⟨"." ++ String.ofList (List.replicate count '/')⟩

private theorem utf8ByteSize_replicate (count : Nat) (c : Char) :
    (String.ofList (List.replicate count c)).utf8ByteSize = count * c.utf8Size := by
  induction count with
  | zero => simp
  | succ count ih =>
    rw [List.replicate_succ, String.ofList_cons, String.utf8ByteSize_append, ih, Nat.succ_mul,
      String.utf8ByteSize_singleton, Nat.add_comm]

private theorem size_slashed (count : Nat) : (slashed count).text.utf8ByteSize = count + 1 := by
  have slash_size : '/'.utf8Size = 1 := by decide
  have dot_size : ".".utf8ByteSize = 1 := by decide +kernel
  rw [slashed, String.utf8ByteSize_append, utf8ByteSize_replicate, slash_size, dot_size]
  omega

private theorem moves_slashed (count : Nat) : (slashed count).moves = [] := by
  have slashes : movesOf (List.replicate count '/') = [] := by
    induction count with
    | zero => rfl
    | succ count ih =>
      have split_eq : List.replicate (count + 1) '/' = [] ++ '/' :: List.replicate count '/' := rfl
      rw [split_eq, movesOf_append, ih]
      rfl
  have text_eq : (slashed count).text.toList = ['.'] ++ List.replicate count '/' := by simp [slashed]
  rw [moves, text_eq]
  cases count with
  | zero => rfl
  | succ count =>
    have split_eq : List.replicate (count + 1) '/' = [] ++ '/' :: List.replicate count '/' := rfl
    rw [split_eq, movesOf_append] at slashes
    rw [List.replicate_succ, movesOf_append, (List.append_eq_nil_iff.mp slashes).2]
    rfl

/-- A path of each size leads to the working directory. -/
theorem exists_path_of_size {size : Nat} (positive : 0 < size) (short : size ≤ pathLimit) :
    ∃ path : Path, path.text.utf8ByteSize = size ∧ path.moves = [] ∧
      ∀ files : FileSystem, files.WellFormed → files.directory? path = some files.working := by
  obtain ⟨count, rfl⟩ := Nat.exists_eq_add_one.mpr positive
  refine ⟨slashed count, size_slashed count, moves_slashed count, fun files formed => ?_⟩
  have text_eq : (slashed count).text.toList = ['.'] ++ List.replicate count '/' := by simp [slashed]
  have accepted : refusal? (slashed count) = none := by
    refine refusal?_eq_none.mpr ⟨?_, ?_, ?_⟩
    · simp [slashed]
    · rw [text_eq]
      simp
    · rw [size_slashed]
      exact short
  have begins : files.start (slashed count) = files.working := by
    rw [start, isAbsolute, text_eq]
    rfl
  refine directory?_iff.mpr ⟨accepted, ?_, formed.working⟩
  rw [moves_slashed, begins]
  rfl

end Far

end SuiteMigration.FileSystem
