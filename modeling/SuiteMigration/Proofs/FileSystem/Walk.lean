import SuiteMigration.Proofs.FileSystem.Moves

/-!
# Walks

Where a path leads is where its moves lead, one after another from its start. Each move is made from
a directory, and from anything else all moves fail alike.
-/
namespace SuiteMigration.FileSystem

open SuiteMigration.Path

variable {files : FileSystem} {path : Path} {location next : Location} {piece : List Char}
  {pieces : List (List Char)} {fault : Fault}

/-- Where a path begins. -/
def start (files : FileSystem) (path : Path) : Location :=
  if path.isAbsolute then [] else files.working

theorem start_congr {other : Path} (absolute_eq : path.isAbsolute = other.isAbsolute) :
    files.start path = files.start other := by
  rw [start, start, absolute_eq]

/-- What is wrong with a path whatever the tree is. -/
def refusal? (path : Path) : Option Fault :=
  if path.text.isEmpty then some .missing
  else if path.text.toList.contains '\x00' then some .nulInName
  else if path.text.utf8ByteSize > pathLimit then some .nameTooLong
  else none

theorem refusal?_eq_none : refusal? path = none ↔ path.text.isEmpty = false ∧
    '\x00' ∉ path.text.toList ∧ path.text.utf8ByteSize ≤ pathLimit := by
  unfold refusal?
  split_ifs <;> simp_all

theorem locate_refused (refused : refusal? path = some fault) :
    files.locate path = .error fault := by
  unfold refusal? at refused
  unfold locate
  split_ifs at refused ⊢ <;> simp_all

theorem locate_accepted (accepted : refusal? path = none) :
    files.locate path = (pathPieces path).foldlM files.step (files.start path) := by
  unfold refusal? at accepted
  unfold locate start
  split_ifs at accepted ⊢ <;> rfl

theorem accepted_of_locate (found : files.locate path = .ok location) : refusal? path = none := by
  cases refused : refusal? path with
  | none => rfl
  | some fault =>
    rw [locate_refused refused] at found
    cases found

section Step

theorem step_stays (is_directory : files.node? location = some .directory)
    (staying : stays piece = true) : files.step location piece = .ok location := by
  have piece_eq : piece = [] ∨ piece = ['.'] := by simpa [stays] using staying
  simp only [step, is_directory, if_pos piece_eq]

/-- What a step that succeeds does. -/
theorem step_cases (stepped : files.step location piece = .ok next) :
    files.node? location = some .directory ∧
      ((stays piece = true ∧ next = location) ∨
        (piece = ['.', '.'] ∧ next = location.dropLast) ∨
        (stays piece = false ∧ piece ≠ ['.', '.'] ∧ (String.ofList piece).utf8ByteSize ≤ 255 ∧
          next = location ++ [String.ofList piece])) := by
  unfold step at stepped
  split at stepped
  · cases stepped
  · cases stepped
  · next is_directory =>
    refine ⟨is_directory, ?_⟩
    dsimp only at stepped
    split_ifs at stepped with here up long
    · exact .inl ⟨by simpa [stays] using here, (Except.ok.inj stepped).symm⟩
    · exact .inr (.inl ⟨up, (Except.ok.inj stepped).symm⟩)
    · exact .inr (.inr ⟨by simpa [stays] using here, up, by omega, (Except.ok.inj stepped).symm⟩)

/-- Why a step fails: there is nothing to stand on, or a file, or the name is too long. -/
theorem step_error (failed : files.step location piece = .error fault) :
    (files.node? location = none ∧ fault = .missing) ∨
    ((∃ content, files.node? location = some (.file content)) ∧ fault = .notDirectory) ∨
    (files.node? location = some .directory ∧ fault = .nameTooLong ∧
      (String.ofList piece).utf8ByteSize > 255 ∧ stays piece = false ∧ piece ≠ ['.', '.']) := by
  unfold step at failed
  split at failed
  · next absent => exact .inl ⟨absent, (Except.error.inj failed).symm⟩
  · next content is_file => exact .inr (.inl ⟨⟨content, is_file⟩, (Except.error.inj failed).symm⟩)
  · next is_directory =>
    dsimp only at failed
    split_ifs at failed with here up long
    exact .inr (.inr ⟨is_directory, (Except.error.inj failed).symm, long, by simpa [stays] using here,
      up⟩)

theorem step_absent (absent : files.node? location = none) :
    files.step location piece = .error .missing := by
  simp only [step, absent]

theorem step_file {content : Content} (is_file : files.node? location = some (.file content)) :
    files.step location piece = .error .notDirectory := by
  simp only [step, is_file]

/-- From what is no directory all pieces fail alike. -/
theorem step_eq_of_ne (no_directory : files.node? location ≠ some .directory)
    (piece other : List Char) : files.step location piece = files.step location other := by
  cases node_eq : files.node? location with
  | none => rw [step_absent node_eq, step_absent node_eq]
  | some node =>
    cases node with
    | file content => rw [step_file node_eq, step_file node_eq]
    | directory => exact absurd node_eq no_directory

theorem step_ne_missing (is_directory : files.node? location = some .directory)
    (piece : List Char) : files.step location piece ≠ .error .missing := by
  intro failed
  rcases step_error failed with ⟨absent, -⟩ | ⟨-, fault_eq⟩ | ⟨-, fault_eq, -⟩
  · rw [is_directory] at absent
    cases absent
  · cases fault_eq
  · cases fault_eq

theorem directory_of_step (stepped : files.step location piece = .ok next) :
    files.node? location = some .directory :=
  (step_cases stepped).1

end Step

section Moves

/-- Pieces that stay can be left out in front of one that leads on. -/
theorem foldlM_step_filter (leading : ∀ last, pieces.getLast? = some last → stays last = false) :
    pieces.foldlM files.step location = (pieces.filter (!stays ·)).foldlM files.step location := by
  induction pieces generalizing location with
  | nil => rfl
  | cons piece pieces ih =>
    have leading_rest : ∀ last, pieces.getLast? = some last → stays last = false := by
      intro last last_eq
      exact leading last (by rw [List.getLast?_cons, last_eq]; rfl)
    cases staying : stays piece with
    | false =>
      rw [List.filter_cons_of_pos (by simp [staying]), List.foldlM_cons, List.foldlM_cons]
      exact bind_congr fun next => ih leading_rest
    | true =>
      rw [List.filter_cons_of_neg (by simp [staying]), List.foldlM_cons]
      by_cases is_directory : files.node? location = some .directory
      · rw [step_stays is_directory staying]
        exact ih leading_rest
      · -- The step fails here, and so does the next one that leads on.
        rw [← ih leading_rest]
        cases pieces with
        | nil => exact absurd (leading piece rfl) (by simp [staying])
        | cons other others =>
          rw [List.foldlM_cons, step_eq_of_ne is_directory piece other]
          cases stepped : files.step location other with
          | error fault => rfl
          | ok next => exact absurd (directory_of_step stepped) is_directory

/-- Pieces that stay do not matter on the way to a directory. -/
theorem foldlM_step_directory :
    (pieces.foldlM files.step location = .ok next ∧ files.node? next = some .directory) ↔
      ((pieces.filter (!stays ·)).foldlM files.step location = .ok next ∧
        files.node? next = some .directory) := by
  induction pieces generalizing location with
  | nil => rfl
  | cons piece pieces ih =>
    cases staying : stays piece with
    | false =>
      rw [List.filter_cons_of_pos (by simp [staying]), List.foldlM_cons, List.foldlM_cons]
      cases files.step location piece with
      | error fault => exact ⟨fun ⟨found, _⟩ => (nomatch found), fun ⟨found, _⟩ => (nomatch found)⟩
      | ok middle => exact ih
    | true =>
      rw [List.filter_cons_of_neg (by simp [staying]), List.foldlM_cons]
      by_cases is_directory : files.node? location = some .directory
      · rw [step_stays is_directory staying]
        exact ih
      · -- A piece that stays fails in a file, but no step leads from a file to a directory.
        rw [← ih]
        constructor
        · rintro ⟨found, -⟩
          obtain ⟨middle, stepped, -⟩ := bind_eq_ok.mp found
          exact absurd (directory_of_step stepped) is_directory
        · rintro ⟨found, next_directory⟩
          cases pieces with
          | nil =>
            obtain rfl := Except.ok.inj found
            exact absurd next_directory is_directory
          | cons other others =>
            obtain ⟨middle, stepped, -⟩ := bind_eq_ok.mp found
            exact absurd (directory_of_step stepped) is_directory

theorem filter_pathPieces (path : Path) : (pathPieces path).filter (!stays ·) = path.moves := by
  have parts := List.takeWhile_append_dropWhile (p := fun piece : List Char => decide (piece = []))
    (l := (Text.splitAt '/' path.text.toList).reverse)
  have pieces_eq := congrArg List.reverse parts
  rw [List.reverse_append, List.reverse_reverse] at pieces_eq
  rw [moves, movesOf, ← pieces_eq, List.filter_append, pathPieces]
  have empties : ((Text.splitAt '/' path.text.toList).reverse.takeWhile
      (fun piece => decide (piece = []))).reverse.filter (!stays ·) = [] := by
    refine List.filter_eq_nil_iff.mpr fun piece member => ?_
    have is_empty := List.mem_takeWhile_imp (List.mem_reverse.mp member)
    simp_all [stays]
  rw [empties, List.append_nil]

private theorem getLast?_pathPieces (leading : stays (lastPiece path.text.toList) = false) :
    (pathPieces path).getLast? = some (lastPiece path.text.toList) := by
  obtain ⟨others, pieces_eq⟩ := splitAt_ends path.text.toList
  have nonempty := ne_nil_of_leads leading
  simp [pathPieces, pieces_eq, nonempty]

/-- A path that ends in a move leads where its moves lead. -/
theorem locate_leads (accepted : refusal? path = none)
    (leading : stays (lastPiece path.text.toList) = false) :
    files.locate path = path.moves.foldlM files.step (files.start path) := by
  rw [locate_accepted accepted, ← filter_pathPieces]
  refine foldlM_step_filter fun last last_eq => ?_
  rw [getLast?_pathPieces leading] at last_eq
  exact Option.some.inj last_eq ▸ leading

/-- A trimmed path leads where its moves lead. -/
theorem locate_trimmed (accepted : refusal? path = none) (trimmed : IsTrimmed path.text.toList)
    (start_directory : files.node? (files.start path) = some .directory) :
    files.locate path = path.moves.foldlM files.step (files.start path) := by
  rcases trimmed with short | leading
  · -- The root and the dot have no moves, and both stay where they are.
    rw [locate_accepted accepted]
    obtain ⟨text⟩ := path
    simp only [List.mem_cons, List.not_mem_nil, or_false] at short
    rcases short with text_eq | text_eq | text_eq
    · simp [pathPieces, moves, movesOf, text_eq, Text.splitAt, stays]
    · simp [pathPieces, moves, movesOf, text_eq, Text.splitAt, stays]
    · have pieces_eq : pathPieces ⟨text⟩ = [['.']] := by simp [pathPieces, text_eq, Text.splitAt]
      have moves_eq : moves ⟨text⟩ = [] := by simp [moves, movesOf, text_eq, Text.splitAt, stays]
      have stepped := step_stays start_directory (rfl : stays ['.'] = true)
      rw [pieces_eq, moves_eq, List.foldlM_cons, stepped]
      rfl
  · exact locate_leads accepted leading

theorem directory?_eq_some : files.directory? path = some location ↔
    files.locate path = .ok location ∧ files.node? location = some .directory := by
  unfold directory? open?
  cases found : files.locate path with
  | error fault => simp [bind, Except.bind]
  | ok place =>
    simp only [bind, Except.bind, Except.ok.injEq]
    constructor
    · intro opened
      split at opened
      · next open_eq =>
        obtain rfl := Option.some.inj opened
        split at open_eq
        · cases open_eq
        · split_ifs at open_eq
          cases (Prod.mk.inj (Except.ok.inj open_eq)).2
        · next is_directory =>
          obtain ⟨rfl, -⟩ := Prod.mk.inj (Except.ok.inj open_eq)
          exact ⟨rfl, is_directory⟩
      · cases opened
    · rintro ⟨rfl, is_directory⟩
      simp [is_directory]

/-- A path leads to a directory where its moves do. -/
theorem directory?_iff : files.directory? path = some location ↔ refusal? path = none ∧
    path.moves.foldlM files.step (files.start path) = .ok location ∧
      files.node? location = some .directory := by
  rw [directory?_eq_some]
  constructor
  · rintro ⟨found, is_directory⟩
    have accepted := accepted_of_locate found
    rw [locate_accepted accepted] at found
    rw [← filter_pathPieces]
    exact ⟨accepted, foldlM_step_directory.mp ⟨found, is_directory⟩⟩
  · rintro ⟨accepted, found⟩
    rw [locate_accepted accepted]
    rw [← filter_pathPieces] at found
    exact foldlM_step_directory.mpr found

end Moves

end SuiteMigration.FileSystem
