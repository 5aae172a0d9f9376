import Mathlib.Data.List.Basic
import SuiteMigration.FileSystem.Access
import SuiteMigration.Proofs.Text.Splitting

/-!
# The name at the end of a path

A path that ends in a name leads to a location that ends in that name, whatever the tree is. Joining
keeps the name of the path behind, and an ending without a slash is the ending of the name.
-/
namespace SuiteMigration

namespace Path

/-- The components of the pieces between slashes; the start of a path may add one in front. -/
def pieceComponents (text : List Char) : List Component :=
  (Text.splitAt '/' text).filterMap Component.ofPiece?

/-- What the start of a path adds to its components is no name. -/
theorem components_eq (path : Path) : ∃ start, path.components
    = start ++ pieceComponents path.text.toList ∧ ∀ name, .normal name ∉ start := by
  refine ⟨_, rfl, fun name => ?_⟩
  split_ifs <;> simp

theorem fileName?_eq_some {path : Path} {name : String} :
    path.fileName? = some name
      ↔ (pieceComponents path.text.toList).getLast? = some (.normal name) := by
  obtain ⟨start, components_eq, no_name⟩ := path.components_eq
  have last_name : path.fileName? = some name
      ↔ path.components.getLast? = some (.normal name) := by
    unfold fileName?
    cases path.components.getLast? with
    | none => simp
    | some last => cases last <;> simp
  rw [last_name, components_eq, List.getLast?_append]
  cases (pieceComponents path.text.toList).getLast? with
  | none =>
    simp only [Option.none_or, reduceCtorEq, iff_false]
    exact fun last_eq => no_name name (List.mem_of_getLast? last_eq)
  | some last => simp

private theorem fileName?_behind {front : List Char} {path : Path} {name : String}
    (named : path.fileName? = some name) :
    (Path.mk (String.ofList (front ++ '/' :: path.text.toList))).fileName? = some name := by
  rw [fileName?_eq_some] at named ⊢
  unfold pieceComponents at named ⊢
  rw [String.toList_ofList, Text.splitAt_append_mark, List.filterMap_append, List.getLast?_append,
    named]
  rfl

theorem fileName?_join (base : Path) {path : Path} {name : String}
    (named : path.fileName? = some name) : (base.join path).fileName? = some name := by
  unfold join
  split
  · exact named
  · split
    · next slash =>
      -- The slash that separates the two is the last character of the base.
      obtain ⟨front, base_eq⟩ := List.getLast?_eq_some_iff.mp slash
      have text_eq : base.text ++ path.text
          = String.ofList (front ++ '/' :: path.text.toList) := by
        rw [← String.toList_inj]
        simp [base_eq]
      rw [text_eq]
      exact fileName?_behind named
    · have text_eq : base.text ++ "/" ++ path.text
          = String.ofList (base.text.toList ++ '/' :: path.text.toList) := by
        rw [← String.toList_inj]
        simp
      rw [text_eq]
      exact fileName?_behind named

/-- A text with an ending that can only end a name has it as the ending of its last name. -/
theorem fileName?_append (front ending : String) (no_slash : '/' ∉ ending.toList)
    (long : 2 < ending.toList.length) :
    ∃ name, (Path.mk (front ++ ending)).fileName? = some name
      ∧ ending.toList <:+ name.toList := by
  obtain ⟨piece, last_eq⟩ := Text.getLast?_splitAt_append front.toList no_slash
  refine ⟨String.ofList (piece ++ ending.toList), fileName?_eq_some.mpr ?_, by simp⟩
  obtain ⟨others, pieces_eq⟩ := List.getLast?_eq_some_iff.mp last_eq
  have is_name : Component.ofPiece? (piece ++ ending.toList)
      = some (.normal (String.ofList (piece ++ ending.toList))) := by
    have longer : 2 < (piece ++ ending.toList).length := by
      rw [List.length_append]
      omega
    have differs : ∀ short : List Char, short.length ≤ 2 → piece ++ ending.toList ≠ short := by
      rintro short short_le rfl
      omega
    simp only [Component.ofPiece?, differs [] (by simp), differs ['.'] (by simp),
      differs ['.', '.'] (by simp), or_self, ↓reduceIte]
  unfold pieceComponents
  rw [String.toList_append, pieces_eq, List.filterMap_append, List.filterMap_cons_some is_name]
  simp

end Path

namespace FileSystem

theorem bind_eq_ok {ε α β : Type} {first : Except ε α} {next : α → Except ε β} {result : β} :
    (first >>= next) = .ok result ↔ ∃ middle, first = .ok middle ∧ next middle = .ok result := by
  cases first with
  | error fault => exact ⟨fun found => (nomatch found), fun ⟨_, found, _⟩ => (nomatch found)⟩
  | ok middle => exact ⟨fun found => ⟨middle, rfl, found⟩, fun ⟨_, rfl, found⟩ => found⟩

variable {files : FileSystem} {path : Path} {location : Location} {name : String}

private theorem foldlM_step_stays {pieces : List (List Char)}
    (stays : ∀ piece ∈ pieces, Path.Component.ofPiece? piece = none) {start : Location}
    (found : pieces.foldlM files.step start = .ok location) : location = start := by
  induction pieces generalizing start with
  | nil => exact (Except.ok.inj found).symm
  | cons piece pieces ih =>
    obtain ⟨stays_here, stays⟩ := List.forall_mem_cons.mp stays
    rw [List.foldlM_cons] at found
    obtain ⟨next, step_eq, found⟩ := bind_eq_ok.mp found
    have is_here : piece = [] ∨ piece = ['.'] := by
      unfold Path.Component.ofPiece? at stays_here
      split_ifs at stays_here
      assumption
    unfold step at step_eq
    split at step_eq
    · cases step_eq
    · cases step_eq
    · rw [if_pos is_here] at step_eq
      exact Except.ok.inj step_eq ▸ ih stays found

private theorem getLast?_of_step {start : Location} {piece : List Char}
    (is_name : Path.Component.ofPiece? piece = some (.normal name))
    (step_eq : files.step start piece = .ok location) : location.getLast? = some name := by
  unfold Path.Component.ofPiece? at is_name
  split_ifs at is_name with here up
  · cases is_name
  obtain rfl := Path.Component.normal.inj (Option.some.inj is_name)
  unfold step at step_eq
  split at step_eq
  · cases step_eq
  · cases step_eq
  · simp only [here, up, ↓reduceIte] at step_eq
    split_ifs at step_eq
    obtain rfl := Except.ok.inj step_eq
    simp

/-- The piece of the last name is followed by pieces that stay where they are. -/
theorem pathPieces_eq (named : path.fileName? = some name) :
    ∃ front piece back, pathPieces path = front ++ piece :: back ∧
      Path.Component.ofPiece? piece = some (.normal name) ∧
      ∀ other ∈ back, Path.Component.ofPiece? other = none := by
  rw [Path.fileName?_eq_some, Path.pieceComponents, List.getLast?_eq_some_iff] at named
  obtain ⟨others, components_eq⟩ := named
  obtain ⟨front, behind, pieces_eq, -, behind_eq⟩ := List.filterMap_eq_append_iff.mp components_eq
  obtain ⟨skipped, piece, back, rfl, skips, is_name, back_eq⟩ :=
    List.filterMap_eq_cons_iff.mp behind_eq
  have stays := List.filterMap_eq_nil_iff.mp back_eq
  have nonempty : piece ≠ [] := by
    rintro rfl
    cases is_name
  refine ⟨front ++ skipped, piece, (back.reverse.dropWhile (· = [])).reverse, ?_, is_name,
    fun other member => stays other ?_⟩
  · -- The empty pieces that are taken off the end stand behind the name.
    unfold pathPieces
    rw [pieces_eq]
    simp only [List.reverse_append, List.reverse_cons, List.append_assoc, List.dropWhile_append]
    split
    · next none_left =>
      simp [List.isEmpty_iff.mp none_left, nonempty]
    · simp
  · exact List.mem_reverse.mp ((List.dropWhile_sublist _).subset (List.mem_reverse.mp member))

theorem getLast?_of_locate (found : files.locate path = .ok location)
    (named : path.fileName? = some name) : location.getLast? = some name := by
  obtain ⟨front, piece, back, pieces_eq, is_name, stays⟩ := pathPieces_eq named
  unfold locate at found
  split at found
  · cases found
  split at found
  · cases found
  split at found
  · cases found
  rw [pieces_eq, List.foldlM_append] at found
  obtain ⟨start, -, found⟩ := bind_eq_ok.mp found
  rw [List.foldlM_cons] at found
  obtain ⟨next, step_eq, found⟩ := bind_eq_ok.mp found
  rw [foldlM_step_stays stays found]
  exact getLast?_of_step is_name step_eq

end FileSystem

end SuiteMigration
