import Mathlib.Data.List.Basic
import Mathlib.Data.List.TakeWhile
import SuiteMigration.Proofs.FileSystem.FileName

/-!
# Moves of a path

A path leads on by its names and its double dots; empty pieces and single dots stay where they are.
The moves of a path are those of its parent and one more, and joining a name appends it.
-/
namespace SuiteMigration

namespace Path

/-- Does a piece between slashes stay where it is? -/
def stays (piece : List Char) : Bool :=
  piece = [] ∨ piece = ['.']

/-- The pieces of a text that lead on. -/
def movesOf (text : List Char) : List (List Char) :=
  (Text.splitAt '/' text).filter (!stays ·)

/-- The pieces of a path that lead on. -/
def moves (path : Path) : List (List Char) :=
  movesOf path.text.toList

/-- The piece behind the last slash. -/
def lastPiece (text : List Char) : List Char :=
  (text.reverse.takeWhile (· ≠ '/')).reverse

/-- A path that does not end in a piece that stays, the shortest ones apart. -/
def IsTrimmed (text : List Char) : Prop :=
  text ∈ [[], ['/'], ['.']] ∨ stays (lastPiece text) = false

private theorem ofPiece?_eq_none {piece : List Char} :
    Component.ofPiece? piece = none ↔ stays piece = true := by
  unfold Component.ofPiece? stays
  split_ifs <;> simp_all

private theorem not_mem_lastPiece (text : List Char) : '/' ∉ lastPiece text := by
  intro member
  simpa using List.mem_takeWhile_imp (List.mem_reverse.mp member)

theorem ne_nil_of_leads {piece : List Char} (leading : stays piece = false) : piece ≠ [] := by
  rintro rfl
  simp [stays] at leading

/-- A text is its last piece, or another text with a slash and the last piece behind it. -/
theorem lastPiece_cases (text : List Char) :
    (text.reverse.dropWhile (· ≠ '/') = [] ∧ text = lastPiece text) ∨
    ∃ front, text.reverse.dropWhile (· ≠ '/') = '/' :: front.reverse ∧
      text = front ++ '/' :: lastPiece text := by
  have parts := List.takeWhile_append_dropWhile (p := (· ≠ '/')) (l := text.reverse)
  have text_eq : text = (text.reverse.dropWhile (· ≠ '/')).reverse ++ lastPiece text := by
    rw [lastPiece, ← List.reverse_append, parts, List.reverse_reverse]
  cases rest_eq : text.reverse.dropWhile (· ≠ '/') with
  | nil =>
    rw [rest_eq] at text_eq
    exact .inl ⟨rfl, text_eq⟩
  | cons mark rest =>
    have first := List.head?_dropWhile_not (· ≠ '/') text.reverse
    rw [rest_eq] at first text_eq
    obtain rfl : mark = '/' := by simpa using first
    exact .inr ⟨rest.reverse, by rw [List.reverse_reverse], by simpa using text_eq⟩

private theorem ne_slash_of_mem_reverse {piece : List Char} (no_slash : '/' ∉ piece) :
    ∀ c ∈ piece.reverse, decide (c ≠ '/') = true := by
  intro c member
  simp only [decide_eq_true_eq]
  rintro rfl
  exact no_slash (List.mem_reverse.mp member)

theorem lastPiece_append {front piece : List Char} (no_slash : '/' ∉ piece) :
    lastPiece (front ++ '/' :: piece) = piece := by
  unfold lastPiece
  rw [List.reverse_append, List.reverse_cons, List.append_assoc,
    List.takeWhile_append_of_pos (ne_slash_of_mem_reverse no_slash)]
  simp

private theorem lastPiece_of_notMem {piece : List Char} (no_slash : '/' ∉ piece) :
    lastPiece piece = piece := by
  rw [lastPiece, List.takeWhile_eq_self_iff.mpr (ne_slash_of_mem_reverse no_slash),
    List.reverse_reverse]

section MovesOf

variable {front piece : List Char}

theorem movesOf_append (front rest : List Char) :
    movesOf (front ++ '/' :: rest) = movesOf front ++ movesOf rest := by
  rw [movesOf, Text.splitAt_append_mark, List.filter_append, movesOf, movesOf]

theorem movesOf_stays (no_slash : '/' ∉ piece) (staying : stays piece = true) :
    movesOf piece = [] := by
  simp [movesOf, Text.splitAt_of_notMem no_slash, staying]

theorem movesOf_leads (no_slash : '/' ∉ piece) (leading : stays piece = false) :
    movesOf piece = [piece] := by
  simp [movesOf, Text.splitAt_of_notMem no_slash, leading]

theorem splitAt_ends (text : List Char) :
    ∃ others, Text.splitAt '/' text = others ++ [lastPiece text] := by
  have no_slash := not_mem_lastPiece text
  rcases lastPiece_cases text with ⟨-, text_eq⟩ | ⟨front, -, text_eq⟩
  · refine ⟨[], ?_⟩
    conv_lhs => rw [text_eq]
    exact Text.splitAt_of_notMem no_slash
  · refine ⟨Text.splitAt '/' front, ?_⟩
    conv_lhs => rw [text_eq]
    rw [Text.splitAt_append_mark, Text.splitAt_of_notMem no_slash]

end MovesOf

section Trimming

/-- Trimming takes off what leads nowhere. -/
theorem movesOf_trimEnd (reversed : List Char) :
    movesOf (trimEnd reversed).reverse = movesOf reversed.reverse := by
  fun_induction trimEnd reversed with
  | case1 c rest ih =>
    have slash_eq : ('/' :: c :: rest).reverse = (c :: rest).reverse ++ '/' :: [] := by simp
    rw [ih, slash_eq, movesOf_append, @movesOf_stays [] (by simp) rfl, List.append_nil]
  | case2 c rest ih =>
    have dot_eq : ('.' :: '/' :: c :: rest).reverse = (c :: rest).reverse ++ '/' :: ['.'] := by simp
    rw [ih, dot_eq, movesOf_append, @movesOf_stays ['.'] (by simp) rfl, List.append_nil]
  | case3 => decide
  | case4 => rfl

/-- Trimming takes nothing off the front. -/
theorem trimEnd_suffix (reversed : List Char) : trimEnd reversed <:+ reversed := by
  fun_induction trimEnd reversed with
  | case1 c rest ih => exact ih.trans (List.suffix_cons _ _)
  | case2 c rest ih => exact ih.trans ((List.suffix_cons _ _).trans (List.suffix_cons _ _))
  | case3 => exact List.suffix_cons _ _
  | case4 => exact List.suffix_rfl

private theorem trimEnd_ne_nil {reversed : List Char} (nonempty : reversed ≠ []) :
    trimEnd reversed ≠ [] := by
  fun_induction trimEnd reversed with
  | case1 c rest ih => exact ih (by simp)
  | case2 c rest ih => exact ih (by simp)
  | case3 => simp
  | case4 => exact nonempty

private theorem isTrimmed_trimEnd (reversed : List Char) :
    IsTrimmed (trimEnd reversed).reverse := by
  fun_induction trimEnd reversed with
  | case1 c rest ih => exact ih
  | case2 c rest ih => exact ih
  | case3 => exact .inl (by simp)
  | case4 reversed not_slash not_dot not_root =>
    by_cases staying : stays (lastPiece reversed.reverse) = true
    · -- Behind a slash, a piece that stays is one of the shapes that trimming takes off.
      refine .inl ?_
      have pieces := lastPiece_cases reversed.reverse
      generalize lastPiece reversed.reverse = piece at staying pieces
      have piece_eq : piece = [] ∨ piece = ['.'] := by simpa [stays] using staying
      rcases pieces with ⟨-, text_eq⟩ | ⟨front, -, text_eq⟩
      · rw [text_eq]
        rcases piece_eq with rfl | rfl <;> simp
      · have reversed_eq := congrArg List.reverse text_eq
        simp only [List.reverse_reverse, List.reverse_append, List.reverse_cons,
          List.append_assoc, List.singleton_append] at reversed_eq
        cases behind_eq : front.reverse with
        | nil => rcases piece_eq with rfl | rfl <;> simp_all
        | cons c rest => rcases piece_eq with rfl | rfl <;> simp_all
    · exact .inr (by simpa using staying)

/-- A text that ends in a piece that leads on is left as it is. -/
theorem trimEnd_of_leads {text : List Char} (leading : stays (lastPiece text) = false) :
    trimEnd text.reverse = text.reverse := by
  unfold trimEnd
  split
  · next c rest reversed_eq => simp [lastPiece, reversed_eq, stays] at leading
  · next c rest reversed_eq => simp [lastPiece, reversed_eq, stays] at leading
  · next reversed_eq => simp [lastPiece, reversed_eq, stays] at leading
  · rfl

end Trimming

section Parent

variable {path : Path}

/-- One more move leads from a parent to a path. -/
structure LeadsFrom (parent path : Path) : Prop where
  trimmed : IsTrimmed parent.text.toList
  moves_eq : path.moves = parent.moves ++ [lastPiece path.text.toList]
  isAbsolute_eq : parent.isAbsolute = path.isAbsolute
  front : parent.text.toList <+: path.text.toList
  shorter : parent.text.toList.length < path.text.toList.length

private theorem parent?_eq_some (leading : stays (lastPiece path.text.toList) = false) :
    path.parent? = some ⟨String.ofList
      (trimEnd (path.text.toList.reverse.dropWhile (· ≠ '/'))).reverse⟩ := by
  obtain ⟨start, components_eq, -⟩ := path.components_eq
  obtain ⟨others, pieces_eq⟩ := splitAt_ends path.text.toList
  have is_component : ∃ component, Component.ofPiece? (lastPiece path.text.toList) = some component :=
    Option.ne_none_iff_exists'.mp (by simp [ofPiece?_eq_none, leading])
  obtain ⟨component, component_eq⟩ := is_component
  have not_root : component ≠ .root := by
    rintro rfl
    unfold Component.ofPiece? at component_eq
    split_ifs at component_eq <;> cases component_eq
  have last_eq : path.components.getLast? = some component := by
    rw [components_eq, pieceComponents, pieces_eq, List.filterMap_append,
      List.filterMap_cons_some component_eq]
    simp
  unfold parent?
  rw [last_eq, trimEnd_of_leads leading]
  cases component with
  | root => exact absurd rfl not_root
  | current => rfl
  | parent => rfl
  | normal name => rfl

theorem exists_parent (leading : stays (lastPiece path.text.toList) = false) :
    ∃ parent, path.parent? = some parent ∧ parent.LeadsFrom path := by
  refine ⟨_, parent?_eq_some leading, ?_⟩
  have no_slash := not_mem_lastPiece path.text.toList
  rcases lastPiece_cases path.text.toList with ⟨behind_eq, text_eq⟩ | ⟨front, behind_eq, text_eq⟩
  · -- The path is a single name below where it starts.
    rw [behind_eq]
    refine ⟨.inl (by simp [trimEnd]), ?_, ?_, ?_, ?_⟩
    · unfold moves
      conv_lhs => rw [text_eq, movesOf_leads no_slash leading]
      simp [trimEnd, movesOf, Text.splitAt, stays]
    · unfold isAbsolute
      have head_ne : path.text.toList.head? ≠ some '/' := by
        intro head_eq
        exact no_slash (text_eq ▸ List.mem_of_head? head_eq)
      simp [trimEnd, head_ne]
    · simp [trimEnd]
    · have nonempty := ne_nil_of_leads leading
      rw [text_eq]
      simpa [trimEnd, List.length_pos_iff] using nonempty
  · -- The parent is what stands in front of the last slash, less the slashes at its end.
    rw [behind_eq]
    have parent_text : (Path.mk (String.ofList (trimEnd ('/' :: front.reverse)).reverse)).text.toList
        = (trimEnd ('/' :: front.reverse)).reverse := String.toList_ofList
    have before_piece : (trimEnd ('/' :: front.reverse)).reverse <+: front ++ ['/'] := by
      have trimmed_suffix := trimEnd_suffix ('/' :: front.reverse)
      simpa using List.reverse_prefix.mpr trimmed_suffix
    have before : (trimEnd ('/' :: front.reverse)).reverse <+: path.text.toList := by
      refine before_piece.trans ⟨lastPiece path.text.toList, ?_⟩
      conv_rhs => rw [text_eq]
      simp
    refine ⟨?_, ?_, ?_, ?_, ?_⟩
    · rw [parent_text]
      exact isTrimmed_trimEnd _
    · have slash_eq : ('/' :: front.reverse).reverse = front ++ '/' :: [] := by simp
      rw [moves, moves, parent_text, movesOf_trimEnd, slash_eq, movesOf_append,
        @movesOf_stays [] (by simp) rfl, List.append_nil]
      conv_lhs => rw [text_eq, movesOf_append, movesOf_leads no_slash leading]
    · have nonempty := trimEnd_ne_nil (List.cons_ne_nil '/' front.reverse)
      obtain ⟨rest, append_eq⟩ := before
      rw [isAbsolute, isAbsolute, parent_text, ← append_eq, List.head?_append_of_ne_nil]
      simpa using nonempty
    · rwa [parent_text]
    · rw [parent_text]
      have nonempty := ne_nil_of_leads leading
      calc (trimEnd ('/' :: front.reverse)).reverse.length
          ≤ (front ++ ['/']).length := before_piece.length_le
        _ < (front ++ '/' :: lastPiece path.text.toList).length := by
          simpa [List.length_pos_iff] using nonempty
        _ = path.text.toList.length := congrArg List.length text_eq.symm

end Parent

section Join

variable {base : Path} {name : String}

theorem not_isAbsolute_name (no_slash : '/' ∉ name.toList) : (Path.mk name).isAbsolute = false := by
  have head_ne : name.toList.head? ≠ some '/' := fun head_eq => no_slash (List.mem_of_head? head_eq)
  simpa [isAbsolute] using head_ne

theorem ofPiece?_name (leading : stays name.toList = false) (not_up : name.toList ≠ ['.', '.']) :
    Component.ofPiece? name.toList = some (.normal name) := by
  have not_staying : ¬(name.toList = [] ∨ name.toList = ['.']) := by simpa [stays] using leading
  rw [Component.ofPiece?, if_neg not_staying, if_neg not_up, String.ofList_toList]

/-- A piece that is a name is the name of the path that it makes. -/
theorem fileName?_name (no_slash : '/' ∉ name.toList) (leading : stays name.toList = false)
    (not_up : name.toList ≠ ['.', '.']) : (Path.mk name).fileName? = some name := by
  rw [fileName?_eq_some, pieceComponents, Text.splitAt_of_notMem no_slash,
    List.filterMap_cons_some (ofPiece?_name leading not_up)]
  rfl

/-- A name is joined behind a slash, for which one at the end of the base will do. -/
theorem join_behind_slash (nonempty : base.text.toList ≠ []) (no_slash : '/' ∉ name.toList) :
    ∃ front, (base.join ⟨name⟩).text.toList = front ++ '/' :: name.toList ∧
      (base.text.toList = front ∨ base.text.toList = front ++ ['/']) := by
  have not_empty : base.text.isEmpty = false := by simpa using nonempty
  unfold join
  rw [not_isAbsolute_name no_slash, not_empty, Bool.or_self, if_neg Bool.false_ne_true]
  split
  · next slash =>
    obtain ⟨front, base_eq⟩ := List.getLast?_eq_some_iff.mp slash
    exact ⟨front, by simp [base_eq], .inr base_eq⟩
  · exact ⟨base.text.toList, by simp, .inl rfl⟩

/-- A name is joined behind a slash, unless there is nothing in front of it. -/
theorem join_cases (base : Path) (no_slash : '/' ∉ name.toList) :
    (base = ⟨""⟩ ∧ base.join ⟨name⟩ = ⟨name⟩) ∨
    (base.text.toList ≠ [] ∧ base.text.toList <+: (base.join ⟨name⟩).text.toList ∧
      ∃ front, (base.join ⟨name⟩).text.toList = front ++ '/' :: name.toList ∧
        movesOf front = base.moves) := by
  by_cases empty : base.text.toList = []
  · have base_eq : base = ⟨""⟩ := by
      obtain ⟨text⟩ := base
      exact congrArg Path.mk (String.toList_eq_nil_iff.mp empty)
    subst base_eq
    exact .inl ⟨rfl, by simp [join, not_isAbsolute_name no_slash]⟩
  · obtain ⟨front, text_eq, base_eq | base_eq⟩ := join_behind_slash empty no_slash
    · exact .inr ⟨empty, by simp [text_eq, base_eq], front, text_eq, by rw [moves, base_eq]⟩
    · refine .inr ⟨empty, by simp [text_eq, base_eq], front, text_eq, ?_⟩
      rw [moves, base_eq, movesOf_append, @movesOf_stays [] (by simp) rfl, List.append_nil]

theorem moves_join (base : Path) (no_slash : '/' ∉ name.toList)
    (leading : stays name.toList = false) :
    (base.join ⟨name⟩).moves = base.moves ++ [name.toList] := by
  rcases join_cases base no_slash with ⟨rfl, join_eq⟩ | ⟨-, -, front, text_eq, moves_eq⟩
  · rw [join_eq, moves, movesOf_leads no_slash leading]
    rfl
  · rw [moves, text_eq, movesOf_append, moves_eq, movesOf_leads no_slash leading]

theorem lastPiece_join (base : Path) (no_slash : '/' ∉ name.toList) :
    lastPiece (base.join ⟨name⟩).text.toList = name.toList := by
  rcases join_cases base no_slash with ⟨-, join_eq⟩ | ⟨-, -, front, text_eq, -⟩
  · rw [join_eq, lastPiece_of_notMem no_slash]
  · rw [text_eq, lastPiece_append no_slash]

theorem isAbsolute_join (base : Path) (no_slash : '/' ∉ name.toList) :
    (base.join ⟨name⟩).isAbsolute = base.isAbsolute := by
  rcases join_cases base no_slash with ⟨rfl, join_eq⟩ | ⟨nonempty, ⟨rest, text_eq⟩, -⟩
  · rw [join_eq, not_isAbsolute_name no_slash]
    rfl
  · rw [isAbsolute, isAbsolute, ← text_eq, List.head?_append_of_ne_nil _ nonempty]

end Join

end Path

end SuiteMigration
