import Mathlib.Data.List.Basic
import SuiteMigration.Text.Split

/-!
# What a text is split into

No piece holds the mark, pieces without it stay as they are, and a text put together with marks is
split at every mark in it.
-/
namespace SuiteMigration.Text

variable {mark : Char}

theorem splitAt_append_mark (mark : Char) (front rest : List Char) :
    splitAt mark (front ++ mark :: rest) = splitAt mark front ++ splitAt mark rest := by
  induction front with
  | nil => simp [splitAt]
  | cons c front ih =>
    by_cases is_mark : c = mark
    · simp [splitAt, is_mark, ih]
    · cases pieces : splitAt mark front with
      | nil => exact absurd pieces (splitAt_ne_nil mark front)
      | cons piece others => simp [splitAt, is_mark, ih, pieces]

theorem splitAt_of_notMem {text : List Char} (absent : mark ∉ text) :
    splitAt mark text = [text] := by
  induction text with
  | nil => rfl
  | cons c text ih =>
    rw [List.mem_cons, not_or] at absent
    simp [splitAt, Ne.symm absent.1, ih absent.2]

/-- The last piece has every ending of the text that holds no mark. -/
theorem getLast?_splitAt_append (front : List Char) {ending : List Char} (absent : mark ∉ ending) :
    ∃ piece, (splitAt mark (front ++ ending)).getLast? = some (piece ++ ending) := by
  induction front with
  | nil => exact ⟨[], by simp [splitAt_of_notMem absent]⟩
  | cons c front ih =>
    obtain ⟨piece, last_eq⟩ := ih
    cases pieces : splitAt mark (front ++ ending) with
    | nil => exact absurd pieces (splitAt_ne_nil mark _)
    | cons first others =>
      rw [pieces] at last_eq
      by_cases is_mark : c = mark
      · exact ⟨piece, by simp [splitAt, is_mark, pieces, last_eq]⟩
      · cases others with
        | nil =>
          obtain rfl := Option.some.inj last_eq
          exact ⟨c :: piece, by simp [splitAt, is_mark, pieces]⟩
        | cons second others =>
          exact ⟨piece, by simpa [splitAt, is_mark, pieces] using last_eq⟩

/-- A text that is put together of items is split where its items are. -/
theorem splitAt_intercalate {items : List (List Char)} (nonempty : items ≠ []) :
    splitAt mark ([mark].intercalate items) = items.flatMap (splitAt mark) := by
  induction items with
  | nil => exact absurd rfl nonempty
  | cons first items ih =>
    cases items with
    | nil => simp
    | cons second others =>
      rw [List.intercalate_cons_cons, List.append_assoc, List.singleton_append,
        splitAt_append_mark, ih (by simp), ← List.flatMap_cons]

/-- Pieces without marks come back out of the text that is put together of them. -/
theorem splitAt_intercalate_of_notMem {pieces : List (List Char)} (nonempty : pieces ≠ [])
    (whole : ∀ piece ∈ pieces, mark ∉ piece) :
    splitAt mark ([mark].intercalate pieces) = pieces := by
  rw [splitAt_intercalate nonempty]
  conv_rhs => rw [← List.flatMap_singleton' pieces]
  exact List.flatMap_congr fun piece member => splitAt_of_notMem (whole piece member)

theorem mem_intercalate_iff {c : Char} (other : c ≠ mark) {items : List (List Char)} :
    c ∈ [mark].intercalate items ↔ ∃ item ∈ items, c ∈ item := by
  induction items with
  | nil => simp
  | cons first items ih =>
    cases items with
    | nil => simp
    | cons second others =>
      rw [List.intercalate_cons_cons, List.mem_append, List.mem_append, List.mem_singleton, ih,
        or_iff_left other, List.exists_mem_cons_iff (c ∈ ·) first]

theorem notMem_intercalate {c : Char} (other : c ≠ mark) {items : List (List Char)}
    (absent : ∀ item ∈ items, c ∉ item) : c ∉ [mark].intercalate items := by
  rw [mem_intercalate_iff other]
  rintro ⟨item, item_mem, member⟩
  exact absent item item_mem member

theorem chars_of_mem_splitAt {text piece : List Char}
    (member : piece ∈ splitAt mark text) : mark ∉ piece ∧ ∀ c ∈ piece, c ∈ text := by
  induction text generalizing piece with
  | nil =>
    obtain rfl := List.mem_singleton.mp member
    simp
  | cons first rest ih =>
    by_cases is_mark : first = mark
    · rw [splitAt, if_pos is_mark] at member
      rcases List.mem_cons.mp member with rfl | later
      · simp
      · exact ⟨(ih later).1, fun c c_mem => List.mem_cons_of_mem _ ((ih later).2 c c_mem)⟩
    · cases pieces : splitAt mark rest with
      | nil => exact absurd pieces (splitAt_ne_nil mark rest)
      | cons head tail =>
        rw [splitAt, if_neg is_mark, pieces] at member
        rw [pieces] at ih
        rcases List.mem_cons.mp member with rfl | later
        · obtain ⟨no_mark, within⟩ := ih List.mem_cons_self
          refine ⟨by simp [Ne.symm is_mark, no_mark], fun c c_mem => ?_⟩
          rcases List.mem_cons.mp c_mem with rfl | c_mem
          · exact List.mem_cons_self
          · exact List.mem_cons_of_mem _ (within c c_mem)
        · obtain ⟨no_mark, within⟩ := ih (List.mem_cons_of_mem _ later)
          exact ⟨no_mark, fun c c_mem => List.mem_cons_of_mem _ (within c c_mem)⟩

end SuiteMigration.Text
