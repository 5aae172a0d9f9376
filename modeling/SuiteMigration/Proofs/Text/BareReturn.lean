import SuiteMigration.Proofs.Text.Lines
import SuiteMigration.Proofs.Text.Parentheses

/-!
# Carriage returns within lines

A line feed takes the carriage return in front of it along, and trimming takes those at either end of
a line. A bare one, which has something in front of it and behind it on its line, is in the trimmed
line too.
-/
namespace SuiteMigration.Text

/-- A part of one line that neither begins nor ends with a blank. -/
structure IsStretch (part : List Char) : Prop where
  nonempty : part ≠ []
  first : ∀ c ∈ part.head?, isBlank c = false
  last : ∀ c ∈ part.getLast?, isBlank c = false
  no_feed : '\n' ∉ part

/-- The text has a carriage return with something in front of it and behind it on its line. -/
def HasBareReturn (text : List Char) : Prop :=
  ∃ part, part <:+: text ∧ IsStretch part ∧ '\r' ∈ part

section Trim

variable {line part : List Char}

private theorem infix_dropWhile_isBlank (nonempty : part ≠ [])
    (first : ∀ c ∈ part.head?, isBlank c = false) :
    part <:+: line.dropWhile isBlank ↔ part <:+: line := by
  refine ⟨fun within => within.trans (List.dropWhile_suffix _).isInfix, fun within => ?_⟩
  induction line with
  | nil => exact within
  | cons c line ih =>
    rw [List.dropWhile_cons]
    split
    · next blank =>
      -- The part does not begin with this blank, so it stands behind it.
      refine ih ((List.infix_cons_iff.mp within).resolve_left fun front => ?_)
      obtain ⟨d, rest, rfl⟩ := List.exists_cons_of_ne_nil nonempty
      obtain ⟨rfl, -⟩ := List.cons_prefix_cons.mp front
      rw [first d rfl] at blank
      cases blank
    · exact within

/-- Trimming takes nothing off a stretch. -/
theorem IsStretch.infix_trim (stretch : IsStretch part) : part <:+: trim line ↔ part <:+: line := by
  have reverse_nonempty : part.reverse ≠ [] := by simpa using stretch.nonempty
  have reverse_first : ∀ c ∈ part.reverse.head?, isBlank c = false := by
    simpa using stretch.last
  rw [trim, trimRight, trimLeft, ← List.reverse_infix, List.reverse_reverse,
    infix_dropWhile_isBlank reverse_nonempty reverse_first, List.reverse_infix,
    infix_dropWhile_isBlank stretch.nonempty stretch.first]

private theorem trim_isInfix_self (line : List Char) : trim line <:+: line := by
  obtain ⟨lead, trail, -, -, line_eq⟩ := exists_trim line
  exact ⟨lead, trail, by rw [List.append_assoc, ← line_eq]⟩

/-- What is left of a line is one stretch, or nothing. -/
theorem isStretch_trim (nonempty : trim line ≠ []) (no_feed : '\n' ∉ line) :
    IsStretch (trim line) where
  nonempty := nonempty
  first := by
    intro c first
    have left_trimmed := List.head?_dropWhile_not isBlank line
    have front : trim line <+: trimLeft line := by
      rw [trim, trimRight, ← List.reverse_suffix, List.reverse_reverse]
      exact List.dropWhile_suffix _
    obtain ⟨rest, line_eq⟩ := front
    rw [← trimLeft, ← line_eq, List.head?_append, show (trim line).head? = some c from first]
      at left_trimmed
    exact left_trimmed
  last := by
    intro c last
    have right_trimmed := List.head?_dropWhile_not isBlank (trimLeft line).reverse
    rw [trim, trimRight, List.getLast?_reverse] at last
    rw [show List.head? _ = some c from last] at right_trimmed
    exact right_trimmed
  no_feed := fun member => no_feed ((trim_isInfix_self line).subset member)

end Trim

section Lines

variable {text line part : List Char}

private theorem dropReturn_isPrefix_self (line : List Char) : dropReturn line <+: line := by
  unfold dropReturn
  split
  · exact List.dropLast_prefix line
  · exact List.prefix_rfl

private theorem infix_of_mem_lines (member : line ∈ lines text) : line <:+: text := by
  suffices go_infix : ∀ openLine : List Char, ∀ line ∈ lines.go openLine text,
      line <:+: openLine.reverse ++ text from go_infix [] line member
  clear member
  induction text with
  | nil =>
    intro openLine line member
    unfold lines.go at member
    split at member
    · cases member
    · obtain rfl := List.mem_singleton.mp member
      exact (List.prefix_append _ _).isInfix
  | cons c text ih =>
    intro openLine line member
    unfold lines.go at member
    split at member
    · rcases List.mem_cons.mp member with rfl | later
      · exact ((dropReturn_isPrefix_self _).trans (List.prefix_append _ _)).isInfix
      · have behind := ih [] line later
        exact behind.trans ⟨openLine.reverse ++ [c], [], by simp⟩
    · simpa using ih (c :: openLine) line member

/-- The end of a line takes nothing off a stretch. -/
theorem IsStretch.infix_dropReturn (stretch : IsStretch part) (within : part <:+: line) :
    part <:+: dropReturn line := by
  unfold dropReturn
  split
  · next ends =>
    obtain ⟨front, back, rfl⟩ := within
    -- The part does not end with the carriage return, so something stands behind it.
    rcases List.eq_nil_or_concat back with rfl | ⟨back, c, rfl⟩
    · rw [List.append_nil, List.getLast?_append_of_ne_nil _ stretch.nonempty] at ends
      exact absurd (stretch.last '\r' ends) (by decide)
    · rw [List.concat_eq_append, ← List.append_assoc, List.dropLast_concat]
      exact ⟨front, back, rfl⟩
  · exact within

/-- A part without the mark stands in front of it or behind it. -/
theorem infix_or_infix {mark : Char} {front back : List Char} (absent : mark ∉ part)
    (within : part <:+: front ++ mark :: back) : part <:+: front ∨ part <:+: back := by
  obtain ⟨before, after, parts_eq⟩ := within
  rcases List.append_eq_append_iff.mp parts_eq with ⟨rest, rfl, -⟩ | ⟨rest, part_eq, behind_eq⟩
  · exact .inl ⟨before, rest, rfl⟩
  cases rest with
  | nil => exact .inl ⟨before, [], by simpa using part_eq⟩
  | cons c rest =>
    obtain ⟨rfl, rfl⟩ := List.cons.inj behind_eq
    rcases List.append_eq_append_iff.mp part_eq with ⟨inner, -, rfl⟩ | ⟨inner, -, mark_eq⟩
    · simp at absent
    cases inner with
    | nil =>
      rw [← show mark :: rest = part from mark_eq] at absent
      simp at absent
    | cons d inner =>
      obtain ⟨rfl, rfl⟩ := List.cons.inj mark_eq
      exact .inr ⟨inner, after, rfl⟩

theorem IsStretch.exists_line (stretch : IsStretch part) (within : part <:+: text) :
    ∃ line ∈ lines text, part <:+: line := by
  suffices go_holds : ∀ openLine : List Char, part <:+: openLine.reverse ++ text →
      ∃ line ∈ lines.go openLine text, part <:+: line from go_holds [] within
  clear within
  -- The reader holds the front of a line in reverse, so the induction is over every front.
  induction text with
  | nil =>
    intro openLine within
    rw [List.append_nil] at within
    have open_nonempty : openLine ≠ [] := by
      rintro rfl
      exact stretch.nonempty (List.infix_nil.mp within)
    exact ⟨openLine.reverse, by simp [lines.go, open_nonempty], within⟩
  | cons c text ih =>
    intro openLine within
    unfold lines.go
    split
    · next feed =>
      rw [feed] at within
      rcases infix_or_infix stretch.no_feed within with here | behind
      · exact ⟨_, List.mem_cons_self, stretch.infix_dropReturn here⟩
      · obtain ⟨line, member, within⟩ := ih [] behind
        exact ⟨line, List.mem_cons_of_mem _ member, within⟩
    · exact ih (c :: openLine) (by simpa using within)

/-- The carriage returns that trimming leaves in the lines of a text are its bare ones. -/
theorem exists_return_trim_iff :
    (∃ line ∈ lines text, '\r' ∈ trim line) ↔ HasBareReturn text := by
  constructor
  · rintro ⟨line, in_lines, member⟩
    exact ⟨trim line, (trim_isInfix_self line).trans (infix_of_mem_lines in_lines),
      isStretch_trim (List.ne_nil_of_mem member) (notMem_of_mem_lines in_lines), member⟩
  · rintro ⟨part, within, stretch, member⟩
    obtain ⟨line, in_lines, in_line⟩ := stretch.exists_line within
    exact ⟨line, in_lines, (stretch.infix_trim.mpr in_line).subset member⟩

end Lines

end SuiteMigration.Text
