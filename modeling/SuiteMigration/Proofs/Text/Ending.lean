import SuiteMigration.Outline.Lexing

/-!
# The end of a text

Blanks are neither word characters nor parts of an identifier. A last part of characters of one sort
is settled by the text where nothing in front of it ends in that sort.
-/
namespace SuiteMigration.Text

section Blank

variable {c : Char}

/-- The code points of the blanks. -/
def blankCodes : List Nat :=
  [9, 10, 11, 12, 13, 0x20, 0x85, 0xa0, 0x1680, 0x2000, 0x2001, 0x2002, 0x2003, 0x2004, 0x2005,
    0x2006, 0x2007, 0x2008, 0x2009, 0x200a, 0x2028, 0x2029, 0x202f, 0x205f, 0x3000]

private theorem toNat_of_isBlank (blank : isBlank c = true) : c.toNat ∈ blankCodes := by
  simp only [isBlank, Bool.or_eq_true, Bool.and_eq_true, decide_eq_true_eq, beq_iff_eq] at blank
  simp only [blankCodes, List.mem_cons, List.not_mem_nil, or_false]
  omega

/-- What no blank satisfies, by their code points. -/
theorem false_of_isBlank (holds : Char → Bool)
    (refuted : ∀ code ∈ blankCodes, holds (Char.ofNat code) = false) (blank : isBlank c = true) :
    holds c = false := by
  have at_code := refuted c.toNat (toNat_of_isBlank blank)
  rwa [Char.ofNat_toNat] at at_code

/-- No blank is in a table none of whose ranges has one of their code points. -/
theorem inRanges_of_isBlank {ranges : Array (Nat × Nat)}
    (missed : (ranges.toList.all fun range =>
      blankCodes.all fun code => code.blt range.1 || range.2.blt code) = true)
    (blank : isBlank c = true) : inRanges ranges c = false := by
  rw [inRanges, ← Array.any_toList, List.any_eq_false]
  intro range member
  have missed_code := List.all_eq_true.mp (List.all_eq_true.mp missed range member) c.toNat
    (toNat_of_isBlank blank)
  simp only [Bool.or_eq_true, Nat.blt_eq] at missed_code
  simp only [Bool.and_eq_true, decide_eq_true_eq]
  omega

private theorem isAlphanum_of_isBlank (blank : isBlank c = true) : c.isAlphanum = false :=
  false_of_isBlank Char.isAlphanum (by decide) blank

private theorem letterRanges_of_isBlank (blank : isBlank c = true) :
    inRanges letterRanges c = false :=
  inRanges_of_isBlank (by decide +kernel) blank

theorem isWordChar_of_isBlank (blank : isBlank c = true) : isWordChar c = false := by
  have no_underscore : (c == '_') = false := false_of_isBlank (· == '_') (by decide) blank
  have no_extra : inRanges wordExtraRanges c = false :=
    inRanges_of_isBlank (by decide +kernel) blank
  simp [isWordChar, isAlphanum_of_isBlank blank, no_underscore, letterRanges_of_isBlank blank,
    no_extra]

theorem isIdentPart_of_isBlank (blank : isBlank c = true) : Outline.isIdentPart c = false := by
  have no_mark : (c == '_' || c == '$') = false :=
    false_of_isBlank (fun c => c == '_' || c == '$') (by decide) blank
  have no_numeral : inRanges numeralRanges c = false :=
    inRanges_of_isBlank (by decide +kernel) blank
  have no_letter_or_numeral : isLetterOrNumeral c = false := by
    simp [isLetterOrNumeral, isAlphanum_of_isBlank blank, letterRanges_of_isBlank blank, no_numeral]
  rw [Outline.isIdentPart, Bool.or_assoc, no_letter_or_numeral, no_mark, Bool.or_false]

end Blank

section Ending

variable {holds : Char → Bool} {front other part last : List Char}

/-- The text is empty, or its last character is of another sort. -/
def EndsOutside (holds : Char → Bool) (text : List Char) : Prop :=
  ∀ c ∈ text.getLast?, holds c = false

theorem endsOutside_append (nonempty : part ≠ []) (refuted : ∀ c ∈ part, holds c = false)
    (front : List Char) : EndsOutside holds (front ++ part) := by
  intro c member
  rw [List.getLast?_append, List.getLast?_eq_some_getLast nonempty, Option.some_or] at member
  exact refuted c (Option.some.inj member ▸ List.getLast_mem nonempty)

theorem EndsOutside.append (ends : EndsOutside holds front)
    (refuted : ∀ c ∈ part, holds c = false) : EndsOutside holds (front ++ part) := by
  by_cases nonempty : part = []
  · rwa [nonempty, List.append_nil]
  · exact endsOutside_append nonempty refuted front

theorem EndsOutside.eq_nil (ends : EndsOutside holds (front ++ part))
    (all_hold : ∀ c ∈ part, holds c = true) : part = [] := by
  cases last_eq : part.getLast? with
  | none => exact List.getLast?_eq_none_iff.mp last_eq
  | some c =>
    have refuted := ends c (by rw [List.getLast?_append, last_eq]; rfl)
    rw [all_hold c (List.mem_of_getLast? last_eq)] at refuted
    cases refuted

/-- Two last parts of one sort are the same where nothing of the sort stands in front of them. -/
theorem append_inj_of_ends (text_eq : front ++ part = other ++ last)
    (part_holds : ∀ c ∈ part, holds c = true) (last_holds : ∀ c ∈ last, holds c = true)
    (front_ends : EndsOutside holds front) (other_ends : EndsOutside holds other) :
    front = other ∧ part = last := by
  rcases List.append_eq_append_iff.mp text_eq with ⟨middle, rfl, rfl⟩ | ⟨middle, rfl, rfl⟩
  · obtain rfl := other_ends.eq_nil fun c member => part_holds c (List.mem_append_left last member)
    exact ⟨(List.append_nil front).symm, rfl⟩
  · obtain rfl := front_ends.eq_nil fun c member => last_holds c (List.mem_append_left part member)
    exact ⟨List.append_nil other, rfl⟩

end Ending

end SuiteMigration.Text
