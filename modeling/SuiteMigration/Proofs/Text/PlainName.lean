import SuiteMigration.Outline.Lexing

/-!
# Plain names

Names of ASCII letters, digits and underscores that begin with a letter. To every character class
their characters are what they look like.
-/
namespace SuiteMigration.Text

/-- An ASCII letter, a digit or an underscore. -/
def isPlainChar (c : Char) : Bool :=
  c.isAlphanum || c == '_'

structure PlainName where
  text : List Char
  starts : text.head?.any Char.isAlpha = true
  all_plain : text.all isPlainChar = true

section Classes

variable {c : Char}

private theorem isPlainChar_of_isAlpha (letter : c.isAlpha = true) : isPlainChar c = true := by
  simp [isPlainChar, Char.isAlphanum, letter]

private theorem toNat_of_isPlainChar (plain : isPlainChar c = true) :
    (65 ≤ c.toNat ∧ c.toNat ≤ 90) ∨ (97 ≤ c.toNat ∧ c.toNat ≤ 122) ∨
      (48 ≤ c.toNat ∧ c.toNat ≤ 57) ∨ c.toNat = 95 := by
  change (((decide (c.val ≥ 'A'.val ∧ c.val ≤ 'Z'.val)
    || (decide (c.val ≥ 'a'.val) && decide (c.val ≤ 'z'.val)))
    || (decide (c.val ≥ '0'.val) && decide (c.val ≤ '9'.val))) || c == '_') = true at plain
  simp only [Bool.or_eq_true, Bool.and_eq_true, decide_eq_true_eq, beq_iff_eq, ge_iff_le,
    UInt32.le_iff_toNat_le] at plain
  rcases plain with ((upper | lower) | digit) | rfl
  · exact .inl upper
  · exact .inr (.inl lower)
  · exact .inr (.inr (.inl digit))
  · exact .inr (.inr (.inr rfl))

theorem toNat_lt_of_isPlainChar (plain : isPlainChar c = true) : c.toNat < 0x80 := by
  have bounds := toNat_of_isPlainChar plain
  omega

theorem isWordChar_of_isPlainChar (plain : isPlainChar c = true) : isWordChar c = true := by
  rw [isWordChar, if_pos (toNat_lt_of_isPlainChar plain)]
  exact plain

theorem isBlank_of_isPlainChar (plain : isPlainChar c = true) : isBlank c = false := by
  have bounds := toNat_of_isPlainChar plain
  simp only [isBlank, Bool.or_eq_false_iff, Bool.and_eq_false_iff, decide_eq_false_iff_not,
    beq_eq_false_iff_ne]
  omega

theorem isIdentPart_of_isPlainChar (plain : isPlainChar c = true) :
    Outline.isIdentPart c = true := by
  simp only [Outline.isIdentPart, isLetterOrNumeral, toNat_lt_of_isPlainChar plain, ↓reduceIte]
  exact Bool.or_eq_true_iff.mpr (.inl plain)

theorem isIdentStart_of_isAlpha (letter : c.isAlpha = true) : Outline.isIdentStart c = true := by
  have small := toNat_lt_of_isPlainChar (isPlainChar_of_isAlpha letter)
  simp [Outline.isIdentStart, isLetter, small, letter]

/-- A character of another sort is not in the name. -/
theorem ne_of_isPlainChar (plain : isPlainChar c = true) {mark : Char}
    (other : isPlainChar mark = false) : c ≠ mark := by
  rintro rfl
  simp [plain] at other

/-- What holds of the first character of a text holds of its head. -/
theorem head_false {holds : Char → Bool} {rest : List Char} (other : holds c = false) :
    ∀ next ∈ (c :: rest).head?, holds next = false := by
  intro next member
  cases member
  exact other

/-- What no character of a front satisfies the head of the text does not, if the rest agrees. -/
theorem head_append_false {holds : Char → Bool} {front rest : List Char}
    (front_false : ∀ c ∈ front, holds c = false) (rest_false : ∀ c ∈ rest.head?, holds c = false) :
    ∀ next ∈ (front ++ rest).head?, holds next = false := by
  cases front with
  | nil => exact rest_false
  | cons c front => exact head_false (front_false c List.mem_cons_self)

end Classes

namespace PlainName

variable (name : PlainName)

theorem plain : ∀ c ∈ name.text, isPlainChar c = true :=
  List.all_eq_true.mp name.all_plain

theorem text_ne_nil : name.text ≠ [] := by
  intro text_eq
  have starts := name.starts
  rw [text_eq] at starts
  cases starts

theorem head_not_blank (rest : List Char) :
    ∀ c ∈ (name.text ++ rest).head?, isBlank c = false := by
  intro c member
  cases text_eq : name.text with
  | nil => exact absurd text_eq name.text_ne_nil
  | cons first others =>
    rw [text_eq] at member
    cases member
    exact isBlank_of_isPlainChar (name.plain c (by simp [text_eq]))

end PlainName

end SuiteMigration.Text
