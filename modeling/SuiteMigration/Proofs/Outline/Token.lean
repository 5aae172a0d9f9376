import SuiteMigration.Outline.Token

/-!
# Marks and words

A token is at most one mark, no token is a mark and a word, and a word belongs to the lists that
hold it.
-/
namespace SuiteMigration.Outline.Token

private theorem isPunct_iff (token : Token) (mark : Char) :
    token.isPunct mark = true ↔ token.kind = .punct ∧ token.text = [mark] := by
  simp [Token.isPunct]

theorem isPunct_unique {token : Token} {left right : Char}
    (is_left : token.isPunct left = true) (is_right : token.isPunct right = true) :
    left = right := by
  rw [isPunct_iff] at is_left is_right
  simpa [is_left.2] using is_right.2

theorem isPunct_of_ne {token : Token} {mark : Char} (is_mark : token.isPunct mark = true)
    {other : Char} (ne : mark ≠ other) : token.isPunct other = false := by
  rw [Bool.eq_false_iff]
  exact fun is_other => ne (isPunct_unique is_mark is_other)

/-- A word is no mark. -/
theorem isPunct_of_isWord {token : Token} {words : List String}
    (is_word : token.isWord words = true) (mark : Char) : token.isPunct mark = false := by
  simp only [Token.isWord, Bool.and_eq_true, beq_iff_eq] at is_word
  simp [Token.isPunct, is_word.1]

theorem isWord_of_isPunct {token : Token} {mark : Char} (is_mark : token.isPunct mark = true)
    (words : List String) : token.isWord words = false := by
  rw [Bool.eq_false_iff]
  intro is_word
  rw [isPunct_of_isWord is_word] at is_mark
  cases is_mark

theorem isWord_of_subset {token : Token} {words more : List String}
    (is_word : token.isWord words = true) (subset : words ⊆ more) :
    token.isWord more = true := by
  simp only [isWord, Bool.and_eq_true, List.contains_iff_mem] at is_word ⊢
  exact ⟨is_word.1, subset is_word.2⟩

theorem isWord_of_disjoint {token : Token} {words others : List String}
    (is_word : token.isWord words = true) (disjoint : ∀ word ∈ words, word ∉ others) :
    token.isWord others = false := by
  simp only [isWord, Bool.and_eq_true, List.contains_iff_mem] at is_word
  simp [isWord, disjoint _ is_word.2]

end SuiteMigration.Outline.Token
