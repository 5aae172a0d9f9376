import SuiteMigration.Proofs.Test.Calls
import SuiteMigration.Proofs.Text.Ending

/-!
# Words in a text

A text begins and ends with one word only, with blanks around it or without. So what stands around
the dot of a call is settled by the text.
-/
namespace SuiteMigration.Test

open Pattern Text

section Start

variable {left right rest more name other gap : List Char} {c d mark : Char}

/-- A text begins with one stretch of characters of a sort only. -/
theorem stretch_append_inj {holds : Char → Bool} (left_holds : left.all holds = true)
    (right_holds : right.all holds = true) (left_end : holds c = false) (right_end : holds d = false)
    (text_eq : left ++ c :: rest = right ++ d :: more) : left = right ∧ c = d ∧ rest = more := by
  have first_eq := congrArg (List.takeWhile holds) text_eq
  rw [List.takeWhile_append_of_pos (List.all_eq_true.mp left_holds),
    List.takeWhile_append_of_pos (List.all_eq_true.mp right_holds),
    List.takeWhile_cons_of_neg (by simp [left_end]),
    List.takeWhile_cons_of_neg (by simp [right_end]), List.append_nil, List.append_nil] at first_eq
  subst first_eq
  obtain ⟨same, rest_eq⟩ := List.cons.inj (List.append_cancel_left text_eq)
  exact ⟨rfl, same, rest_eq⟩

theorem word_append_inj (left_word : left.all isWordChar = true)
    (right_word : right.all isWordChar = true) (left_end : isWordChar c = false)
    (right_end : isWordChar d = false) (text_eq : left ++ c :: rest = right ++ d :: more) :
    left = right ∧ c = d ∧ rest = more :=
  stretch_append_inj left_word right_word left_end right_end text_eq

theorem IsWord.append_ne_cons (is_word : IsWord left) (is_mark : isWordChar c = false) :
    left ++ rest ≠ c :: more := by
  obtain ⟨nonempty, all_word⟩ := is_word
  intro text_eq
  cases left with
  | nil => exact nonempty rfl
  | cons first left =>
    obtain ⟨rfl, -⟩ := List.cons.inj text_eq
    simp [all_word] at is_mark

theorem head_of_isWord (is_word : IsWord left) :
    ∀ c ∈ (left ++ rest).head?, isBlank c = false := by
  obtain ⟨first, left, rfl⟩ := List.exists_cons_of_ne_nil is_word.1
  rintro c ⟨⟩
  refine Bool.eq_false_iff.mpr fun blank => ?_
  have no_word := isWordChar_of_isBlank blank
  rw [is_word.2 _ List.mem_cons_self] at no_word
  cases no_word

theorem gap_eq_nil (is_gap : AllBlank gap) (is_name : IsWord name)
    (text_eq : gap ++ more = name ++ rest) : gap = [] := by
  cases gap with
  | nil => rfl
  | cons b gap =>
    have no_word := isWordChar_of_isBlank (is_gap b List.mem_cons_self)
    exact absurd text_eq.symm (is_name.append_ne_cons no_word)

/-- The word a text begins with ends at the first character of another sort. -/
theorem word_inj_of_gap (is_name : IsWord name) (is_other : IsWord other) (is_gap : AllBlank gap)
    (is_mark : isWordChar mark = false) (is_end : isWordChar c = false)
    (text_eq : other ++ (gap ++ mark :: more) = name ++ c :: rest) :
    other = name ∧ gap ++ mark :: more = c :: rest := by
  cases gap with
  | nil =>
    obtain ⟨rfl, rfl, rfl⟩ := word_append_inj is_other.all is_name.all is_mark is_end text_eq
    exact ⟨rfl, rfl⟩
  | cons b gap =>
    have no_word := isWordChar_of_isBlank (is_gap b List.mem_cons_self)
    obtain ⟨rfl, rfl, rfl⟩ := word_append_inj is_other.all is_name.all no_word is_end text_eq
    exact ⟨rfl, rfl⟩

end Start

theorem not_mem_of_isWord {c : Char} {text : List Char} (is_word : IsWord text)
    (no_word : isWordChar c = false) : c ∉ text := by
  intro member
  rw [is_word.2 c member] at no_word
  cases no_word

theorem not_mem_of_allBlank {c : Char} {text : List Char} (is_blank : AllBlank text)
    (no_blank : isBlank c = false) : c ∉ text := by
  intro member
  rw [is_blank c member] at no_blank
  cases no_blank

section End

variable {front left after gap behind beyond name other : List Char}

theorem endsOutside_blanks (is_word : IsWord name) (front : List Char) :
    EndsOutside isBlank (front ++ name) := by
  refine endsOutside_append is_word.1 (fun c member => ?_) front
  refine Bool.eq_false_iff.mpr fun blank => ?_
  have no_word := isWordChar_of_isBlank blank
  rw [is_word.2 c member] at no_word
  cases no_word

/-- A text ends with one word only, whatever blanks follow it. -/
theorem last_word_inj (is_name : IsWord name) (is_other : IsWord other) (is_behind : AllBlank behind)
    (is_beyond : AllBlank beyond) (front_ends : EndsOutside isWordChar front)
    (left_ends : EndsOutside isWordChar left)
    (text_eq : front ++ name ++ behind = left ++ other ++ beyond) : front = left ∧ name = other := by
  obtain ⟨words_eq, -⟩ := append_inj_of_ends text_eq is_behind is_beyond
    (endsOutside_blanks is_name _) (endsOutside_blanks is_other _)
  exact append_inj_of_ends words_eq is_name.2 is_other.2 front_ends left_ends

/-- No word ends in front of a word that stands behind a mark and blanks. -/
theorem endsOutside_gap {mark : Char} (is_mark : isWordChar mark = false) (is_gap : AllBlank gap)
    (front : List Char) : EndsOutside isWordChar (front ++ [mark] ++ gap) := by
  have mark_ends := endsOutside_append (List.cons_ne_nil mark [])
    (List.forall_mem_singleton.mpr is_mark) front
  exact mark_ends.append fun c member => isWordChar_of_isBlank (is_gap c member)

/-- The word behind the last dot of a text, and what is in front of that dot. -/
theorem dotted_word_inj (is_name : IsWord name) (is_other : IsWord other) (is_after : AllBlank after)
    (is_behind : AllBlank behind) (is_gap : AllBlank gap) (is_beyond : AllBlank beyond)
    (text_eq : front ++ '.' :: (after ++ (name ++ behind))
      = left ++ '.' :: (gap ++ (other ++ beyond))) : front = left ∧ name = other := by
  have split_eq : front ++ ['.'] ++ after ++ name ++ behind
      = left ++ ['.'] ++ gap ++ other ++ beyond := by simpa using text_eq
  obtain ⟨dots_eq, name_eq⟩ := last_word_inj is_name is_other is_behind is_beyond
    (endsOutside_gap (by decide) is_after front) (endsOutside_gap (by decide) is_gap left) split_eq
  have dot_ends : ∀ front : List Char, EndsOutside isBlank (front ++ ['.']) :=
    endsOutside_append (List.cons_ne_nil '.' []) (List.forall_mem_singleton.mpr (by decide))
  obtain ⟨dots_eq, -⟩ :=
    append_inj_of_ends dots_eq is_after is_gap (dot_ends front) (dot_ends left)
  exact ⟨List.append_cancel_right dots_eq, name_eq⟩

end End

end SuiteMigration.Test
