import SuiteMigration.Locator.Declaration
import SuiteMigration.Proofs.Locator.Factory

/-!
# Variables that hold locators

A variable of locator or element type that is initialised with a factory call gives one entry, that
of the call. A declaration without an initializer gives none.
-/
namespace SuiteMigration.Locator

open Pattern Text

/-- A variable of type `By` with its initializer. -/
def byText (name : PlainName) (lookup : List Char) : List Char :=
  "By".toList ++ ' ' :: (name.text ++ ' ' :: '=' :: ' ' :: lookup)

/-- A variable of element type that is initialised by looking the element up. -/
def elementText (name : PlainName) (lookup : List Char) : List Char :=
  "WebElement".toList ++ ' ' :: (name.text ++ ' ' :: '=' :: ' ' :: ("driver".toList
    ++ '.' :: ("findElement".toList ++ '(' :: (lookup ++ [')']))))

def driverName : PlainName := ⟨"driver".toList, by decide, by decide⟩

theorem takes_word (name : PlainName) {rest : List Char} {groups : List (String × List Char)}
    (ends : ∀ c ∈ rest.head?, isWordChar c = false) :
    word.Takes (name.text ++ rest) rest groups groups :=
  takes_oneOrMore name.text_ne_nil (fun c member => isWordChar_of_isPlainChar (name.plain c member))
    ends

/-- Neither type begins like the word that can stand in front of one. -/
theorem fails_final {type : List Char} (is_type : type = "By".toList ∨ type = "WebElement".toList)
    (rest : List Char) : (all [text "final", someBlanks]).Fails (type ++ rest) := by
  refine (fails_literal (by decide) ?_).seq
  rcases is_type with rfl | rfl <;> simp

section Call

variable {strategy : Strategy} {body : List Char}

theorem callText_no_feed (strategy : Strategy) (literal : LiteralBody body) :
    ∀ c ∈ callText strategy body, c ≠ '\n' := by
  intro c member
  simp only [callText, List.mem_append, List.mem_cons, List.not_mem_nil, or_false] at member
  rcases member with in_by | rfl | in_factory | rfl | rfl | in_body | rfl | rfl
  · exact ne_of_isPlainChar (byName.plain c in_by) rfl
  · decide
  · exact ne_of_isPlainChar (strategy.factory_plain c in_factory) rfl
  · decide
  · decide
  · exact literal.no_feed c in_body
  · decide
  · decide

private theorem takes_lookup (literal : LiteralBody body) (named : strategy ≠ .literal)
    (groups : List (String × List Char)) :
    (all [text "By", blanks, mark '.', blanks, word, blanks, mark '(', line, mark ')']).Takes
      (callText strategy body) [] groups groups := by
  have factory_first := (Strategy.factoryName named).head_not_blank
    ('(' :: '"' :: (body ++ ['"', ')']))
  -- The line takes the closing parenthesis too and gives it back.
  have line_eq : ('"' :: (body ++ ['"', ')'])) = ('"' :: (body ++ ['"'])) ++ [')'] := by simp
  have no_feed : ∀ c ∈ ('"' :: (body ++ ['"'])) ++ [')'], c ≠ '\n' := by
    intro c member
    refine callText_no_feed strategy literal c ?_
    rw [← line_eq] at member
    simp only [callText, List.mem_append, List.mem_cons] at member ⊢
    tauto
  refine (takes_literal "By".toList).seq ?_
  refine (takes_blanks_none (head_false (by decide))).seq ?_
  refine (takes_mark '.').seq ?_
  refine (takes_blanks_none factory_first).seq ?_
  refine (takes_word (Strategy.factoryName named) (head_false (by decide))).seq ?_
  refine (takes_blanks_none (head_false (by decide))).seq ?_
  refine (takes_mark '(').seq ?_
  rw [line_eq]
  exact takes_line_back no_feed (fails_one (by simp)).seq ((takes_mark ')').seq takes_empty)

theorem find?_byVariable (literal : LiteralBody body) (named : strategy ≠ .literal)
    (name : PlainName) :
    byVariable.find? (byText name (callText strategy body))
      = some ⟨[], byText name (callText strategy body), [],
          [("lookup", callText strategy body), ("name", name.text)]⟩ := by
  have no_final : (all [text "final", someBlanks]).Fails (byText name (callText strategy body)) :=
    fails_final (.inl rfl) _
  have takes : (all [optional (all [text "final", someBlanks]), text "By", someBlanks,
      .group "name" word, blanks, mark '=', blanks,
      .group "lookup" (all [text "By", blanks, mark '.', blanks, word, blanks, mark '(', line,
        mark ')']), .atEnd]).Takes
      (byText name (callText strategy body)) [] []
      [("lookup", callText strategy body), ("name", name.text)] := by
    refine (takes_optional_skip no_final).seq ?_
    refine (takes_literal "By".toList).seq ?_
    refine (takes_someBlanks_space (name.head_not_blank _)).seq ?_
    refine ((takes_word name (head_false (by decide))).group "name").seq ?_
    refine (takes_blanks_space (head_false (by decide))).seq ?_
    refine (takes_mark '=').seq ?_
    refine (takes_blanks_space (head_false (by decide))).seq ?_
    refine ((takes_lookup literal named _).group_all "lookup").seq ?_
    exact takes_atEnd.seq takes_empty
  exact find?_anchored (List.append_nil _).symm takes

/-- No text of another type is a variable of type `By`. -/
theorem find?_byVariable_other {rest : List Char} :
    byVariable.find? ("WebElement".toList ++ rest) = none := by
  have no_final := fails_final (.inr rfl) rest
  have no_by : (text "By").Fails ("WebElement".toList ++ rest) :=
    fails_literal (by decide) (by simp)
  exact find?_anchored_eq_none (no_final.optional_seq no_by.seq)

theorem find?_elementVariable (literal : LiteralBody body) (name : PlainName) :
    elementVariable.find? (elementText name (callText strategy body))
      = some ⟨[], elementText name (callText strategy body), [],
          [("lookup", callText strategy body), ("name", name.text)]⟩ := by
  have no_final : (all [text "final", someBlanks]).Fails
      (elementText name (callText strategy body)) :=
    fails_final (.inr rfl) _
  have no_feed : ∀ c ∈ callText strategy body ++ [')'], c ≠ '\n' := by
    intro c member
    rcases List.mem_append.mp member with in_call | is_round
    · exact callText_no_feed strategy literal c in_call
    · rw [List.mem_singleton.mp is_round]
      decide
  -- Each part takes its own text. The lookup goes on up to the last parenthesis.
  have takes : (all [optional (all [text "final", someBlanks]), text "WebElement", someBlanks,
      .group "name" word, blanks, mark '=', blanks, word, blanks, mark '.', blanks,
      text "findElement", blanks, mark '(', .group "lookup" line, mark ')', .atEnd]).Takes
      (elementText name (callText strategy body)) [] []
      [("lookup", callText strategy body), ("name", name.text)] := by
    refine (takes_optional_skip no_final).seq ?_
    refine (takes_literal "WebElement".toList).seq ?_
    refine (takes_someBlanks_space (name.head_not_blank _)).seq ?_
    refine ((takes_word name (head_false (by decide))).group "name").seq ?_
    refine (takes_blanks_space (head_false (by decide))).seq ?_
    refine (takes_mark '=').seq ?_
    refine (takes_blanks_space (head_false (by decide))).seq ?_
    refine (takes_word driverName (head_false (by decide))).seq ?_
    refine (takes_blanks_none (head_false (by decide))).seq ?_
    refine (takes_mark '.').seq ?_
    refine (takes_blanks_none (head_false (by decide))).seq ?_
    refine (takes_literal "findElement".toList).seq ?_
    refine (takes_blanks_none (head_false (by decide))).seq ?_
    refine (takes_mark '(').seq ?_
    refine takes_line_group_back no_feed (fails_one (by simp)).seq ?_
    exact (takes_mark ')').seq (takes_atEnd.seq takes_empty)
  exact find?_anchored (List.append_nil _).symm takes

end Call

/-- Without a sign in front of an initializer no variable is initialised. -/
theorem find?_elementVariable_bare {text : List Char} (bare : '=' ∉ text) :
    elementVariable.find? text = none := by
  refine find?_anchored_eq_none (Needs.fails ?_ bare)
  refine Needs.seq_right (Needs.seq_right (Needs.seq_right (Needs.seq_right (Needs.seq_right ?_))))
  exact (needs_mark '=').seq_left

end SuiteMigration.Locator
