import Mathlib.Data.List.TakeWhile
import SuiteMigration.Locator.Declaration
import SuiteMigration.Proofs.Locator.Literal
import SuiteMigration.Proofs.Text.Ending

/-!
# Reading annotation arguments

Whatever its arguments look like, an annotation is read attribute by attribute: a word, a sign, and a
string literal or a name at the beginning of the value. The rest of the value is passed over, like
all else in front of the next attribute.
-/
namespace SuiteMigration.Locator

open Pattern Text

/-- A character of a name, dotted or not. -/
def isDotted (c : Char) : Bool :=
  isWordChar c || c == '.'

theorem isDotted_of_isWordChar {c : Char} (is_word : isWordChar c = true) : isDotted c = true :=
  Bool.or_eq_true_iff.mpr (.inl is_word)

theorem isDotted_of_isBlank {c : Char} (blank : isBlank c = true) : isDotted c = false := by
  have no_dot : (c == '.') = false := false_of_isBlank (· == '.') (by decide) blank
  rw [isDotted, isWordChar_of_isBlank blank, no_dot, Bool.false_or]

private theorem isBlank_of_isDotted {c : Char} (dotted : isDotted c = true) : isBlank c = false :=
  Bool.eq_false_iff.mpr fun blank =>
    Bool.false_ne_true ((isDotted_of_isBlank blank).symm.trans dotted)

/-- What is read of a value. -/
inductive AttributeValue where
  | literal (body : List Char) (is_body : (Pattern.many true stringChar).Accepts body)
  | constant (name : List Char) (nonempty : name ≠ []) (dotted : ∀ c ∈ name, isDotted c = true)

namespace AttributeValue

def text : AttributeValue → List Char
  | literal body _ => '"' :: (body ++ ['"'])
  | constant name _ _ => name

/-- The body of a literal, or the name itself. -/
def content : AttributeValue → List Char
  | literal body _ => body
  | constant name _ _ => name

def group : AttributeValue → String × List Char
  | literal body _ => ("value", body)
  | constant name _ _ => ("constant", name)

/-- A name is read to its end. -/
def Ends : AttributeValue → List Char → Prop
  | literal _ _, _ => True
  | constant _ _ _, behind => ∀ c ∈ behind.head?, isDotted c = false

variable (value : AttributeValue) {behind : List Char}

theorem head_not_blank : ∀ c ∈ (value.text ++ behind).head?, isBlank c = false := by
  cases value with
  | literal body _ => exact head_false (by decide)
  | constant name nonempty dotted =>
    obtain ⟨first, name, rfl⟩ := List.exists_cons_of_ne_nil nonempty
    exact head_false (isBlank_of_isDotted (dotted first List.mem_cons_self))

theorem takes (ends : value.Ends behind) (groups : List (String × List Char)) :
    (oneOf [stringLiteral, attributeConstant]).Takes (value.text ++ behind) behind groups
      (value.group :: groups) := by
  cases value with
  | literal body is_body =>
    have text_eq : (literal body is_body).text ++ behind = '"' :: (body ++ '"' :: behind) := by
      simp [text]
    rw [text_eq]
    exact (takes_stringLiteral is_body behind groups).either_left
  | constant name nonempty dotted =>
    -- A value is tried as a string literal first.
    have no_literal : stringLiteral.Fails (name ++ behind) := by
      obtain ⟨first, name, rfl⟩ := List.exists_cons_of_ne_nil nonempty
      refine (fails_one (head_false ?_)).seq
      rw [beq_eq_false_iff_ne]
      rintro rfl
      exact absurd (dotted '"' List.mem_cons_self) (by decide)
    exact .either_right no_literal ((takes_oneOrMore nonempty dotted ends).group "constant")

end AttributeValue

/-- An attribute as it is read, with the blanks on both sides of its sign. -/
structure AttributePair where
  key : List Char
  key_ne : key ≠ []
  key_word : ∀ c ∈ key, isWordChar c = true
  gap : List Char
  gap_blank : ∀ c ∈ gap, isBlank c = true
  space : List Char
  space_blank : ∀ c ∈ space, isBlank c = true
  value : AttributeValue

namespace AttributePair

variable (pair : AttributePair) {behind : List Char}

def text : List Char :=
  pair.key ++ (pair.gap ++ '=' :: (pair.space ++ pair.value.text))

def groups : List (String × List Char) :=
  [pair.value.group, ("key", pair.key)]

def name : String :=
  String.ofList pair.key

def content : String :=
  String.ofList pair.value.content

theorem takes (ends : pair.value.Ends behind) :
    attributePair.Takes (pair.text ++ behind) behind [] pair.groups := by
  have text_eq : pair.text ++ behind
      = pair.key ++ (pair.gap ++ ('=' :: (pair.space
        ++ (pair.value.text ++ behind)))) := by
    simp [text]
  have gap_outside : ∀ c ∈ pair.gap, isWordChar c = false :=
    fun c member => isWordChar_of_isBlank (pair.gap_blank c member)
  rw [text_eq]
  refine ((takes_oneOrMore pair.key_ne pair.key_word
    (head_append_false gap_outside (head_false (by decide)))).group "key").seq ?_
  refine (takes_blanks pair.gap_blank (head_false (by decide))).seq ?_
  refine (takes_mark '=').seq ?_
  refine (takes_blanks pair.space_blank pair.value.head_not_blank).seq ?_
  exact (pair.value.takes ends _).seq takes_empty

/-- The text holds the attribute behind the edge of a word, with nothing more of its name. -/
def StandsIn (text : List Char) : Prop :=
  ∃ before behind, text = before ++ (pair.text ++ behind) ∧
    EndsOutside isWordChar before ∧ pair.value.Ends behind

end AttributePair

section Reading

variable {taken text rest front behind : List Char}

/-- Where a match begins an attribute does. -/
theorem exists_pair_of_accepts (accepted : attributePair.Accepts taken) (rest : List Char) :
    ∃ (pair : AttributePair) (behind : List Char),
      taken ++ rest = pair.text ++ behind ∧ pair.value.Ends behind := by
  obtain ⟨key, _, rfl, is_key, gap, _, rfl, is_gap, _, _, rfl, is_mark, space, _, rfl, is_space,
    value, _, rfl, is_value, rfl⟩ := accepted
  obtain ⟨key_ne, key_word⟩ := accepts_oneOrMore_one.mp is_key
  rw [accepts_mark.mp is_mark]
  let spelled (value : AttributeValue) : AttributePair :=
    ⟨key, key_ne, key_word, gap, accepts_many_one.mp is_gap, space, accepts_many_one.mp is_space,
      value⟩
  rcases is_value with is_literal | is_constant
  · obtain ⟨_, _, rfl, is_open, body, _, rfl, is_body, _, _, rfl, is_close, rfl⟩ := is_literal
    refine ⟨spelled (.literal body is_body), rest, ?_, trivial⟩
    rw [accepts_mark.mp is_open, accepts_mark.mp is_close]
    simp [AttributePair.text, spelled, AttributeValue.text]
  · -- A name goes on as far as it can, whatever the match took of it.
    obtain ⟨nonempty, dotted⟩ := accepts_oneOrMore_one.mp is_constant
    have all_dotted : ∀ c ∈ value ++ rest.takeWhile isDotted, isDotted c = true :=
      List.forall_mem_append.mpr ⟨dotted, fun c => List.mem_takeWhile_imp⟩
    refine ⟨spelled (.constant (value ++ rest.takeWhile isDotted)
      (List.append_ne_nil_of_left_ne_nil nonempty _) all_dotted), rest.dropWhile isDotted, ?_, ?_⟩
    · simp [AttributePair.text, spelled, AttributeValue.text]
    · intro c member
      have not_dotted := List.head?_dropWhile_not isDotted rest
      rw [Option.mem_def.mp member] at not_dotted
      simpa using not_dotted

/-- What is found is an attribute, behind the edge of a word. -/
theorem exists_pair_of_findFrom? {previous : Option Char} {found : Match}
    (found_eq : attributePair.findFrom? previous text = some found) :
    ∃ pair : AttributePair, text = found.before ++ (pair.text ++ found.after) ∧
      pair.value.Ends found.after ∧ found.groups = pair.groups ∧
      EndsOutside isWordChar found.before := by
  obtain ⟨rest, stop, text_eq, run_eq, after_eq, groups_eq, passed⟩ := run_of_findFrom? found_eq
  obtain ⟨taken, rest_eq, accepted⟩ := accepts_of_mem_ways (mem_ways_of_run run_eq)
  obtain ⟨pair, behind, split_eq, ends⟩ := exists_pair_of_accepts accepted stop.rest
  have rest_split : rest = pair.text ++ behind := (show rest = _ from rest_eq).trans split_eq
  -- An attribute has one way to be taken, so the match took this one.
  have takes := pair.takes ends
  rw [← rest_split] at takes
  obtain ⟨other, other_run, behind_eq, stop_groups⟩ := exists_stop_of_takes takes
    (found.before.getLast?.or previous)
  obtain rfl : stop = other := Option.some.inj (run_eq.symm.trans other_run)
  refine ⟨pair, ?_, ?_, groups_eq.trans stop_groups, ?_⟩
  · rw [text_eq, after_eq, behind_eq, ← rest_split]
  · rwa [after_eq, behind_eq]
  · -- With one more character of its word the attribute would have been found before.
    intro c last_eq
    rw [Bool.eq_false_iff]
    intro is_word
    obtain ⟨front, before_eq⟩ := List.getLast?_eq_some_iff.mp last_eq
    let longer : AttributePair :=
      { pair with
        key := c :: pair.key
        key_ne := List.cons_ne_nil c _
        key_word := List.forall_mem_cons.mpr ⟨is_word, pair.key_word⟩ }
    have longer_takes := @AttributePair.takes longer behind ends
    obtain ⟨_, longer_run, -⟩ := exists_stop_of_takes longer_takes (front.getLast?.or previous)
    have none_eq := passed front c before_eq
    rw [rest_split] at none_eq
    exact absurd (none_eq.symm.trans longer_run) (by simp)

/-- No word goes on behind an attribute: its value ends in a quote, or it is a name that ends there. -/
theorem AttributePair.edge (pair : AttributePair) (ends : pair.value.Ends behind) (front : List Char) :
    EndsOutside isWordChar (front ++ pair.text) ∨ ∀ c ∈ behind.head?, isWordChar c = false := by
  cases value_eq : pair.value with
  | literal body is_body =>
    left
    have text_eq : front ++ pair.text = (front ++ (pair.key ++ (pair.gap ++ '=' :: (pair.space
        ++ '"' :: body)))) ++ ['"'] := by
      simp [AttributePair.text, value_eq, AttributeValue.text]
    rw [text_eq]
    exact endsOutside_append (by simp) (List.forall_mem_singleton.mpr (by decide)) _
  | constant name nonempty dotted =>
    right
    rw [value_eq] at ends
    intro c member
    rw [Bool.eq_false_iff]
    intro is_word
    have not_dotted := ends c member
    rw [isDotted_of_isWordChar is_word] at not_dotted
    cases not_dotted

/-- Where a search begins at the edge of a word, so does the attribute it finds. -/
theorem endsOutside_passed {passed before : List Char} (pair : AttributePair)
    (edge : EndsOutside isWordChar passed ∨ ∀ c ∈ text.head?, isWordChar c = false)
    (text_eq : text = before ++ (pair.text ++ behind)) (before_ends : EndsOutside isWordChar before) :
    EndsOutside isWordChar (passed ++ before) := by
  intro c last_eq
  rw [List.getLast?_append] at last_eq
  cases before_last : before.getLast? with
  | some last =>
    rw [before_last] at last_eq
    exact before_ends c (before_last.trans last_eq)
  | none =>
    rw [before_last] at last_eq
    -- Nothing was passed over, so the text begins with a word: that of the key.
    rw [List.getLast?_eq_none_iff.mp before_last] at text_eq
    obtain ⟨first, others, key_eq⟩ := List.exists_cons_of_ne_nil pair.key_ne
    have first_word := pair.key_word first (by rw [key_eq]; exact List.mem_cons_self)
    rcases edge with passed_ends | no_word
    · exact passed_ends c last_eq
    · have head_eq : text.head? = some first := by
        rw [text_eq, AttributePair.text, key_eq]
        rfl
      rw [no_word first head_eq] at first_word
      cases first_word

/-- The search reads attributes that stand in the text, whatever stands in front of that. -/
theorem exists_pairs_of_findAllFrom (previous : Option Char) (text passed : List Char)
    (edge : EndsOutside isWordChar passed ∨ ∀ c ∈ text.head?, isWordChar c = false) :
    ∃ pairs : List AttributePair,
      (attributePair.findAllFrom previous text).map Match.groups
        = pairs.map AttributePair.groups ∧
      ∀ pair ∈ pairs, pair.StandsIn (passed ++ text) := by
  fun_induction attributePair.findAllFrom previous text generalizing passed with
  | case1 previous text none_eq => exact ⟨[], rfl, by simp⟩
  | case2 previous text found found_eq takes shorter ih =>
    obtain ⟨pair, text_eq, ends, groups_eq, before_ends⟩ := exists_pair_of_findFrom? found_eq
    obtain ⟨pairs, pairs_groups, stand⟩ :=
      ih (passed ++ found.before ++ pair.text) (pair.edge ends _)
    refine ⟨pair :: pairs, ?_, List.forall_mem_cons.mpr ⟨?_, ?_⟩⟩
    · rw [List.map_cons, List.map_cons, groups_eq, pairs_groups]
    · exact ⟨passed ++ found.before, found.after, by simp [text_eq],
        endsOutside_passed pair edge text_eq before_ends, ends⟩
    · intro other member
      have stands := stand other member
      rwa [List.append_assoc, List.append_assoc, ← text_eq] at stands
  | case3 previous text found found_eq takes => exact absurd rfl takes

theorem findAllFrom_attributePair_nil (previous : Option Char) :
    attributePair.findAllFrom previous [] = [] := by
  refine findAllFrom_none (findFrom?_eq_none (fun part suffix => ?_) previous)
  rw [List.suffix_nil.mp suffix]
  exact (Fails.seq (fails_one (by simp))).group "key" |>.seq

/-- A front without words is passed over. -/
theorem map_groups_front (outside : ∀ c ∈ front, isWordChar c = false) (text : List Char)
    (previous : Option Char) :
    (attributePair.findAllFrom previous (front ++ text)).map Match.groups
      = (attributePair.findAllFrom (front.getLast?.or previous) text).map Match.groups := by
  refine map_groups_findAllFrom_front rfl (fun left suffix left_ne => ?_) previous
  obtain ⟨c, left, rfl⟩ := List.exists_cons_of_ne_nil left_ne
  have no_word := outside c (suffix.subset List.mem_cons_self)
  exact (Fails.seq (fails_one (head_false no_word))).group "key" |>.seq

/-- An attribute at the start of a text is read, and the search goes on behind it. -/
theorem map_groups_pair (pair : AttributePair) (ends : pair.value.Ends behind)
    (previous : Option Char) :
    ∃ last, (attributePair.findAllFrom previous (pair.text ++ behind)).map Match.groups
      = pair.groups :: (attributePair.findAllFrom last behind).map Match.groups := by
  have found_eq := findFrom?_of_takes rfl (pair.takes ends) previous
  exact ⟨_, congrArg (List.map Match.groups) (findAllFrom_some rfl found_eq)⟩

end Reading

end SuiteMigration.Locator
