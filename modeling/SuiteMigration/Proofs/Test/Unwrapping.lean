import Mathlib.Logic.Relation
import SuiteMigration.Proofs.Test.Constructors

/-!
# Where unwrapping ends

Unwrapping is a loop over a text that it changes: each turn searches from the start and deletes the
head of the first constructor call, with the parenthesis that closes its group if there is one. What
a deletion brings together may be a head that was not there before, so the heads do not get fewer
turn by turn. The text does get shorter, by six characters at least. So the loop ends on every text,
and it ends only where no head is left.
-/
namespace SuiteMigration.Test

open Pattern Text

/-- The head of a constructor call, from its keyword to its parenthesis. -/
inductive IsHead : List Char → Prop where
  | spelled {gap type trail : List Char} (nonempty : gap ≠ []) (is_gap : AllBlank gap)
      (is_type : IsWord type) (is_trail : AllBlank trail) :
      IsHead ("new".toList ++ (gap ++ (type ++ (trail ++ ['(']))))

/-- The text has the head of a constructor call behind the front, where a word may begin. -/
structure Calls (text front head after : List Char) : Prop where
  text_eq : text = front ++ (head ++ after)
  edge : EndsOutside isWordChar front
  is_head : IsHead head

def HasCall (text : List Char) : Prop :=
  ∃ front head after, Calls text front head after

/-- One deletion: the head of a constructor call goes, and so does the parenthesis that closes its
group, if any does. -/
inductive Unwraps : List Char → List Char → Prop where
  | closed {text front head inner rest : List Char}
      (calls : Calls text front head (inner ++ ')' :: rest)) (balanced : Balanced inner) :
      Unwraps text (front ++ (inner ++ rest))
  | unclosed {text front head after : List Char} (calls : Calls text front head after)
      (never : ∀ inner rest, after = inner ++ ')' :: rest → ¬Balanced inner) :
      Unwraps text (front ++ after)

/-- What one turn of the loop makes of a text. None where the loop ends. -/
def unwrapOnce? (text : List Char) : Option (List Char) :=
  (constructorHead.find? text).map fun found => found.before ++ dropClose 0 found.after

/-- The loop ends with the result after so many turns. -/
inductive EndsAfter : Nat → List Char → List Char → Prop where
  | done {text : List Char} (last : unwrapOnce? text = none) : EndsAfter 0 text text
  | turn {turns : Nat} {text next result : List Char} (next_eq : unwrapOnce? text = some next)
      (ends : EndsAfter turns next result) : EndsAfter (turns + 1) text result

section Head

variable {text front head after : List Char}

theorem IsHead.six_le_length (is_head : IsHead head) : 6 ≤ head.length := by
  obtain ⟨nonempty, -, is_type, -⟩ := is_head
  have gap_pos := List.length_pos_iff.mpr nonempty
  have type_pos := List.length_pos_iff.mpr is_type.1
  have keyword_length : "new".toList.length = 3 := rfl
  simp only [List.length_append, List.length_singleton]
  omega

private theorem accepts_constructorStart : constructorStart.Accepts head ↔ IsHead head := by
  constructor
  · rintro ⟨_, _, rfl, is_keyword, gap, _, rfl, is_gap, type, _, rfl, is_type, trail, _, rfl,
      is_trail, _, _, rfl, is_opening, rfl⟩
    obtain rfl := accepts_literal.mp is_keyword
    obtain rfl := accepts_mark.mp is_opening
    obtain ⟨nonempty, is_gap⟩ := accepts_someBlanks.mp is_gap
    exact .spelled nonempty is_gap (accepts_word.mp is_type) (accepts_blanks.mp is_trail)
  · rintro ⟨nonempty, is_gap, is_type, is_trail⟩
    exact ⟨_, _, rfl, accepts_literal.mpr rfl, _, _, rfl, accepts_someBlanks.mpr ⟨nonempty, is_gap⟩,
      _, _, rfl, accepts_word.mpr is_type, _, _, rfl, accepts_blanks.mpr is_trail, _, _, rfl,
      accepts_mark.mpr rfl, rfl⟩

/-- A keyword stands at the edge of a word where no word character is in front of it. -/
theorem isWordEdge_of_head (is_head : IsHead head) (after : List Char) :
    (⟨front.getLast?, head ++ after, []⟩ : Cursor).isWordEdge = true ↔
      EndsOutside isWordChar front := by
  cases is_head
  have begins : isWordChar 'n' = true := by decide
  cases last_eq : front.getLast? <;> simp [Cursor.isWordEdge, EndsOutside, last_eq, begins]

/-- A search finds a head. -/
theorem calls_of_find? {found : Match} (found_eq : constructorHead.find? text = some found) :
    Calls text found.before found.text found.after := by
  obtain ⟨rest, stop, text_eq, run_eq, after_eq, -, -⟩ := run_of_findFrom? found_eq
  obtain ⟨middle, edge_found, found_mem⟩ := exists_of_mem_ways_seq (mem_ways_of_run run_eq)
  obtain ⟨is_edge, rfl⟩ := mem_ways_atWordEdge.mp edge_found
  rw [Option.or_none] at is_edge
  obtain ⟨head, rest_eq, accepted⟩ := accepts_of_mem_ways found_mem
  have is_head := accepts_constructorStart.mp accepted
  obtain rfl : rest = head ++ stop.rest := rest_eq
  -- What was found and what the pattern accepts end at the same place of the text.
  have head_eq : found.text = head := by
    have whole := findFrom?_append found_eq
    rw [text_eq, after_eq, List.append_assoc] at whole
    exact List.append_cancel_right (List.append_cancel_left whole)
  rw [head_eq, after_eq]
  exact ⟨text_eq, (isWordEdge_of_head is_head _).mp is_edge, is_head⟩

private theorem occursIn_constructorHead : constructorHead.occursIn text = true ↔ HasCall text := by
  constructor
  · intro occurs
    obtain ⟨found, found_eq⟩ := Option.isSome_iff_exists.mp occurs
    exact ⟨_, _, _, calls_of_find? found_eq⟩
  · rintro ⟨front, head, after, rfl, edge, is_head⟩
    have at_edge := (isWordEdge_of_head is_head after).mpr edge
    obtain ⟨stop, stop_mem, -⟩ : ∃ stop ∈ constructorStart.ways ⟨front.getLast?, head ++ after, []⟩,
        stop.rest = after :=
      mem_ways_of_accepts (by decide) (accepts_constructorStart.mpr is_head) rfl
    exact occursIn_iff.mpr ⟨front, head ++ after, rfl, stop,
      List.mem_flatMap.mpr ⟨_, mem_ways_atWordEdge.mpr ⟨at_edge, rfl⟩, stop_mem⟩⟩

end Head

section Close

variable {depth : Nat} {text : List Char}

/-- Without a parenthesis that closes the group, nothing is taken away. -/
theorem dropClose_of_never
    (never : ∀ inner rest, text = inner ++ ')' :: rest → ¬ClosesAll depth inner) :
    dropClose depth text = text := by
  fun_induction dropClose depth text with
  | case1 depth => rfl
  | case2 depth rest ih =>
    rw [ih fun inner rest split closes =>
      never ('(' :: inner) rest (congrArg _ split) (closesAll_opening.mpr closes)]
  | case3 rest => exact absurd (closesAll_nil.mpr rfl) (never [] rest rfl)
  | case4 rest _ depth ih =>
    rw [ih fun inner rest split closes =>
      never (')' :: inner) rest (congrArg _ split) (closesAll_closing.mpr closes)]
  | case5 depth c rest no_opening no_closing ih =>
    rw [ih fun inner rest split closes =>
      never (c :: inner) rest (congrArg _ split) ((closesAll_other no_opening no_closing).mpr closes)]

end Close

section Turn

variable {text next result : List Char} {turns : Nat}

theorem Unwraps.sublist (unwraps : Unwraps text next) : next.Sublist text := by
  cases unwraps with
  | @closed front head inner rest calls balanced =>
    rw [calls.text_eq]
    have kept : (inner ++ rest).Sublist (inner ++ ')' :: rest) :=
      (List.sublist_cons_self ')' rest).append_left inner
    exact (kept.trans (List.sublist_append_right head _)).append_left front
  | @unclosed front head after calls never =>
    rw [calls.text_eq]
    exact (List.sublist_append_right head after).append_left front

/-- A head is six characters at least: the keyword, a blank, a name and the parenthesis. -/
theorem Unwraps.length_le (unwraps : Unwraps text next) : next.length + 6 ≤ text.length := by
  cases unwraps with
  | closed calls balanced =>
    have head_length := calls.is_head.six_le_length
    rw [calls.text_eq]
    simp only [List.length_append, List.length_cons]
    omega
  | unclosed calls never =>
    have head_length := calls.is_head.six_le_length
    rw [calls.text_eq]
    simp only [List.length_append]
    omega

private theorem unwraps_of_unwrapOnce? (next_eq : unwrapOnce? text = some next) :
    Unwraps text next := by
  obtain ⟨found, found_eq, rfl⟩ := Option.map_eq_some_iff.mp next_eq
  have calls := calls_of_find? found_eq
  by_cases closed : ∃ inner rest, found.after = inner ++ ')' :: rest ∧ Balanced inner
  · obtain ⟨inner, rest, after_eq, balanced⟩ := closed
    rw [after_eq, dropClose_append balanced]
    exact .closed (after_eq ▸ calls) balanced
  · have never : ∀ inner rest, found.after = inner ++ ')' :: rest → ¬Balanced inner :=
      fun inner rest after_eq balanced => closed ⟨inner, rest, after_eq, balanced⟩
    rw [dropClose_of_never never]
    exact .unclosed calls never

/-- The loop goes on as long as there is a constructor call. -/
theorem unwrapOnce?_eq_none : unwrapOnce? text = none ↔ ¬HasCall text := by
  rw [← occursIn_constructorHead, unwrapOnce?, Option.map_eq_none_iff, occursIn,
    Bool.not_eq_true, Option.isSome_eq_false_iff, Option.isNone_iff_eq_none]

theorem EndsAfter.unwraps (ends : EndsAfter turns text result) :
    Relation.ReflTransGen Unwraps text result := by
  induction ends with
  | done last => exact .refl
  | turn next_eq ends ih => exact .head (unwraps_of_unwrapOnce? next_eq) ih

theorem EndsAfter.length_le (ends : EndsAfter turns text result) :
    6 * turns + result.length ≤ text.length := by
  induction ends with
  | done last => simp
  | turn next_eq ends ih =>
    have shorter := (unwraps_of_unwrapOnce? next_eq).length_le
    omega

theorem EndsAfter.not_hasCall (ends : EndsAfter turns text result) : ¬HasCall result := by
  induction ends with
  | done last => exact unwrapOnce?_eq_none.mp last
  | turn next_eq ends ih => exact ih

private theorem sublist_of_unwraps (unwraps : Relation.ReflTransGen Unwraps text result) :
    result.Sublist text := by
  induction unwraps with
  | refl => exact List.Sublist.refl text
  | tail earlier last ih => exact last.sublist.trans ih

end Turn

/-- The loop ends with what the function gives. -/
theorem endsAfter_unwrapConstructors (text : List Char) :
    ∃ turns, EndsAfter turns text (unwrapConstructors text) := by
  fun_induction unwrapConstructors text with
  | case1 text none_eq => exact ⟨0, .done (by rw [unwrapOnce?, find?, none_eq]; rfl)⟩
  | case2 text found found_eq ih =>
    obtain ⟨turns, ends⟩ := ih
    exact ⟨turns + 1, .turn (by rw [unwrapOnce?, find?, found_eq]; rfl) ends⟩

/-- On every text the loop ends, within a sixth of its length in turns. It only deletes heads of
constructor calls and closing parentheses, no constructor call is left, and a second run has nothing
to do. -/
theorem unwrapConstructors_settles (text : List Char) :
    (∃ turns, EndsAfter turns text (unwrapConstructors text) ∧ 6 * turns ≤ text.length) ∧
    Relation.ReflTransGen Unwraps text (unwrapConstructors text) ∧
    (unwrapConstructors text).Sublist text ∧
    ¬HasCall (unwrapConstructors text) ∧
    unwrapConstructors (unwrapConstructors text) = unwrapConstructors text := by
  obtain ⟨turns, ends⟩ := endsAfter_unwrapConstructors text
  have few := ends.length_le
  have no_call := ends.not_hasCall
  have not_found := Option.map_eq_none_iff.mp (unwrapOnce?_eq_none.mpr no_call)
  exact ⟨⟨turns, ends, by omega⟩, ends.unwraps, sublist_of_unwraps ends.unwraps, no_call,
    unwrapConstructors_none not_found⟩

/-- A deletion may bring a new head together: `new` stands in front of the call, its type inside. -/
example : unwrapOnce? "new new X( Y(1)".toList = some "new  Y(1)".toList ∧
    unwrapOnce? "new  Y(1)".toList = some ['1'] ∧ unwrapOnce? ['1'] = none := by
  decide +kernel

end SuiteMigration.Test
