import SuiteMigration.Proofs.Pattern.Finding

/-!
# What a pattern accepts

The texts a pattern can take, said without a cursor. A match takes such a text, and where it passes
a group it records what the body took.
-/
namespace SuiteMigration.Pattern

/-- Can the pattern take the text? Anchors and word edges take none, wherever they stand. -/
def Accepts : Pattern → List Char → Prop
  | .empty, text | .atStart, text | .atEnd, text | .atWordEdge, text => text = []
  | .one accepts, text => ∃ c, accepts c = true ∧ text = [c]
  | .seq first second, text =>
    ∃ left right, text = left ++ right ∧ first.Accepts left ∧ second.Accepts right
  | .either preferred other, text => preferred.Accepts text ∨ other.Accepts text
  | .many _ body, text => ∃ parts : List (List Char), text = parts.flatten ∧
      ∀ part ∈ parts, body.Accepts part
  | .group _ body, text => body.Accepts text

def isPlain : Pattern → Bool
  | .seq first second => first.isPlain && second.isPlain
  | .either preferred other => preferred.isPlain && other.isPlain
  | .many _ body => body.isPlain
  | .group _ _ => false
  | _ => true

section Ways

variable {pattern first second : Pattern} {cursor stop : Cursor} {name : String}

/-- A repetition stops at once, or behind a turn and more of them. -/
theorem mem_manyWays_succ {greedy : Bool} {step : Cursor → List Cursor} {fuel : Nat}
    (found : stop ∈ manyWays greedy step (fuel + 1) cursor) :
    stop = cursor ∨ ∃ next ∈ step cursor, stop ∈ manyWays greedy step fuel next := by
  unfold manyWays at found
  cases greedy <;> simp_all [or_comm]

theorem mem_ways_either (found : stop ∈ (either first second).ways cursor) :
    stop ∈ first.ways cursor ∨ stop ∈ second.ways cursor := by
  simpa only [ways, List.mem_append] using found

theorem mem_ways_optional (found : stop ∈ (optional pattern).ways cursor) :
    stop ∈ pattern.ways cursor ∨ stop = cursor :=
  (mem_ways_either found).imp_right fun skipped => List.mem_singleton.mp skipped

theorem eq_of_mem_ways_empty (found : stop ∈ empty.ways cursor) : stop = cursor :=
  List.mem_singleton.mp found

/-- A match that ends with the text. -/
theorem rest_of_mem_ways_atEnd (found : stop ∈ (all [atEnd]).ways cursor) :
    cursor.rest = [] ∧ stop.groups = cursor.groups := by
  obtain ⟨middle, end_found, empty_found⟩ := exists_of_mem_ways_seq found
  obtain rfl := eq_of_mem_ways_empty empty_found
  unfold ways at end_found
  split at end_found
  · next at_end =>
    obtain rfl := List.mem_singleton.mp end_found
    exact ⟨List.isEmpty_iff.mp at_end, rfl⟩
  · cases end_found

private theorem accepts_of_mem_manyWays {greedy : Bool}
    (body : ∀ {cursor stop : Cursor}, stop ∈ pattern.ways cursor →
      ∃ taken, cursor.rest = taken ++ stop.rest ∧ pattern.Accepts taken)
    {fuel : Nat} (found : stop ∈ manyWays greedy pattern.ways fuel cursor) :
    ∃ taken, cursor.rest = taken ++ stop.rest ∧ (many greedy pattern).Accepts taken := by
  induction fuel generalizing cursor with
  | zero =>
    obtain rfl := List.mem_singleton.mp found
    exact ⟨[], rfl, [], rfl, by simp⟩
  | succ fuel ih =>
    obtain rfl | ⟨next, next_mem, found⟩ := mem_manyWays_succ found
    · exact ⟨[], rfl, [], rfl, by simp⟩
    · obtain ⟨part, rest_eq, accepted⟩ := body next_mem
      obtain ⟨_, next_eq, parts, rfl, all_accepted⟩ := ih found
      refine ⟨part ++ parts.flatten, ?_, part :: parts, rfl,
        List.forall_mem_cons.mpr ⟨accepted, all_accepted⟩⟩
      rw [rest_eq, next_eq, List.append_assoc]

/-- A match takes a text that the pattern accepts. -/
theorem accepts_of_mem_ways (found : stop ∈ pattern.ways cursor) :
    ∃ taken, cursor.rest = taken ++ stop.rest ∧ pattern.Accepts taken := by
  induction pattern generalizing cursor stop with
  | empty =>
    obtain rfl := eq_of_mem_ways_empty found
    exact ⟨[], rfl, rfl⟩
  | one accepts =>
    obtain ⟨c, accepted, rest_eq⟩ := rest_of_one found
    exact ⟨[c], rest_eq, c, accepted, rfl⟩
  | atStart | atEnd | atWordEdge =>
    unfold ways at found
    split at found
    · obtain rfl := List.mem_singleton.mp found
      exact ⟨[], rfl, rfl⟩
    · cases found
  | seq first second first_ih second_ih =>
    obtain ⟨middle, first_found, found⟩ := exists_of_mem_ways_seq found
    obtain ⟨left, rest_eq, left_accepted⟩ := first_ih first_found
    obtain ⟨right, middle_eq, right_accepted⟩ := second_ih found
    refine ⟨left ++ right, ?_, left, right, rfl, left_accepted, right_accepted⟩
    rw [rest_eq, middle_eq, List.append_assoc]
  | either preferred other preferred_ih other_ih =>
    rcases mem_ways_either found with found | found
    · obtain ⟨taken, rest_eq, accepted⟩ := preferred_ih found
      exact ⟨taken, rest_eq, .inl accepted⟩
    · obtain ⟨taken, rest_eq, accepted⟩ := other_ih found
      exact ⟨taken, rest_eq, .inr accepted⟩
  | many greedy body ih => exact accepts_of_mem_manyWays ih found
  | group name body ih =>
    obtain ⟨inner, inner_mem, stop_eq⟩ := List.mem_map.mp found
    obtain ⟨taken, rest_eq, accepted⟩ := ih inner_mem
    exact ⟨taken, stop_eq ▸ rest_eq, accepted⟩

/-- A pattern without groups records nothing. -/
theorem groups_of_mem_ways (plain : pattern.isPlain = true) (found : stop ∈ pattern.ways cursor) :
    stop.groups = cursor.groups := by
  induction pattern generalizing cursor stop with
  | empty => rw [eq_of_mem_ways_empty found]
  | one accepts =>
    unfold ways at found
    split at found
    · split at found
      · obtain rfl := List.mem_singleton.mp found
        rfl
      · cases found
    · cases found
  | atStart | atEnd | atWordEdge =>
    unfold ways at found
    split at found
    · obtain rfl := List.mem_singleton.mp found
      rfl
    · cases found
  | seq first second first_ih second_ih =>
    simp only [isPlain, Bool.and_eq_true] at plain
    obtain ⟨middle, first_found, found⟩ := exists_of_mem_ways_seq found
    exact (second_ih plain.2 found).trans (first_ih plain.1 first_found)
  | either preferred other preferred_ih other_ih =>
    simp only [isPlain, Bool.and_eq_true] at plain
    exact (mem_ways_either found).elim (preferred_ih plain.1) (other_ih plain.2)
  | many greedy body ih =>
    -- The repetition is run with fuel, so the induction is on that.
    have turns : ∀ fuel cursor, stop ∈ manyWays greedy body.ways fuel cursor →
        stop.groups = cursor.groups := by
      intro fuel
      induction fuel with
      | zero =>
        intro cursor found
        rw [List.mem_singleton.mp found]
      | succ fuel fuel_ih =>
        intro cursor found
        obtain rfl | ⟨next, next_mem, found⟩ := mem_manyWays_succ found
        · rfl
        · exact (fuel_ih next found).trans (ih plain next_mem)
    exact turns _ cursor found
  | group name body => cases plain

theorem exists_of_mem_ways_all {parts others : List Pattern}
    (found : stop ∈ (all (parts ++ others)).ways cursor) :
    ∃ middle ∈ (all parts).ways cursor, stop ∈ (all others).ways middle := by
  induction parts generalizing cursor with
  | nil => exact ⟨cursor, List.mem_singleton_self cursor, found⟩
  | cons part parts ih =>
    obtain ⟨next, part_found, found⟩ := exists_of_mem_ways_seq found
    obtain ⟨middle, parts_found, found⟩ := ih found
    exact ⟨middle, List.mem_flatMap.mpr ⟨next, part_found, parts_found⟩, found⟩

/-- The first parts of a match, when they are without groups. -/
theorem plain_of_mem_ways (parts : List Pattern) {others : List Pattern}
    (plain : (all parts).isPlain = true) (found : stop ∈ (all (parts ++ others)).ways cursor) :
    ∃ taken middle, cursor.rest = taken ++ middle.rest ∧ (all parts).Accepts taken ∧
      middle.groups = cursor.groups ∧ stop ∈ (all others).ways middle := by
  obtain ⟨middle, parts_found, found⟩ := exists_of_mem_ways_all found
  obtain ⟨taken, rest_eq, accepted⟩ := accepts_of_mem_ways parts_found
  exact ⟨taken, middle, rest_eq, accepted, groups_of_mem_ways plain parts_found, found⟩

theorem groups_close {start inner : Cursor} {taken : List Char}
    (rest_eq : start.rest = taken ++ inner.rest) :
    (start.close name inner).groups = (name, taken) :: inner.groups := by
  have length_eq := congrArg List.length rest_eq
  rw [List.length_append] at length_eq
  have taken_eq : start.rest.take (start.rest.length - inner.rest.length) = taken := by
    rw [show start.rest.length - inner.rest.length = taken.length by omega, rest_eq, List.take_left]
  rw [Cursor.close, taken_eq]

/-- A group records the text that its body takes. -/
theorem group_of_mem_ways {others : List Pattern} (plain : pattern.isPlain = true)
    (found : stop ∈ (all (group name pattern :: others)).ways cursor) :
    ∃ taken middle, cursor.rest = taken ++ middle.rest ∧ pattern.Accepts taken ∧
      middle.groups = (name, taken) :: cursor.groups ∧ stop ∈ (all others).ways middle := by
  obtain ⟨middle, first_found, found⟩ := exists_of_mem_ways_seq found
  obtain ⟨inner, inner_mem, rfl⟩ := List.mem_map.mp first_found
  obtain ⟨taken, rest_eq, accepted⟩ := accepts_of_mem_ways inner_mem
  refine ⟨taken, cursor.close name inner, rest_eq, accepted, ?_, found⟩
  rw [groups_close rest_eq, groups_of_mem_ways plain inner_mem]

theorem fails_of_not_accepts {text : List Char}
    (refused : ∀ taken rest, text = taken ++ rest → ¬pattern.Accepts taken) :
    pattern.Fails text := by
  intro previous groups
  rw [List.eq_nil_iff_forall_not_mem]
  intro stop found
  obtain ⟨taken, text_eq, accepted⟩ := accepts_of_mem_ways found
  exact refused taken stop.rest text_eq accepted

/-- A text with too few of the characters that every match takes holds no match. -/
theorem fails_of_count {text : List Char} {c : Char} {least : Nat}
    (needs : ∀ taken, pattern.Accepts taken → least ≤ taken.count c)
    (few : text.count c < least) : pattern.Fails text := by
  apply fails_of_not_accepts
  intro taken rest text_eq accepted
  have enough := needs taken accepted
  rw [text_eq, List.count_append] at few
  omega

/-- A match begins somewhere in the text, in view of the character in front. -/
theorem mem_ways_of_findFrom? {previous : Option Char} {text : List Char} {found : Match}
    (found_eq : pattern.findFrom? previous text = some found) :
    ∃ front rest, text = front ++ rest ∧
      ∃ stop ∈ pattern.ways ⟨front.getLast?.or previous, rest, []⟩, found.groups = stop.groups := by
  obtain ⟨rest, stop, text_eq, run_eq, -, groups_eq, -⟩ := run_of_findFrom? found_eq
  exact ⟨found.before, rest, text_eq, stop, mem_ways_of_run run_eq, groups_eq⟩

/-- An anchored match begins where the text does. -/
theorem mem_ways_of_find?_anchored {text : List Char} {found : Match}
    (found_eq : (seq .atStart pattern).find? text = some found) :
    ∃ stop ∈ pattern.ways ⟨none, text, []⟩, found.groups = stop.groups := by
  rw [find?, findFrom?.eq_def] at found_eq
  split at found_eq
  · next stop run_eq =>
    obtain rfl := Option.some.inj found_eq
    obtain ⟨middle, start_found, found⟩ := exists_of_mem_ways_seq (mem_ways_of_run run_eq)
    obtain rfl : middle = ⟨none, text, []⟩ := List.mem_singleton.mp start_found
    exact ⟨stop, found, rfl⟩
  · cases text with
    | nil => cases found_eq
    | cons c rest =>
      simp only [findFrom?_anchored_some, Option.map_none, reduceCtorEq] at found_eq

/-- An anchored match takes what its first parts accept from the start of the text. -/
theorem front_of_find?_anchored (parts : List Pattern) {others : List Pattern} {text : List Char}
    {found : Match} (found_eq : (seq .atStart (all (parts ++ others))).find? text = some found) :
    ∃ taken rest, text = taken ++ rest ∧ (all parts).Accepts taken := by
  obtain ⟨stop, stop_found, -⟩ := mem_ways_of_find?_anchored found_eq
  obtain ⟨middle, parts_found, -⟩ := exists_of_mem_ways_all stop_found
  obtain ⟨taken, text_eq, accepted⟩ := accepts_of_mem_ways parts_found
  exact ⟨taken, middle.rest, text_eq, accepted⟩

end Ways

section Accepts

variable {text : List Char} {accepts : Char → Bool} {greedy : Bool}

/-- What a list of patterns takes is taken by its first part and then by the others. -/
theorem exists_of_accepts_all (parts : List Pattern) {others : List Pattern}
    (accepted : (all (parts ++ others)).Accepts text) :
    ∃ left right, text = left ++ right ∧ (all parts).Accepts left ∧ (all others).Accepts right := by
  induction parts generalizing text with
  | nil => exact ⟨[], text, rfl, rfl, accepted⟩
  | cons part parts ih =>
    obtain ⟨first, _, rfl, is_first, accepted⟩ := accepted
    obtain ⟨left, right, rfl, is_left, is_right⟩ := ih accepted
    exact ⟨first ++ left, right, (List.append_assoc first left right).symm,
      ⟨first, left, rfl, is_first, is_left⟩, is_right⟩

theorem accepts_all_append {parts others : List Pattern} {left right : List Char}
    (is_left : (all parts).Accepts left) (is_right : (all others).Accepts right) :
    (all (parts ++ others)).Accepts (left ++ right) := by
  induction parts generalizing left with
  | nil =>
    obtain rfl : left = [] := is_left
    exact is_right
  | cons part parts ih =>
    obtain ⟨first, rest, rfl, is_first, is_rest⟩ := is_left
    exact ⟨first, rest ++ right, List.append_assoc first rest right, is_first, ih is_rest⟩

theorem accepts_many_one : (many greedy (.one accepts)).Accepts text ↔
    ∀ c ∈ text, accepts c = true := by
  constructor
  · rintro ⟨parts, rfl, all_accepted⟩ c c_mem
    obtain ⟨part, part_mem, c_mem⟩ := List.mem_flatten.mp c_mem
    obtain ⟨other, accepted, rfl⟩ := all_accepted part part_mem
    rwa [List.mem_singleton.mp c_mem]
  · intro all_accepted
    refine ⟨text.map ([·]), ?_, ?_⟩
    · rw [← List.flatMap_def, List.flatMap_singleton']
    · intro part part_mem
      obtain ⟨c, c_mem, rfl⟩ := List.mem_map.mp part_mem
      exact ⟨c, all_accepted c c_mem, rfl⟩

theorem accepts_line : line.Accepts text ↔ ∀ c ∈ text, c ≠ '\n' :=
  accepts_many_one.trans <| forall₂_congr fun _ _ => bne_iff_ne

theorem accepts_shortLine : shortLine.Accepts text ↔ ∀ c ∈ text, c ≠ '\n' :=
  accepts_many_one.trans <| forall₂_congr fun _ _ => bne_iff_ne

theorem accepts_oneOrMore_one : (oneOrMore (.one accepts)).Accepts text ↔
    text ≠ [] ∧ ∀ c ∈ text, accepts c = true := by
  constructor
  · rintro ⟨_, right, rfl, ⟨c, accepted, rfl⟩, others⟩
    exact ⟨by simp, List.forall_mem_cons.mpr ⟨accepted, accepts_many_one.mp others⟩⟩
  · rintro ⟨nonempty, all_accepted⟩
    cases text with
    | nil => exact absurd rfl nonempty
    | cons c rest =>
      have split := List.forall_mem_cons.mp all_accepted
      exact ⟨[c], rest, rfl, ⟨c, split.1, rfl⟩, accepts_many_one.mpr split.2⟩

theorem accepts_literal {word : List Char} : (literal word).Accepts text ↔ text = word := by
  induction word generalizing text with
  | nil => exact Iff.rfl
  | cons c word ih =>
    constructor
    · rintro ⟨_, right, rfl, ⟨other, same, rfl⟩, others⟩
      rw [ih.mp others, eq_of_beq same]
      rfl
    · rintro rfl
      exact ⟨[c], word, rfl, ⟨c, beq_self_eq_true c, rfl⟩, ih.mpr rfl⟩

theorem accepts_mark {c : Char} : (mark c).Accepts text ↔ text = [c] := by
  constructor
  · rintro ⟨other, same, rfl⟩
    rw [eq_of_beq same]
  · rintro rfl
    exact ⟨c, beq_self_eq_true c, rfl⟩

end Accepts

end SuiteMigration.Pattern
