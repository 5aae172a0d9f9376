import SuiteMigration.Proofs.Pattern.Language

/-!
# Finding what a pattern accepts

Every text that a pattern accepts is one of its matches, and a search finds a match if there is one.
Anchors are left out, as are repetitions of a body that may take nothing: their fuel does not count
the turns.
-/
namespace SuiteMigration.Pattern

/-- Is the pattern free of anchors and of idle repetitions? -/
def isFree : Pattern → Bool
  | .empty | .one _ => true
  | .atStart | .atEnd | .atWordEdge => false
  | .seq first second => first.isFree && second.isFree
  | .either preferred other => preferred.isFree && other.isFree
  | .many _ body => body.isFree && body.takesText
  | .group _ body => body.isFree

/-- Does no match take the character? -/
def avoids (c : Char) : Pattern → Bool
  | .one accepts => !accepts c
  | .seq first second => first.avoids c && second.avoids c
  | .either preferred other => preferred.avoids c && other.avoids c
  | .many _ body => body.avoids c
  | .group _ body => body.avoids c
  | _ => true

section Accepts

variable {pattern : Pattern} {text : List Char}

theorem not_mem_of_accepts {c : Char} (avoided : pattern.avoids c = true)
    (accepted : pattern.Accepts text) : c ∉ text := by
  induction pattern generalizing text with
  | empty | atStart | atEnd | atWordEdge =>
    rw [show text = [] from accepted]
    exact List.not_mem_nil
  | one accepts =>
    obtain ⟨other, other_accepted, rfl⟩ := accepted
    intro member
    obtain rfl := List.mem_singleton.mp member
    simp [avoids, other_accepted] at avoided
  | seq first second first_ih second_ih =>
    obtain ⟨left, right, rfl, left_accepted, right_accepted⟩ := accepted
    obtain ⟨left_avoids, right_avoids⟩ := Bool.and_eq_true_iff.mp avoided
    rw [List.mem_append, not_or]
    exact ⟨first_ih left_avoids left_accepted, second_ih right_avoids right_accepted⟩
  | either preferred other preferred_ih other_ih =>
    obtain ⟨preferred_avoids, other_avoids⟩ := Bool.and_eq_true_iff.mp avoided
    exact accepted.elim (preferred_ih preferred_avoids) (other_ih other_avoids)
  | many greedy body ih =>
    obtain ⟨parts, rfl, all_accepted⟩ := accepted
    intro member
    obtain ⟨part, part_mem, member⟩ := List.mem_flatten.mp member
    exact ih avoided (all_accepted part part_mem) member
  | group name body ih => exact ih avoided accepted

theorem ne_nil_of_accepts (takes : pattern.takesText = true) (accepted : pattern.Accepts text) :
    text ≠ [] := by
  induction pattern generalizing text with
  | one accepts =>
    obtain ⟨c, -, rfl⟩ := accepted
    exact List.cons_ne_nil c []
  | seq first second first_ih second_ih =>
    obtain ⟨left, right, rfl, left_accepted, right_accepted⟩ := accepted
    rcases Bool.or_eq_true_iff.mp takes with first_takes | second_takes
    · exact List.append_ne_nil_of_left_ne_nil (first_ih first_takes left_accepted) right
    · exact List.append_ne_nil_of_right_ne_nil left (second_ih second_takes right_accepted)
  | either preferred other preferred_ih other_ih =>
    obtain ⟨preferred_takes, other_takes⟩ := Bool.and_eq_true_iff.mp takes
    exact accepted.elim (preferred_ih preferred_takes) (other_ih other_takes)
  | group name body ih => exact ih takes accepted
  | _ => cases takes

end Accepts

section Ways

variable {pattern : Pattern} {cursor : Cursor} {taken rest text : List Char}

private theorem mem_manyWays_turn {greedy : Bool} {step : Cursor → List Cursor} {fuel : Nat}
    {next stop : Cursor} (next_mem : next ∈ step cursor)
    (stop_mem : stop ∈ manyWays greedy step fuel next) :
    stop ∈ manyWays greedy step (fuel + 1) cursor := by
  have later : stop ∈ (step cursor).flatMap (manyWays greedy step fuel) :=
    List.mem_flatMap.mpr ⟨next, next_mem, stop_mem⟩
  unfold manyWays
  cases greedy
  · exact List.mem_cons_of_mem _ later
  · exact List.mem_append_left _ later

private theorem mem_manyWays_self (greedy : Bool) (step : Cursor → List Cursor) (fuel : Nat)
    (cursor : Cursor) : cursor ∈ manyWays greedy step fuel cursor := by
  cases fuel with
  | zero => exact List.mem_singleton_self cursor
  | succ fuel => cases greedy <;> simp [manyWays]

/-- The repetition takes its parts in turn, as long as there is fuel for them. -/
theorem mem_manyWays_of_parts {greedy : Bool} {parts : List (List Char)}
    (body : ∀ part ∈ parts, ∀ {cursor : Cursor} {rest : List Char}, cursor.rest = part ++ rest →
      ∃ stop ∈ pattern.ways cursor, stop.rest = rest)
    {fuel : Nat} (enough : parts.length ≤ fuel) (rest_eq : cursor.rest = parts.flatten ++ rest) :
    ∃ stop ∈ manyWays greedy pattern.ways fuel cursor, stop.rest = rest := by
  induction parts generalizing cursor fuel with
  | nil => exact ⟨cursor, mem_manyWays_self greedy _ fuel cursor, rest_eq⟩
  | cons part parts ih =>
    rw [List.length_cons] at enough
    obtain ⟨fuel, rfl⟩ : ∃ less, fuel = less + 1 := ⟨fuel - 1, by omega⟩
    rw [List.flatten_cons, List.append_assoc] at rest_eq
    obtain ⟨next, next_mem, next_eq⟩ := body part List.mem_cons_self rest_eq
    have still_enough : parts.length ≤ fuel := by omega
    obtain ⟨stop, stop_mem, stop_eq⟩ :=
      ih (fun other member => body other (List.mem_cons_of_mem _ member)) still_enough next_eq
    exact ⟨stop, mem_manyWays_turn next_mem stop_mem, stop_eq⟩

private theorem length_le_flatten {parts : List (List Char)}
    (nonempty : ∀ part ∈ parts, part ≠ []) :
    parts.length ≤ parts.flatten.length := by
  induction parts with
  | nil => exact Nat.le_refl 0
  | cons part parts ih =>
    have split := List.forall_mem_cons.mp nonempty
    have part_pos := List.length_pos_iff.mpr split.1
    have parts_le := ih split.2
    rw [List.length_cons, List.flatten_cons, List.length_append]
    omega

/-- A text that the pattern accepts is taken by one of its matches. -/
theorem mem_ways_of_accepts (free : pattern.isFree = true) (accepted : pattern.Accepts taken)
    (rest_eq : cursor.rest = taken ++ rest) : ∃ stop ∈ pattern.ways cursor, stop.rest = rest := by
  induction pattern generalizing cursor taken rest with
  | empty =>
    obtain rfl : taken = [] := accepted
    exact ⟨cursor, List.mem_singleton_self cursor, rest_eq⟩
  | one accepts =>
    obtain ⟨c, is_accepted, rfl⟩ := accepted
    refine ⟨cursor.step c rest, ?_, rfl⟩
    rw [List.singleton_append] at rest_eq
    simp [ways, rest_eq, is_accepted]
  | atStart | atEnd | atWordEdge => cases free
  | seq first second first_ih second_ih =>
    obtain ⟨first_free, second_free⟩ := Bool.and_eq_true_iff.mp free
    obtain ⟨left, right, rfl, left_accepted, right_accepted⟩ := accepted
    rw [List.append_assoc] at rest_eq
    obtain ⟨middle, middle_mem, middle_eq⟩ := first_ih first_free left_accepted rest_eq
    obtain ⟨stop, stop_mem, stop_eq⟩ := second_ih second_free right_accepted middle_eq
    exact ⟨stop, List.mem_flatMap.mpr ⟨middle, middle_mem, stop_mem⟩, stop_eq⟩
  | either preferred other preferred_ih other_ih =>
    obtain ⟨preferred_free, other_free⟩ := Bool.and_eq_true_iff.mp free
    rcases accepted with accepted | accepted
    · obtain ⟨stop, stop_mem, stop_eq⟩ := preferred_ih preferred_free accepted rest_eq
      exact ⟨stop, List.mem_append_left _ stop_mem, stop_eq⟩
    · obtain ⟨stop, stop_mem, stop_eq⟩ := other_ih other_free accepted rest_eq
      exact ⟨stop, List.mem_append_right _ stop_mem, stop_eq⟩
  | many greedy body ih =>
    obtain ⟨body_free, takes⟩ := Bool.and_eq_true_iff.mp free
    obtain ⟨parts, rfl, all_accepted⟩ := accepted
    -- No part is empty, so there are no more of them than characters: the fuel is enough.
    have enough := length_le_flatten fun part member =>
      ne_nil_of_accepts takes (all_accepted part member)
    refine mem_manyWays_of_parts (fun part member => ih body_free (all_accepted part member))
      ?_ rest_eq
    rw [rest_eq, List.length_append]
    omega
  | group name body ih =>
    obtain ⟨stop, stop_mem, stop_eq⟩ := ih free accepted rest_eq
    exact ⟨cursor.close name stop, List.mem_map.mpr ⟨stop, stop_mem, rfl⟩, stop_eq⟩

theorem mem_ways_all_append {parts others : List Pattern} {middle stop : Cursor}
    (first : middle ∈ (all parts).ways cursor)
    (second : stop ∈ (all others).ways middle) :
    stop ∈ (all (parts ++ others)).ways cursor := by
  induction parts generalizing cursor with
  | nil =>
    obtain rfl := eq_of_mem_ways_empty first
    exact second
  | cons part parts ih =>
    obtain ⟨next, part_found, parts_found⟩ := exists_of_mem_ways_seq first
    exact List.mem_flatMap.mpr ⟨next, part_found, ih parts_found⟩

theorem run_isSome_of_mem_ways {stop : Cursor} (found : stop ∈ pattern.ways cursor) :
    (pattern.run cursor some).isSome = true := by
  rw [run_eq_findSome?, List.findSome?_isSome_iff]
  exact ⟨stop, found, rfl⟩

/-- A search succeeds if a match begins somewhere in the text. -/
theorem findFrom?_isSome {front : List Char} (text_eq : text = front ++ rest)
    (begins : ∀ previous, (pattern.run ⟨previous, rest, []⟩ some).isSome = true)
    (previous : Option Char) : (pattern.findFrom? previous text).isSome = true := by
  induction front generalizing previous text with
  | nil =>
    obtain rfl : text = rest := text_eq
    obtain ⟨stop, stop_eq⟩ := Option.isSome_iff_exists.mp (begins previous)
    rw [findFrom?.eq_def, stop_eq]
    rfl
  | cons c front ih =>
    obtain rfl : text = c :: (front ++ rest) := text_eq
    rw [findFrom?.eq_def]
    split
    · rfl
    · rw [Option.isSome_map]
      exact ih rfl (some c)

/-- A text that the pattern accepts is found wherever it stands. -/
theorem occursIn_of_accepts (free : pattern.isFree = true) (accepted : pattern.Accepts taken)
    {front : List Char} (text_eq : text = front ++ (taken ++ rest)) :
    pattern.occursIn text = true := by
  refine findFrom?_isSome text_eq (fun previous => ?_) none
  have rest_eq : (⟨previous, taken ++ rest, []⟩ : Cursor).rest = taken ++ rest := rfl
  obtain ⟨stop, stop_mem, -⟩ := mem_ways_of_accepts free accepted rest_eq
  exact run_isSome_of_mem_ways stop_mem

/-- An anchored pattern occurs where the text begins with what the pattern accepts. -/
theorem occursIn_anchored (free : pattern.isFree = true) :
    (seq .atStart pattern).occursIn text = true ↔
      ∃ taken rest, text = taken ++ rest ∧ pattern.Accepts taken := by
  constructor
  · intro occurs
    obtain ⟨found, found_eq⟩ := Option.isSome_iff_exists.mp occurs
    obtain ⟨stop, stop_mem, -⟩ := mem_ways_of_find?_anchored found_eq
    obtain ⟨taken, rest_eq, accepted⟩ := accepts_of_mem_ways stop_mem
    exact ⟨taken, stop.rest, rest_eq, accepted⟩
  · rintro ⟨taken, rest, text_eq, accepted⟩
    have rest_eq : (⟨none, text, []⟩ : Cursor).rest = taken ++ rest := text_eq
    obtain ⟨stop, stop_mem, -⟩ := mem_ways_of_accepts free accepted rest_eq
    have stop_found : stop ∈ (seq .atStart pattern).ways ⟨none, text, []⟩ :=
      List.mem_flatMap.mpr ⟨_, List.mem_singleton_self _, stop_mem⟩
    obtain ⟨first, first_eq⟩ := Option.isSome_iff_exists.mp (run_isSome_of_mem_ways stop_found)
    rw [occursIn, find?, findFrom?.eq_def, first_eq]
    rfl

end Ways

end SuiteMigration.Pattern
