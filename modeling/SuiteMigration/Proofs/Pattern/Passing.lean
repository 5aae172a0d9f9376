import Mathlib.Data.List.Basic
import SuiteMigration.Proofs.Pattern.Occurrence

/-!
# Passing over a front

A search that finds nothing in the front of a text goes on behind it. Fronts are put together piece
by piece: each piece says what has to follow it so that no match begins inside.
-/
namespace SuiteMigration.Pattern

/-- Whatever stands in front of it, the search goes on behind the front if what follows is as
expected. -/
def Passes (pattern : Pattern) (front : List Char) (expected : List Char → Prop) : Prop :=
  ∀ previous rest, expected rest →
    pattern.findFrom? previous (front ++ rest)
      = (pattern.findFrom? (front.getLast?.or previous) rest).map fun found =>
          { found with before := front ++ found.before }

section Passes

variable {pattern : Pattern} {front part : List Char} {expected other : List Char → Prop}

theorem passes_nil : pattern.Passes [] expected :=
  fun _ _ _ => Option.map_id_fun'.symm ▸ rfl

theorem Passes.append (first : pattern.Passes front expected) (second : pattern.Passes part other)
    (fits : ∀ rest, other rest → expected (part ++ rest)) :
    pattern.Passes (front ++ part) other := by
  intro previous rest as_expected
  have last_eq : part.getLast?.or (front.getLast?.or previous)
      = (front ++ part).getLast?.or previous := by
    rw [List.getLast?_append, Option.or_assoc]
  rw [List.append_assoc, first _ _ (fits rest as_expected), second _ _ as_expected, last_eq,
    Option.map_map]
  simp only [Function.comp_def, List.append_assoc]

theorem Passes.mono (passes : pattern.Passes front expected)
    (weaker : ∀ rest, other rest → expected rest) : pattern.Passes front other :=
  fun previous rest as_expected => passes previous rest (weaker rest as_expected)

theorem passes_of_fails (fails : ∀ rest, expected rest → ∀ left, left <:+ front → left ≠ [] →
    pattern.Fails (left ++ rest)) : pattern.Passes front expected :=
  fun previous rest as_expected => findFrom?_front (fails rest as_expected) previous

theorem passes_cons_nil {c : Char} (fails : ∀ rest, pattern.Fails (c :: rest)) :
    pattern.Passes [c] expected := by
  refine passes_of_fails fun rest _ left suffix nonempty => ?_
  obtain rfl | suffix := List.suffix_cons_iff.mp suffix
  · exact fails rest
  · exact absurd (List.suffix_nil.mp suffix) nonempty

theorem findFrom?_nil (fails : pattern.Fails []) (previous : Option Char) :
    pattern.findFrom? previous [] = none := by
  refine findFrom?_eq_none (fun part suffix => ?_) previous
  obtain rfl := List.suffix_nil.mp suffix
  exact fails

/-- The search of a text that ends with the front. -/
theorem Passes.findFrom?_eq_none (passes : pattern.Passes front expected) (at_end : expected [])
    (fails : pattern.Fails []) (previous : Option Char) :
    pattern.findFrom? previous front = none := by
  have found_eq := passes previous [] at_end
  rwa [List.append_nil, findFrom?_nil fails] at found_eq

end Passes

section Search

variable {pattern : Pattern} {text : List Char}

/-- Nothing is found where no run from any place has a match. -/
theorem findFrom?_eq_none_iff {previous : Option Char} :
    pattern.findFrom? previous text = none ↔ ∀ passed left, text = passed ++ left →
      pattern.run ⟨passed.getLast?.or previous, left, []⟩ some = none := by
  induction text generalizing previous with
  | nil =>
    rw [findFrom?.eq_def]
    constructor
    · intro none_eq passed left text_eq
      obtain ⟨rfl, rfl⟩ := List.append_eq_nil_iff.mp text_eq.symm
      split at none_eq
      · cases none_eq
      · assumption
    · intro refused
      have here : pattern.run ⟨previous, [], []⟩ some = none := refused [] [] rfl
      rw [here]
  | cons c text ih =>
    rw [findFrom?.eq_def]
    constructor
    · intro none_eq passed left text_eq
      split at none_eq
      · cases none_eq
      · next here =>
        rw [Option.map_eq_none_iff, ih] at none_eq
        -- A place in the text is this one or one in its rest.
        cases passed with
        | nil =>
          obtain rfl : c :: text = left := text_eq
          exact here
        | cons first passed =>
          obtain ⟨rfl, behind_eq⟩ := List.cons.inj text_eq
          rw [getLast?_cons_or]
          exact none_eq passed left behind_eq
    · intro refused
      have later : pattern.findFrom? (some c) text = none := by
        rw [ih]
        intro passed left text_eq
        rw [← getLast?_cons_or]
        exact refused (c :: passed) left (by rw [text_eq, List.cons_append])
      have here : pattern.run ⟨previous, c :: text, []⟩ some = none := refused [] (c :: text) rfl
      simp only [here, later, Option.map_none]

/-- The search goes on behind a front from no place of which a run has a match. -/
theorem findFrom?_passed {front rest : List Char} {previous : Option Char}
    (refused : ∀ passed left, front = passed ++ left → left ≠ [] →
      pattern.run ⟨passed.getLast?.or previous, left ++ rest, []⟩ some = none) :
    pattern.findFrom? previous (front ++ rest)
      = (pattern.findFrom? (front.getLast?.or previous) rest).map fun found =>
          { found with before := front ++ found.before } := by
  induction front generalizing previous with
  | nil => exact Option.map_id_fun'.symm ▸ rfl
  | cons c front ih =>
    have later := @ih (some c) fun passed left front_eq nonempty => by
      rw [← getLast?_cons_or]
      exact refused (c :: passed) left (by rw [front_eq, List.cons_append]) nonempty
    have here : pattern.run ⟨previous, c :: (front ++ rest), []⟩ some = none :=
      refused [] (c :: front) rfl (List.cons_ne_nil c front)
    rw [getLast?_cons_or, List.cons_append, findFrom?.eq_def]
    simp only [here, later, Option.map_map, Function.comp_def]
    rfl

/-- A pattern occurs where a match begins somewhere in the text, in view of the character in front. -/
theorem occursIn_iff : pattern.occursIn text = true ↔
    ∃ front rest, text = front ++ rest ∧ ∃ stop, stop ∈ pattern.ways ⟨front.getLast?, rest, []⟩ := by
  constructor
  · intro occurs
    obtain ⟨found, found_eq⟩ := Option.isSome_iff_exists.mp occurs
    obtain ⟨front, rest, text_eq, stop, stop_mem, -⟩ := mem_ways_of_findFrom? found_eq
    rw [Option.or_none] at stop_mem
    exact ⟨front, rest, text_eq, stop, stop_mem⟩
  · rintro ⟨front, rest, text_eq, stop, stop_mem⟩
    rw [occursIn, Option.isSome_iff_ne_none, find?, Ne, findFrom?_eq_none_iff]
    intro refused
    have no_run := refused front rest text_eq
    rw [Option.or_none] at no_run
    have is_some := run_isSome_of_mem_ways stop_mem
    rw [no_run] at is_some
    cases is_some

end Search

section Taken

variable {word : List Char} {cursor stop : Cursor}

theorem mem_ways_atWordEdge : stop ∈ atWordEdge.ways cursor ↔
    cursor.isWordEdge = true ∧ stop = cursor := by
  unfold ways
  split
  · next edge => simp [edge]
  · next no_edge => simp [no_edge]

end Taken

section Quoted

variable {pattern : Pattern} {quote : Char} {body passed taken left rest more beyond : List Char}

/-- What does not take the mark ends in front of it. -/
theorem exists_rest_of_mark (absent : quote ∉ taken)
    (text_eq : left ++ quote :: rest = taken ++ more) : ∃ beyond, left = taken ++ beyond := by
  rcases List.append_eq_append_iff.mp text_eq with ⟨middle, rfl, middle_eq⟩ | ⟨beyond, left_eq, -⟩
  · cases middle with
    | nil => exact ⟨[], by simp⟩
    | cons c middle =>
      obtain ⟨rfl, -⟩ := List.cons.inj middle_eq
      simp at absent
  · exact ⟨beyond, left_eq⟩

/-- If every match takes such a character, and none of a sort in front of it, then none begins in a
text without it in front of one of the sort. -/
theorem passes_without {needed mark : Char} {front : List Char} (missing : needed ∉ front)
    (needs : ∀ taken, pattern.Accepts taken →
      ∃ before more, taken = before ++ needed :: more ∧ mark ∉ before ++ [needed]) :
    pattern.Passes front fun rest => ∀ c ∈ rest.head?, c = mark := by
  refine passes_of_fails fun rest at_mark left suffix _ => fails_of_not_accepts ?_
  intro taken more text_eq accepted
  obtain ⟨before, others, rfl, absent⟩ := needs taken accepted
  have member : needed ∈ left := by
    cases rest with
    | nil =>
      rw [List.append_nil] at text_eq
      simp [text_eq]
    | cons c rest =>
      -- The match would have to take the mark before it comes to the character that it needs.
      obtain rfl := at_mark c rfl
      obtain ⟨beyond, rfl⟩ := exists_rest_of_mark absent
        (by simpa using text_eq : left ++ c :: rest = before ++ [needed] ++ (others ++ more))
      simp
  exact missing (suffix.subset member)

/-- Where the pattern does not occur, no text that it accepts begins at the edge of a word. -/
theorem isWordEdge_eq_false (free : pattern.isFree = true)
    (absent : (seq .atWordEdge pattern).occursIn body = false)
    (body_eq : body = passed ++ (taken ++ beyond)) (accepted : pattern.Accepts taken) :
    (⟨passed.getLast?, taken ++ beyond, []⟩ : Cursor).isWordEdge = false := by
  refine Bool.eq_false_iff.mpr fun edge => ?_
  rw [occursIn, Option.isSome_eq_false_iff, Option.isNone_iff_eq_none, find?,
    findFrom?_eq_none_iff] at absent
  have refused := absent passed (taken ++ beyond) body_eq
  rw [Option.or_none] at refused
  obtain ⟨stop, stop_mem, -⟩ : ∃ stop ∈ pattern.ways ⟨passed.getLast?, taken ++ beyond, []⟩,
      stop.rest = beyond := mem_ways_of_accepts free accepted rfl
  have begins : stop ∈ (seq .atWordEdge pattern).ways ⟨passed.getLast?, taken ++ beyond, []⟩ :=
    List.mem_flatMap.mpr ⟨_, by simp [ways, edge], stop_mem⟩
  have is_some := run_isSome_of_mem_ways begins
  rw [refused] at is_some
  cases is_some

/-- The search passes over a quoted body in which the pattern does not occur, if it takes no quote
and its matches begin at the edge of a word. -/
theorem passes_quoted (free : pattern.isFree = true) (avoided : pattern.avoids quote = true)
    (takes : pattern.takesText = true) (no_word : Text.isWordChar quote = false)
    (absent : (seq .atWordEdge pattern).occursIn body = false) :
    (seq .atWordEdge pattern).Passes (quote :: (body ++ [quote])) fun _ => True := by
  intro previous rest _
  refine findFrom?_passed fun passed left front_eq nonempty => ?_
  rw [run_eq_findSome?, List.findSome?_eq_none_iff]
  intro stop found
  exfalso
  obtain ⟨middle, edge_found, found⟩ := exists_of_mem_ways_seq found
  obtain ⟨is_edge, rfl⟩ := mem_ways_atWordEdge.mp edge_found
  obtain ⟨taken, rest_eq, accepted⟩ := accepts_of_mem_ways found
  have no_quote := not_mem_of_accepts avoided accepted
  -- The match takes no quote, so it begins behind the first one and in front of the second.
  cases passed with
  | nil =>
    obtain ⟨first, others, rfl⟩ := List.exists_cons_of_ne_nil (ne_nil_of_accepts takes accepted)
    obtain ⟨next, left, rfl⟩ := List.exists_cons_of_ne_nil nonempty
    obtain rfl : next = first := (List.cons.inj rest_eq).1
    obtain ⟨rfl, -⟩ := List.cons.inj front_eq
    exact no_quote List.mem_cons_self
  | cons opening passed =>
    obtain ⟨rfl, body_eq⟩ := List.cons.inj front_eq
    obtain ⟨inside, last, rfl⟩ := (List.eq_nil_or_concat' left).resolve_left nonempty
    have text_eq : body ++ [quote] = passed ++ inside ++ [last] := by
      rw [List.append_assoc]
      exact body_eq
    obtain ⟨rfl, last_eq⟩ := List.append_inj' text_eq rfl
    obtain rfl := List.singleton_inj.mp last_eq
    obtain ⟨beyond, rfl⟩ := exists_rest_of_mark no_quote (by simpa using rest_eq)
    -- Inside the body the edge of a word is where it is without the quotes, which are no letters.
    have no_edge := isWordEdge_eq_false free absent rfl accepted
    have same_edge : (⟨(quote :: passed).getLast?.or previous,
        taken ++ beyond ++ [quote] ++ rest, []⟩ : Cursor).isWordEdge
        = (⟨passed.getLast?, taken ++ beyond, []⟩ : Cursor).isWordEdge := by
      obtain ⟨first, others, rfl⟩ := List.exists_cons_of_ne_nil (ne_nil_of_accepts takes accepted)
      cases passed with
      | nil => simp [Cursor.isWordEdge, no_word]
      | cons c passed => simp [Cursor.isWordEdge, List.getLast?_cons]
    rw [same_edge, no_edge] at is_edge
    cases is_edge

end Quoted

end SuiteMigration.Pattern
