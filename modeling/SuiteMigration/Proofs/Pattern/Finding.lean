import SuiteMigration.Proofs.Pattern.Running

/-!
# Finding a pattern in a known text

Where a search ends that is known to succeed at once or to fail everywhere, and what a match, if
there is one, says about the text it begins at.
-/
namespace SuiteMigration.Pattern

section Search

variable {pattern : Pattern} {taken rest text : List Char} {groups : List (String × List Char)}

private theorem run_map {α β : Type} (pattern : Pattern) (cursor : Cursor)
    (accept : Cursor → Option α) (f : α → β) :
    (pattern.run cursor accept).map f = pattern.run cursor fun stop => (accept stop).map f := by
  rw [run_eq_findSome?, run_eq_findSome?, List.map_findSome?]
  rfl

/-- The search needs no more of an end than its rest and its groups. -/
theorem findFrom?_of_run (text_eq : text = taken ++ rest) {previous : Option Char}
    (run_eq : pattern.run ⟨previous, text, []⟩ (fun stop => some (stop.rest, stop.groups))
      = some (rest, groups)) :
    pattern.findFrom? previous text = some ⟨[], taken, rest, groups⟩ := by
  -- The last character of the end is not known, so the run is asked for the other parts only.
  have mapped := run_map pattern ⟨previous, text, []⟩ some fun stop => (stop.rest, stop.groups)
  obtain ⟨stop, stop_eq, parts_eq⟩ := Option.map_eq_some_iff.mp (mapped.trans run_eq)
  obtain ⟨rest_eq, groups_eq⟩ := Prod.mk.inj parts_eq
  rw [findFrom?.eq_def, stop_eq]
  simp [text_eq, rest_eq, groups_eq]

section Takes

variable (text_eq : text = taken ++ rest)

include text_eq

theorem findFrom?_of_takes (takes : pattern.Takes text rest [] groups) (previous : Option Char) :
    pattern.findFrom? previous text = some ⟨[], taken, rest, groups⟩ :=
  findFrom?_of_run text_eq (takes _ previous _ _ fun _ => rfl)

theorem find?_anchored (takes : pattern.Takes text rest [] groups) :
    (seq .atStart pattern).find? text = some ⟨[], taken, rest, groups⟩ := by
  refine findFrom?_of_run text_eq ?_
  simp only [run, Option.isNone_none, ↓reduceIte]
  exact takes _ none _ _ fun _ => rfl

theorem find?_atStart_either (other : Pattern) {first second : Pattern}
    (takes : (first.seq second).Takes text rest [] groups) :
    (((either .atStart other).seq first).seq second).find? text
      = some ⟨[], taken, rest, groups⟩ := by
  refine findFrom?_of_run text_eq ?_
  have run_eq := takes _ none (fun stop => some (stop.rest, stop.groups)) (rest, groups)
    fun _ => rfl
  simp only [run] at run_eq
  simp only [run, Option.isNone_none, ↓reduceIte, run_eq]
  rfl

/-- A word has its edge at the start of a text, and behind a character of another sort. -/
theorem findFrom?_wordEdge (takes : pattern.Takes text rest [] groups)
    (is_word : text.head?.any Text.isWordChar = true) {previous : Option Char}
    (outside : previous.any Text.isWordChar = false) :
    (seq .atWordEdge pattern).findFrom? previous text = some ⟨[], taken, rest, groups⟩ := by
  have edge : (⟨previous, text, []⟩ : Cursor).isWordEdge = true := by
    simp only [Cursor.isWordEdge, is_word, outside]
    rfl
  refine findFrom?_of_run text_eq ?_
  simp only [run, edge, ↓reduceIte]
  exact takes _ previous _ _ fun _ => rfl

theorem find?_wordEdge (takes : pattern.Takes text rest [] groups)
    (is_word : text.head?.any Text.isWordChar = true) :
    (seq .atWordEdge pattern).find? text = some ⟨[], taken, rest, groups⟩ :=
  findFrom?_wordEdge text_eq takes is_word rfl

end Takes

private theorem findFrom?_cons (c : Char) (fails : pattern.Fails (c :: text))
    (previous : Option Char) :
    pattern.findFrom? previous (c :: text)
      = (pattern.findFrom? (some c) text).map fun found =>
          { found with before := c :: found.before } := by
  rw [findFrom?.eq_def, fails.run_eq_none]

theorem findFrom?_eq_none (fails : ∀ part, part <:+ text → pattern.Fails part)
    (previous : Option Char) : pattern.findFrom? previous text = none := by
  induction text generalizing previous with
  | nil => rw [findFrom?.eq_def, (fails [] List.suffix_rfl).run_eq_none]
  | cons c text ih =>
    rw [findFrom?_cons c (fails _ List.suffix_rfl),
      ih fun part suffix => fails part (suffix.trans (List.suffix_cons c text))]
    rfl

/-- In front of a place stands the last character passed over. -/
theorem getLast?_cons_or (c : Char) (front : List Char) (previous : Option Char) :
    (c :: front).getLast?.or previous = front.getLast?.or (some c) := by
  rw [List.getLast?_cons]
  cases front.getLast? <;> rfl

/-- A match is the end of a run from its place, and no run from a place in front of it has one. -/
theorem run_of_findFrom? {previous : Option Char} {found : Match}
    (found_eq : pattern.findFrom? previous text = some found) :
    ∃ rest stop, text = found.before ++ rest ∧
      pattern.run ⟨found.before.getLast?.or previous, rest, []⟩ some = some stop ∧
      found.after = stop.rest ∧ found.groups = stop.groups ∧
      ∀ front c, found.before = front ++ [c] →
        pattern.run ⟨front.getLast?.or previous, c :: rest, []⟩ some = none := by
  induction text generalizing previous found with
  | nil =>
    rw [findFrom?.eq_def] at found_eq
    split at found_eq
    · next stop run_eq =>
      obtain rfl := Option.some.inj found_eq
      exact ⟨[], stop, rfl, run_eq, rfl, rfl, by simp⟩
    · cases found_eq
  | cons c text ih =>
    rw [findFrom?.eq_def] at found_eq
    split at found_eq
    · next stop run_eq =>
      obtain rfl := Option.some.inj found_eq
      exact ⟨c :: text, stop, rfl, run_eq, rfl, rfl, by simp⟩
    · next run_eq =>
      obtain ⟨inner, inner_eq, rfl⟩ := Option.map_eq_some_iff.mp found_eq
      obtain ⟨rest, stop, text_eq, inner_run, after_eq, groups_eq, passed⟩ := ih inner_eq
      refine ⟨rest, stop, congrArg (c :: ·) text_eq, ?_, after_eq, groups_eq, ?_⟩
      · rwa [getLast?_cons_or]
      -- A place in front of the match is this one, where no run has a match, or one behind it.
      · intro front last before_eq
        cases front with
        | nil =>
          obtain ⟨rfl, before_nil⟩ := List.cons.inj before_eq
          rw [before_nil] at text_eq
          rwa [text_eq] at run_eq
        | cons first front =>
          obtain ⟨rfl, inner_before⟩ := List.cons.inj before_eq
          rw [getLast?_cons_or]
          exact passed front last inner_before

/-- A run that is known to take a part of the text ends behind that. -/
theorem exists_stop_of_takes (takes : pattern.Takes text rest [] groups)
    (previous : Option Char) : ∃ stop, pattern.run ⟨previous, text, []⟩ some = some stop ∧
      stop.rest = rest ∧ stop.groups = groups := by
  have mapped := run_map pattern ⟨previous, text, []⟩ some fun stop => (stop.rest, stop.groups)
  have taken := takes _ previous (fun stop => some (stop.rest, stop.groups)) (rest, groups)
    fun _ => rfl
  obtain ⟨stop, run_eq, parts_eq⟩ := Option.map_eq_some_iff.mp (mapped.trans taken)
  exact ⟨stop, run_eq, Prod.mk.inj parts_eq⟩

/-- A search passes over a front in which no match begins. -/
theorem findFrom?_front {front : List Char}
    (fails : ∀ left, left <:+ front → left ≠ [] → pattern.Fails (left ++ rest))
    (previous : Option Char) :
    pattern.findFrom? previous (front ++ rest)
      = (pattern.findFrom? (front.getLast?.or previous) rest).map fun found =>
          { found with before := front ++ found.before } := by
  induction front generalizing previous with
  | nil => exact Option.map_id_fun'.symm ▸ rfl
  | cons c front ih =>
    have later := ih (fun left suffix => fails left (suffix.trans (List.suffix_cons c front))) (some c)
    have here : pattern.Fails (c :: (front ++ rest)) :=
      fails (c :: front) List.suffix_rfl (List.cons_ne_nil c front)
    rw [getLast?_cons_or, List.cons_append, findFrom?_cons c here, later, Option.map_map]
    rfl

/-- Behind its start a text has no match of an anchored pattern. -/
theorem findFrom?_anchored_some (pattern : Pattern) (c : Char) (text : List Char) :
    (seq .atStart pattern).findFrom? (some c) text = none := by
  induction text generalizing c with
  | nil =>
    rw [findFrom?.eq_def]
    rfl
  | cons next text ih =>
    rw [findFrom?.eq_def]
    simp only [run, Option.isNone_some, Bool.false_eq_true, ↓reduceIte, ih]
    rfl

theorem find?_anchored_eq_none (fails : pattern.Fails text) :
    (seq .atStart pattern).find? text = none := by
  rw [find?, findFrom?.eq_def]
  simp only [run, Option.isNone_none, ↓reduceIte, fails.run_eq_none]
  cases text with
  | nil => rfl
  | cons c text => simp only [findFrom?_anchored_some, Option.map_none]

theorem findAllFrom_none {previous : Option Char}
    (found_eq : pattern.findFrom? previous text = none) :
    pattern.findAllFrom previous text = [] := by
  rw [findAllFrom.eq_def]
  split
  · rfl
  · next found some_eq =>
    rw [found_eq] at some_eq
    cases some_eq

theorem findAllFrom_some (takes : pattern.takesText = true) {previous : Option Char} {found : Match}
    (found_eq : pattern.findFrom? previous text = some found) :
    pattern.findAllFrom previous text
      = found :: pattern.findAllFrom found.lastChar? found.after := by
  rw [findAllFrom.eq_def]
  split
  · next none_eq =>
    rw [found_eq] at none_eq
    cases none_eq
  · next other some_eq =>
    rw [found_eq] at some_eq
    cases some_eq
    rw [dif_pos takes]

/-- All matches are found behind a front in which none begins. -/
theorem map_groups_findAllFrom_front (takes : pattern.takesText = true) {front : List Char}
    (fails : ∀ left, left <:+ front → left ≠ [] → pattern.Fails (left ++ rest))
    (previous : Option Char) :
    (pattern.findAllFrom previous (front ++ rest)).map Match.groups
      = (pattern.findAllFrom (front.getLast?.or previous) rest).map Match.groups := by
  have front_eq := findFrom?_front fails previous
  cases found_eq : pattern.findFrom? (front.getLast?.or previous) rest with
  | none =>
    rw [found_eq] at front_eq
    rw [findAllFrom_none front_eq, findAllFrom_none found_eq]
  | some found =>
    rw [found_eq] at front_eq
    -- The match takes text, so its last character is the same with the front as without.
    have last_eq : Match.lastChar? { found with before := front ++ found.before }
        = found.lastChar? := by
      obtain ⟨c, text_last⟩ := Option.ne_none_iff_exists'.mp
        (mt List.getLast?_eq_none_iff.mp (findFrom?_text_ne_nil takes found_eq))
      simp [Match.lastChar?, text_last]
    rw [findAllFrom_some takes front_eq, findAllFrom_some takes found_eq, last_eq]
    rfl

end Search

section Inversion

variable {first second : Pattern} {cursor stop : Cursor}

theorem exists_of_mem_ways_seq (found : stop ∈ (seq first second).ways cursor) :
    ∃ middle ∈ first.ways cursor, stop ∈ second.ways middle := by
  simpa only [ways, List.mem_flatMap] using found

theorem rest_of_one {accepts : Char → Bool} (found : stop ∈ (one accepts).ways cursor) :
    ∃ c, accepts c = true ∧ cursor.rest = c :: stop.rest := by
  unfold ways at found
  split at found
  · next c rest rest_eq =>
    split at found
    · next accepted =>
      obtain rfl := List.mem_singleton.mp found
      exact ⟨c, accepted, rest_eq⟩
    · cases found
  · cases found

theorem rest_of_mark {c : Char} (found : stop ∈ (mark c).ways cursor) :
    cursor.rest = c :: stop.rest := by
  obtain ⟨other, accepted, rest_eq⟩ := rest_of_one found
  rw [rest_eq, eq_of_beq accepted]

theorem rest_of_literal {word : List Char} (found : stop ∈ (literal word).ways cursor) :
    cursor.rest = word ++ stop.rest := by
  induction word generalizing cursor with
  | nil =>
    obtain rfl := List.mem_singleton.mp found
    rfl
  | cons c word ih =>
    obtain ⟨middle, first_found, found⟩ := exists_of_mem_ways_seq found
    rw [rest_of_mark first_found, ih found]
    rfl

theorem rest_of_many {greedy : Bool} {accepts : Char → Bool}
    (found : stop ∈ (many greedy (one accepts)).ways cursor) :
    ∃ taken, (∀ c ∈ taken, accepts c = true) ∧ cursor.rest = taken ++ stop.rest := by
  -- The repetition is run with fuel, so the induction is on that.
  have run : ∀ fuel cursor, stop ∈ manyWays greedy (one accepts).ways fuel cursor →
      ∃ taken, (∀ c ∈ taken, accepts c = true) ∧ cursor.rest = taken ++ stop.rest := by
    intro fuel
    induction fuel with
    | zero =>
      intro cursor found
      obtain rfl := List.mem_singleton.mp found
      exact ⟨[], by simp, rfl⟩
    | succ fuel ih =>
      intro cursor found
      -- Lazy or greedy, it stops where it is or behind one more turn.
      have cases_found : stop = cursor ∨ ∃ next ∈ (one accepts).ways cursor,
          stop ∈ manyWays greedy (one accepts).ways fuel next := by
        unfold manyWays at found
        cases greedy <;> simp_all [or_comm]
      rcases cases_found with rfl | ⟨next, next_found, found⟩
      · exact ⟨[], by simp, rfl⟩
      · obtain ⟨c, accepted, rest_eq⟩ := rest_of_one next_found
        obtain ⟨taken, all_accepted, next_eq⟩ := ih next found
        refine ⟨c :: taken, List.forall_mem_cons.mpr ⟨accepted, all_accepted⟩, ?_⟩
        rw [rest_eq, next_eq]
        rfl
  exact run _ cursor found

/-- Every match of the pattern takes such a character, or one of its parts does. -/
def Needs (pattern : Pattern) (c : Char) : Prop :=
  ∀ cursor stop, stop ∈ pattern.ways cursor → c ∈ cursor.rest

theorem needs_mark (c : Char) : (mark c).Needs c := by
  intro cursor stop found
  rw [rest_of_mark found]
  exact List.mem_cons_self

theorem Needs.seq_left {c : Char} (needs : first.Needs c) : (first.seq second).Needs c := by
  intro cursor stop found
  obtain ⟨middle, first_found, -⟩ := exists_of_mem_ways_seq found
  exact needs cursor middle first_found

theorem Needs.seq_right {c : Char} (needs : second.Needs c) : (first.seq second).Needs c := by
  intro cursor stop found
  obtain ⟨middle, first_found, found⟩ := exists_of_mem_ways_seq found
  exact (suffix_of_mem_ways first_found).subset (needs middle stop found)

theorem Needs.fails {c : Char} (needs : first.Needs c) {text : List Char} (missing : c ∉ text) :
    first.Fails text := by
  intro previous groups
  rw [List.eq_nil_iff_forall_not_mem]
  exact fun stop found => missing (needs _ stop found)

end Inversion

end SuiteMigration.Pattern
