import SuiteMigration.Pattern.Search

/-!
# Running a pattern on a known text

What a pattern takes of a text when it is run, part by part, and where it finds no way at all.
Neither depends on the character in front, so anchors and word edges are left to the search.
-/
namespace SuiteMigration.Pattern

/-- Run on `text`, the pattern reaches `rest` before any other end its continuation accepts, and
leaves the groups as said. -/
def Takes (pattern : Pattern) (text rest : List Char) (groups after : List (String × List Char)) :
    Prop :=
  ∀ (α : Type) (previous : Option Char) (accept : Cursor → Option α) (result : α),
    (∀ last, accept ⟨last, rest, after⟩ = some result) →
    pattern.run ⟨previous, text, groups⟩ accept = some result

/-- No match begins at the text. -/
def Fails (pattern : Pattern) (text : List Char) : Prop :=
  ∀ previous groups, pattern.ways ⟨previous, text, groups⟩ = []

section Fails

variable {first second : Pattern} {text : List Char}

theorem Fails.run_eq_none (fails : first.Fails text) {α : Type} (previous : Option Char)
    (groups : List (String × List Char)) (accept : Cursor → Option α) :
    first.run ⟨previous, text, groups⟩ accept = none := by
  rw [run_eq_findSome?, fails]
  rfl

theorem fails_one {accepts : Char → Bool} (refused : ∀ c ∈ text.head?, accepts c = false) :
    (Pattern.one accepts).Fails text := by
  intro previous groups
  cases text with
  | nil => rfl
  | cons c rest => simp [ways, refused c rfl]

theorem Fails.seq (fails : first.Fails text) : (first.seq second).Fails text := by
  intro previous groups
  rw [ways, fails, List.flatMap_nil]

/-- Skipping the optional part does not help where the rest fails as well. -/
theorem Fails.optional_seq (skipped : first.Fails text) (fails : second.Fails text) :
    ((optional first).seq second).Fails text := by
  intro previous groups
  simp only [optional, ways, skipped previous groups, List.nil_append, List.flatMap_cons,
    List.flatMap_nil, List.append_nil]
  exact fails previous groups

theorem fails_literal {word : List Char} (nonempty : word ≠ []) (other : word.head? ≠ text.head?) :
    (literal word).Fails text := by
  cases word with
  | nil => exact absurd rfl nonempty
  | cons c word =>
    refine Fails.seq (fails_one ?_)
    intro next member
    rw [beq_eq_false_iff_ne]
    rintro rfl
    exact other member.symm

theorem Fails.group (fails : first.Fails text) (name : String) : (first.group name).Fails text := by
  intro previous groups
  rw [ways, fails, List.map_nil]

theorem Fails.either (left : first.Fails text) (right : second.Fails text) :
    (first.either second).Fails text := by
  intro previous groups
  rw [ways, left, right, List.append_nil]

end Fails

section Takes

variable {first second : Pattern} {text middle rest taken : List Char}
  {groups between after : List (String × List Char)}

theorem takes_empty : empty.Takes rest rest groups groups :=
  fun _ _ _ _ accepted => accepted _

theorem takes_atEnd : atEnd.Takes [] [] groups groups :=
  fun _ _ _ _ accepted => accepted _

theorem takes_one {accepts : Char → Bool} {c : Char} (accepted : accepts c = true) :
    (one accepts).Takes (c :: rest) rest groups groups := by
  intro α previous accept result accept_eq
  simp only [run, accepted, ↓reduceIte, Cursor.step]
  exact accept_eq _

theorem takes_mark (c : Char) : (mark c).Takes (c :: rest) rest groups groups :=
  takes_one (beq_self_eq_true c)

theorem Takes.seq (left : first.Takes text middle groups between)
    (right : second.Takes middle rest between after) :
    (first.seq second).Takes text rest groups after := by
  intro α previous accept result accept_eq
  exact left α previous _ result fun last => right α last accept result accept_eq

theorem takes_assoc {third : Pattern} :
    ((first.seq second).seq third).Takes text rest groups after ↔
      (first.seq (second.seq third)).Takes text rest groups after :=
  Iff.rfl

theorem Takes.either_left (left : first.Takes text rest groups after) :
    (first.either second).Takes text rest groups after := by
  intro α previous accept result accept_eq
  simp only [run, left α previous accept result accept_eq]
  rfl

theorem Takes.either_right (fails : first.Fails text)
    (right : second.Takes text rest groups after) :
    (first.either second).Takes text rest groups after := by
  intro α previous accept result accept_eq
  simp only [run, fails.run_eq_none, right α previous accept result accept_eq]
  rfl

theorem takes_optional_skip (fails : first.Fails rest) :
    (optional first).Takes rest rest groups groups :=
  Takes.either_right fails takes_empty

/-- An optional part is skipped where nothing behind it could follow. -/
theorem takes_optional_seq (fails : (first.seq second).Fails text)
    (right : second.Takes text rest groups after) :
    ((optional first).seq second).Takes text rest groups after := by
  intro α previous accept result accept_eq
  -- The part is tried first. Whatever it takes, the pattern behind it refuses the rest.
  have none_eq := fails.run_eq_none previous groups accept
  simp only [run] at none_eq
  simp only [optional, run, none_eq, right α previous accept result accept_eq]
  rfl

/-- A group records what its body takes. -/
theorem Takes.group (body : first.Takes (taken ++ rest) rest groups after) (name : String) :
    (first.group name).Takes (taken ++ rest) rest groups ((name, taken) :: after) := by
  intro α previous accept result accept_eq
  refine body α previous _ result fun last => ?_
  simpa [Cursor.close] using accept_eq last

theorem Takes.group_all (body : first.Takes text [] groups after) (name : String) :
    (first.group name).Takes text [] groups ((name, text) :: after) := by
  rw [← List.append_nil text] at body ⊢
  have recorded := body.group name
  rwa [List.append_nil] at recorded ⊢

theorem takes_literal (word : List Char) :
    (literal word).Takes (word ++ rest) rest groups groups := by
  induction word with
  | nil => exact takes_empty
  | cons c word ih => exact (takes_mark c).seq ih

/-- The body takes the text in turns until it fails on the rest. -/
inductive Repeats (body : Pattern) (groups : List (String × List Char)) :
    List Char → List Char → Prop where
  | stop {rest : List Char} (fails : body.Fails rest) : Repeats body groups rest rest
  | turn {text middle rest : List Char} (shorter : middle.length < text.length)
      (takes : body.Takes text middle groups groups) (repeats : Repeats body groups middle rest) :
      Repeats body groups text rest

theorem Repeats.length_le (repeats : Repeats first groups text rest) :
    rest.length ≤ text.length := by
  induction repeats with
  | stop => exact Nat.le_refl _
  | turn shorter _ _ ih => exact Nat.le_trans ih (Nat.le_of_lt shorter)

/-- The fuel of a repetition lasts for all turns, as each takes some text. -/
theorem Repeats.manyRun_eq (repeats : Repeats first groups text rest) {α : Type} {fuel : Nat}
    (enough : text.length ≤ fuel + rest.length) (previous : Option Char)
    {accept : Cursor → Option α} {result : α}
    (accept_eq : ∀ last, accept ⟨last, rest, groups⟩ = some result) :
    manyRun true first.run fuel ⟨previous, text, groups⟩ accept = some result := by
  induction repeats generalizing fuel previous with
  | stop fails =>
    cases fuel with
    | zero => exact accept_eq previous
    | succ fuel =>
      simp only [manyRun, ↓reduceIte, fails.run_eq_none, accept_eq]
      rfl
  | @turn text middle rest shorter takes repeats ih =>
    have rest_le : rest.length ≤ middle.length := repeats.length_le
    obtain ⟨fuel, rfl⟩ : ∃ less, fuel = less + 1 := ⟨fuel - 1, by omega⟩
    -- A turn takes text, so the fuel that is left covers the turns behind it.
    have turn_eq := takes α previous (manyRun true first.run fuel · accept) result
      fun last => ih (by omega) last accept_eq
    simp only [manyRun, ↓reduceIte, turn_eq]
    rfl

theorem Repeats.takes (repeats : Repeats first groups text rest) :
    (many true first).Takes text rest groups groups := by
  intro α previous accept result accept_eq
  exact repeats.manyRun_eq (by simp) previous accept_eq

theorem repeats_one {accepts : Char → Bool} (accepted : ∀ c ∈ taken, accepts c = true)
    (refused : ∀ c ∈ rest.head?, accepts c = false) :
    Repeats (one accepts) groups (taken ++ rest) rest := by
  induction taken with
  | nil => exact .stop (fails_one refused)
  | cons c taken ih =>
    have split := List.forall_mem_cons.mp accepted
    exact .turn (Nat.lt_succ_self _) (takes_one split.1) (ih split.2)

theorem takes_blanks (blank : ∀ c ∈ taken, Text.isBlank c = true)
    (refused : ∀ c ∈ rest.head?, Text.isBlank c = false) :
    blanks.Takes (taken ++ rest) rest groups groups :=
  (repeats_one blank refused).takes

theorem takes_blanks_none (refused : ∀ c ∈ rest.head?, Text.isBlank c = false) :
    blanks.Takes rest rest groups groups :=
  (Repeats.stop (fails_one refused)).takes

theorem takes_blanks_space (refused : ∀ c ∈ rest.head?, Text.isBlank c = false) :
    blanks.Takes (' ' :: rest) rest groups groups := by
  have is_blank : Text.isBlank ' ' = true := by decide
  exact takes_blanks (List.forall_mem_singleton.mpr is_blank) refused

theorem takes_someBlanks_space (refused : ∀ c ∈ rest.head?, Text.isBlank c = false) :
    someBlanks.Takes (' ' :: rest) rest groups groups :=
  (takes_one (by decide)).seq (takes_blanks_none refused)

theorem takes_oneOrMore {accepts : Char → Bool} (nonempty : taken ≠ [])
    (accepted : ∀ c ∈ taken, accepts c = true) (refused : ∀ c ∈ rest.head?, accepts c = false) :
    (oneOrMore (one accepts)).Takes (taken ++ rest) rest groups groups := by
  cases taken with
  | nil => exact absurd rfl nonempty
  | cons c taken =>
    have split := List.forall_mem_cons.mp accepted
    exact (takes_one split.1).seq (repeats_one split.2 refused).takes

theorem run_lineChar {c : Char} (no_feed : c ≠ '\n') {α : Type} (previous : Option Char)
    (accept : Cursor → Option α) :
    lineChar.run ⟨previous, c :: rest, groups⟩ accept = accept ⟨some c, rest, groups⟩ := by
  simp only [lineChar, run, bne_iff_ne.mpr no_feed, ↓reduceIte, Cursor.step]

theorem takes_lineChar {c : Char} (no_feed : c ≠ '\n') :
    lineChar.Takes (c :: rest) rest groups groups := by
  intro α previous accept result accept_eq
  exact (run_lineChar no_feed previous accept).trans (accept_eq _)

/-- A line reaches to the end of the text, and if that is too far it gives back one character. -/
theorem run_line_back {α : Type} {last : Char} {accept : Cursor → Option α} {result : α}
    (no_feed : ∀ c ∈ taken ++ [last], c ≠ '\n')
    (too_far : ∀ previous, accept ⟨previous, [], groups⟩ = none)
    (accept_eq : ∀ previous, accept ⟨previous, [last], groups⟩ = some result)
    (previous : Option Char) :
    line.run ⟨previous, taken ++ [last], groups⟩ accept = some result := by
  -- The fuel of a repetition is the length of its text, and it shrinks with it.
  suffices run_eq : ∀ fuel, taken.length < fuel → ∀ previous,
      manyRun true lineChar.run fuel ⟨previous, taken ++ [last], groups⟩ accept = some result from
    run_eq _ (by simp) previous
  -- At the end of the text the rest of the pattern fails, so no stop there is accepted.
  have at_end : ∀ fuel previous,
      manyRun true lineChar.run fuel ⟨previous, [], groups⟩ accept = none := by
    intro fuel previous
    cases fuel <;> simp [manyRun, lineChar, run, too_far]
  induction taken with
  | nil =>
    intro fuel enough previous
    obtain ⟨fuel, rfl⟩ : ∃ less, fuel = less + 1 := ⟨fuel - 1, by omega⟩
    -- The last character is taken first, and given back.
    have is_line : last ≠ '\n' := no_feed last (List.mem_singleton_self last)
    simp only [manyRun, ↓reduceIte, List.nil_append, run_lineChar is_line, at_end, accept_eq]
    rfl
  | cons c taken ih =>
    intro fuel enough previous
    obtain ⟨fuel, rfl⟩ : ∃ less, fuel = less + 1 := ⟨fuel - 1, by omega⟩
    rw [List.length_cons] at enough
    have split := List.forall_mem_cons.mp no_feed
    have later := ih split.2 fuel (by omega) (some c)
    simp only [manyRun, ↓reduceIte, List.cons_append, run_lineChar split.1, later]
    rfl

theorem takes_line_back {last : Char} (no_feed : ∀ c ∈ taken ++ [last], c ≠ '\n')
    (too_far : second.Fails []) (next : second.Takes [last] [] groups after) :
    (line.seq second).Takes (taken ++ [last]) [] groups after := by
  intro α previous accept result accept_eq
  exact run_line_back no_feed (fun _ => too_far.run_eq_none _ _ _)
    (fun last => next α last accept result accept_eq) previous

theorem takes_line_group_back {last : Char} (no_feed : ∀ c ∈ taken ++ [last], c ≠ '\n')
    (too_far : second.Fails []) {name : String}
    (next : second.Takes [last] [] ((name, taken) :: groups) after) :
    ((line.group name).seq second).Takes (taken ++ [last]) [] groups after := by
  intro α previous accept result accept_eq
  refine run_line_back no_feed (fun _ => too_far.run_eq_none _ _ _) (fun previous => ?_) previous
  have reached := next α previous accept result accept_eq
  simpa [Cursor.close] using reached

end Takes

end SuiteMigration.Pattern
