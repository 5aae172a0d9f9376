import Mathlib.Data.List.Basic
import SuiteMigration.Proofs.Pattern.Occurrence

/-!
# Texts that differ in their literals

Two texts are made of the same code with literals in it whose bodies may differ. A pattern that
takes no quote goes through the code of both in step: in front of a literal it stops in both.
-/
namespace SuiteMigration.Pattern

/-- Which of the two texts. -/
inductive Side where
  | old
  | new

/-- A part of both texts. -/
inductive Piece where
  | code (c : Char)
  | literal (body : Side → List Char)

def Piece.text (side : Side) : Piece → List Char
  | code c => [c]
  | literal body => '"' :: (body side ++ ['"'])

def spelled (side : Side) (pieces : List Piece) : List Char :=
  pieces.flatMap (Piece.text side)

section Spelled

variable {side : Side} {pieces rest : List Piece}

@[simp] theorem spelled_nil : spelled side [] = [] := rfl

@[simp] theorem spelled_code (c : Char) :
    spelled side (.code c :: rest) = c :: spelled side rest := rfl

@[simp] theorem spelled_literal (body : Side → List Char) :
    spelled side (.literal body :: rest) = '"' :: (body side ++ '"' :: spelled side rest) := by
  simp [spelled, Piece.text]

@[simp] theorem spelled_append :
    spelled side (pieces ++ rest) = spelled side pieces ++ spelled side rest :=
  List.flatMap_append

@[simp] theorem spelled_map_code (text : List Char) : spelled side (text.map .code) = text := by
  induction text with
  | nil => rfl
  | cons c text ih => rw [List.map_cons, spelled_code, ih]

end Spelled

/-- Do the results of the two sides agree, none of them or both with related values? -/
def Alike {α : Type} (related : α → α → Prop) (result : Side → Option α) : Prop :=
  Option.Rel related (result .old) (result .new)

section Alike

variable {α β : Type} {related : α → α → Prop} {result other : Side → Option α}

theorem Alike.none (none_eq : ∀ side, result side = none) : Alike related result := by
  rw [Alike, none_eq .old, none_eq .new]
  exact .none

theorem Alike.some (value : Side → α) (values : related (value .old) (value .new))
    (some_eq : ∀ side, result side = some (value side)) : Alike related result := by
  rw [Alike, some_eq .old, some_eq .new]
  exact .some values

theorem Alike.of_some {old new : α} (old_eq : result .old = Option.some old)
    (new_eq : result .new = Option.some new) (values : related old new) : Alike related result := by
  rw [Alike, old_eq, new_eq]
  exact .some values

theorem Alike.of_isSome_eq (same : (result .old).isSome = (result .new).isSome)
    (all_related : ∀ old new, related old new) : Alike related result := by
  unfold Alike
  cases old_eq : result .old with
  | none =>
    rw [old_eq, Option.isSome_none, eq_comm, Option.isSome_eq_false_iff, Option.isNone_iff_eq_none]
      at same
    rw [same]
    exact .none
  | some old =>
    rw [old_eq, Option.isSome_some, eq_comm, Option.isSome_iff_exists] at same
    obtain ⟨new, new_eq⟩ := same
    rw [new_eq]
    exact .some (all_related old new)

theorem Alike.congr (alike : Alike related other) (eq : ∀ side, result side = other side) :
    Alike related result := by
  rwa [Alike, eq .old, eq .new]

theorem Alike.cases (alike : Alike related result) : (∀ side, result side = Option.none) ∨
    ∃ value : Side → α, related (value .old) (value .new) ∧
      ∀ side, result side = Option.some (value side) := by
  unfold Alike at alike
  cases old_eq : result .old with
  | none =>
    rw [old_eq] at alike
    cases new_eq : result .new with
    | none => exact .inl fun side => by cases side <;> assumption
    | some new => rw [new_eq] at alike; cases alike
  | some old =>
    rw [old_eq] at alike
    cases new_eq : result .new with
    | none => rw [new_eq] at alike; cases alike
    | some new =>
      rw [new_eq] at alike
      cases alike with
      | some values =>
        refine .inr ⟨fun | .old => old | .new => new, values, fun side => ?_⟩
        cases side <;> assumption

theorem Alike.of_map {f : α → β} {related : β → β → Prop}
    (alike : Alike related fun side => (result side).map f) :
    Alike (fun old new => related (f old) (f new)) result := by
  rcases alike.cases with none_eq | ⟨value, values, some_eq⟩
  · exact .none fun side => Option.map_eq_none_iff.mp (none_eq side)
  · obtain ⟨old, old_eq, old_value⟩ := Option.map_eq_some_iff.mp (some_eq .old)
    obtain ⟨new, new_eq, new_value⟩ := Option.map_eq_some_iff.mp (some_eq .new)
    rw [← old_value, ← new_value] at values
    exact .of_some old_eq new_eq values

theorem Alike.isSome_eq (alike : Alike related result) :
    (result .old).isSome = (result .new).isSome := by
  rcases alike.cases with none_eq | ⟨value, -, some_eq⟩
  · rw [none_eq .old, none_eq .new]
  · rw [some_eq .old, some_eq .new]
    rfl

theorem Alike.orElse (first : Alike related result) (second : Alike related other) :
    Alike related fun side => result side <|> other side := by
  rcases first.cases with none_eq | ⟨value, values, some_eq⟩
  · refine second.congr fun side => ?_
    rw [none_eq side]
    rfl
  · refine .some value values fun side => ?_
    rw [some_eq side]
    rfl

theorem Alike.map {f : α → β} {related : β → β → Prop}
    (alike : Alike (fun old new => related (f old) (f new)) result) :
    Alike related fun side => (result side).map f := by
  rcases alike.cases with none_eq | ⟨value, values, some_eq⟩
  · exact .none fun side => by rw [none_eq side, Option.map_none]
  · exact .some (fun side => f (value side)) values fun side => by
      rw [some_eq side, Option.map_some]

/-- The first result of several, when each of them agrees. -/
theorem Alike.findSome? {results : List β} {find : Side → β → Option α}
    (each : ∀ b ∈ results, Alike related fun side => find side b) :
    Alike related fun side => results.findSome? (find side) := by
  induction results with
  | nil => exact .none fun _ => rfl
  | cons b results ih =>
    have split := List.forall_mem_cons.mp each
    refine (split.1.orElse (ih split.2)).congr fun side => ?_
    rw [List.findSome?_cons]
    cases find side b <;> rfl

end Alike

/-- Both cursors stand in front of the pieces. -/
def Aligned (pieces : List Piece) (cursor : Side → Cursor) : Prop :=
  ∀ side, (cursor side).rest = spelled side pieces

section Running

variable {pattern : Pattern} {c : Char} {rest : List Char} {α : Type} {accept : Cursor → Option α}

theorem run_one_nil {accepts : Char → Bool} {cursor : Cursor} (rest_eq : cursor.rest = []) :
    (one accepts).run cursor accept = none := by
  simp [run, rest_eq]

theorem run_one_cons {accepts : Char → Bool} {cursor : Cursor} (rest_eq : cursor.rest = c :: rest) :
    (one accepts).run cursor accept = if accepts c then accept (cursor.step c rest) else none := by
  simp [run, rest_eq]

/-- The fuel of a repetition lasts, as every turn takes some text. -/
theorem manyWays_succ (takes : pattern.takesText = true) (greedy : Bool) {fuel : Nat}
    {cursor : Cursor} (enough : cursor.rest.length ≤ fuel) :
    manyWays greedy pattern.ways (fuel + 1) cursor = manyWays greedy pattern.ways fuel cursor := by
  induction fuel generalizing cursor with
  | zero =>
    have no_turn : pattern.ways cursor = [] := by
      rw [List.eq_nil_iff_forall_not_mem]
      intro next next_mem
      have shorter := length_lt_of_mem_ways takes next_mem
      omega
    cases greedy <;> simp [manyWays, no_turn]
  | succ fuel ih =>
    have same_turns : (pattern.ways cursor).flatMap (manyWays greedy pattern.ways (fuel + 1))
        = (pattern.ways cursor).flatMap (manyWays greedy pattern.ways fuel) := by
      refine List.flatMap_congr fun next next_mem => ih ?_
      have shorter := length_lt_of_mem_ways takes next_mem
      omega
    rw [manyWays, manyWays, same_turns]

private theorem manyWays_of_fuel (takes : pattern.takesText = true) (greedy : Bool) {fuel : Nat}
    {cursor : Cursor} (enough : cursor.rest.length ≤ fuel) :
    manyWays greedy pattern.ways fuel cursor = (many greedy pattern).ways cursor := by
  obtain ⟨more, rfl⟩ := Nat.le.dest enough
  clear enough
  induction more with
  | zero => rfl
  | succ more ih => rw [← Nat.add_assoc, manyWays_succ takes greedy (Nat.le_add_right _ _), ih]

/-- A repetition is its body and the repetition again, or nothing. -/
theorem ways_many (takes : pattern.takesText = true) (greedy : Bool) (cursor : Cursor) :
    (many greedy pattern).ways cursor
      = if greedy then (pattern.ways cursor).flatMap (many greedy pattern).ways ++ [cursor]
        else cursor :: (pattern.ways cursor).flatMap (many greedy pattern).ways := by
  have turns : (pattern.ways cursor).flatMap (manyWays greedy pattern.ways cursor.rest.length)
      = (pattern.ways cursor).flatMap (many greedy pattern).ways :=
    List.flatMap_congr fun next next_mem =>
      manyWays_of_fuel takes greedy (Nat.le_of_lt (length_lt_of_mem_ways takes next_mem))
  rw [← manyWays_of_fuel takes greedy (Nat.le_succ cursor.rest.length), manyWays, turns]

theorem run_many (takes : pattern.takesText = true) (greedy : Bool) (cursor : Cursor)
    (accept : Cursor → Option α) :
    (many greedy pattern).run cursor accept
      = if greedy then
          (pattern.run cursor fun next => (many greedy pattern).run next accept)
            <|> accept cursor
        else
          accept cursor
            <|> pattern.run cursor fun next => (many greedy pattern).run next accept := by
  have turns : ∀ greedy, (pattern.run cursor fun next => (many greedy pattern).run next accept)
      = ((pattern.ways cursor).flatMap (many greedy pattern).ways).findSome? accept := by
    intro greedy
    simp only [run_eq_findSome?, findSome?_flatMap]
  rw [run_eq_findSome?, ways_many takes]
  cases greedy with
  | true => simp [turns, List.findSome?_append]
  | false => cases accept_eq : accept cursor <;> simp [turns, accept_eq]

end Running

section Lockstep

variable {pattern : Pattern} {pieces : List Piece} {cursor : Side → Cursor} {α : Type}
  {related : α → α → Prop} {accept : Side → Cursor → Option α}

/-- What the continuations of a run are asked: they agree wherever the run can take them. -/
def Goes (pattern : Pattern) (pieces : List Piece) (cursor : Side → Cursor)
    (related : α → α → Prop) (accept : Side → Cursor → Option α) : Prop :=
  ∀ taken rest (stop : Side → Cursor), pieces = taken.map .code ++ rest → pattern.Accepts taken →
    Aligned rest stop →
    (pattern.isPlain = true → ∀ side, (stop side).groups = (cursor side).groups) →
    Alike related fun side => accept side (stop side)

private theorem alike_run_one {accepts : Char → Bool} (avoided : (one accepts).avoids '"' = true)
    (aligned : Aligned pieces cursor) (next : Goes (one accepts) pieces cursor related accept) :
    Alike related fun side => (one accepts).run (cursor side) (accept side) := by
  cases pieces with
  | nil => exact .none fun side => run_one_nil (aligned side)
  | cons piece pieces =>
    cases piece with
    | code c =>
      have step_eq : ∀ side, (one accepts).run (cursor side) (accept side) = if accepts c then
          accept side ((cursor side).step c (spelled side pieces)) else none :=
        fun side => run_one_cons (aligned side)
      by_cases accepted : accepts c = true
      · simp only [step_eq, accepted, ↓reduceIte]
        exact next [c] pieces _ rfl ⟨c, accepted, rfl⟩ (fun _ => rfl) fun _ _ => rfl
      · exact .none fun side => by rw [step_eq, if_neg accepted]
    | literal body =>
      have refused : accepts '"' = false := by simpa [avoids] using avoided
      refine .none fun side => ?_
      have rest_eq := aligned side
      rw [spelled_literal] at rest_eq
      rw [run_one_cons rest_eq, refused]
      rfl

/-- A repetition that is run in step, when its body is. -/
theorem alike_run_many (takes : pattern.takesText = true) (greedy : Bool)
    (body : ∀ {pieces : List Piece} {cursor : Side → Cursor} {accept : Side → Cursor → Option α},
      Aligned pieces cursor → Goes pattern pieces cursor related accept →
      Alike related fun side => pattern.run (cursor side) (accept side))
    (aligned : Aligned pieces cursor)
    (next : Goes (many greedy pattern) pieces cursor related accept) :
    Alike related fun side => (many greedy pattern).run (cursor side) (accept side) := by
  -- Every turn takes a piece, so the induction is on their number.
  induction count : pieces.length using Nat.strongRecOn generalizing pieces cursor with
  | _ count ih =>
    subst count
    have stops : Alike related fun side => accept side (cursor side) :=
      next [] pieces cursor rfl ⟨[], rfl, by simp⟩ aligned fun _ _ => rfl
    have turns : Alike related fun side => pattern.run (cursor side) fun stop =>
        (many greedy pattern).run stop (accept side) := by
      refine body aligned fun taken rest stop pieces_eq accepted rest_aligned same_groups => ?_
      have taken_pos := List.length_pos_iff.mpr (ne_nil_of_accepts takes accepted)
      have shorter : rest.length < pieces.length := by
        rw [pieces_eq, List.length_append, List.length_map]
        omega
      refine ih rest.length shorter rest_aligned ?_ rfl
      rintro _ last final rest_eq ⟨parts, rfl, all_accepted⟩ final_aligned final_groups
      refine next (taken ++ parts.flatten) last final ?_ ?_ final_aligned ?_
      · rw [pieces_eq, rest_eq, List.map_append, List.append_assoc]
      · exact ⟨taken :: parts, rfl, List.forall_mem_cons.mpr ⟨accepted, all_accepted⟩⟩
      · exact fun plain side => (final_groups plain side).trans (same_groups plain side)
    cases greedy with
    | true => exact (turns.orElse stops).congr fun side => by rw [run_many takes]; rfl
    | false => exact (stops.orElse turns).congr fun side => by rw [run_many takes]; rfl

/-- A pattern that takes no quote is run in step. -/
theorem alike_run (free : pattern.isFree = true) (avoided : pattern.avoids '"' = true)
    (aligned : Aligned pieces cursor) (next : Goes pattern pieces cursor related accept) :
    Alike related fun side => pattern.run (cursor side) (accept side) := by
  -- On the pattern. What follows a part is accepted by the rest of the pattern, so that varies.
  induction pattern generalizing pieces cursor accept with
  | empty => exact next [] pieces cursor rfl rfl aligned fun _ _ => rfl
  | one accepts => exact alike_run_one avoided aligned next
  | atStart | atEnd | atWordEdge => cases free
  | seq first second first_ih second_ih =>
    obtain ⟨first_free, second_free⟩ := Bool.and_eq_true_iff.mp free
    obtain ⟨first_avoids, second_avoids⟩ := Bool.and_eq_true_iff.mp avoided
    refine first_ih first_free first_avoids aligned ?_
    intro left middle_pieces middle pieces_eq left_accepted middle_aligned middle_groups
    refine second_ih second_free second_avoids middle_aligned ?_
    intro right rest stop middle_eq right_accepted stop_aligned stop_groups
    refine next (left ++ right) rest stop ?_ ⟨left, right, rfl, left_accepted, right_accepted⟩
      stop_aligned ?_
    · rw [pieces_eq, middle_eq, List.map_append, List.append_assoc]
    · intro plain side
      obtain ⟨first_plain, second_plain⟩ := Bool.and_eq_true_iff.mp plain
      exact (stop_groups second_plain side).trans (middle_groups first_plain side)
  | either preferred other preferred_ih other_ih =>
    obtain ⟨preferred_free, other_free⟩ := Bool.and_eq_true_iff.mp free
    obtain ⟨preferred_avoids, other_avoids⟩ := Bool.and_eq_true_iff.mp avoided
    refine Alike.orElse (preferred_ih preferred_free preferred_avoids aligned ?_)
      (other_ih other_free other_avoids aligned ?_)
    · intro taken rest stop pieces_eq accepted stop_aligned groups
      exact next taken rest stop pieces_eq (.inl accepted) stop_aligned fun plain =>
        groups (Bool.and_eq_true_iff.mp plain).1
    · intro taken rest stop pieces_eq accepted stop_aligned groups
      exact next taken rest stop pieces_eq (.inr accepted) stop_aligned fun plain =>
        groups (Bool.and_eq_true_iff.mp plain).2
  | many greedy body ih =>
    obtain ⟨body_free, takes⟩ := Bool.and_eq_true_iff.mp free
    exact alike_run_many takes greedy (ih body_free avoided) aligned next
  | group name body ih =>
    refine ih free avoided aligned ?_
    intro taken rest stop pieces_eq accepted stop_aligned _
    exact next taken rest (fun side => (cursor side).close name (stop side)) pieces_eq accepted
      stop_aligned fun plain => by cases plain

end Lockstep

end SuiteMigration.Pattern
