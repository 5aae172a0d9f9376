import Mathlib.Data.List.TakeWhile
import SuiteMigration.Proofs.Pattern.LiteralSearch

/-!
# How far a line reaches

A line goes as far as the pattern behind it allows, and a short line stops at the first place where
that pattern has a match.
-/
namespace SuiteMigration.Pattern

section Run

variable {first second : Pattern} {others : List Pattern} {cursor : Cursor} {α : Type}
  {accept : Cursor → Option α} {result : α}

/-- A run through two patterns passes an end of the first. -/
theorem exists_of_run_seq (run_eq : (seq first second).run cursor accept = some result) :
    ∃ middle ∈ first.ways cursor, second.run middle accept = some result := by
  rw [run, run_eq_findSome?] at run_eq
  exact List.exists_of_findSome?_eq_some run_eq

theorem exists_of_run_all (parts : List Pattern)
    (run_eq : (all (parts ++ others)).run cursor accept = some result) :
    ∃ middle ∈ (all parts).ways cursor, (all others).run middle accept = some result := by
  induction parts generalizing cursor with
  | nil => exact ⟨cursor, List.mem_singleton_self cursor, run_eq⟩
  | cons part parts ih =>
    obtain ⟨next, part_found, run_eq⟩ := exists_of_run_seq run_eq
    obtain ⟨middle, parts_found, run_eq⟩ := ih run_eq
    exact ⟨middle, List.mem_flatMap.mpr ⟨next, part_found, parts_found⟩, run_eq⟩

end Run

section Line

variable {cursor : Cursor} {α : Type} {accept : Cursor → Option α} {result : α} {c : Char}
  {rest : List Char}

private theorem run_line_cons (rest_eq : cursor.rest = c :: rest) :
    line.run cursor accept
      = ((if c ≠ '\n' then line.run (cursor.step c rest) accept else none) <|> accept cursor) := by
  rw [line, run_many rfl, lineChar, run_one_cons rest_eq]
  simp

/-- A line stops at the last place in it that is accepted. -/
theorem exists_of_run_line (run_eq : line.run cursor accept = some result) :
    ∃ taken middle, cursor.rest = taken ++ middle.rest ∧ (∀ c ∈ taken, c ≠ '\n') ∧
      middle.groups = cursor.groups ∧ accept middle = some result ∧
      ∀ c rest, middle.rest = c :: rest → c ≠ '\n' → line.run (middle.step c rest) accept = none := by
  generalize text_eq : cursor.rest = text
  induction text generalizing cursor with
  | nil =>
    rw [line, run_many rfl, lineChar, run_one_nil text_eq] at run_eq
    refine ⟨[], cursor, text_eq.symm, by simp, rfl, run_eq, fun c rest rest_eq => ?_⟩
    rw [text_eq] at rest_eq
    cases rest_eq
  | cons c text ih =>
    rw [run_line_cons text_eq] at run_eq
    by_cases no_feed : c ≠ '\n'
    · rw [if_pos no_feed] at run_eq
      -- The line is greedy: it goes on first and stops here only if that fails.
      cases later_eq : line.run (cursor.step c text) accept with
      | some other =>
        rw [later_eq] at run_eq
        obtain rfl : other = result := Option.some.inj run_eq
        obtain ⟨taken, middle, rfl, is_line, groups_eq, accept_eq, last⟩ := ih later_eq rfl
        exact ⟨c :: taken, middle, rfl, List.forall_mem_cons.mpr ⟨no_feed, is_line⟩, groups_eq,
          accept_eq, last⟩
      | none =>
        rw [later_eq] at run_eq
        refine ⟨[], cursor, text_eq.symm, by simp, rfl, run_eq, fun d rest rest_eq _ => ?_⟩
        obtain ⟨rfl, rfl⟩ := List.cons.inj (text_eq.symm.trans rest_eq)
        exact later_eq
    · rw [if_neg no_feed] at run_eq
      refine ⟨[], cursor, text_eq.symm, by simp, rfl, run_eq, fun d rest rest_eq other => ?_⟩
      obtain ⟨rfl, -⟩ := List.cons.inj (text_eq.symm.trans rest_eq)
      exact absurd other no_feed

/-- No place in the line is accepted where its run has no result. -/
theorem accept_of_run_line {taken : List Char} (run_eq : line.run cursor accept = none)
    (rest_eq : cursor.rest = taken ++ rest) (is_line : ∀ c ∈ taken, c ≠ '\n') :
    ∃ stop, stop.rest = rest ∧ accept stop = none := by
  obtain ⟨stop, stop_found, stop_eq⟩ :=
    mem_ways_of_accepts (by rfl) (accepts_line.mpr is_line) rest_eq
  rw [run_eq_findSome?, List.findSome?_eq_none_iff] at run_eq
  exact ⟨stop, stop_eq, run_eq stop stop_found⟩

private theorem run_mark_isSome (name : String) (start : Cursor) {stop : Cursor}
    (rest_eq : stop.rest = c :: rest) :
    ((all [mark c]).run (start.close name stop) some).isSome = true := by
  have closed_eq : (start.close name stop).rest = c :: rest := rest_eq
  rw [all, List.foldr_cons, run, mark, run_one_cons closed_eq, if_pos (beq_self_eq_true c)]
  rfl

/-- A group that takes a line up to a mark reaches to the last such mark of the line. -/
theorem parts_of_run_line {name : String} {stop : Cursor} (no_feed : c ≠ '\n')
    (run_eq : (all [.group name line, mark c]).run cursor some = some stop) :
    ∃ taken, cursor.rest = taken ++ c :: stop.rest ∧ (∀ d ∈ taken, d ≠ '\n') ∧
      stop.groups = (name, taken) :: cursor.groups ∧ c ∉ stop.rest.takeWhile (· != '\n') := by
  have line_eq : line.run cursor (fun inner => (all [mark c]).run (cursor.close name inner) some)
      = some stop := run_eq
  obtain ⟨taken, middle, rest_eq, is_line, groups_eq, accept_eq, last⟩ := exists_of_run_line line_eq
  obtain ⟨_, mark_found, end_found⟩ := exists_of_mem_ways_seq (mem_ways_of_run accept_eq)
  obtain rfl := eq_of_mem_ways_empty end_found
  have closed_eq := rest_of_mark mark_found
  have middle_eq : middle.rest = c :: stop.rest := closed_eq
  refine ⟨taken, ?_, is_line, ?_, fun later => ?_⟩
  · rw [rest_eq, middle_eq]
  · rw [groups_of_mem_ways (by rfl) mark_found, Cursor.close, groups_eq, rest_eq]
    simp
  · -- The line would have gone on to a later mark.
    obtain ⟨front, back, line_split⟩ := List.append_of_mem later
    have stop_eq : stop.rest = front ++ c :: (back ++ stop.rest.dropWhile (· != '\n')) := by
      rw [← List.cons_append, ← List.append_assoc, ← line_split, List.takeWhile_append_dropWhile]
    have front_line : ∀ d ∈ front, d ≠ '\n' := by
      intro d member
      have inside : d ∈ stop.rest.takeWhile (· != '\n') := by simp [line_split, member]
      simpa using List.mem_takeWhile_imp inside
    obtain ⟨other, other_eq, refused⟩ :=
      accept_of_run_line (last c stop.rest middle_eq no_feed) stop_eq front_line
    have accepted := run_mark_isSome name cursor other_eq
    rw [refused] at accepted
    cases accepted

end Line

section ShortLine

variable {α : Type} {accept : Cursor → Option α} {result : α} {front more : List Char}
  {groups : List (String × List Char)}

/-- A short line passes a front at no place of which it may stop. -/
theorem run_shortLine_front (no_feed : ∀ c ∈ front, c ≠ '\n')
    (refused : ∀ left previous, left <:+ front → left ≠ [] →
      accept ⟨previous, left ++ more, groups⟩ = none)
    (accepted : ∀ previous, accept ⟨previous, more, groups⟩ = some result)
    (previous : Option Char) :
    shortLine.run ⟨previous, front ++ more, groups⟩ accept = some result := by
  induction front generalizing previous with
  | nil =>
    rw [List.nil_append, run_shortLine, accepted]
    rfl
  | cons c front ih =>
    have split := List.forall_mem_cons.mp no_feed
    have here := refused (c :: front) previous List.suffix_rfl (List.cons_ne_nil c front)
    have later := ih split.2 fun left last suffix =>
      refused left last (suffix.trans (List.suffix_cons c front))
    have rest_eq : (⟨previous, c :: front ++ more, groups⟩ : Cursor).rest = c :: (front ++ more) :=
      rfl
    rw [run_shortLine_cons rest_eq, here, if_pos split.1]
    exact later (some c)

end ShortLine

end SuiteMigration.Pattern
