import SuiteMigration.Text.CharacterClass

/-!
# Text patterns

A pattern matches a stretch of text at a cursor. Where it can match in several ways the ways are
ordered: of two alternatives the first comes first, and a repetition prefers many or few. `ways`
lists them all, `run` finds the first one that a continuation accepts without listing the others,
and `run_eq_findSome?` says that the two agree.
-/
namespace SuiteMigration

open Text

inductive Pattern where
  | empty
  | one (accepts : Char → Bool)
  | atStart
  | atEnd
  /-- Between a word character and the start, the end, or a character of another sort. -/
  | atWordEdge
  | seq (first second : Pattern)
  | either (preferred other : Pattern)
  | many (greedy : Bool) (body : Pattern)
  | group (name : String) (body : Pattern)

/-- A place in a text with the groups matched on the way there, the latest first. -/
structure Cursor where
  previous : Option Char
  rest : List Char
  groups : List (String × List Char)

namespace Cursor

def step (cursor : Cursor) (c : Char) (rest : List Char) : Cursor :=
  { cursor with previous := some c, rest := rest }

def isWordEdge (cursor : Cursor) : Bool :=
  cursor.previous.any isWordChar != cursor.rest.head?.any isWordChar

/-- Records the text between two cursors under a name. -/
def close (start : Cursor) (name : String) (stop : Cursor) : Cursor :=
  { stop with
    groups := (name, start.rest.take (start.rest.length - stop.rest.length)) :: stop.groups }

end Cursor

namespace Pattern

/-- Repeats a step at most `fuel` times. -/
def manyWays (greedy : Bool) (step : Cursor → List Cursor) : Nat → Cursor → List Cursor
  | 0, cursor => [cursor]
  | fuel + 1, cursor =>
    let more := (step cursor).flatMap (manyWays greedy step fuel)
    if greedy then more ++ [cursor] else cursor :: more

/-- Where a match that begins at the cursor can end, the preferred end first. -/
def ways : Pattern → Cursor → List Cursor
  | .empty, cursor => [cursor]
  | .one accepts, cursor =>
    match cursor.rest with
    | c :: rest => if accepts c then [cursor.step c rest] else []
    | [] => []
  | .atStart, cursor => if cursor.previous.isNone then [cursor] else []
  | .atEnd, cursor => if cursor.rest.isEmpty then [cursor] else []
  | .atWordEdge, cursor => if cursor.isWordEdge then [cursor] else []
  | .seq first second, cursor => (first.ways cursor).flatMap second.ways
  | .either preferred other, cursor => preferred.ways cursor ++ other.ways cursor
  | .many greedy body, cursor => manyWays greedy body.ways cursor.rest.length cursor
  | .group name body, cursor => (body.ways cursor).map (cursor.close name)

def manyRun (greedy : Bool) (step : Cursor → (Cursor → Option α) → Option α) :
    Nat → Cursor → (Cursor → Option α) → Option α
  | 0, cursor, accept => accept cursor
  | fuel + 1, cursor, accept =>
    if greedy then
      step cursor (manyRun greedy step fuel · accept) <|> accept cursor
    else accept cursor <|> step cursor (manyRun greedy step fuel · accept)

/-- The answer of `accept` at the first end of a match for which it has one. -/
def run : Pattern → Cursor → (Cursor → Option α) → Option α
  | .empty, cursor, accept => accept cursor
  | .one accepts, cursor, accept =>
    match cursor.rest with
    | c :: rest => if accepts c then accept (cursor.step c rest) else none
    | [] => none
  | .atStart, cursor, accept => if cursor.previous.isNone then accept cursor else none
  | .atEnd, cursor, accept => if cursor.rest.isEmpty then accept cursor else none
  | .atWordEdge, cursor, accept => if cursor.isWordEdge then accept cursor else none
  | .seq first second, cursor, accept => first.run cursor (second.run · accept)
  | .either preferred other, cursor, accept =>
    preferred.run cursor accept <|> other.run cursor accept
  | .many greedy body, cursor, accept =>
    manyRun greedy body.run cursor.rest.length cursor accept
  | .group name body, cursor, accept => body.run cursor fun stop => accept (cursor.close name stop)

theorem findSome?_flatMap (list : List α) (f : α → List β) (accept : β → Option γ) :
    (list.flatMap f).findSome? accept = list.findSome? fun a => (f a).findSome? accept := by
  induction list with
  | nil => rfl
  | cons first rest ih =>
    rw [List.flatMap_cons, List.findSome?_append, List.findSome?_cons, ih]
    cases (f first).findSome? accept <;> rfl

theorem manyRun_eq_findSome? (greedy : Bool) (step : Cursor → (Cursor → Option α) → Option α)
    (next : Cursor → List Cursor)
    (step_eq : ∀ cursor accept, step cursor accept = (next cursor).findSome? accept)
    (fuel : Nat) (cursor : Cursor) (accept : Cursor → Option α) :
    manyRun greedy step fuel cursor accept
      = (manyWays greedy next fuel cursor).findSome? accept := by
  induction fuel generalizing cursor with
  | zero => simp [manyRun, manyWays]
  | succ fuel ih =>
    simp only [manyRun, manyWays, step_eq, ih]
    cases greedy
    · simp only [Bool.false_eq_true, ↓reduceIte, List.findSome?_cons, findSome?_flatMap]
      cases accept cursor <;> rfl
    · simp only [↓reduceIte, List.findSome?_append, findSome?_flatMap]
      simp

/-- Running a pattern is searching the list of its ways. -/
theorem run_eq_findSome? (pattern : Pattern) (cursor : Cursor) (accept : Cursor → Option α) :
    pattern.run cursor accept = (pattern.ways cursor).findSome? accept := by
  induction pattern generalizing cursor accept with
  | empty => simp [run, ways]
  | one accepts =>
    unfold run ways
    split
    · split <;> simp
    · rfl
  | atStart => unfold run ways; split <;> simp
  | atEnd => unfold run ways; split <;> simp
  | atWordEdge => unfold run ways; split <;> simp
  | seq first second first_ih second_ih =>
    simp only [run, ways, first_ih, second_ih, findSome?_flatMap]
  | either preferred other preferred_ih other_ih =>
    simp only [run, ways, preferred_ih, other_ih, List.findSome?_append]
    simp
  | many greedy body ih =>
    simp only [run, ways]
    exact manyRun_eq_findSome? greedy body.run body.ways ih _ cursor accept
  | group name body ih =>
    simp only [run, ways, ih, List.findSome?_map]
    rfl

theorem suffix_of_mem_manyWays {greedy : Bool} {step : Cursor → List Cursor}
    (step_suffix : ∀ {cursor stop}, stop ∈ step cursor → stop.rest <:+ cursor.rest)
    {fuel : Nat} {cursor stop : Cursor} (found : stop ∈ manyWays greedy step fuel cursor) :
    stop.rest <:+ cursor.rest := by
  induction fuel generalizing cursor with
  | zero => simp_all [manyWays]
  | succ fuel ih =>
    have cases_found :
        stop = cursor ∨ ∃ next ∈ step cursor, stop ∈ manyWays greedy step fuel next := by
      unfold manyWays at found
      cases greedy <;> simp_all [or_comm]
    rcases cases_found with rfl | ⟨next, next_mem, stop_mem⟩
    · exact List.suffix_rfl
    · exact (ih stop_mem).trans (step_suffix next_mem)

/-- What is left behind a match is the end of what there was. -/
theorem suffix_of_mem_ways {pattern : Pattern} {cursor stop : Cursor}
    (found : stop ∈ pattern.ways cursor) : stop.rest <:+ cursor.rest := by
  induction pattern generalizing cursor stop with
  | empty => simp_all [ways]
  | one accepts =>
    unfold ways at found
    split at found
    · next c rest rest_eq =>
      split at found
      · simp_all [Cursor.step]
      · simp at found
    · simp at found
  | atStart => unfold ways at found; split at found <;> simp_all
  | atEnd => unfold ways at found; split at found <;> simp_all
  | atWordEdge => unfold ways at found; split at found <;> simp_all
  | seq first second first_ih second_ih =>
    simp only [ways, List.mem_flatMap] at found
    obtain ⟨middle, middle_mem, stop_mem⟩ := found
    exact (second_ih stop_mem).trans (first_ih middle_mem)
  | either preferred other preferred_ih other_ih =>
    simp only [ways, List.mem_append] at found
    exact found.elim preferred_ih other_ih
  | many greedy body ih => exact suffix_of_mem_manyWays ih found
  | group name body ih =>
    simp only [ways, List.mem_map] at found
    obtain ⟨inner, inner_mem, rfl⟩ := found
    exact (ih inner_mem : inner.rest <:+ cursor.rest)

/-- Does every match take at least one character? -/
def takesText : Pattern → Bool
  | .one _ => true
  | .seq first second => first.takesText || second.takesText
  | .either preferred other => preferred.takesText && other.takesText
  | .group _ body => body.takesText
  | _ => false

theorem length_lt_of_mem_ways {pattern : Pattern} (takes : pattern.takesText = true)
    {cursor stop : Cursor} (found : stop ∈ pattern.ways cursor) :
    stop.rest.length < cursor.rest.length := by
  induction pattern generalizing cursor stop with
  | one accepts =>
    unfold ways at found
    split at found
    · split at found
      · simp_all [Cursor.step]
      · simp at found
    · simp at found
  | seq first second first_ih second_ih =>
    simp only [ways, List.mem_flatMap] at found
    obtain ⟨middle, middle_mem, stop_mem⟩ := found
    simp only [takesText, Bool.or_eq_true] at takes
    rcases takes with first_takes | second_takes
    · exact Nat.lt_of_le_of_lt (suffix_of_mem_ways stop_mem).length_le
        (first_ih first_takes middle_mem)
    · exact Nat.lt_of_lt_of_le (second_ih second_takes stop_mem)
        (suffix_of_mem_ways middle_mem).length_le
  | either preferred other preferred_ih other_ih =>
    simp only [ways, List.mem_append] at found
    simp only [takesText, Bool.and_eq_true] at takes
    exact found.elim (preferred_ih takes.1) (other_ih takes.2)
  | group name body ih =>
    simp only [ways, List.mem_map] at found
    obtain ⟨inner, inner_mem, rfl⟩ := found
    exact (ih takes inner_mem : inner.rest.length < cursor.rest.length)
  | _ => simp [takesText] at takes

/-! ## Building patterns -/

def all (parts : List Pattern) : Pattern :=
  parts.foldr seq empty

def oneOf : List Pattern → Pattern
  | [] => .one fun _ => false
  | [last] => last
  | preferred :: others => .either preferred (oneOf others)

def optional (body : Pattern) : Pattern :=
  .either body .empty

def oneOrMore (body : Pattern) : Pattern :=
  .seq body (.many true body)

def literal (text : List Char) : Pattern :=
  all (text.map fun c => .one (· == c))

/-- The text itself, letter by letter. -/
def text (word : String) : Pattern :=
  literal word.toList

def mark (c : Char) : Pattern :=
  .one (· == c)

def blanks : Pattern :=
  .many true (.one isBlank)

def someBlanks : Pattern :=
  oneOrMore (.one isBlank)

def wordChar : Pattern :=
  .one isWordChar

def word : Pattern :=
  oneOrMore wordChar

/-- Any character but a line feed. -/
def lineChar : Pattern :=
  .one (· != '\n')

/-- As much of the line as possible. -/
def line : Pattern :=
  .many true lineChar

/-- As little of the line as possible. -/
def shortLine : Pattern :=
  .many false lineChar

end Pattern

end SuiteMigration
