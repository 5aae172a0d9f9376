import SuiteMigration.Outline.Parsing

/-!
# Runs of tokens by position

The reader of source files can be told with positions in its tokens. Every run that is then taken
and every token that is looked up may lie outside the tokens, and a turn of a loop may stay where it
is: each of these is a fault. Here are the faults, and the runs that the splitters find.
-/
namespace SuiteMigration.Outline.Scan

inductive Fault where
  /-- A run that ends before it begins, or behind the last token. -/
  | range (start stop : Nat)
  | index (pos : Nat)
  /-- A turn of a loop that takes no token. -/
  | stuck (pos : Nat)
  deriving DecidableEq

section Definitions

variable (tokens : List Token)

/-- The tokens between two positions. -/
def slice (start stop : Nat) : Except Fault (List Token) :=
  if start ≤ stop ∧ stop ≤ tokens.length then .ok (tokens.extract start stop)
  else .error (.range start stop)

/-- The text between two positions, of which the second one may lie behind all tokens. -/
def textBetween (start stop : Nat) : Except Fault String :=
  (slice tokens start (min stop tokens.length)).map fun run => String.ofList (joinTokens run)

def tokenAt (pos : Nat) : Except Fault Token :=
  match tokens[pos]? with
  | some token => .ok token
  | none => .error (.index pos)

def markAt (mark : Char) (pos : Nat) : Bool :=
  tokens[pos]?.any (·.isPunct mark)

/-- Where the run ends that a closing mark ends, and the position behind the mark. -/
def closeFrom (opening closing : Char) (depth pos : Nat) : Nat × Nat :=
  if inside : pos < tokens.length then
    if tokens[pos].isPunct opening then closeFrom opening closing (depth + 1) (pos + 1)
    else if tokens[pos].isPunct closing then
      match depth with
      | 0 => (pos, pos + 1)
      | inner + 1 => closeFrom opening closing inner (pos + 1)
    else closeFrom opening closing depth (pos + 1)
  else (tokens.length, pos)
termination_by tokens.length - pos

/-- Where a statement ends, and the position behind its semicolon. -/
def statementFrom (depth : Int) (pos : Nat) : Nat × Nat :=
  if inside : pos < tokens.length then
    let token := tokens[pos]
    if token.isPunct '(' || token.isPunct '[' || token.isPunct '\x7b' then
      statementFrom (depth + 1) (pos + 1)
    else if token.isPunct ')' || token.isPunct ']' then statementFrom (depth - 1) (pos + 1)
    else if token.isPunct '\x7d' then
      if depth = 0 then (pos, pos) else statementFrom (depth - 1) (pos + 1)
    else if token.isPunct ';' && decide (depth ≤ 0) then (pos, pos + 1)
    else statementFrom depth (pos + 1)
  else (tokens.length, pos)
termination_by tokens.length - pos

/-- The text of a dotted name, and the position behind it. -/
def nameFrom (segment started : Bool) (pos : Nat) : List Char × Nat :=
  if inside : pos < tokens.length then
    let token := tokens[pos]
    let accepted :=
      if segment then token.kind == .ident || (started && token.isPunct '*')
      else token.isPunct '.'
    if accepted then
      let (more, next) := nameFrom (!segment) true (pos + 1)
      (token.text ++ more, next)
    else ([], pos)
  else ([], pos)
termination_by tokens.length - pos

theorem le_closeFrom (opening closing : Char) (depth pos : Nat) :
    pos ≤ (closeFrom tokens opening closing depth pos).2 := by
  fun_induction closeFrom tokens opening closing depth pos <;> omega

/-- The brace that opens the body of a type, or the end of the tokens. -/
def braceFrom (pos : Nat) : Nat :=
  if inside : pos < tokens.length then
    if tokens[pos].isPunct '\x7b' then pos
    else if tokens[pos].isPunct '(' then braceFrom (closeFrom tokens '(' ')' 0 (pos + 1)).2
    else braceFrom (pos + 1)
  else pos
termination_by tokens.length - pos
decreasing_by
  · have passed := le_closeFrom tokens '(' ')' 0 (pos + 1)
    omega
  · omega

end Definitions

variable {tokens : List Token} {pos stop : Nat}

section Positions

/-- Induction along a loop that takes tokens: what holds at a position rests on what is behind it. -/
theorem turns_ind (tokens : List Token) {motive : Nat → Prop}
    (turn : ∀ pos, (∀ behind, pos < behind → pos < tokens.length → motive behind) → motive pos)
    (pos : Nat) : motive pos :=
  turn pos fun behind _ _ => turns_ind tokens turn behind
termination_by tokens.length - pos

theorem drop_of_lt (inside : pos < tokens.length) :
    tokens.drop pos = tokens[pos] :: tokens.drop (pos + 1) :=
  List.drop_eq_getElem_cons inside

theorem drop_of_not_lt (outside : ¬pos < tokens.length) : tokens.drop pos = [] :=
  List.drop_eq_nil_of_le (Nat.not_lt.mp outside)

@[simp] theorem extract_self : tokens.extract pos pos = [] := by
  simp [List.extract]

theorem extract_of_lt (inside : pos < tokens.length) (before : pos < stop) :
    tokens.extract pos stop = tokens[pos] :: tokens.extract (pos + 1) stop := by
  have length_eq : stop - pos = (stop - (pos + 1)) + 1 := by omega
  rw [List.extract, List.extract, drop_of_lt inside, length_eq, List.take_succ_cons]

theorem extract_concat {start : Nat} (inside : pos < tokens.length) (ordered : start ≤ pos) :
    tokens.extract start (pos + 1) = tokens.extract start pos ++ [tokens[pos]] := by
  have place_eq : start + (pos - start) = pos := by omega
  rw [List.extract, List.extract, Nat.succ_sub ordered, List.take_add_one, List.getElem?_drop,
    place_eq, List.getElem?_eq_getElem inside, Option.toList_some]

theorem slice_eq (ordered : pos ≤ stop) (within : stop ≤ tokens.length) :
    slice tokens pos stop = .ok (tokens.extract pos stop) :=
  if_pos ⟨ordered, within⟩

theorem textBetween_eq (ordered : pos ≤ stop) (within : stop ≤ tokens.length) :
    textBetween tokens pos stop = .ok (String.ofList (joinTokens (tokens.extract pos stop))) := by
  rw [textBetween, Nat.min_eq_left within, slice_eq ordered within]
  rfl

theorem any_getElem?_iff {test : Token → Bool} :
    tokens[pos]?.any test = true ↔ ∃ inside : pos < tokens.length, test tokens[pos] = true := by
  by_cases inside : pos < tokens.length <;> simp [inside]

theorem markAt_of_lt {mark : Char} (inside : pos < tokens.length) :
    markAt tokens mark pos = tokens[pos].isPunct mark := by
  simp [markAt, inside]

end Positions

/-- A run that begins at `pos` lies in the tokens, and so does the position behind it. -/
structure Lies (tokens : List Token) (pos : Nat) (run : Nat × Nat) : Prop where
  le_stop : pos ≤ run.1
  stop_le : run.1 ≤ run.2
  le_length : run.2 ≤ tokens.length

namespace Lies

variable {run : Nat × Nat} (lies : Lies tokens pos run)
include lies

theorem le_next : pos ≤ run.2 :=
  Nat.le_trans lies.le_stop lies.stop_le

theorem stop_le_length : run.1 ≤ tokens.length :=
  Nat.le_trans lies.stop_le lies.le_length

theorem textBetween_eq : textBetween tokens pos run.1
    = .ok (String.ofList (joinTokens (tokens.extract pos run.1))) :=
  Scan.textBetween_eq lies.le_stop lies.stop_le_length

end Lies

theorem Lies.of_succ {run : Nat × Nat} (lies : Lies tokens (pos + 1) run) : Lies tokens pos run :=
  { lies with le_stop := Nat.le_of_succ_le lies.le_stop }

/-- A run up to a closing mark is the one that the splitter finds. -/
structure Closes (tokens : List Token) (opening closing : Char) (depth pos : Nat)
    (run : Nat × Nat) : Prop extends Lies tokens pos run where
  split : splitAtClose opening closing depth (tokens.drop pos)
    = (tokens.extract pos run.1, tokens.drop run.1)
  behind : (tokens.drop run.1).drop 1 = tokens.drop run.2

theorem Closes.cons {opening closing : Char} {depth inner : Nat} {run : Nat × Nat}
    (inside : pos < tokens.length)
    (step : splitAtClose opening closing depth (tokens.drop pos)
      = prepend tokens[pos] (splitAtClose opening closing inner (tokens.drop (pos + 1))))
    (closes : Closes tokens opening closing inner (pos + 1) run) :
    Closes tokens opening closing depth pos run where
  toLies := closes.toLies.of_succ
  split := by rw [step, closes.split, prepend, extract_of_lt inside closes.le_stop]
  behind := closes.behind

theorem closeFrom_closes (opening closing : Char) (depth : Nat) (within : pos ≤ tokens.length) :
    Closes tokens opening closing depth pos (closeFrom tokens opening closing depth pos) := by
  -- The cases are the branches of the scan, and the splitter takes the same branch at each token.
  fun_induction closeFrom tokens opening closing depth pos with
  | case1 depth pos inside is_opening ih =>
    refine .cons inside ?_ (ih inside)
    simp only [drop_of_lt inside, splitAtClose, is_opening, ↓reduceIte]
  | case2 pos inside not_opening is_closing =>
    refine ⟨⟨Nat.le_refl pos, Nat.le_succ pos, inside⟩, ?_, by simp⟩
    rw [extract_self, drop_of_lt inside, splitAtClose, if_neg not_opening, if_pos is_closing]
  | case3 pos inside not_opening is_closing inner ih =>
    refine .cons inside ?_ (ih inside)
    rw [drop_of_lt inside, splitAtClose, if_neg not_opening, if_pos is_closing]
  | case4 depth pos inside not_opening not_closing ih =>
    refine .cons inside ?_ (ih inside)
    simp only [drop_of_lt inside, splitAtClose, not_opening, not_closing, Bool.false_eq_true,
      ↓reduceIte]
  | case5 depth pos outside =>
    obtain rfl : pos = tokens.length := by omega
    exact ⟨⟨Nat.le_refl _, Nat.le_refl _, Nat.le_refl _⟩, by simp [splitAtClose], by simp⟩

/-- A run up to the end of a statement is the one that the splitter finds. -/
structure Ends (tokens : List Token) (depth : Int) (pos : Nat) (run : Nat × Nat) : Prop
    extends Lies tokens pos run where
  split : splitStatement depth (tokens.drop pos) = (tokens.extract pos run.1, tokens.drop run.2)

theorem Ends.cons {depth inner : Int} {run : Nat × Nat} (inside : pos < tokens.length)
    (step : splitStatement depth (tokens.drop pos)
      = prepend tokens[pos] (splitStatement inner (tokens.drop (pos + 1))))
    (ends : Ends tokens inner (pos + 1) run) : Ends tokens depth pos run where
  toLies := ends.toLies.of_succ
  split := by rw [step, ends.split, prepend, extract_of_lt inside ends.le_stop]

theorem statementFrom_ends (depth : Int) (within : pos ≤ tokens.length) :
    Ends tokens depth pos (statementFrom tokens depth pos) := by
  -- Each token of the run is taken alike, and the run ends alike at a brace or a semicolon.
  fun_induction statementFrom tokens depth pos with
  | case1 depth pos inside token is_opening ih =>
    refine .cons inside ?_ (ih inside)
    rw [drop_of_lt inside, splitStatement, if_pos is_opening]
  | case2 depth pos inside token not_opening is_closing ih =>
    refine .cons inside ?_ (ih inside)
    rw [drop_of_lt inside, splitStatement, if_neg not_opening, if_pos is_closing]
  | case3 pos inside token not_opening not_closing is_brace =>
    refine ⟨⟨Nat.le_refl pos, Nat.le_refl pos, within⟩, ?_⟩
    rw [extract_self, drop_of_lt inside, splitStatement, if_neg not_opening, if_neg not_closing,
      if_pos is_brace, if_pos rfl]
  | case4 depth pos inside token not_opening not_closing is_brace not_outside ih =>
    refine .cons inside ?_ (ih inside)
    rw [drop_of_lt inside, splitStatement, if_neg not_opening, if_neg not_closing,
      if_pos is_brace, if_neg not_outside]
  | case5 depth pos inside token not_opening not_closing not_brace is_end =>
    refine ⟨⟨Nat.le_refl pos, Nat.le_succ pos, inside⟩, ?_⟩
    rw [extract_self, drop_of_lt inside, splitStatement, if_neg not_opening, if_neg not_closing,
      if_neg not_brace, if_pos is_end]
  | case6 depth pos inside token not_opening not_closing not_brace not_end ih =>
    refine .cons inside ?_ (ih inside)
    rw [drop_of_lt inside, splitStatement, if_neg not_opening, if_neg not_closing,
      if_neg not_brace, if_neg not_end]
  | case7 depth pos outside =>
    obtain rfl : pos = tokens.length := by omega
    exact ⟨⟨Nat.le_refl _, Nat.le_refl _, Nat.le_refl _⟩, by simp [splitStatement]⟩

/-- A statement that begins with neither a closing brace nor a semicolon has a token. -/
theorem statementFrom_lt (inside : pos < tokens.length)
    (no_brace : tokens[pos].isPunct '\x7d' = false) (no_end : tokens[pos].isPunct ';' = false) :
    pos < (statementFrom tokens 0 pos).1 := by
  -- What the first token does to the depth is of no matter: the run ends behind it.
  have le_next := fun depth => (@statementFrom_ends tokens (pos + 1) depth inside).le_stop
  rw [statementFrom]
  simp only [inside, ↓reduceDIte, no_brace, no_end, Bool.false_eq_true, ↓reduceIte, Bool.false_and]
  split
  · exact le_next _
  · split
    · exact le_next _
    · exact le_next _

theorem nameFrom_spec (segment started : Bool) (within : pos ≤ tokens.length) :
    pos ≤ (nameFrom tokens segment started pos).2 ∧
      (nameFrom tokens segment started pos).2 ≤ tokens.length ∧
      splitName segment started (tokens.drop pos) = ((nameFrom tokens segment started pos).1,
        tokens.drop (nameFrom tokens segment started pos).2) := by
  fun_induction nameFrom tokens segment started pos with
  | case1 segment started pos inside token accepted is_accepted more next name_eq ih =>
    obtain ⟨le_next, next_le, split_eq⟩ := ih inside
    rw [name_eq] at le_next next_le split_eq
    refine ⟨Nat.le_of_succ_le le_next, next_le, ?_⟩
    rw [drop_of_lt inside, splitName]
    simp only [split_eq]
    exact if_pos is_accepted
  | case2 segment started pos inside token accepted not_accepted =>
    refine ⟨Nat.le_refl pos, within, ?_⟩
    rw [drop_of_lt inside, splitName]
    exact if_neg not_accepted
  | case3 segment started pos outside =>
    exact ⟨Nat.le_refl pos, within, by rw [drop_of_not_lt outside, splitName]⟩

private theorem skipToBrace_closeFrom (depth : Nat) (within : pos ≤ tokens.length) :
    skipToBrace (depth + 1) (tokens.drop pos)
      = skipToBrace 0 (tokens.drop (closeFrom tokens '(' ')' depth pos).2) := by
  fun_induction closeFrom tokens '(' ')' depth pos with
  | case1 depth pos inside is_opening ih =>
    rw [drop_of_lt inside, skipToBrace, if_pos is_opening, ih inside]
  | case2 pos inside not_opening is_closing =>
    rw [drop_of_lt inside, skipToBrace, if_neg not_opening, if_pos is_closing]
  | case3 pos inside not_opening is_closing inner ih =>
    rw [drop_of_lt inside, skipToBrace, if_neg not_opening, if_pos is_closing, ih inside]
  | case4 depth pos inside not_opening not_closing ih =>
    rw [drop_of_lt inside, skipToBrace, if_neg not_opening, if_neg not_closing, ih inside]
  | case5 depth pos outside =>
    rw [drop_of_not_lt outside, skipToBrace, skipToBrace]

theorem braceFrom_spec (within : pos ≤ tokens.length) :
    pos ≤ braceFrom tokens pos ∧ braceFrom tokens pos ≤ tokens.length ∧
      skipToBrace 0 (tokens.drop pos) = tokens.drop (braceFrom tokens pos) := by
  fun_induction braceFrom tokens pos with
  | case1 pos inside is_brace =>
    refine ⟨Nat.le_refl pos, within, ?_⟩
    rw [drop_of_lt inside, skipToBrace, if_pos is_brace]
  | case2 pos inside not_brace is_opening ih =>
    -- The scan passes over a group at once, where the splitter counts its depth.
    have closes := closeFrom_closes '(' ')' 0 (Nat.succ_le_of_lt inside)
    obtain ⟨le_brace, brace_le, skip_eq⟩ := ih closes.le_length
    refine ⟨?_, brace_le, ?_⟩
    · have passed := le_closeFrom tokens '(' ')' 0 (pos + 1)
      omega
    · rw [drop_of_lt inside, skipToBrace, if_neg not_brace, if_pos is_opening,
        skipToBrace_closeFrom 0 inside, skip_eq]
  | case3 pos inside not_brace not_opening ih =>
    obtain ⟨le_brace, brace_le, skip_eq⟩ := ih inside
    refine ⟨Nat.le_of_succ_le le_brace, brace_le, ?_⟩
    rw [drop_of_lt inside, skipToBrace, if_neg not_brace, if_neg not_opening, skip_eq]
  | case4 pos outside =>
    exact ⟨Nat.le_refl pos, within, by rw [drop_of_not_lt outside, skipToBrace]⟩

theorem markAt_braceFrom (inside : braceFrom tokens pos < tokens.length) :
    markAt tokens '\x7b' (braceFrom tokens pos) = true := by
  fun_induction braceFrom tokens pos with
  | case1 pos within is_brace => rw [markAt_of_lt within, is_brace]
  | case2 pos _ _ _ ih | case3 pos _ _ _ ih => exact ih inside
  | case4 pos outside => exact absurd inside outside

end SuiteMigration.Outline.Scan
