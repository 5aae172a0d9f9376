import SuiteMigration.Proofs.Outline.Scan.Runs
import SuiteMigration.Proofs.Outline.Tree

/-!
# Bodies by position

A block is scanned statement by statement, and a statement may be a block or the head of another
statement. The scan always comes to its end, takes a token with every statement, and finds what the
reader of bodies finds.
-/
namespace SuiteMigration.Outline.Scan

section Definitions

variable (tokens : List Token)

/-- The position behind a parenthesised group, if there is one. -/
def groupEnd (pos : Nat) : Nat :=
  if markAt tokens '(' pos then (closeFrom tokens '(' ')' 0 (pos + 1)).2 else pos

theorem le_groupEnd (pos : Nat) : pos ≤ groupEnd tokens pos := by
  have passed := le_closeFrom tokens '(' ')' 0 (pos + 1)
  unfold groupEnd
  split <;> omega

mutual

/-- The statements of a block, and the position behind its closing brace. -/
def blockFrom (pos : Nat) : Except Fault (List Statement × Nat) :=
  if inside : pos < tokens.length then
    if tokens[pos].isPunct '\x7d' then .ok ([], pos + 1)
    else do
      let (first, next) ← statementAt pos
      -- A statement without a token would be met again and again.
      if taken : pos < next then
        let (others, behind) ← blockFrom next
        return (first ++ others, behind)
      else .error (.stuck pos)
  else .ok ([], pos)
termination_by (tokens.length - pos, 1)

/-- The statements that one statement is flattened to, and the position behind it. -/
def statementAt (pos : Nat) : Except Fault (List Statement × Nat) :=
  if inside : pos < tokens.length then
    let token := tokens[pos]
    if token.isPunct '\x7b' then blockFrom (pos + 1)
    else if token.isPunct ';' then .ok ([], pos + 1)
    else if token.isWord headWords then do
      let behind := groupEnd tokens (pos + 1)
      let text ← textBetween tokens pos behind
      -- What the head governs is the next statement, unless the block ends.
      if tokens[behind]?.any (!·.isPunct '\x7d') then
        let (governed, next) ← statementAt behind
        return (⟨text, token.line⟩ :: governed, next)
      else return ([⟨text, token.line⟩], behind)
    else if token.isWord leadWords then
      if token.isWord ["try"] && markAt tokens '(' (pos + 1) then do
        let run := closeFrom tokens '(' ')' 0 (pos + 2)
        let text ← textBetween tokens (pos + 2) run.1
        return ([⟨text, token.line⟩], run.2)
      else .ok ([], pos + 1)
    else
      let run := statementFrom tokens 0 pos
      if pos < run.1 then do
        let text ← textBetween tokens pos run.1
        return ([⟨text, token.line⟩], run.2)
      else if run.2 = pos && !token.isPunct '\x7d' then .ok ([], pos + 1)
      else .ok ([], run.2)
  else .ok ([], pos)
termination_by (tokens.length - pos, 0)
decreasing_by
  · simp only [Prod.lex_def]
    omega
  · have passed := le_groupEnd tokens (pos + 1)
    simp only [Prod.lex_def]
    omega

end

end Definitions

variable {tokens : List Token} {pos next : Nat}

theorem ok_bind {α β : Type} (value : α) (next : α → Except Fault β) :
    (Except.ok value >>= next) = next value := rfl

/-- What was taken off the front is the run up to what is left. -/
theorem extract_of_append {front : List Token} (le_next : pos ≤ next)
    (next_le : next ≤ tokens.length)
    (append_eq : front ++ tokens.drop next = tokens.drop pos) : front = tokens.extract pos next := by
  have length_eq : front.length = next - pos := by
    have lengths := congrArg List.length append_eq
    simp only [List.length_append, List.length_drop] at lengths
    omega
  rw [List.extract, ← append_eq, ← length_eq, List.take_left]

theorem groupEnd_spec (within : pos ≤ tokens.length) :
    groupEnd tokens pos ≤ tokens.length ∧ splitGroup (tokens.drop pos)
      = (tokens.extract pos (groupEnd tokens pos), tokens.drop (groupEnd tokens pos)) := by
  -- What is in front of the rest need not be followed: together they are all there was.
  suffices rest_eq : groupEnd tokens pos ≤ tokens.length ∧
      (splitGroup (tokens.drop pos)).2 = tokens.drop (groupEnd tokens pos) by
    obtain ⟨end_le, rest_eq⟩ := rest_eq
    have append_eq := splitGroup_append (tokens.drop pos)
    rw [rest_eq] at append_eq
    exact ⟨end_le, Prod.ext (extract_of_append (le_groupEnd tokens pos) end_le append_eq) rest_eq⟩
  by_cases inside : pos < tokens.length
  · rw [drop_of_lt inside, splitGroup, groupEnd, markAt_of_lt inside]
    split
    · have closes := closeFrom_closes '(' ')' 0 (Nat.succ_le_of_lt inside)
      refine ⟨closes.le_length, ?_⟩
      simp only [closes.split, closes.behind]
    · exact ⟨within, (drop_of_lt inside).symm⟩
  · rw [drop_of_not_lt inside, splitGroup, groupEnd]
    have no_mark : markAt tokens '(' pos = false := by
      rw [markAt, List.getElem?_eq_none (Nat.not_lt.mp inside), Option.any_none]
    simp only [no_mark, Bool.false_eq_true, ↓reduceIte]
    exact ⟨within, (drop_of_not_lt inside).symm⟩

/-- A block is taken to its end: the statements in it are those that the reader finds. The reader
keeps a depth for the blocks around it, so it goes on behind an inner block with one less. -/
structure BlockTaken (tokens : List Token) (pos next : Nat) (statements : List Statement) :
    Prop where
  le_next : pos ≤ next
  next_le : next ≤ tokens.length
  whole : readBody 0 (tokens.drop pos) = (statements, tokens.drop next)
  inner : ∀ depth, readBody (depth + 1) (tokens.drop pos)
    = emitAll statements (readBody depth (tokens.drop next))

/-- A statement is taken, with at least one token. -/
structure StatementTaken (tokens : List Token) (pos next : Nat) (statements : List Statement) :
    Prop where
  lt_next : pos < next
  next_le : next ≤ tokens.length
  read : ∀ depth, readBody depth (tokens.drop pos)
    = emitAll statements (readBody depth (tokens.drop next))

def BlockScanned (tokens : List Token) (pos : Nat) : Prop :=
  ∃ statements next, blockFrom tokens pos = .ok (statements, next) ∧
    BlockTaken tokens pos next statements

def StatementScanned (tokens : List Token) (pos : Nat) : Prop :=
  ∃ statements next, statementAt tokens pos = .ok (statements, next) ∧
    StatementTaken tokens pos next statements

theorem readBody_nil (depth : Nat) : readBody depth [] = ([], []) := by
  rw [readBody]

section Statement

variable (inside : pos < tokens.length)
include inside

private theorem statementScanned_block (is_brace : tokens[pos].isPunct '\x7b' = true)
    (block : BlockScanned tokens (pos + 1)) : StatementScanned tokens pos := by
  obtain ⟨statements, next, block_eq, taken⟩ := block
  refine ⟨statements, next, ?_, taken.le_next, taken.next_le, fun depth => ?_⟩
  · rw [statementAt]
    simp only [inside, ↓reduceDIte, is_brace, ↓reduceIte, block_eq]
  · rw [drop_of_lt inside, readBody_opening _ _ is_brace, taken.inner]

private theorem statementScanned_semicolon (is_end : tokens[pos].isPunct ';' = true) :
    StatementScanned tokens pos := by
  refine ⟨[], pos + 1, ?_, Nat.lt_succ_self pos, inside, fun depth => ?_⟩
  · rw [statementAt]
    simp only [inside, ↓reduceDIte, Token.isPunct_of_ne is_end (by decide : ';' ≠ '\x7b'), is_end,
      Bool.false_eq_true, ↓reduceIte]
  · rw [drop_of_lt inside, readBody_semicolon _ _ is_end]
    rfl

private theorem statementScanned_head (is_head : tokens[pos].isWord headWords = true)
    (governed : ∀ behind, pos < behind → (within : behind < tokens.length) →
      tokens[behind].isPunct '\x7d' = false → StatementScanned tokens behind) :
    StatementScanned tokens pos := by
  obtain ⟨end_le, group_eq⟩ := groupEnd_spec (Nat.succ_le_of_lt inside)
  have lt_end : pos < groupEnd tokens (pos + 1) := le_groupEnd tokens (pos + 1)
  have text_eq := textBetween_eq (Nat.le_of_lt lt_end) end_le
  have head_eq (depth : Nat) : readBody depth (tokens.drop pos)
      = emit (statementOf (tokens.extract pos (groupEnd tokens (pos + 1))) tokens[pos].line)
          (readBody depth (tokens.drop (groupEnd tokens (pos + 1)))) := by
    rw [drop_of_lt inside, readBody_head _ _ is_head, group_eq, extract_of_lt inside lt_end]
  unfold StatementScanned
  rw [statementAt]
  simp only [inside, ↓reduceDIte, Token.isPunct_of_isWord is_head, is_head, Bool.false_eq_true,
    ↓reduceIte, text_eq, ok_bind]
  split
  · -- The head and what it governs are one statement of the scan, and two of the reader.
    next follows =>
    obtain ⟨within, no_brace⟩ := any_getElem?_iff.mp follows
    obtain ⟨statements, next, scan_eq, taken⟩ := governed _ lt_end within (by simpa using no_brace)
    rw [scan_eq, ok_bind]
    refine ⟨_, _, rfl, Nat.lt_trans lt_end taken.lt_next, taken.next_le, fun depth => ?_⟩
    rw [head_eq, taken.read]
    rfl
  · exact ⟨_, _, rfl, lt_end, end_le, head_eq⟩

private theorem statementScanned_lead (is_lead : tokens[pos].isWord leadWords = true) :
    StatementScanned tokens pos := by
  have no_mark := Token.isPunct_of_isWord is_lead
  unfold StatementScanned
  rw [statementAt]
  simp only [inside, ↓reduceDIte, no_mark, isWord_headWords_of_lead is_lead, is_lead,
    Bool.false_eq_true, ↓reduceIte]
  split
  · next resources =>
    obtain ⟨is_try, opens⟩ := Bool.and_eq_true_iff.mp resources
    obtain ⟨behind_try, is_opening⟩ := any_getElem?_iff.mp opens
    have closes : Closes tokens '(' ')' 0 (pos + 2) (closeFrom tokens '(' ')' 0 (pos + 2)) :=
      closeFrom_closes '(' ')' 0 behind_try
    rw [closes.textBetween_eq, ok_bind]
    refine ⟨_, _, rfl, ?_, closes.le_length, fun depth => ?_⟩
    · have passed := closes.le_next
      omega
    · rw [drop_of_lt inside, drop_of_lt behind_try, readBody_resources depth is_try is_opening,
        closes.split, closes.behind]
      rfl
  · next no_resources =>
    refine ⟨[], pos + 1, rfl, Nat.lt_succ_self pos, inside, fun depth => ?_⟩
    rw [drop_of_lt inside, readBody_lead _ _ is_lead]
    · rfl
    · intro is_try next next_eq
      rw [List.head?_drop] at next_eq
      simpa [is_try, markAt, Option.mem_def.mp next_eq] using no_resources

private theorem statementScanned_plain (no_opening : tokens[pos].isPunct '\x7b' = false)
    (no_closing : tokens[pos].isPunct '\x7d' = false) (no_end : tokens[pos].isPunct ';' = false)
    (no_head : tokens[pos].isWord headWords = false)
    (no_lead : tokens[pos].isWord leadWords = false) : StatementScanned tokens pos := by
  have ends := statementFrom_ends 0 (Nat.le_of_lt inside)
  have taken := statementFrom_lt inside no_closing no_end
  unfold StatementScanned
  rw [statementAt]
  simp only [inside, ↓reduceDIte, no_opening, no_end, no_head, no_lead, Bool.false_eq_true,
    ↓reduceIte, taken, ends.textBetween_eq, ok_bind]
  refine ⟨_, _, rfl, Nat.lt_of_lt_of_le taken ends.stop_le, ends.le_length, fun depth => ?_⟩
  rw [drop_of_lt inside, readBody_statement _ _ no_opening no_closing no_end no_head no_lead,
    ← drop_of_lt inside, ends.split]
  rfl

end Statement

/-- A position behind another one is scanned: the block from there, and the statement there unless
the block ends. -/
structure Scanned (tokens : List Token) (pos : Nat) : Prop where
  block : BlockScanned tokens pos
  statement : ∀ inside : pos < tokens.length, tokens[pos].isPunct '\x7d' = false →
    StatementScanned tokens pos

private theorem statementScanned (inside : pos < tokens.length)
    (no_brace : tokens[pos].isPunct '\x7d' = false)
    (later : ∀ behind, pos < behind → behind ≤ tokens.length → Scanned tokens behind) :
    StatementScanned tokens pos := by
  by_cases is_brace : tokens[pos].isPunct '\x7b' = true
  · exact statementScanned_block inside is_brace (later (pos + 1) (Nat.lt_succ_self pos) inside).block
  by_cases is_end : tokens[pos].isPunct ';' = true
  · exact statementScanned_semicolon inside is_end
  by_cases is_head : tokens[pos].isWord headWords = true
  · refine statementScanned_head inside is_head fun behind lt_behind within no_brace => ?_
    exact (later behind lt_behind (Nat.le_of_lt within)).statement within no_brace
  by_cases is_lead : tokens[pos].isWord leadWords = true
  · exact statementScanned_lead inside is_lead
  · simp only [Bool.not_eq_true] at is_brace is_end is_head is_lead
    exact statementScanned_plain inside is_brace no_brace is_end is_head is_lead

private theorem blockScanned (within : pos ≤ tokens.length)
    (statement : ∀ inside : pos < tokens.length, tokens[pos].isPunct '\x7d' = false →
      StatementScanned tokens pos)
    (later : ∀ behind, pos < behind → behind ≤ tokens.length → Scanned tokens behind) :
    BlockScanned tokens pos := by
  unfold BlockScanned
  rw [blockFrom]
  by_cases inside : pos < tokens.length
  · simp only [inside, ↓reduceDIte]
    by_cases is_brace : tokens[pos].isPunct '\x7d' = true
    · refine ⟨[], pos + 1, if_pos is_brace, Nat.le_succ pos, inside, ?_, fun depth => ?_⟩
      · rw [drop_of_lt inside, readBody_end _ is_brace]
      · rw [drop_of_lt inside, readBody_closing _ _ is_brace]
        rfl
    · simp only [Bool.not_eq_true] at is_brace
      obtain ⟨first, next, first_eq, first_taken⟩ := statement inside is_brace
      obtain ⟨others, behind, others_eq, taken⟩ :=
        (later next first_taken.lt_next first_taken.next_le).block
      simp only [is_brace, Bool.false_eq_true, ↓reduceIte, first_eq, ok_bind, first_taken.lt_next,
        ↓reduceDIte, others_eq]
      refine ⟨_, _, rfl, ?_, taken.next_le, ?_, fun depth => ?_⟩
      · exact Nat.le_trans (Nat.le_of_lt first_taken.lt_next) taken.le_next
      · rw [first_taken.read, taken.whole]
        rfl
      · rw [first_taken.read, taken.inner, emitAll_append]
  · refine ⟨[], pos, dif_neg inside, Nat.le_refl pos, within, ?_, fun depth => ?_⟩
    · rw [drop_of_not_lt inside, readBody_nil]
    · rw [drop_of_not_lt inside, readBody_nil, readBody_nil]
      rfl

/-- From every position on, bodies are scanned without a fault. -/
theorem scanned (within : pos ≤ tokens.length) : Scanned tokens pos := by
  -- Each turn of a block and each head takes a token.
  induction pos using turns_ind tokens with
  | turn pos ih =>
    have later : ∀ behind, pos < behind → behind ≤ tokens.length → Scanned tokens behind :=
      fun behind lt_behind behind_le =>
        ih behind lt_behind (Nat.lt_of_lt_of_le lt_behind behind_le) behind_le
    have statement : ∀ inside : pos < tokens.length, tokens[pos].isPunct '\x7d' = false →
        StatementScanned tokens pos :=
      fun inside no_brace => statementScanned inside no_brace later
    exact ⟨blockScanned within statement later, statement⟩

end SuiteMigration.Outline.Scan
