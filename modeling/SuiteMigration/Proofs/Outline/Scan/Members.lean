import SuiteMigration.Proofs.Outline.Scan.Bodies

/-!
# Members by position

Annotations, modifiers and the members of a class. One run may be turned round: a member that begins
with `;` or `=` has a type that ends before it begins. Every other member is scanned to the one that
the reader of members finds.
-/
namespace SuiteMigration.Outline.Scan

section Definitions

variable (tokens : List Token)

/-- The annotation at a sign. -/
def tagAt (pos : Nat) : Except Fault (Tag × Nat) :=
  let name := nameFrom tokens true false (pos + 1)
  if markAt tokens '(' name.2 then do
    let run := closeFrom tokens '(' ')' 0 (name.2 + 1)
    let text ← textBetween tokens (name.2 + 1) run.1
    return (⟨String.ofList name.1, some text⟩, run.2)
  else return (⟨String.ofList name.1, none⟩, name.2)

def preambleFrom (pos : Nat) : Except Fault (Preamble × Nat) :=
  if inside : pos < tokens.length then
    let token := tokens[pos]
    if token.isPunct '@' then
      if tokens[pos + 1]?.any (·.isWord ["interface"]) then .ok (.empty, pos)
      else do
        let (tag, next) ← tagAt tokens pos
        if taken : pos < next then
          let (more, behind) ← preambleFrom next
          return ({ more with tags := tag :: more.tags }, behind)
        else .error (.stuck pos)
    else if token.isWord modifierWords then do
      let (more, behind) ← preambleFrom (pos + 1)
      return ({ more with modifiers := token.name :: more.modifiers }, behind)
    else .ok (.empty, pos)
  else .ok (.empty, pos)
termination_by tokens.length - pos

def methodTailFrom (pos : Nat) : Except Fault (Option (List Statement) × Nat) :=
  if inside : pos < tokens.length then
    let token := tokens[pos]
    if token.isPunct '\x7b' then do
      let (statements, next) ← blockFrom tokens (pos + 1)
      return (some statements, next)
    else if token.isPunct ';' then .ok (none, pos + 1)
    else if token.isPunct '\x7d' then .ok (none, pos)
    else methodTailFrom (pos + 1)
  else .ok (none, pos)
termination_by tokens.length - pos

/-- The line of a position, which is that of the last token behind all tokens. -/
def lineAt (pos : Nat) : Nat :=
  ((tokens[pos]? <|> tokens.getLast?).map Token.line).getD 1

/-- The field that is declared from `start` up to the mark at `pos`. -/
def fieldBetween (preamble : Preamble) (line start pos : Nat) (initializer : Option String) :
    Except Fault Field := do
  let leading ← slice tokens start pos
  let typeText ← textBetween tokens start (pos - 1)
  return ⟨preamble.tags, preamble.modifiers, typeText, fieldName leading, initializer, line⟩

/-- The member that begins at `start`, of which the tokens in front of `pos` settle nothing. -/
def memberFrom (preamble : Preamble) (line start pos : Nat) :
    Except Fault (Option Member × Nat) :=
  if inside : pos < tokens.length then
    let token := tokens[pos]
    if token.isPunct '(' then
      let run := closeFrom tokens '(' ')' 0 (pos + 1)
      if start < pos then do
        let name ← tokenAt tokens (pos - 1)
        let parameters ← slice tokens (pos + 1) run.1
        let (body, next) ← methodTailFrom tokens run.2
        return (some (.method ⟨preamble.tags, preamble.modifiers, name.name,
          parameterNames parameters, body, line⟩), next)
      else if taken : pos < run.2 then memberFrom preamble line start run.2
      else .error (.stuck pos)
    else if token.isPunct '=' then do
      let run := statementFrom tokens 0 (pos + 1)
      let field ← fieldBetween tokens preamble line start pos none
      let value ← textBetween tokens (pos + 1) run.1
      return (some (.field { field with initializer := some value }), run.2)
    else if token.isPunct ';' then do
      let field ← fieldBetween tokens preamble line start pos none
      return (some (.field field), pos + 1)
    else if token.isPunct '\x7b' then
      .ok (none, (closeFrom tokens '\x7b' '\x7d' 0 (pos + 1)).2)
    else if token.isPunct '\x7d' then .ok (none, pos)
    else memberFrom preamble line start (pos + 1)
  else .ok (none, pos)
termination_by tokens.length - pos
decreasing_by
  · exact Nat.sub_lt_sub_left inside taken
  · omega

def memberAt (preamble : Preamble) (start : Nat) : Except Fault (Option Member × Nat) :=
  memberFrom tokens preamble (lineAt tokens start) start start

end Definitions

variable {tokens : List Token} {pos start : Nat}

private theorem tagAt_spec (inside : pos < tokens.length) :
    ∃ tag next, tagAt tokens pos = .ok (tag, next) ∧ pos < next ∧ next ≤ tokens.length ∧
      readTag (tokens.drop (pos + 1)) = (tag, tokens.drop next) := by
  obtain ⟨le_name, name_le, name_eq⟩ := nameFrom_spec true false inside
  unfold tagAt readTag readName
  simp only [name_eq]
  split
  · next opens =>
    obtain ⟨within, is_opening⟩ := any_getElem?_iff.mp opens
    have closes := closeFrom_closes '(' ')' 0 within
    rw [closes.textBetween_eq, ok_bind]
    refine ⟨_, _, rfl, ?_, closes.le_length, ?_⟩
    · exact Nat.lt_of_lt_of_le le_name (Nat.le_of_succ_le closes.le_next)
    · simp only [drop_of_lt within, is_opening, ↓reduceIte, closes.split, closes.behind]
  · next no_group =>
    refine ⟨_, _, rfl, le_name, name_le, ?_⟩
    by_cases within : (nameFrom tokens true false (pos + 1)).2 < tokens.length
    · rw [markAt_of_lt within] at no_group
      simp only [drop_of_lt within, no_group, Bool.false_eq_true, ↓reduceIte]
    · simp only [drop_of_not_lt within]

theorem preambleFrom_spec (within : pos ≤ tokens.length) :
    ∃ preamble next, preambleFrom tokens pos = .ok (preamble, next) ∧ pos ≤ next ∧
      next ≤ tokens.length ∧ readPreamble (tokens.drop pos) = (preamble, tokens.drop next) ∧
      (preamble.isEmpty = true → next = pos) := by
  induction pos using turns_ind tokens with
  | turn pos ih =>
    rw [preambleFrom]
    by_cases inside : pos < tokens.length
    · simp only [inside, ↓reduceDIte]
      rw [drop_of_lt inside, readPreamble.eq_def]
      simp only [List.head?_drop]
      split
      · split
        · exact ⟨_, _, rfl, Nat.le_refl pos, within, by rw [drop_of_lt inside], fun _ => rfl⟩
        · obtain ⟨tag, next, tag_eq, lt_next, next_le, read_eq⟩ := tagAt_spec inside
          obtain ⟨more, behind, more_eq, le_behind, behind_le, more_read, -⟩ :=
            ih next lt_next inside next_le
          simp only [tag_eq, ok_bind, lt_next, ↓reduceDIte, more_eq, read_eq, more_read]
          exact ⟨_, _, rfl, by omega, behind_le, rfl, by simp [Preamble.isEmpty]⟩
      · split
        · obtain ⟨more, behind, more_eq, le_behind, behind_le, more_read, -⟩ :=
            ih (pos + 1) (Nat.lt_succ_self pos) inside inside
          simp only [more_eq, ok_bind, more_read]
          exact ⟨_, _, rfl, by omega, behind_le, rfl, by simp [Preamble.isEmpty]⟩
        · exact ⟨_, _, rfl, Nat.le_refl pos, within, by rw [drop_of_lt inside], fun _ => rfl⟩
    · refine ⟨_, _, dif_neg inside, Nat.le_refl pos, within, ?_, fun _ => rfl⟩
      rw [drop_of_not_lt inside, readPreamble]

private theorem methodTailFrom_spec (within : pos ≤ tokens.length) :
    ∃ body next, methodTailFrom tokens pos = .ok (body, next) ∧ pos ≤ next ∧
      next ≤ tokens.length ∧ readMethodTail (tokens.drop pos) = (body, tokens.drop next) := by
  fun_induction methodTailFrom tokens pos with
  | case1 pos inside token is_brace =>
    obtain ⟨statements, next, block_eq, taken⟩ := (scanned inside).block
    rw [block_eq, ok_bind]
    refine ⟨_, _, rfl, Nat.le_of_succ_le taken.le_next, taken.next_le, ?_⟩
    rw [drop_of_lt inside, readMethodTail, if_pos is_brace, taken.whole]
  | case2 pos inside token not_brace is_end =>
    refine ⟨_, _, rfl, Nat.le_succ pos, inside, ?_⟩
    rw [drop_of_lt inside, readMethodTail, if_neg not_brace, if_pos is_end]
  | case3 pos inside token not_brace not_end is_closing =>
    refine ⟨_, _, rfl, Nat.le_refl pos, within, ?_⟩
    rw [drop_of_lt inside, readMethodTail, if_neg not_brace, if_neg not_end, if_pos is_closing]
  | case4 pos inside token not_brace not_end not_closing ih =>
    obtain ⟨body, next, tail_eq, le_next, next_le, read_eq⟩ := ih inside
    refine ⟨body, next, tail_eq, Nat.le_of_succ_le le_next, next_le, ?_⟩
    rw [drop_of_lt inside, readMethodTail, if_neg not_brace, if_neg not_end, if_neg not_closing,
      read_eq]
  | case5 pos outside =>
    exact ⟨_, _, rfl, Nat.le_refl pos, within, by rw [drop_of_not_lt outside, readMethodTail]⟩

/-- The member that a mark settles behind what leads to it. -/
def settledMember (preamble : Preamble) (line : Nat) (leading : List Token) :
    List Token → Option Member × List Token
  | [] => (none, [])
  | mark :: rest =>
    if mark.isPunct '(' then
      let inside := splitAtClose '(' ')' 0 rest
      let tail := readMethodTail (inside.2.drop 1)
      (some (.method ⟨preamble.tags, preamble.modifiers,
        (leading.getLast?.map Token.name).getD "", parameterNames inside.1, tail.1, line⟩), tail.2)
    else if mark.isPunct '=' then
      let value := splitStatement 0 rest
      (some (.field (fieldOf preamble leading (String.ofList (joinTokens value.1)) line)), value.2)
    else if mark.isPunct ';' then (some (.field (fieldOf preamble leading none line)), rest)
    else if mark.isPunct '\x7b' then (none, (splitAtClose '\x7b' '\x7d' 0 rest).2.drop 1)
    else (none, mark :: rest)

private theorem readMember_eq (preamble : Preamble) (line : Nat) (run : List Token) :
    readMember preamble line run
      = settledMember preamble line (splitLeading run).1 (splitLeading run).2 := by
  unfold readMember settledMember
  rfl

section Leading

variable {preamble : Preamble} {line : Nat}

private theorem getLast?_extract (inside : pos < tokens.length) (ordered : start < pos) :
    (tokens.extract start pos).getLast? = some tokens[pos - 1] := by
  obtain ⟨last, rfl⟩ := Nat.exists_eq_add_one_of_ne_zero (Nat.ne_zero_of_lt ordered)
  rw [extract_concat (Nat.lt_of_succ_lt inside) (Nat.le_of_lt_succ ordered)]
  simp

private theorem dropLast_extract (within : pos ≤ tokens.length) (ordered : start < pos) :
    (tokens.extract start pos).dropLast = tokens.extract start (pos - 1) := by
  obtain ⟨last, rfl⟩ := Nat.exists_eq_add_one_of_ne_zero (Nat.ne_zero_of_lt ordered)
  rw [extract_concat within (Nat.le_of_lt_succ ordered)]
  simp

private theorem fieldBetween_eq (inside : pos < tokens.length) (ordered : start < pos)
    (initializer : Option String) :
    fieldBetween tokens preamble line start pos initializer
      = .ok (fieldOf preamble (tokens.extract start pos) initializer line) := by
  have within := Nat.le_of_lt inside
  rw [fieldBetween, slice_eq (Nat.le_of_lt ordered) within, ok_bind,
    textBetween_eq (Nat.le_sub_one_of_lt ordered) (by omega), ok_bind,
    ← dropLast_extract within ordered]
  rfl

/-- Where a mark settles the member, nothing more leads to it. -/
theorem settled_at (inside : pos < tokens.length) (settles : settlesMember tokens[pos] = true) :
    (tokens.drop pos).takeWhile (!settlesMember ·) = [] ∧
      (tokens.drop pos).dropWhile (!settlesMember ·) = tokens[pos] :: tokens.drop (pos + 1) := by
  rw [drop_of_lt inside, List.takeWhile_cons_of_neg (by simp [settles]),
    List.dropWhile_cons_of_neg (by simp [settles])]
  exact ⟨rfl, rfl⟩

/-- Behind its first token a member is scanned to the one that the reader finds. -/
theorem memberFrom_spec (within : pos ≤ tokens.length) (ordered : start < pos) :
    ∃ member next, memberFrom tokens preamble line start pos = .ok (member, next) ∧ pos ≤ next ∧
      next ≤ tokens.length ∧ settledMember preamble line
        (tokens.extract start pos ++ (tokens.drop pos).takeWhile (!settlesMember ·))
        ((tokens.drop pos).dropWhile (!settlesMember ·)) = (member, tokens.drop next) := by
  -- What leads to the mark is in two parts, and a turn moves a token from the second to the first.
  fun_induction memberFrom tokens preamble line start pos with
  | case1 pos inside token is_opening run _ =>
    have closes : Closes tokens '(' ')' 0 (pos + 1) run := closeFrom_closes '(' ')' 0 inside
    obtain ⟨body, next, tail_eq, le_next, next_le, read_eq⟩ := methodTailFrom_spec closes.le_length
    obtain ⟨no_more, rest_eq⟩ := settled_at inside (by simp [settlesMember, token, is_opening])
    have name_eq : tokenAt tokens (pos - 1) = .ok tokens[pos - 1] := by
      rw [tokenAt, List.getElem?_eq_getElem (by omega)]
    rw [name_eq, ok_bind, slice_eq closes.le_stop closes.stop_le_length, ok_bind, tail_eq, ok_bind]
    refine ⟨_, _, rfl, Nat.le_trans (Nat.le_of_succ_le closes.le_next) le_next, next_le, ?_⟩
    rw [no_more, rest_eq, List.append_nil, settledMember]
    simp only [token] at is_opening
    simp only [is_opening, ↓reduceIte, closes.split, closes.behind, read_eq,
      getLast?_extract inside ordered, Option.map_some, Option.getD_some]
  -- A group is passed over at the first token only.
  | case2 pos inside token is_opening run not_ordered => exact absurd ordered not_ordered
  | case3 pos inside token is_opening run not_ordered => exact absurd ordered not_ordered
  | case4 pos inside token not_opening is_equals run =>
    have ends : Ends tokens 0 (pos + 1) run := statementFrom_ends 0 inside
    obtain ⟨no_more, rest_eq⟩ := settled_at inside (by simp [settlesMember, token, is_equals])
    rw [fieldBetween_eq inside ordered, ok_bind, ends.textBetween_eq, ok_bind]
    refine ⟨_, _, rfl, Nat.le_of_succ_le ends.le_next, ends.le_length, ?_⟩
    rw [no_more, rest_eq, List.append_nil, settledMember, if_neg not_opening, if_pos is_equals]
    simp only [ends.split]
    rfl
  | case5 pos inside token not_opening not_equals is_end =>
    obtain ⟨no_more, rest_eq⟩ := settled_at inside (by simp [settlesMember, token, is_end])
    rw [fieldBetween_eq inside ordered, ok_bind]
    refine ⟨_, _, rfl, Nat.le_succ pos, inside, ?_⟩
    rw [no_more, rest_eq, List.append_nil, settledMember, if_neg not_opening, if_neg not_equals,
      if_pos is_end]
  | case6 pos inside token not_opening not_equals not_end is_brace =>
    have closes := closeFrom_closes '\x7b' '\x7d' 0 inside
    obtain ⟨no_more, rest_eq⟩ := settled_at inside (by simp [settlesMember, token, is_brace])
    refine ⟨_, _, rfl, Nat.le_of_succ_le closes.le_next, closes.le_length, ?_⟩
    rw [no_more, rest_eq, List.append_nil, settledMember, if_neg not_opening, if_neg not_equals,
      if_neg not_end, if_pos is_brace, closes.split, closes.behind]
  | case7 pos inside token not_opening not_equals not_end not_brace is_closing =>
    obtain ⟨no_more, rest_eq⟩ := settled_at inside (by simp [settlesMember, token, is_closing])
    refine ⟨_, _, rfl, Nat.le_refl pos, within, ?_⟩
    rw [no_more, rest_eq, List.append_nil, settledMember, if_neg not_opening, if_neg not_equals,
      if_neg not_end, if_neg not_brace, drop_of_lt inside]
  | case8 pos inside token not_opening not_equals not_end not_brace not_closing ih =>
    have unsettled : settlesMember token = false := by
      simp [settlesMember, not_opening, not_equals, not_end, not_brace, not_closing]
    obtain ⟨member, next, scan_eq, le_next, next_le, settled_eq⟩ :=
      ih inside (Nat.lt_succ_of_lt ordered)
    refine ⟨member, next, scan_eq, Nat.le_of_succ_le le_next, next_le, ?_⟩
    rw [drop_of_lt inside, List.takeWhile_cons_of_pos (by simpa using unsettled),
      List.dropWhile_cons_of_pos (by simpa using unsettled), ← settled_eq,
      extract_concat inside (Nat.le_of_lt ordered), List.append_assoc, List.singleton_append]
  | case9 pos outside =>
    refine ⟨_, _, rfl, Nat.le_refl pos, within, ?_⟩
    rw [drop_of_not_lt outside, List.dropWhile_nil, settledMember]

end Leading

section Start

variable (preamble : Preamble) (inside : start < tokens.length)
include inside

private theorem lineAt_of_lt : lineAt tokens start = tokens[start].line := by
  simp [lineAt, inside]

/-- A member that begins with a name or a group takes a token, and is the one that the reader
finds. -/
theorem memberAt_spec
    (begins : tokens[start].isPunct '(' = true ∨ settlesMember tokens[start] = false) :
    ∃ member next, memberAt tokens preamble start = .ok (member, next) ∧ start < next ∧
      next ≤ tokens.length ∧ readMember preamble tokens[start].line (tokens.drop start)
        = (member, tokens.drop next) := by
  obtain ⟨end_le, group_eq⟩ := groupEnd_spec (Nat.le_of_lt inside)
  rw [readMember_eq, splitLeading]
  simp only [group_eq]
  rw [memberAt, memberFrom, lineAt_of_lt inside]
  simp only [inside, ↓reduceDIte]
  rcases begins with is_opening | unsettled
  · -- No name is in front of this group, so it leads to the mark like other tokens.
    have closes := closeFrom_closes '(' ')' 0 inside
    have end_eq : groupEnd tokens start = (closeFrom tokens '(' ')' 0 (start + 1)).2 := by
      rw [groupEnd, markAt_of_lt inside, if_pos is_opening]
    have taken : start < (closeFrom tokens '(' ')' 0 (start + 1)).2 := closes.le_next
    simp only [is_opening, ↓reduceIte, Nat.lt_irrefl, taken, ↓reduceDIte]
    obtain ⟨member, next, scan_eq, le_next, next_le, settled_eq⟩ :=
      memberFrom_spec closes.le_length taken
    rw [end_eq]
    exact ⟨member, next, scan_eq, Nat.lt_of_lt_of_le taken le_next, next_le, settled_eq⟩
  · -- There is no group in front, and the token is the first one in front of the mark.
    have marks := unsettled
    simp only [settlesMember, Bool.or_eq_false_iff] at marks
    have end_eq : groupEnd tokens start = start := by
      rw [groupEnd, markAt_of_lt inside, if_neg (by simp [marks])]
    simp only [marks, Bool.false_eq_true, ↓reduceIte]
    obtain ⟨member, next, scan_eq, le_next, next_le, settled_eq⟩ :=
      memberFrom_spec inside (Nat.lt_succ_self start)
    refine ⟨member, next, scan_eq, le_next, next_le, ?_⟩
    rw [end_eq, extract_self, List.nil_append, drop_of_lt inside,
      List.takeWhile_cons_of_pos (by simpa using unsettled),
      List.dropWhile_cons_of_pos (by simpa using unsettled), ← settled_eq,
      extract_concat inside (Nat.le_refl start), extract_self, List.nil_append,
      List.singleton_append]

/-- A member that begins with a mark for its end or for its value has its type turned round. -/
theorem memberAt_fault (not_first : 0 < start)
    (nameless : tokens[start].isPunct ';' = true ∨ tokens[start].isPunct '=' = true) :
    memberAt tokens preamble start = .error (.range start (start - 1)) := by
  -- Nothing leads to the mark, and the type would be what is in front of its last token.
  have turned : textBetween tokens start (start - 1) = .error (.range start (start - 1)) := by
    have before : start - 1 ≤ tokens.length := by omega
    rw [textBetween, Nat.min_eq_left before, slice, if_neg (by omega)]
    rfl
  have field_fault (initializer : Option String) :
      fieldBetween tokens preamble (lineAt tokens start) start start initializer
        = .error (.range start (start - 1)) := by
    rw [fieldBetween, slice_eq (Nat.le_refl start) (Nat.le_of_lt inside), ok_bind, turned]
    rfl
  rw [memberAt, memberFrom]
  simp only [inside, ↓reduceDIte]
  rcases nameless with is_end | is_equals
  · have other := fun mark => @Token.isPunct_of_ne tokens[start] ';' is_end mark
    simp only [other '(' (by decide), other '=' (by decide), is_end, Bool.false_eq_true,
      ↓reduceIte, field_fault]
    rfl
  · have other := fun mark => @Token.isPunct_of_ne tokens[start] '=' is_equals mark
    simp only [other '(' (by decide), is_equals, Bool.false_eq_true, ↓reduceIte, field_fault]
    rfl

end Start

end SuiteMigration.Outline.Scan
