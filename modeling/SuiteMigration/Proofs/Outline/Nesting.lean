import SuiteMigration.Outline.Group
import SuiteMigration.Proofs.Outline.Token

/-!
# Nesting of brackets

Whether the brackets of a run nest is said with the stack of closing marks still awaited. The
splitters keep a count where this keeps a stack: on a run that nests, the count is what the stack
holds, so each splitter stops where the nesting says.
-/
namespace SuiteMigration.Outline

def roundBrackets : List (Char × Char) := [('(', ')')]

def braces : List (Char × Char) := [('\x7b', '\x7d')]

def allBrackets : List (Char × Char) := [('(', ')'), ('[', ']'), ('\x7b', '\x7d')]

/-- Between parameters angle brackets group as well. -/
def parameterBrackets : List (Char × Char) := [('(', ')'), ('<', '>'), ('[', ']')]

/-- The closing marks awaited after one more token, innermost first. None if it closes anything but
the innermost bracket, or is a barred mark outside all brackets. -/
def awaitedAfter (kinds : List (Char × Char)) (barred awaited : List Char) (token : Token) :
    Option (List Char) :=
  match kinds.find? (token.isPunct ·.1) with
  | some kind => some (kind.2 :: awaited)
  | none =>
    match awaited with
    | [] => if (kinds.map Prod.snd ++ barred).any token.isPunct then none else some []
    | closing :: outer =>
      if token.isPunct closing then some outer
      else if kinds.any (token.isPunct ·.2) then none
      else some (closing :: outer)

/-- The closing marks awaited after a run. -/
def awaitedBehind (kinds : List (Char × Char)) (barred : List Char) :
    List Char → List Token → Option (List Char)
  | awaited, [] => some awaited
  | awaited, token :: rest =>
    (awaitedAfter kinds barred awaited token).bind (awaitedBehind kinds barred · rest)

/-- The brackets of the given kinds nest, and no barred mark stands outside all of them. -/
def Nests (kinds : List (Char × Char)) (barred : List Char) (run : List Token) : Prop :=
  awaitedBehind kinds barred [] run = some []

instance (kinds : List (Char × Char)) (barred : List Char) (run : List Token) :
    Decidable (Nests kinds barred run) :=
  inferInstanceAs (Decidable (_ = _))

section Step

variable {kinds : List (Char × Char)} {barred awaited next : List Char} {token : Token}

/-- All that one token can do: open a bracket, close the innermost one, or neither. -/
theorem awaitedAfter_cases (after : awaitedAfter kinds barred awaited token = some next) :
    (∃ kind ∈ kinds, token.isPunct kind.1 = true ∧ next = kind.2 :: awaited) ∨
    ((∀ kind ∈ kinds, token.isPunct kind.1 = false) ∧
      ∃ closing, token.isPunct closing = true ∧ awaited = closing :: next) ∨
    ((∀ kind ∈ kinds, token.isPunct kind.1 = false ∧ token.isPunct kind.2 = false) ∧
      (awaited = [] → ∀ mark ∈ barred, token.isPunct mark = false) ∧
      (∀ closing ∈ awaited.head?, token.isPunct closing = false) ∧ next = awaited) := by
  unfold awaitedAfter at after
  -- The definition tries the opening marks first, so they decide before the stack does.
  cases found : kinds.find? (token.isPunct ·.1) with
  | some kind =>
    have is_opening : token.isPunct kind.1 = true := by simpa using List.find?_some found
    rw [found] at after
    exact .inl ⟨kind, List.mem_of_find?_eq_some found, is_opening, (Option.some.inj after).symm⟩
  | none =>
    have no_opening : ∀ kind ∈ kinds, token.isPunct kind.1 = false := by simpa using found
    rw [found] at after
    right
    cases awaited with
    | nil =>
      right
      simp only at after
      split at after
      · cases after
      · next free =>
        simp only [List.any_append, List.any_map, Bool.or_eq_true, List.any_eq_true,
          Function.comp_apply, not_or, not_exists, not_and, Bool.not_eq_true] at free
        exact ⟨fun kind member => ⟨no_opening kind member, free.1 kind member⟩,
          fun _ => free.2, by simp, (Option.some.inj after).symm⟩
    | cons closing outer =>
      simp only at after
      split at after
      · next is_closing =>
        left
        exact ⟨no_opening, closing, is_closing, by rw [Option.some.inj after]⟩
      · next not_closing =>
        split at after
        · cases after
        · next free =>
          right
          simp only [List.any_eq_true, not_exists, not_and, Bool.not_eq_true] at free
          refine ⟨fun kind member => ⟨no_opening kind member, free kind member⟩, by simp, ?_,
            (Option.some.inj after).symm⟩
          simpa using not_closing

/-- A token that is no mark at all changes nothing. -/
theorem awaitedAfter_of_no_mark (no_mark : ∀ mark, token.isPunct mark = false)
    (after : awaitedAfter kinds barred awaited token = some next) : next = awaited := by
  rcases awaitedAfter_cases after with
    ⟨kind, -, is_opening, -⟩ | ⟨-, mark, is_mark, -⟩ | ⟨-, -, -, equal⟩
  · simp [no_mark] at is_opening
  · simp [no_mark] at is_mark
  · exact equal

/-- What is awaited further out does not matter until the token closes it. -/
theorem awaitedAfter_append {inner outer : List Char} {closing : Char}
    (after : awaitedAfter kinds barred (inner ++ closing :: outer) token = some next) :
    (inner = [] ∧ (∀ kind ∈ kinds, token.isPunct kind.1 = false) ∧
      token.isPunct closing = true ∧ next = outer) ∨
    ∃ more, next = more ++ closing :: outer ∧ awaitedAfter kinds [] inner token = some more := by
  unfold awaitedAfter at after ⊢
  cases found : kinds.find? (token.isPunct ·.1) with
  | some kind =>
    rw [found] at after
    exact .inr ⟨kind.2 :: inner, (Option.some.inj after).symm, rfl⟩
  | none =>
    have no_opening : ∀ kind ∈ kinds, token.isPunct kind.1 = false := by simpa using found
    rw [found] at after
    -- With an empty inner stack the token may close the mark itself. Otherwise the innermost
    -- mark is the same with and without the outer stack, and so is the step.
    cases inner with
    | nil =>
      simp only [List.nil_append] at after
      split at after
      · next is_closing =>
        exact .inl ⟨rfl, no_opening, is_closing, (Option.some.inj after).symm⟩
      · next not_closing =>
        split at after
        · cases after
        · next free => exact .inr ⟨[], (Option.some.inj after).symm, by simpa using free⟩
    | cons first others =>
      right
      simp only [List.cons_append] at after
      split at after
      · next is_first =>
        exact ⟨others, (Option.some.inj after).symm, by simp [is_first]⟩
      · next not_first =>
        split at after
        · cases after
        · next free =>
          exact ⟨first :: others, (Option.some.inj after).symm, by simp [not_first, free]⟩

end Step

private theorem awaitedBehind_append (kinds : List (Char × Char)) (barred awaited : List Char)
    (first second : List Token) :
    awaitedBehind kinds barred awaited (first ++ second)
      = (awaitedBehind kinds barred awaited first).bind (awaitedBehind kinds barred · second) := by
  induction first generalizing awaited with
  | nil => rfl
  | cons token rest ih =>
    simp only [List.cons_append, awaitedBehind, Option.bind_assoc, ih]

/-! ## Runs that nest -/

section Nests

variable {kinds : List (Char × Char)} {barred : List Char}

theorem nests_nil (kinds : List (Char × Char)) (barred : List Char) : Nests kinds barred [] :=
  rfl

theorem Nests.append {first second : List Token} (left : Nests kinds barred first)
    (right : Nests kinds barred second) : Nests kinds barred (first ++ second) := by
  rw [Nests, awaitedBehind_append, left]
  exact right

/-- Without the bar on some marks there is less to break. -/
theorem Nests.unbarred {run : List Token} (nests : Nests kinds barred run) :
    Nests kinds [] run := by
  -- The run is under way with something awaited, so the statement is about every stack.
  suffices behind : ∀ awaited, awaitedBehind kinds barred awaited run = some [] →
      awaitedBehind kinds [] awaited run = some [] from behind [] nests
  clear nests
  induction run with
  | nil => exact fun awaited behind => behind
  | cons token rest ih =>
    intro awaited behind
    obtain ⟨next, after, remaining⟩ := Option.bind_eq_some_iff.mp behind
    have after : awaitedAfter kinds [] awaited token = some next := by
      simp only [awaitedAfter, List.any_append, Bool.or_eq_true] at after ⊢
      grind
    rw [awaitedBehind, after]
    exact ih next remaining

theorem nests_singleton {token : Token}
    (free : ∀ kind ∈ kinds, token.isPunct kind.1 = false ∧ token.isPunct kind.2 = false) :
    Nests kinds [] [token] := by
  have no_opening : kinds.find? (token.isPunct ·.1) = none := by
    simpa using fun opening closing member => (free (opening, closing) member).1
  have no_closing : (kinds.map Prod.snd ++ []).any token.isPunct = false := by
    simpa using fun opening closing member => (free (opening, closing) member).2
  simp only [Nests, awaitedBehind, awaitedAfter, no_opening, no_closing, Bool.false_eq_true,
    ↓reduceIte, Option.bind_some]

/-- The marks are a pair of brackets and occur in no other pair. -/
def OwnPair (kinds : List (Char × Char)) (opening closing : Char) : Prop :=
  (opening, closing) ∈ kinds ∧
    ∀ kind ∈ kinds, (kind.1 = opening ↔ kind.2 = closing) ∧ kind.1 ≠ closing

instance (kinds : List (Char × Char)) (opening closing : Char) :
    Decidable (OwnPair kinds opening closing) :=
  inferInstanceAs (Decidable (_ ∧ _))

theorem nests_pair {opening closing : Char} (own : OwnPair kinds opening closing)
    {opener closer : Token} (is_opening : opener.isPunct opening = true)
    (is_closing : closer.isPunct closing = true) : Nests kinds barred [opener, closer] := by
  have open_eq : awaitedAfter kinds barred [] opener = some [closing] := by
    cases found : kinds.find? (opener.isPunct ·.1) with
    | none => simpa [is_opening] using List.find?_eq_none.mp found _ own.1
    | some kind =>
      have member := List.mem_of_find?_eq_some found
      have is_kind : opener.isPunct kind.1 = true := by simpa using List.find?_some found
      have kind_eq := Token.isPunct_unique is_kind is_opening
      simp [awaitedAfter, found, ((own.2 kind member).1.mp kind_eq)]
  -- The closer opens nothing: its mark is the opening mark of no pair.
  have close_eq : awaitedAfter kinds barred [closing] closer = some [] := by
    have no_opening : kinds.find? (closer.isPunct ·.1) = none := by
      rw [List.find?_eq_none]
      intro kind member is_other
      exact (own.2 kind member).2 (Token.isPunct_unique is_other is_closing)
    simp [awaitedAfter, no_opening, is_closing]
  simp [Nests, awaitedBehind, open_eq, close_eq]

end Nests

/-! ## Groups -/

section Groups

variable {kinds : List (Char × Char)} {opening closing : Char}

section Step

variable {token : Token} (rest : List Token)

private theorem splitAtClose_opening (is_opening : token.isPunct opening = true) (depth : Nat) :
    splitAtClose opening closing depth (token :: rest)
      = prepend token (splitAtClose opening closing (depth + 1) rest) := by
  rw [splitAtClose.eq_def]
  exact if_pos is_opening

theorem splitAtClose_inside (not_opening : token.isPunct opening = false)
    (not_closing : token.isPunct closing = false) (depth : Nat) :
    splitAtClose opening closing depth (token :: rest)
      = prepend token (splitAtClose opening closing depth rest) := by
  rw [splitAtClose.eq_def]
  simp only [not_opening, not_closing, Bool.false_eq_true, ↓reduceIte]

private theorem splitAtClose_closing (not_opening : token.isPunct opening = false)
    (is_closing : token.isPunct closing = true) (depth : Nat) :
    splitAtClose opening closing (depth + 1) (token :: rest)
      = prepend token (splitAtClose opening closing depth rest) := by
  rw [splitAtClose.eq_def]
  simp only [not_opening, is_closing, Bool.false_eq_true, ↓reduceIte]

private theorem splitAtClose_stop (not_opening : token.isPunct opening = false)
    (is_closing : token.isPunct closing = true) :
    splitAtClose opening closing 0 (token :: rest) = ([], token :: rest) := by
  rw [splitAtClose.eq_def]
  simp only [not_opening, is_closing, Bool.false_eq_true, ↓reduceIte]

end Step

/-- One token that the nesting admits is kept, and the count stays the number of closing marks
awaited, unless the token is the closing mark with none awaited. -/
theorem splitAtClose_cons (own : OwnPair kinds opening closing) {barred awaited next : List Char}
    {token : Token} (after : awaitedAfter kinds barred awaited token = some next)
    (rest : List Token) :
    splitAtClose opening closing (awaited.count closing) (token :: rest)
      = prepend token (splitAtClose opening closing (next.count closing) rest) := by
  rcases awaitedAfter_cases after with
    ⟨kind, member, is_opening, rfl⟩ | ⟨no_opening, mark, is_mark, rfl⟩ | ⟨free, -, -, rfl⟩
  · -- An opening mark. Both the count and the stack grow if it is the group's own.
    have pair := own.2 kind member
    by_cases same : kind.1 = opening
    · rw [pair.1.mp same, List.count_cons_self]
      exact splitAtClose_opening rest (same ▸ is_opening) _
    · have other : kind.2 ≠ closing := fun equal => same (pair.1.mpr equal)
      rw [List.count_cons_of_ne other]
      exact splitAtClose_inside rest (Token.isPunct_of_ne is_opening same)
        (Token.isPunct_of_ne is_opening pair.2) _
  · -- A closing mark of the innermost bracket, which is counted if it is the group's own.
    by_cases same : mark = closing
    · subst same
      rw [List.count_cons_self]
      exact splitAtClose_closing rest (no_opening _ own.1) is_mark _
    · rw [List.count_cons_of_ne same]
      exact splitAtClose_inside rest (no_opening _ own.1) (Token.isPunct_of_ne is_mark same) _
  · exact splitAtClose_inside rest (free _ own.1).1 (free _ own.1).2 _

/-- The count of the splitter is the number of its closing marks that are awaited. -/
theorem splitAtClose_of_awaitedBehind (own : OwnPair kinds opening closing)
    {barred awaited final : List Char} {run : List Token} (rest : List Token)
    (behind : awaitedBehind kinds barred awaited run = some final) :
    splitAtClose opening closing (awaited.count closing) (run ++ rest)
      = (run ++ (splitAtClose opening closing (final.count closing) rest).1,
          (splitAtClose opening closing (final.count closing) rest).2) := by
  induction run generalizing awaited with
  | nil =>
    cases behind
    rfl
  | cons token tail ih =>
    obtain ⟨next, after, behind⟩ := Option.bind_eq_some_iff.mp behind
    rw [List.cons_append, splitAtClose_cons own after, ih behind]
    rfl

/-- A group whose inside nests ends at the mark behind it. -/
theorem splitAtClose_of_nests (own : OwnPair kinds opening closing) {barred : List Char}
    {inside : List Token} (nests : Nests kinds barred inside) {mark : Token}
    (is_closing : mark.isPunct closing = true) (rest : List Token) :
    splitAtClose opening closing 0 (inside ++ mark :: rest) = (inside, mark :: rest) := by
  have ne : closing ≠ opening := fun equal => (own.2 _ own.1).2 equal.symm
  have split_eq := splitAtClose_of_awaitedBehind own (mark :: rest) nests
  have stop_eq : splitAtClose opening closing 0 (mark :: rest) = ([], mark :: rest) :=
     splitAtClose_stop rest (Token.isPunct_of_ne is_closing ne) is_closing
  rw [List.count_nil, stop_eq, List.append_nil] at split_eq
  exact split_eq

theorem splitGroup_of_nests {opener closer : Token} {barred : List Char} {inside : List Token}
    (own : OwnPair kinds '(' ')') (is_opening : opener.isPunct '(' = true)
    (nests : Nests kinds barred inside) (is_closing : closer.isPunct ')' = true)
    (rest : List Token) :
    splitGroup (opener :: (inside ++ closer :: rest)) = (opener :: (inside ++ [closer]), rest) := by
  simp [splitGroup, is_opening, splitAtClose_of_nests own nests is_closing]

/-- The splitter finds the mark that closes the group it is in: behind it only what is outside the
group is awaited. -/
theorem splitAtClose_closes (own : OwnPair kinds opening closing)
    {barred inner outer final : List Char} {run : List Token} (rest : List Token)
    (behind : awaitedBehind kinds barred (inner ++ closing :: outer) run = some final)
    (closed : final.length ≤ outer.length) :
    ∃ inside mark tail, run = inside ++ mark :: tail ∧ mark.isPunct closing = true ∧
      splitAtClose opening closing (inner.count closing) (run ++ rest)
        = (inside, mark :: (tail ++ rest)) ∧
      awaitedBehind kinds barred outer tail = some final := by
  induction run generalizing inner with
  | nil =>
    -- Nothing is left to close the mark: more is awaited than may be at the end.
    cases behind
    simp at closed
    omega
  | cons token tail ih =>
    obtain ⟨next, after, remaining⟩ := Option.bind_eq_some_iff.mp behind
    rcases awaitedAfter_append after with
      ⟨rfl, no_opening, is_closing, rfl⟩ | ⟨more, rfl, step⟩
    · -- This token closes it.
      exact ⟨[], token, tail, rfl, is_closing,
        splitAtClose_stop _ (no_opening _ own.1) is_closing, remaining⟩
    · -- It stays awaited below whatever the token opened or closed.
      obtain ⟨inside, mark, others, rfl, is_closing, split_eq, outside⟩ := ih remaining
      refine ⟨token :: inside, mark, others, rfl, is_closing, ?_, outside⟩
      rw [List.cons_append, splitAtClose_cons own step, split_eq]
      rfl

end Groups

/-! ## Statements -/

/-- The closing marks of all brackets. -/
def closingMarks : List Char := [')', ']', '\x7d']

section Statements

variable {token : Token} (rest : List Token)

private theorem splitStatement_opening
    (is_opening : token.isPunct '(' = true ∨ token.isPunct '[' = true ∨ token.isPunct '\x7b' = true)
    (depth : Int) :
    splitStatement depth (token :: rest) = prepend token (splitStatement (depth + 1) rest) := by
  rw [splitStatement, if_pos (by simpa [or_assoc] using is_opening)]

/-- A closing mark of an open bracket is kept. -/
theorem splitStatement_closing {closing : Char} (member : closing ∈ closingMarks)
    (is_closing : token.isPunct closing = true) (depth : Nat) :
    splitStatement (depth + 1 : Nat) (token :: rest)
      = prepend token (splitStatement depth rest) := by
  have other := fun mark => @Token.isPunct_of_ne token closing is_closing mark
  have depth_eq : ((depth + 1 : Nat) : Int) - 1 = depth := by omega
  have depth_ne : ((depth + 1 : Nat) : Int) ≠ 0 := by omega
  simp only [closingMarks, List.mem_cons, List.not_mem_nil, or_false] at member
  rw [splitStatement]
  rcases member with rfl | rfl | rfl <;>
    simp only [is_closing, other '(' (by decide), other '[' (by decide), other '\x7b' (by decide),
      Bool.or_self, Bool.false_eq_true, ↓reduceIte, Bool.true_or, Bool.or_true, depth_eq]
  -- Of the three marks only the brace may end a statement, and it does so at depth zero.
  rw [other ')' (by decide), other ']' (by decide)]
  simp only [Bool.or_self, Bool.false_eq_true, ↓reduceIte, depth_ne]

private theorem splitStatement_inside
    (no_bracket : ∀ kind ∈ allBrackets, token.isPunct kind.1 = false ∧ token.isPunct kind.2 = false)
    {depth : Int} (no_end : depth ≤ 0 → token.isPunct ';' = false) :
    splitStatement depth (token :: rest) = prepend token (splitStatement depth rest) := by
  simp only [allBrackets, List.mem_cons, List.not_mem_nil, or_false, forall_eq_or_imp,
    forall_eq] at no_bracket
  obtain ⟨⟨no_round, no_round_end⟩, ⟨no_square, no_square_end⟩, no_brace, no_brace_end⟩ :=
    no_bracket
  rw [splitStatement]
  simp only [no_round, no_round_end, no_square, no_square_end, no_brace, no_brace_end,
    Bool.or_self, Bool.false_eq_true, ↓reduceIte, Bool.and_eq_true, decide_eq_true_eq]
  split
  · next ends => simp [no_end ends.2] at ends
  · rfl

/-- Outside all brackets a semicolon ends the statement and is dropped. -/
theorem splitStatement_semicolon (is_end : token.isPunct ';' = true) :
    splitStatement 0 (token :: rest) = ([], rest) := by
  have other := fun mark => @Token.isPunct_of_ne token ';' is_end mark
  rw [splitStatement]
  simp only [other '(' (by decide), other '[' (by decide), other '\x7b' (by decide),
    other ')' (by decide), other ']' (by decide), other '\x7d' (by decide), is_end,
    Bool.or_self, Bool.false_eq_true, ↓reduceIte]
  rfl

/-- Outside all brackets a closing brace ends the statement and stays. -/
theorem splitStatement_brace (is_brace : token.isPunct '\x7d' = true) :
    splitStatement 0 (token :: rest) = ([], token :: rest) := by
  have other := fun mark => @Token.isPunct_of_ne token '\x7d' is_brace mark
  rw [splitStatement]
  simp only [other '(' (by decide), other '[' (by decide), other '\x7b' (by decide),
    other ')' (by decide), other ']' (by decide), is_brace, Bool.or_self, Bool.false_eq_true,
    ↓reduceIte]

/-- One token that the nesting admits is kept, and the depth stays the number of closing marks
awaited, unless it is a semicolon with none awaited. -/
theorem splitStatement_cons {barred awaited next : List Char} (closers : awaited ⊆ closingMarks)
    (after : awaitedAfter allBrackets barred awaited token = some next)
    (no_end : awaited = [] → token.isPunct ';' = false) :
    splitStatement awaited.length (token :: rest)
      = prepend token (splitStatement next.length rest) ∧ next ⊆ closingMarks := by
  rcases awaitedAfter_cases after with
    ⟨kind, member, is_opening, rfl⟩ | ⟨-, mark, is_mark, rfl⟩ | ⟨free, -, -, rfl⟩
  · have bounds : (kind.1 = '(' ∨ kind.1 = '[' ∨ kind.1 = '\x7b') ∧ kind.2 ∈ closingMarks := by
      simp only [allBrackets, List.mem_cons, List.not_mem_nil, or_false] at member
      rcases member with rfl | rfl | rfl <;> decide
    refine ⟨?_, List.cons_subset.mpr ⟨bounds.2, closers⟩⟩
    rw [splitStatement_opening rest]
    · rfl
    · rcases bounds.1 with equal | equal | equal <;> simp [equal ▸ is_opening]
  · have split := List.cons_subset.mp closers
    exact ⟨splitStatement_closing rest split.1 is_mark next.length, split.2⟩
  · refine ⟨splitStatement_inside rest free ?_, closers⟩
    intro shallow
    exact no_end (List.length_eq_zero_iff.mp (by omega))

/-- A statement that nests and has no semicolon of its own ends at the semicolon behind it. -/
theorem splitStatement_of_nests {run : List Token} (nests : Nests allBrackets [';'] run)
    {semicolon : Token} (is_end : semicolon.isPunct ';' = true) :
    splitStatement 0 (run ++ semicolon :: rest) = (run, rest) := by
  suffices split_eq : ∀ awaited ⊆ closingMarks,
      awaitedBehind allBrackets [';'] awaited run = some [] →
      splitStatement awaited.length (run ++ semicolon :: rest) = (run, rest) from
    split_eq [] (List.nil_subset _) nests
  clear nests
  induction run with
  | nil =>
    intro awaited closers behind
    cases behind
    exact splitStatement_semicolon rest is_end
  | cons token tail ih =>
    intro awaited closers behind
    obtain ⟨next, after, behind⟩ := Option.bind_eq_some_iff.mp behind
    -- With nothing awaited, a semicolon would be the barred mark of the nesting.
    have no_end : awaited = [] → token.isPunct ';' = false := by
      rintro rfl
      rcases awaitedAfter_cases after with
        ⟨kind, member, is_opening, -⟩ | ⟨-, mark, -, absurd⟩ | ⟨-, free, -, -⟩
      · simp only [allBrackets, List.mem_cons, List.not_mem_nil, or_false] at member
        rcases member with rfl | rfl | rfl <;> exact Token.isPunct_of_ne is_opening (by decide)
      · cases absurd
      · exact free rfl _ (List.mem_singleton_self _)
    have kept := splitStatement_cons (tail ++ semicolon :: rest) closers after no_end
    rw [List.cons_append, kept.1, ih next kept.2 behind]
    rfl

theorem awaitedAfter_semicolon {barred awaited next : List Char}
    (blocks : ∀ mark ∈ awaited, mark = '\x7d') (is_end : token.isPunct ';' = true)
    (after : awaitedAfter allBrackets barred awaited token = some next) : next = awaited := by
  rcases awaitedAfter_cases after with
    ⟨kind, member, is_opening, -⟩ | ⟨-, mark, is_mark, rfl⟩ | ⟨-, -, -, equal⟩
  · have kind_eq := Token.isPunct_unique is_opening is_end
    simp only [allBrackets, List.mem_cons, List.not_mem_nil, or_false] at member
    rcases member with rfl | rfl | rfl <;> cases kind_eq
  · -- It would have to be the mark on top of the stack, which is a brace.
    have mark_eq := blocks mark List.mem_cons_self
    cases mark_eq ▸ Token.isPunct_unique is_mark is_end
  · exact equal

/-- Inside a block that nests, a statement ends within the block: behind it the block nests on. -/
theorem splitStatement_within {inner outer : List Char} {run : List Token}
    (closers : inner ⊆ closingMarks) (blocks : ∀ mark ∈ outer, mark = '\x7d')
    (behind : awaitedBehind allBrackets [] (inner ++ outer) run = some [])
    {brace : Token} (is_brace : brace.isPunct '\x7d' = true) :
    ∃ part tail,
      splitStatement inner.length (run ++ brace :: rest) = (part, tail ++ brace :: rest) ∧
      awaitedBehind allBrackets [] outer tail = some [] := by
  induction run generalizing inner with
  | nil =>
    obtain ⟨rfl, rfl⟩ := List.append_eq_nil_iff.mp (Option.some.inj behind)
    exact ⟨[], [], splitStatement_brace rest is_brace, rfl⟩
  | cons token tail ih =>
    obtain ⟨next, after, remaining⟩ := Option.bind_eq_some_iff.mp behind
    -- A semicolon or the closing brace of the block ends the statement, outside its own brackets.
    by_cases ends : inner = [] ∧ (token.isPunct ';' = true ∨ token.isPunct '\x7d' = true)
    · obtain ⟨rfl, is_end | is_closing⟩ := ends
      · have next_eq : next = outer := awaitedAfter_semicolon blocks is_end after
        exact ⟨[], tail, splitStatement_semicolon _ is_end, next_eq ▸ remaining⟩
      · exact ⟨[], token :: tail, splitStatement_brace _ is_closing, behind⟩
    · -- The token belongs to the statement, so the blocks around it stay open.
      have no_end : inner = [] → token.isPunct ';' = false ∧ token.isPunct '\x7d' = false := by
        simpa [-Bool.not_eq_true, ← Bool.not_eq_true] using ends
      have step : ∃ more, next = more ++ outer ∧
          awaitedAfter allBrackets [] inner token = some more := by
        cases outer with
        | nil => exact ⟨next, (List.append_nil _).symm, by simpa using after⟩
        | cons first others =>
          have first_eq := blocks first List.mem_cons_self
          rcases awaitedAfter_append after with ⟨empty, -, is_closing, -⟩ | found
          · rw [first_eq, (no_end empty).2] at is_closing
            cases is_closing
          · exact found
      obtain ⟨more, rfl, step⟩ := step
      have kept := splitStatement_cons (tail ++ brace :: rest) closers step
        fun empty => (no_end empty).1
      obtain ⟨part, others, split_eq, outside⟩ := ih kept.2 remaining
      refine ⟨token :: part, others, ?_, outside⟩
      rw [List.cons_append, kept.1, split_eq]
      rfl

end Statements

end SuiteMigration.Outline
