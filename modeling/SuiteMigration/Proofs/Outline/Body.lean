import SuiteMigration.Outline.Body
import SuiteMigration.Proofs.Outline.Nesting

/-!
# The reader of bodies, one token at a time

What the first token of the rest of a body makes the reader do, and where it stops: a body whose
brackets nest is left exactly behind its closing brace.
-/
namespace SuiteMigration.Outline

section Step

variable {token : Token} (rest : List Token) (depth : Nat)

theorem readBody_opening (is_brace : token.isPunct '\x7b' = true) :
    readBody depth (token :: rest) = readBody (depth + 1) rest := by
  rw [readBody.eq_def]
  simp only [Token.isPunct_of_ne is_brace (by decide : '\x7b' ≠ '\x7d'), is_brace,
    Bool.false_eq_true, ↓reduceIte]

theorem readBody_closing (is_brace : token.isPunct '\x7d' = true) :
    readBody (depth + 1) (token :: rest) = readBody depth rest := by
  rw [readBody.eq_def]
  simp only [is_brace, ↓reduceIte]

theorem readBody_end (is_brace : token.isPunct '\x7d' = true) :
    readBody 0 (token :: rest) = ([], rest) := by
  rw [readBody.eq_def]
  simp only [is_brace, ↓reduceIte]

theorem readBody_semicolon (is_end : token.isPunct ';' = true) :
    readBody depth (token :: rest) = readBody depth rest := by
  rw [readBody.eq_def]
  simp only [Token.isPunct_of_ne is_end (by decide : ';' ≠ '\x7d'),
    Token.isPunct_of_ne is_end (by decide : ';' ≠ '\x7b'), is_end, Bool.false_eq_true, ↓reduceIte]

theorem readBody_head (is_head : token.isWord headWords = true) :
    readBody depth (token :: rest)
      = emit (statementOf (token :: (splitGroup rest).1) token.line)
          (readBody depth (splitGroup rest).2) := by
  rw [readBody.eq_def]
  simp only [Token.isPunct_of_isWord is_head, is_head, Bool.false_eq_true, ↓reduceIte]

theorem isWord_headWords_of_lead (is_lead : token.isWord leadWords = true) :
    token.isWord headWords = false :=
  Token.isWord_of_disjoint is_lead (by decide)

theorem readBody_lead (is_lead : token.isWord leadWords = true)
    (no_resources : token.isWord ["try"] = true → ∀ next ∈ rest.head?, next.isPunct '(' = false) :
    readBody depth (token :: rest) = readBody depth rest := by
  rw [readBody.eq_def]
  simp only [Token.isPunct_of_isWord is_lead, isWord_headWords_of_lead is_lead, is_lead,
    Bool.false_eq_true, ↓reduceIte]
  cases rest with
  | nil =>
    rw [readBody.eq_def]
  | cons next inside =>
    simp only [Bool.and_eq_true]
    split
    · next has =>
      have free := no_resources has.1 next rfl
      simp [free] at has
    · rfl

theorem readBody_resources (is_try : token.isWord ["try"] = true) {opening : Token}
    (is_opening : opening.isPunct '(' = true) (inside : List Token) :
    readBody depth (token :: opening :: inside)
      = emit (statementOf (splitAtClose '(' ')' 0 inside).1 token.line)
          (readBody depth ((splitAtClose '(' ')' 0 inside).2.drop 1)) := by
  have is_lead := Token.isWord_of_subset is_try (by decide : ["try"] ⊆ leadWords)
  rw [readBody.eq_def]
  simp only [Token.isPunct_of_isWord is_lead, isWord_headWords_of_lead is_lead, is_lead, is_try,
    is_opening, Bool.and_self, Bool.false_eq_true, ↓reduceIte]

theorem readBody_statement (no_opening : token.isPunct '\x7b' = false)
    (no_closing : token.isPunct '\x7d' = false) (no_end : token.isPunct ';' = false)
    (no_head : token.isWord headWords = false) (no_lead : token.isWord leadWords = false) :
    readBody depth (token :: rest)
      = emit (statementOf (splitStatement 0 (token :: rest)).1 token.line)
          (readBody depth (splitStatement 0 (token :: rest)).2) := by
  rw [readBody.eq_def]
  simp only [no_opening, no_closing, no_end, no_head, no_lead, Bool.false_eq_true, ↓reduceIte]

end Step

section Nesting

variable {brace : Token} (is_brace : brace.isPunct '\x7d' = true) (rest : List Token)

include is_brace

/-- A group that is opened inside a block that nests is closed inside it. -/
theorem splitGroup_within {outer : List Char} {run : List Token}
    (behind : awaitedBehind allBrackets [] outer run = some []) :
    ∃ tail, (splitGroup (run ++ brace :: rest)).2 = tail ++ brace :: rest ∧
      awaitedBehind allBrackets [] outer tail = some [] ∧ tail.length ≤ run.length := by
  cases run with
  | nil =>
    refine ⟨[], ?_, behind, Nat.le_refl _⟩
    simp [splitGroup, Token.isPunct_of_ne is_brace (by decide : '\x7d' ≠ '(')]
  | cons token tail =>
    by_cases is_opening : token.isPunct '(' = true
    · -- The mark that closes the group comes before the block ends, where nothing is awaited.
      obtain ⟨next, after, remaining⟩ := Option.bind_eq_some_iff.mp behind
      have next_eq : next = ')' :: outer := by
        simpa [awaitedAfter, allBrackets, is_opening] using after.symm
      subst next_eq
      obtain ⟨inside, mark, others, rfl, -, split_eq, outside⟩ :=
        splitAtClose_closes (by decide : OwnPair allBrackets '(' ')') (brace :: rest)
          (show awaitedBehind allBrackets [] ([] ++ ')' :: outer) tail = some [] from remaining)
          (Nat.zero_le _)
      rw [List.count_nil] at split_eq
      refine ⟨others, ?_, outside, ?_⟩
      · simp only [List.cons_append, splitGroup, is_opening, ↓reduceIte, split_eq, List.drop_one,
          List.tail_cons]
      · simp only [List.length_append, List.length_cons]
        omega
    · -- Without an opening parenthesis there is no group to take.
      refine ⟨token :: tail, ?_, behind, Nat.le_refl _⟩
      simp [splitGroup, is_opening]

/-- One step inside a block that nests: the reader passes to a shorter rest in which its open
blocks are all that is awaited. -/
theorem readBody_within {depth : Nat} {token : Token} {run : List Token}
    (behind : awaitedBehind allBrackets [] (List.replicate depth '\x7d') (token :: run) = some []) :
    ∃ inner tail, (readBody depth (token :: (run ++ brace :: rest))).2
        = (readBody inner (tail ++ brace :: rest)).2 ∧
      awaitedBehind allBrackets [] (List.replicate inner '\x7d') tail = some [] ∧
      tail.length ≤ run.length := by
  have blocks : ∀ mark ∈ List.replicate depth '\x7d', mark = '\x7d' :=
    fun mark member => List.eq_of_mem_replicate member
  obtain ⟨next, after, remaining⟩ := Option.bind_eq_some_iff.mp behind
  by_cases is_opening : token.isPunct '\x7b' = true
  · -- A block opens and one more brace is awaited.
    have next_eq : next = List.replicate (depth + 1) '\x7d' := by
      rw [List.replicate_succ]
      simpa [awaitedAfter, allBrackets, is_opening,
        fun mark => @Token.isPunct_of_ne token '\x7b' is_opening mark] using after.symm
    exact ⟨depth + 1, run, by rw [readBody_opening _ _ is_opening], next_eq ▸ remaining,
      Nat.le_refl _⟩
  by_cases is_closing : token.isPunct '\x7d' = true
  · have other := fun mark => @Token.isPunct_of_ne token '\x7d' is_closing mark
    cases depth with
    -- At depth zero a closing brace would close nothing, which does not nest.
    | zero => simp [awaitedAfter, allBrackets, is_closing, other] at after
    | succ outer =>
      have next_eq : next = List.replicate outer '\x7d' := by
        simpa [awaitedAfter, allBrackets, List.replicate_succ, is_closing, other] using after.symm
      exact ⟨outer, run, by rw [readBody_closing _ _ is_closing], next_eq ▸ remaining,
        Nat.le_refl _⟩
  by_cases is_end : token.isPunct ';' = true
  · have next_eq := awaitedAfter_semicolon blocks is_end after
    exact ⟨depth, run, by rw [readBody_semicolon _ _ is_end], next_eq ▸ remaining, Nat.le_refl _⟩
  by_cases is_head : token.isWord headWords = true
  · -- The group of a head is closed within the block, and the reader passes behind it.
    have next_eq := awaitedAfter_of_no_mark (Token.isPunct_of_isWord is_head) after
    obtain ⟨tail, split_eq, outside, shorter⟩ :=
      splitGroup_within is_brace rest (next_eq ▸ remaining)
    exact ⟨depth, tail, by rw [readBody_head _ _ is_head, emit, split_eq], outside, shorter⟩
  by_cases is_lead : token.isWord leadWords = true
  · have next_eq := awaitedAfter_of_no_mark (Token.isPunct_of_isWord is_lead) after
    subst next_eq
    -- The parenthesis behind `try` is taken like a head's group, one token further on.
    by_cases resources : token.isWord ["try"] = true ∧ ∃ opening inside,
        run = opening :: inside ∧ opening.isPunct '(' = true
    · obtain ⟨is_try, opening, inside, rfl, is_round⟩ := resources
      obtain ⟨tail, split_eq, outside, shorter⟩ := splitGroup_within is_brace rest remaining
      refine ⟨depth, tail, ?_, outside, shorter⟩
      rw [List.cons_append, readBody_resources depth is_try is_round, emit, ← split_eq]
      simp only [List.cons_append, splitGroup, is_round, ↓reduceIte]
    · refine ⟨depth, run, ?_, remaining, Nat.le_refl _⟩
      rw [readBody_lead _ _ is_lead]
      intro is_try
      cases run with
      | nil => simp [Token.isPunct_of_ne is_brace (by decide : '\x7d' ≠ '(')]
      | cons first others => simpa [is_try] using resources
  · -- A plain statement. Its splitter stops within the block, and takes a token since the first one
    -- is no closing brace.
    simp only [Bool.not_eq_true] at is_opening is_closing is_end is_head is_lead
    obtain ⟨part, tail, split_eq, outside⟩ :=
      splitStatement_within rest (List.nil_subset _) blocks behind is_brace
    have shorter := length_splitStatement_lt 0 token (run ++ brace :: rest) is_closing
    rw [List.cons_append, List.length_nil, Int.natCast_zero] at split_eq
    rw [split_eq] at shorter
    refine ⟨depth, tail, ?_, outside, ?_⟩
    · rw [readBody_statement _ _ is_opening is_closing is_end is_head is_lead, split_eq, emit]
    · simp only [List.length_append, List.length_cons] at shorter
      omega

/-- A body whose brackets nest is left exactly behind the brace that closes it, whatever its tokens
are. -/
theorem readBody_of_awaitedBehind {depth : Nat} {run : List Token}
    (behind : awaitedBehind allBrackets [] (List.replicate depth '\x7d') run = some []) :
    (readBody depth (run ++ brace :: rest)).2 = rest := by
  -- Not on the run's structure: one step of the reader may take many tokens of it.
  match run with
  | [] =>
    have depth_eq : depth = 0 := by simpa [awaitedBehind] using behind
    subst depth_eq
    rw [List.nil_append, readBody_end rest is_brace]
  | token :: tail =>
    obtain ⟨inner, shorter, step_eq, remaining, _⟩ := readBody_within is_brace rest behind
    rw [List.cons_append, step_eq]
    exact readBody_of_awaitedBehind remaining
  termination_by run.length

end Nesting

end SuiteMigration.Outline
