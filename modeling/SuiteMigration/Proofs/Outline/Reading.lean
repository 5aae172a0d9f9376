import SuiteMigration.Proofs.Outline.Grammar

/-!
# Reading what the grammar spells

Each reader of a declaration's pieces gives back the piece whose tokens it is handed and leaves
whatever comes behind them.
-/
namespace SuiteMigration.Outline

/-- What the next token of a rest is not. -/
def NotNext (mark : Char) (rest : List Token) : Prop :=
  ∀ next ∈ rest.head?, next.isPunct mark = false

theorem Identifier.no_mark (name : Identifier) (mark : Char) :
    name.token.isPunct mark = false := by
  simp [Token.isPunct, name.is_ident]

section Names

private theorem splitName_segment (started : Bool) {token : Token} (is_ident : token.kind = .ident)
    (rest : List Token) :
    splitName true started (token :: rest)
      = (token.text ++ (splitName false true rest).1, (splitName false true rest).2) := by
  rw [splitName]
  simp [is_ident]

private theorem splitName_others (others : List (Mark '.' × Segment)) (rest : List Token)
    (no_dot : NotNext '.' rest) :
    splitName false true ((others.flatMap fun part => [part.1.token, part.2.token]) ++ rest)
      = ((others.flatMap fun part => [part.1.token, part.2.token]).flatMap Token.text, rest) := by
  induction others with
  | nil =>
    cases rest with
    | nil => rfl
    | cons next more =>
      have free := no_dot next rfl
      rw [List.flatMap_nil, List.nil_append, splitName]
      simp [free]
  | cons part others ih =>
    have accepted : (part.2.token.kind == .ident || (true && part.2.token.isPunct '*')) = true := by
      rcases part.2.accepted with is_ident | is_star <;> simp [*]
    simp only [List.flatMap_cons, List.cons_append, List.nil_append]
    rw [splitName]
    simp only [part.1.spelled, Bool.false_eq_true, ↓reduceIte, Bool.not_false]
    rw [splitName]
    simp only [accepted, ↓reduceIte, Bool.not_true, ih]

theorem QualifiedName.readName_tokens (name : QualifiedName) (rest : List Token)
    (no_dot : NotNext '.' rest) : readName (name.tokens ++ rest) = (name.text, rest) := by
  simp only [readName, QualifiedName.tokens, QualifiedName.text, List.cons_append]
  rw [splitName_segment false name.first.is_ident, splitName_others name.others rest no_dot]
  rfl

end Names

section Preambles

theorem TagSyntax.readTag_tokens (tag : TagSyntax) (rest : List Token)
    (ends : tag.arguments = none → NotNext '.' rest ∧ NotNext '(' rest) :
    readTag (tag.name.tokens ++ (tag.arguments.map Group.tokens).getD [] ++ rest)
      = (tag.outline, rest) := by
  cases given : tag.arguments with
  | none =>
    have free := ends given
    simp only [Option.map_none, Option.getD_none, List.append_nil]
    rw [readTag, tag.name.readName_tokens rest free.1]
    cases rest with
    | nil => simp [TagSyntax.outline, given]
    | cons next more => simp [TagSyntax.outline, given, free.2 next rfl]
  | some group =>
    have no_dot : NotNext '.' (group.tokens ++ rest) := by
      intro next member
      cases member
      exact Token.isPunct_of_ne group.opening.spelled (by decide)
    simp only [Option.map_some, Option.getD_some, List.append_assoc]
    rw [readTag, tag.name.readName_tokens _ no_dot]
    simp only [Group.tokens, List.cons_append, List.append_assoc, List.nil_append,
      group.opening.spelled, ↓reduceIte, group.splitAtClose_tokens, List.drop_one, List.tail_cons,
      TagSyntax.outline, given, Option.map_some]

private theorem readPreamble_tag (tag : TagSyntax) (rest : List Token)
    (ends : tag.arguments = none → NotNext '.' rest ∧ NotNext '(' rest) :
    readPreamble (tag.tokens ++ rest)
      = (⟨tag.outline :: (readPreamble rest).1.tags, (readPreamble rest).1.modifiers⟩,
          (readPreamble rest).2) := by
  have no_type := tag.no_type
  simp only [TagSyntax.tokens, List.cons_append]
  rw [readPreamble.eq_def]
  simp only [tag.sign.spelled, ↓reduceIte, tag.readTag_tokens rest ends]
  simp only [QualifiedName.tokens, List.cons_append, List.head?_cons, Option.any_some, no_type,
    Bool.false_eq_true, ↓reduceIte]

private theorem readPreamble_modifier (word : Word modifierWords) (rest : List Token) :
    readPreamble (word.token :: rest)
      = (⟨(readPreamble rest).1.tags, word.token.name :: (readPreamble rest).1.modifiers⟩,
          (readPreamble rest).2) := by
  rw [readPreamble.eq_def]
  simp only [Token.isPunct_of_isWord word.spelled, word.spelled, Bool.false_eq_true, ↓reduceIte]

theorem readPreamble_end {token : Token} (no_sign : token.isPunct '@' = false)
    (no_modifier : token.isWord modifierWords = false) (rest : List Token) :
    readPreamble (token :: rest) = (.empty, token :: rest) := by
  rw [readPreamble.eq_def]
  simp only [no_sign, no_modifier, Bool.false_eq_true, ↓reduceIte]

/-- Behind the qualifiers the preamble ends, unless the next token could belong to the last. -/
theorem readPreamble_qualifiers (qualifiers : List Qualifier) {token : Token}
    (no_sign : token.isPunct '@' = false) (no_modifier : token.isWord modifierWords = false)
    (ends : qualifiers.getLast?.any Qualifier.isBare = true →
      token.isPunct '.' = false ∧ token.isPunct '(' = false) (rest : List Token) :
    readPreamble (qualifiers.flatMap Qualifier.tokens ++ token :: rest)
      = (preambleOf qualifiers, token :: rest) := by
  induction qualifiers with
  | nil => exact readPreamble_end no_sign no_modifier rest
  | cons qualifier others ih =>
    -- The last qualifier stays the last one of those behind the first.
    have later : others.getLast?.any Qualifier.isBare = true →
        token.isPunct '.' = false ∧ token.isPunct '(' = false := by
      cases others with
      | nil => simp
      | cons next more => simpa using ends
    rw [List.flatMap_cons, List.append_assoc]
    cases qualifier with
    | modifier word =>
      have step := readPreamble_modifier word (others.flatMap Qualifier.tokens ++ token :: rest)
      rw [ih later] at step
      exact step
    | tag tag =>
      -- A modifier or the sign of the next annotation ends the name of a bare one. Only behind the
      -- last qualifier the token itself has to.
      have free : tag.arguments = none →
          NotNext '.' (others.flatMap Qualifier.tokens ++ token :: rest) ∧
            NotNext '(' (others.flatMap Qualifier.tokens ++ token :: rest) := by
        intro bare
        cases others with
        | nil =>
          have last := ends (by simp [Qualifier.isBare, bare])
          constructor <;> rintro next member <;> cases member
          · exact last.1
          · exact last.2
        | cons following more =>
          cases following with
          | modifier word =>
            constructor <;> rintro next member <;> cases member <;>
              exact Token.isPunct_of_isWord word.spelled _
          | tag other =>
            constructor <;> rintro next member <;> cases member <;>
              exact Token.isPunct_of_ne other.sign.spelled (by decide)
      have step := readPreamble_tag tag _ free
      rw [ih later] at step
      exact step

end Preambles

section Heads

/-- The count of open parentheses is the number of closing ones awaited. -/
theorem skipToBrace_of_awaitedBehind {awaited : List Char} {run : List Token}
    (rounds : ∀ mark ∈ awaited, mark = ')')
    (behind : awaitedBehind roundBrackets ['\x7b'] awaited run = some [])
    {brace : Token} (is_brace : brace.isPunct '\x7b' = true) (rest : List Token) :
    skipToBrace awaited.length (run ++ brace :: rest) = brace :: rest := by
  induction run generalizing awaited with
  | nil =>
    cases behind
    simp [skipToBrace, is_brace]
  | cons token tail ih =>
    obtain ⟨next, after, remaining⟩ := Option.bind_eq_some_iff.mp behind
    rcases awaitedAfter_cases after with
      ⟨kind, member, is_opening, rfl⟩ | ⟨no_opening, mark, is_mark, rfl⟩ | ⟨free, no_bar, -, rfl⟩
    · -- A parenthesis opens and the count grows.
      obtain rfl := List.mem_singleton.mp member
      have not_brace := Token.isPunct_of_ne is_opening (by decide : '(' ≠ '\x7b')
      have deeper := ih (List.forall_mem_cons.mpr ⟨rfl, rounds⟩) remaining
      cases awaited <;> simpa [skipToBrace, is_opening, not_brace] using deeper
    · -- The innermost one closes.
      have split := List.forall_mem_cons.mp rounds
      obtain rfl := split.1
      have not_opening : token.isPunct '(' = false := no_opening _ (List.mem_singleton_self _)
      simpa [skipToBrace, is_mark, not_opening] using ih split.2 remaining
    · -- Neither: outside all parentheses the bar on braces keeps the reader going.
      have not_round := free _ (List.mem_singleton_self _)
      have same := ih rounds remaining
      cases next with
      | nil =>
        have not_brace := no_bar rfl _ (List.mem_singleton_self _)
        simpa [skipToBrace, not_round.1, not_brace] using same
      | cons first outer => simpa [skipToBrace, not_round] using same

theorem ClassHead.readTypeHead_tokens (head : ClassHead) (rest : List Token) :
    readTypeHead (head.tokens ++ rest) = (some head.outline, head.opening.token :: rest) := by
  have skip_eq : skipToBrace 0 (head.clauses ++ head.opening.token :: rest) = _ :=
    skipToBrace_of_awaitedBehind (by simp) head.nests head.opening.spelled rest
  simp only [readTypeHead, ClassHead.tokens, ClassHead.outline, List.cons_append, List.append_assoc,
    List.nil_append, Token.isPunct_of_isWord head.keyword.spelled, Bool.false_eq_true, ↓reduceIte,
    head.keyword.spelled, head.name.is_ident, skip_eq]

end Heads

section Parameters

variable {token : Token} (rest : List Token) (last : Option String)

private theorem parameterNames_opening
    (is_opening : token.isPunct '(' = true ∨ token.isPunct '<' = true ∨ token.isPunct '[' = true)
    (depth : Int) :
    parameterNames.go depth last (token :: rest) = parameterNames.go (depth + 1) last rest := by
  rw [parameterNames.go, if_pos (by simpa [or_assoc] using is_opening)]

private theorem parameterNames_closing
    (no_opening : ∀ kind ∈ parameterBrackets, token.isPunct kind.1 = false)
    {closing : Char} (member : closing ∈ parameterBrackets.map Prod.snd)
    (is_closing : token.isPunct closing = true) (depth : Int) :
    parameterNames.go depth last (token :: rest) = parameterNames.go (depth - 1) last rest := by
  simp only [parameterBrackets, List.mem_cons, List.not_mem_nil, or_false, forall_eq_or_imp,
    forall_eq] at no_opening
  obtain ⟨no_round, no_angle, no_square⟩ := no_opening
  simp only [parameterBrackets, List.map_cons, List.map_nil, List.mem_cons, List.not_mem_nil,
    or_false] at member
  rw [parameterNames.go]
  rcases member with rfl | rfl | rfl <;>
    simp only [no_round, no_angle, no_square, is_closing, Bool.or_self, Bool.or_true, Bool.true_or,
      Bool.false_eq_true, ↓reduceIte]

/-- Inside a part a token can at most be taken for its name. -/
theorem parameterNames_inside
    (free : ∀ kind ∈ parameterBrackets, token.isPunct kind.1 = false ∧ token.isPunct kind.2 = false)
    {depth : Int} (no_comma : depth = 0 → token.isPunct ',' = false) :
    ∃ name, parameterNames.go depth last (token :: rest) = parameterNames.go depth name rest := by
  simp only [parameterBrackets, List.mem_cons, List.not_mem_nil, or_false, forall_eq_or_imp,
    forall_eq] at free
  obtain ⟨⟨no_round, no_round_end⟩, ⟨no_angle, no_angle_end⟩, no_square, no_square_end⟩ := free
  rw [parameterNames.go]
  simp only [no_round, no_round_end, no_angle, no_angle_end, no_square, no_square_end,
    Bool.or_self, Bool.false_eq_true, ↓reduceIte, Bool.and_eq_true, beq_iff_eq]
  -- The comma test is out, so the token is skipped or becomes the name.
  split
  · next ends => simp [no_comma ends.2] at ends
  · split
    · exact ⟨_, rfl⟩
    · exact ⟨_, rfl⟩

/-- A run that nests is passed over, whatever it does to the name of its part. -/
theorem parameterNames_of_awaitedBehind {awaited : List Char} {run : List Token}
    (closers : awaited ⊆ parameterBrackets.map Prod.snd)
    (behind : awaitedBehind parameterBrackets [','] awaited run = some []) :
    ∃ name, parameterNames.go awaited.length last (run ++ rest)
      = parameterNames.go 0 name rest := by
  -- The name collected so far changes on the way, so the induction is over every one.
  induction run generalizing awaited last with
  | nil =>
    cases behind
    exact ⟨last, rfl⟩
  | cons token tail ih =>
    obtain ⟨next, after, remaining⟩ := Option.bind_eq_some_iff.mp behind
    rcases awaitedAfter_cases after with
      ⟨kind, member, is_opening, rfl⟩ | ⟨no_opening, mark, is_mark, rfl⟩ | ⟨free, no_bar, -, rfl⟩
    · have is_round_angle_or_square : token.isPunct '(' = true ∨ token.isPunct '<' = true ∨
          token.isPunct '[' = true := by
        simp only [parameterBrackets, List.mem_cons, List.not_mem_nil, or_false] at member
        rcases member with rfl | rfl | rfl <;> simp [is_opening]
      have kept : kind.2 :: awaited ⊆ parameterBrackets.map Prod.snd :=
        List.cons_subset.mpr ⟨List.mem_map_of_mem member, closers⟩
      obtain ⟨name, read_eq⟩ := ih last kept remaining
      refine ⟨name, ?_⟩
      rw [List.cons_append, parameterNames_opening _ _ is_round_angle_or_square, ← read_eq]
      rfl
    · have split := List.cons_subset.mp closers
      obtain ⟨name, read_eq⟩ := ih last split.2 remaining
      refine ⟨name, ?_⟩
      rw [List.cons_append, parameterNames_closing _ _ no_opening split.1 is_mark, ← read_eq,
        List.length_cons]
      congr 1
      omega
    · -- Outside all brackets the token is no comma, which would end the part.
      have no_comma : (next.length : Int) = 0 → token.isPunct ',' = false := by
        intro empty
        exact no_bar (List.length_eq_zero_iff.mp (by omega)) _ (List.mem_singleton_self _)
      obtain ⟨inner, step_eq⟩ := parameterNames_inside (tail ++ rest) last free no_comma
      obtain ⟨name, read_eq⟩ := ih inner closers remaining
      exact ⟨name, by rw [List.cons_append, step_eq, read_eq]⟩

private theorem parameterNames_identifier (name : Identifier) :
    parameterNames.go 0 last (name.token :: rest)
      = parameterNames.go 0 (some name.token.name) rest := by
  rw [parameterNames.go]
  simp [name.no_mark, name.is_ident]

private theorem parameterNames_brackets (pairs : List (Mark '[' × Mark ']')) :
    parameterNames.go 0 last ((pairs.flatMap fun pair => [pair.1.token, pair.2.token]) ++ rest)
      = parameterNames.go 0 last rest := by
  induction pairs with
  | nil => rfl
  | cons pair others ih =>
    have no_opening : ∀ kind ∈ parameterBrackets, pair.2.token.isPunct kind.1 = false := by
      intro kind member
      simp only [parameterBrackets, List.mem_cons, List.not_mem_nil, or_false] at member
      rcases member with rfl | rfl | rfl <;> exact Token.isPunct_of_ne pair.2.spelled (by decide)
    simp only [List.flatMap_cons, List.cons_append, List.nil_append]
    rw [parameterNames_opening _ _ (.inr (.inr pair.1.spelled)),
      parameterNames_closing _ _ no_opening (by decide) pair.2.spelled]
    exact ih

theorem Parameter.parameterNames_tokens (parameter : Parameter) :
    parameterNames.go 0 last (parameter.tokens ++ rest)
      = parameterNames.go 0 (some parameter.name.token.name) rest := by
  -- Whatever name the leading tokens leave is replaced by the parameter's own, and the brackets
  -- behind it leave that alone.
  obtain ⟨inner, leading_eq⟩ := parameterNames_of_awaitedBehind (parameter.name.token
    :: ((parameter.brackets.flatMap fun pair => [pair.1.token, pair.2.token]) ++ rest))
    last (List.nil_subset _) parameter.nests
  simp only [Parameter.tokens, List.append_assoc, List.cons_append]
  exact leading_eq.trans ((parameterNames_identifier _ _ _).trans (parameterNames_brackets _ _ _))

theorem ParameterList.parameterNames_tokens (list : ParameterList) :
    parameterNames list.tokens = list.names := by
  suffices others_eq : ∀ (name : String) (others : List (Mark ',' × Parameter)),
      parameterNames.go 0 (some name) (others.flatMap fun part => part.1.token :: part.2.tokens)
        = name :: others.map fun part => part.2.name.token.name by
    rw [parameterNames, ParameterList.tokens, list.first.parameterNames_tokens]
    exact others_eq _ _
  intro name others
  induction others generalizing name with
  | nil => rfl
  | cons part others ih =>
    have other := fun mark => @Token.isPunct_of_ne part.1.token ',' part.1.spelled mark
    rw [List.flatMap_cons, List.cons_append, parameterNames.go]
    simp only [other '(' (by decide), other '<' (by decide), other '[' (by decide),
      other ')' (by decide), other '>' (by decide), other ']' (by decide), part.1.spelled,
      Bool.or_self, Bool.false_eq_true, ↓reduceIte, beq_self_eq_true, Bool.and_self]
    rw [part.2.parameterNames_tokens, ih]
    rfl

theorem Parameter.nests_tokens (parameter : Parameter) :
    Nests parameterBrackets [] parameter.tokens := by
  have pairs : ∀ brackets : List (Mark '[' × Mark ']'), Nests parameterBrackets []
      (brackets.flatMap fun pair => [pair.1.token, pair.2.token]) := by
    intro brackets
    induction brackets with
    | nil => rfl
    | cons pair others ih =>
      exact (nests_pair (by decide : OwnPair parameterBrackets '[' ']') pair.1.spelled
        pair.2.spelled).append ih
  have name : Nests parameterBrackets [] [parameter.name.token] :=
    nests_singleton fun kind _ => ⟨parameter.name.no_mark _, parameter.name.no_mark _⟩
  exact parameter.nests.unbarred.append (name.append (pairs _))

theorem ParameterList.nests_tokens (list : ParameterList) :
    Nests parameterBrackets [] list.tokens := by
  refine list.first.nests_tokens.append ?_
  generalize list.others = others
  induction others with
  | nil => rfl
  | cons part others ih =>
    have comma : Nests parameterBrackets [] [part.1.token] := by
      refine nests_singleton fun kind member => ?_
      simp only [parameterBrackets, List.mem_cons, List.not_mem_nil, or_false] at member
      rcases member with rfl | rfl | rfl <;>
        exact ⟨Token.isPunct_of_ne part.1.spelled (by decide),
          Token.isPunct_of_ne part.1.spelled (by decide)⟩
    exact (comma.append part.2.nests_tokens).append ih

end Parameters

end SuiteMigration.Outline
