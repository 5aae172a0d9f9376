import Mathlib.Data.List.Chain
import SuiteMigration.Proofs.Outline.Bare
import SuiteMigration.Proofs.Outline.Layout

/-!
# Joined runs of tokens

The text of a run of tokens is lexed into the run again: the kinds and texts are the same, the gaps
are at the same places, and joining gives the text back. The lexer looks at what stands behind a
token, and joining keeps the next character or puts a blank or the end of the text in its place.
-/
namespace SuiteMigration.Outline

open Text

/-! ## What may stand behind a token -/

section Lookahead

variable {c : Char} {text body rest other : List Char}

/-- A literal with its closing quote is read the same way whatever follows. -/
theorem splitQuoted_closed {quote : Char} (no_escape : quote ≠ '\\')
    (split_eq : splitQuoted quote text = (body, rest)) (closed : rest ≠ []) (other : List Char) :
    splitQuoted quote (body ++ other) = (body, other) := by
  fun_induction splitQuoted quote text generalizing body with
  | case1 =>
    cases split_eq
    exact absurd rfl closed
  | case2 c more inner after inner_eq ih =>
    cases split_eq
    simp only [List.cons_append, splitQuoted, ih inner_eq]
  | case3 c more _ closes =>
    cases split_eq
    have no_backslash : c ≠ '\\' := by
      rintro rfl
      rcases closes with is_quote | ⟨is_feed, -⟩
      · exact no_escape is_quote.symm
      · exact absurd is_feed (by decide)
    simp [splitQuoted, no_backslash, closes]
  | case4 c more no_pair goes_on inner after inner_eq ih =>
    cases split_eq
    -- A backslash here would be the last character, and the literal would not be closed.
    have no_backslash : c ≠ '\\' := by
      rintro rfl
      cases more with
      | nil =>
        cases inner_eq
        exact absurd rfl closed
      | cons next more => exact no_pair next more rfl rfl
    simp [splitQuoted, no_backslash, goes_on, ih inner_eq]

private theorem splitQuoted_ne_nil {quote : Char} (split_eq : splitQuoted quote text = (body, rest))
    (closed : rest ≠ []) : body ≠ [] := by
  rintro rfl
  have text_eq := splitQuoted_append quote text
  rw [split_eq, List.nil_append] at text_eq
  subst text_eq
  cases rest with
  | nil => exact closed rfl
  | cons c rest =>
    unfold splitQuoted at split_eq
    split at split_eq
    · cases split_eq
    · cases split_eq
    · split at split_eq <;> cases split_eq

/-- A closed text block ends with its three quotes. -/
theorem splitTextBlock_length (split_eq : splitTextBlock text = (body, rest)) (closed : rest ≠ []) :
    3 ≤ body.length := by
  fun_induction splitTextBlock text generalizing body with
  | case1 =>
    cases split_eq
    exact absurd rfl closed
  | case2 =>
    cases split_eq
    exact Nat.le_refl 3
  | case3 c more inner after inner_eq ih =>
    cases split_eq
    have inner_length := ih inner_eq
    simp only [List.length_cons]
    omega
  | case4 c more _ _ inner after inner_eq ih =>
    cases split_eq
    have inner_length := ih inner_eq
    simp only [List.length_cons]
    omega

private theorem splitTextBlock_closed (split_eq : splitTextBlock text = (body, rest))
    (closed : rest ≠ []) (other : List Char) : splitTextBlock (body ++ other) = (body, other) := by
  fun_induction splitTextBlock text generalizing body with
  | case1 =>
    cases split_eq
    exact absurd rfl closed
  | case2 =>
    cases split_eq
    simp [splitTextBlock]
  | case3 c more inner after inner_eq ih =>
    cases split_eq
    simp only [List.cons_append, splitTextBlock, ih inner_eq]
  | case4 c more no_quotes no_pair inner after inner_eq ih =>
    cases split_eq
    have more_eq := splitTextBlock_append more
    rw [inner_eq] at more_eq
    -- The block goes on for three characters at least, so it looks the same from here.
    obtain ⟨second, third, fourth, others, rfl⟩ :
        ∃ second third fourth others, inner = second :: third :: fourth :: others := by
      have inner_length := splitTextBlock_length inner_eq closed
      match inner, inner_length with
      | second :: third :: fourth :: others, _ => exact ⟨second, third, fourth, others, rfl⟩
    subst more_eq
    have still_eq := ih inner_eq
    simp only [List.cons_append] at still_eq no_quotes no_pair ⊢
    rw [splitTextBlock.eq_def]
    split <;> simp_all

private theorem splitWord_replace {holds : Char → Bool} (space : holds ' ' = false)
    (begins_alike : ∀ next ∈ other.head?, next = ' ' ∨ rest.head? = some next)
    (taken : text.takeWhile holds = body) (left : text.dropWhile holds = rest) :
    (body ++ other).takeWhile holds = body ∧ (body ++ other).dropWhile holds = other := by
  subst taken left
  have ends : ∀ next ∈ other.head?, holds next = false := by
    intro next member
    rcases begins_alike next member with rfl | first
    · exact space
    · have stopped := List.head?_dropWhile_not holds text
      rwa [first] at stopped
  have all_held := List.all_eq_true.mp (List.all_takeWhile (l := text) (p := holds))
  exact ⟨takeWhile_append_stop all_held ends, dropWhile_append_stop all_held ends⟩

theorem Begins.replace (begins : Begins c (body ++ rest))
    (begins_alike : ∀ next ∈ other.head?, next = ' ' ∨ rest.head? = some next) :
    Begins c (body ++ other) := by
  refine ⟨begins.1, fun is_slash next member => ?_⟩
  cases body with
  | nil =>
    rcases begins_alike next member with rfl | first
    · decide
    · exact begins.2 is_slash next first
  | cons second body => exact begins.2 is_slash next member

private theorem splitLexeme_block (inside : List Char) : splitLexeme '"' ('"' :: '"' :: inside)
    = (.string, '"' :: '"' :: (splitTextBlock inside).1, (splitTextBlock inside).2) := rfl

private theorem splitLexeme_quoted (no_block : ∀ inside, text ≠ '"' :: '"' :: inside) :
    splitLexeme '"' text = (.string, splitQuoted '"' text) := by
  unfold splitLexeme
  rw [if_pos rfl]
  split
  · next inside => exact absurd rfl (no_block inside)
  · rfl

/-- A closed string is read the same way in front of any text that does not go on with a quote where
it did not go on with one. -/
theorem splitLexeme_string {kind : TokenKind}
    (split_eq : splitLexeme '"' (body ++ rest) = (kind, body, rest)) (behind : rest ≠ [])
    (begins_alike : ∀ next ∈ other.head?, next = ' ' ∨ rest.head? = some next) :
    splitLexeme '"' (body ++ other) = (kind, body, other) := by
  by_cases is_block : ∃ inside, body ++ rest = '"' :: '"' :: inside
  · obtain ⟨inside, text_eq⟩ := is_block
    rw [text_eq, splitLexeme_block] at split_eq
    cases block_eq : splitTextBlock inside with
    | mk block after =>
      rw [block_eq] at split_eq
      cases split_eq
      simp only [List.cons_append, splitLexeme_block, splitTextBlock_closed block_eq behind other]
  · have no_block : ∀ inside, body ++ rest ≠ '"' :: '"' :: inside :=
      fun inside text_eq => is_block ⟨inside, text_eq⟩
    rw [splitLexeme_quoted no_block] at split_eq
    obtain ⟨kind_eq, quoted_eq⟩ := Prod.mk.inj split_eq
    -- An empty string must not be followed by a third quote, or it would open a block.
    have still_no_block : ∀ inside, body ++ other ≠ '"' :: '"' :: inside := by
      intro inside text_eq
      rcases body with _ | ⟨first, _ | ⟨second, more⟩⟩
      · exact splitQuoted_ne_nil quoted_eq behind rfl
      · simp only [List.cons_append, List.nil_append, List.cons.injEq] at text_eq
        obtain ⟨rfl, rfl⟩ := text_eq
        rcases begins_alike '"' rfl with is_space | first_eq
        · exact absurd is_space (by decide)
        · obtain ⟨after, rfl⟩ := List.head?_eq_some_iff.mp first_eq
          exact no_block after rfl
      · simp only [List.cons_append, List.cons.injEq] at text_eq
        obtain ⟨rfl, rfl, -⟩ := text_eq
        exact no_block (more ++ rest) rfl
    rw [splitLexeme_quoted still_no_block, splitQuoted_closed (by decide) quoted_eq behind other,
      kind_eq]

/-- What is read in front of a text is read in front of any other that begins alike, as well as in
front of a blank and at the end. -/
theorem Lexeme.Leads.replace {lexeme : Lexeme} (leads : lexeme.Leads rest) (behind : rest ≠ [])
    (begins_alike : ∀ next ∈ other.head?, next = ' ' ∨ rest.head? = some next) :
    lexeme.Leads other := by
  obtain ⟨c, body, text_eq, begins, split_eq⟩ := leads
  refine ⟨c, body, text_eq, begins.replace begins_alike, ?_⟩
  -- The first character settles the kind of a lexeme, and it is the same in both texts.
  by_cases is_string : c = '"'
  · subst is_string
    exact splitLexeme_string split_eq behind begins_alike
  · unfold splitLexeme at split_eq ⊢
    rw [if_neg is_string] at split_eq ⊢
    split at split_eq
    · next is_char =>
      obtain ⟨kind_eq, quoted_eq⟩ := Prod.mk.inj split_eq
      rw [if_pos is_char, splitQuoted_closed (by decide) quoted_eq behind other, kind_eq]
    · next no_char =>
      rw [if_neg no_char]
      split at split_eq
      · next is_word =>
        obtain ⟨kind_eq, word_eq⟩ := Prod.mk.inj split_eq
        obtain ⟨taken, left⟩ := Prod.mk.inj word_eq
        obtain ⟨taken, left⟩ := splitWord_replace (by decide) begins_alike taken left
        rw [if_pos is_word, taken, left, kind_eq]
      · next no_word =>
        rw [if_neg no_word]
        split at split_eq
        · next is_number =>
          obtain ⟨kind_eq, word_eq⟩ := Prod.mk.inj split_eq
          obtain ⟨taken, left⟩ := Prod.mk.inj word_eq
          obtain ⟨taken, left⟩ := splitWord_replace (by decide) begins_alike taken left
          rw [if_pos is_number, taken, left, kind_eq]
        · next no_number =>
          obtain ⟨kind_eq, mark_eq⟩ := Prod.mk.inj split_eq
          obtain ⟨rfl, -⟩ := Prod.mk.inj mark_eq
          rw [if_neg no_number, kind_eq]
          rfl

end Lookahead

/-! ## Neighbours in a source -/

/-- The lexeme that spells a token. -/
def Token.lexeme (token : Token) (spaced : Bool) : Lexeme :=
  ⟨spaced, token.kind, token.text⟩

/-- The token was read in front of a text that begins with the next token, or with a gap. -/
def Token.Precedes (token next : Token) : Prop :=
  ∃ rest, (token.lexeme false).Leads rest ∧ rest ≠ [] ∧
    (token.apart next = false → rest.head? = next.text.head?)

/-- Tokens as a source has them, one behind the other. -/
structure Consecutive (tokens : List Token) : Prop where
  neighbours : tokens.IsChain Token.Precedes
  read : ∀ token ∈ tokens, ∃ rest, (token.lexeme false).Leads rest

theorem Consecutive.of_within {run tokens : List Token} (consecutive : Consecutive tokens)
    (within : run <:+: tokens) : Consecutive run where
  neighbours := consecutive.neighbours.infix within
  read token member := consecutive.read token (within.subset member)

section Tokenize

variable {place start : Position} {c : Char} {text rest : List Char}

private theorem begins_of_skipGap {mode : GapMode}
    (gap_eq : skipGap mode place text = (start, c :: rest)) : Begins c rest := by
  fun_induction skipGap mode place text with
  | case1 => cases gap_eq
  | case2 _ _ ih | case3 _ _ ih | case4 _ _ _ _ _ _ ih | case6 _ _ _ ih | case7 _ _ ih
  | case8 _ _ _ _ ih => exact ih gap_eq
  | case5 place next more no_line no_block no_blank =>
    cases gap_eq
    refine ⟨by simpa using no_blank, fun is_slash next member => ?_⟩
    obtain ⟨after, rfl⟩ := List.head?_eq_some_iff.mp member
    constructor
    · rintro rfl
      exact no_line after is_slash rfl
    · rintro rfl
      exact no_block after is_slash rfl

theorem Position.length_le_offset (place : Position) (text : List Char) :
    place.offset + text.length ≤ (place.afterAll text).offset := by
  induction text generalizing place with
  | nil => exact Nat.le_refl _
  | cons c rest ih =>
    have rest_le := ih (place.after c)
    have size_pos := c.utf8Size_pos
    simp only [afterAll, after, List.foldl_cons, List.length_cons] at rest_le ⊢
    omega

/-- The first token begins the text if there is no gap in front of it. -/
theorem head?_tokenizeAt : ∀ next ∈ (tokenizeAt place text).head?, text ≠ [] ∧
    (next.start ≤ place.offset → text.head? = next.text.head?) := by
  intro next member
  rw [tokenizeAt.eq_def] at member
  split at member
  · cases member
  · next start c rest gap_eq =>
    cases member
    obtain ⟨gap, text_eq, start_eq⟩ := skipGap_split .blank place text
    rw [gap_eq] at text_eq start_eq
    refine ⟨by simp [text_eq], fun no_gap => ?_⟩
    have gap_le : place.offset + gap.length ≤ start.offset := by
      rw [show start = place.afterAll gap from start_eq]
      exact place.length_le_offset gap
    have no_gap : start.offset ≤ place.offset := no_gap
    obtain rfl : gap = [] := List.eq_nil_of_length_eq_zero (by omega)
    rw [text_eq]
    rfl

theorem consecutive_tokenizeAt (place : Position) (text : List Char) :
    Consecutive (tokenizeAt place text) := by
  fun_induction tokenizeAt place text with
  | case1 => exact ⟨.nil, by simp⟩
  | case2 place text start c rest gap_eq lexeme stop ih =>
    have rest_eq : lexeme.2.1 ++ lexeme.2.2 = rest := splitLexeme_append c rest
    have leads : (Lexeme.mk false lexeme.1 (c :: lexeme.2.1)).Leads lexeme.2.2 :=
      ⟨c, lexeme.2.1, rfl, rest_eq ▸ begins_of_skipGap gap_eq, by rw [rest_eq]⟩
    refine ⟨List.isChain_cons.mpr ⟨fun next member => ?_, ih.neighbours⟩,
      List.forall_mem_cons.mpr ⟨⟨lexeme.2.2, leads⟩, ih.read⟩⟩
    obtain ⟨nonempty, begins⟩ := head?_tokenizeAt next member
    refine ⟨lexeme.2.2, leads, nonempty, fun adjacent => begins ?_⟩
    simpa [Token.apart] using adjacent

end Tokenize

/-! ## Runs -/

/-- The lexemes of a run behind a token. -/
def lexemesBehind (previous : Token) : List Token → List Lexeme
  | [] => []
  | token :: rest => token.lexeme (previous.apart token) :: lexemesBehind token rest

def lexemes : List Token → List Lexeme
  | [] => []
  | token :: rest => token.lexeme false :: lexemesBehind token rest

section Run

variable {run : List Token}

private theorem joinTokens_cons (token : Token) (rest : List Token) :
    joinTokens (token :: rest) = token.text ++ printed (lexemesBehind token rest) := by
  induction rest generalizing token with
  | nil => simp [joinTokens, lexemesBehind, printed]
  | cons next rest ih =>
    rw [joinTokens, ih]
    simp [lexemesBehind, printed, Lexeme.gap, Token.lexeme]

private theorem printed_lexemes (run : List Token) : printed (lexemes run) = joinTokens run := by
  cases run with
  | nil => rfl
  | cons token rest =>
    rw [joinTokens_cons]
    rfl

/-- Joined with others or not, a token leads what stands behind it in the text. -/
theorem Consecutive.readable (consecutive : Consecutive run) : Readable (lexemes run) := by
  cases run with
  | nil => exact .nil
  | cons token rest =>
    suffices led : ∀ spaced, Readable (token.lexeme spaced :: lexemesBehind token rest) from
      led false
    induction rest generalizing token with
    | nil =>
      intro spaced
      obtain ⟨behind, leads⟩ := consecutive.read token List.mem_cons_self
      refine .cons (?_ : (token.lexeme false).Leads []) .nil
      by_cases at_end : behind = []
      · exact at_end ▸ leads
      · exact leads.replace at_end (by simp)
    | cons next rest ih =>
      intro spaced
      obtain ⟨⟨behind, leads, nonempty, adjacent⟩, neighbours⟩ :=
        List.isChain_cons_cons.mp consecutive.neighbours
      obtain ⟨token_read, read⟩ := List.forall_mem_cons.mp consecutive.read
      refine .cons (leads.replace nonempty fun c member => ?_) (ih next ⟨neighbours, read⟩ _)
      -- Behind the token stands a blank in place of a gap, or else the next token.
      obtain ⟨_, first, body, text_eq, -⟩ := read next List.mem_cons_self
      have text_eq : next.text = first :: body := text_eq
      cases is_apart : token.apart next with
      | true =>
        simp [lexemesBehind, printed, Lexeme.gap, Token.lexeme, is_apart] at member
        exact .inl member.symm
      | false =>
        simp [lexemesBehind, printed, Lexeme.gap, Token.lexeme, is_apart, text_eq] at member
        right
        rw [adjacent is_apart, text_eq, ← member]
        rfl

private theorem contents_placed (line : List Lexeme) (place : Position) :
    (placed place line).map Token.content = line.map fun lexeme => (lexeme.kind, lexeme.text) := by
  induction line generalizing place with
  | nil => rfl
  | cons lexeme rest ih => rw [placed, List.map_cons, List.map_cons, ih]; rfl

private theorem gaps_placed (lexeme : Lexeme) (rest : List Lexeme) (place : Position) :
    gaps (placed place (lexeme :: rest)) = rest.map Lexeme.spaced := by
  induction rest generalizing lexeme place with
  | nil => rfl
  | cons next rest ih =>
    have behind_eq := ih next (lexeme.stop place)
    rw [placed, placed, gaps_cons, apart_token, ← placed, behind_eq, List.map_cons]

private theorem contents_lexemesBehind (previous : Token) (run : List Token) :
    ((lexemesBehind previous run).map fun lexeme => (lexeme.kind, lexeme.text))
      = run.map Token.content := by
  induction run generalizing previous with
  | nil => rfl
  | cons token rest ih => rw [lexemesBehind, List.map_cons, ih, List.map_cons]; rfl

private theorem gaps_lexemesBehind (token : Token) (rest : List Token) :
    (lexemesBehind token rest).map Lexeme.spaced = gaps (token :: rest) := by
  induction rest generalizing token with
  | nil => rfl
  | cons next rest ih => rw [lexemesBehind, List.map_cons, ih, gaps_cons]; rfl

private theorem sameTokens_placed (run : List Token) (place : Position) :
    SameTokens (placed place (lexemes run)) run := by
  cases run with
  | nil => exact ⟨rfl, rfl⟩
  | cons token rest =>
    constructor
    · rw [contents_placed, lexemes, List.map_cons, contents_lexemesBehind]
      rfl
    · rw [lexemes, gaps_placed, gaps_lexemesBehind]

/-- The text of consecutive tokens is lexed into the same tokens. -/
theorem Consecutive.sameTokens (consecutive : Consecutive run) :
    SameTokens (tokenize (joinTokens run)) run := by
  rw [tokenize, ← printed_lexemes, tokenizeAt_readable consecutive.readable]
  exact sameTokens_placed run .start

end Run

/-- Joining a run of the tokens of a source loses no token of it: the text is lexed into the kinds
and texts of the run, and joining these gives the text back. -/
theorem tokenize_joinTokens {source : List Char} {run : List Token}
    (within : run <:+: tokenize source) :
    (tokenize (joinTokens run)).map Token.content = run.map Token.content ∧
      joinTokens (tokenize (joinTokens run)) = joinTokens run := by
  have consecutive := (consecutive_tokenizeAt .start source).of_within within
  exact ⟨consecutive.sameTokens.contents, consecutive.sameTokens.joinTokens_eq⟩

/-- A run from the middle of a source. The slashes in it are kept apart, or they would open a
comment, and so are the quotes, or they would open a text block. -/
def fractionRun : List Token :=
  ((tokenize "x = a/ // half\n /b + \"\"/**/\"\\\"\" + 'c\n;".toList).drop 2).take 7

theorem tokenize_joinTokens_fraction :
    fractionRun <:+: tokenize "x = a/ // half\n /b + \"\"/**/\"\\\"\" + 'c\n;".toList ∧
      joinTokens fractionRun = "a/ /b + \"\" \"\\\"\"".toList ∧
      (tokenize (joinTokens fractionRun)).map Token.content = fractionRun.map Token.content ∧
      joinTokens (tokenize (joinTokens fractionRun)) = joinTokens fractionRun := by
  have within := (List.take_prefix 7 _).isInfix.trans (List.drop_suffix 2
    (tokenize "x = a/ // half\n /b + \"\"/**/\"\\\"\" + 'c\n;".toList)).isInfix
  obtain ⟨contents, text_eq⟩ := tokenize_joinTokens within
  exact ⟨within, by decide +kernel, contents, text_eq⟩

end SuiteMigration.Outline
