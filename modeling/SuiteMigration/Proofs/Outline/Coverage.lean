import SuiteMigration.Proofs.Outline.Remainder
import SuiteMigration.Proofs.Outline.Token

/-!
# Nothing in a body is lost

A body, well formed or not, is cut into pieces in the order of the source. Every statement found is
one piece, and every token outside the statements is a brace of a block, a semicolon, a lead word or
a parenthesis around resources.
-/
namespace SuiteMigration.Outline

/-- A stretch of a body that begins where a statement can begin. -/
inductive Piece where
  | opening (brace : Token)
  | closing (brace : Token)
  | empty (semicolon : Token)
  | lead (keyword : Token)
  | resources (keyword opener : Token) (inside : List Token) (closer : Option Token)
  | head (keyword : Token) (group : List Token)
  | simple (first : Token) (others : List Token) (semicolon : Option Token)

def Piece.tokens : Piece → List Token
  | .opening brace | .closing brace => [brace]
  | .empty semicolon => [semicolon]
  | .lead keyword => [keyword]
  | .resources keyword opener inside closer => keyword :: opener :: (inside ++ closer.toList)
  | .head keyword group => keyword :: group
  | .simple first others semicolon => first :: (others ++ semicolon.toList)

/-- The statement that a piece reports, on the line of its first token. -/
def Piece.statement? : Piece → Option Statement
  | .resources keyword _ inside _ => some (statementOf inside keyword.line)
  | .head keyword group => some (statementOf (keyword :: group) keyword.line)
  | .simple first others _ => some (statementOf (first :: others) first.line)
  | _ => none

/-- The tokens of a piece outside its statement are what the kind of the piece says. -/
def Piece.Genuine : Piece → Prop
  | .opening brace => brace.isPunct '\x7b' = true
  | .closing brace => brace.isPunct '\x7d' = true
  | .empty semicolon => semicolon.isPunct ';' = true
  | .lead keyword => keyword.isWord leadWords = true
  | .resources keyword opener _ closer =>
    keyword.isWord ["try"] = true ∧ opener.isPunct '(' = true ∧
      ∀ mark ∈ closer, mark.isPunct ')' = true
  | .head keyword group =>
    keyword.isWord headWords = true ∧ ∀ mark ∈ group.head?, mark.isPunct '(' = true
  | .simple first _ semicolon =>
    first.isPunct '\x7b' = false ∧ first.isPunct '\x7d' = false ∧ first.isPunct ';' = false ∧
      first.isWord headWords = false ∧ first.isWord leadWords = false ∧
      ∀ mark ∈ semicolon, mark.isPunct ';' = true

/-- The pieces of a body in which `depth` blocks are open. Its own brace comes last, and a simple
statement without a semicolon stands in front of a brace or at the end of the text. -/
def Covers : Nat → List Piece → Prop
  | _, [] => True
  | depth, .opening _ :: rest => Covers (depth + 1) rest
  | 0, .closing _ :: rest => rest = []
  | depth + 1, .closing _ :: rest => Covers depth rest
  | _, .resources _ _ _ none :: rest => rest = []
  | depth, .simple _ _ none :: rest =>
    (∀ piece ∈ rest.head?, ∃ brace, piece = .closing brace) ∧ Covers depth rest
  | depth, _ :: rest => Covers depth rest

private theorem splitGroup_head (tokens : List Token) :
    ∀ mark ∈ (splitGroup tokens).1.head?, mark.isPunct '(' = true := by
  unfold splitGroup
  split
  · simp
  · split
    · simp_all
    · simp

/-- The pieces that account for a result of the reader. -/
structure Pieces (depth : Nat) (tokens : List Token) (result : List Statement × List Token)
    (pieces : List Piece) : Prop where
  tokens_eq : pieces.flatMap Piece.tokens ++ result.2 = tokens
  statements_eq : pieces.filterMap Piece.statement? = result.1
  genuine : ∀ piece ∈ pieces, piece.Genuine
  covers : Covers depth pieces

theorem Pieces.cons {inner depth : Nat} {rest : List Token}
    {result : List Statement × List Token} {pieces : List Piece}
    (found : Pieces inner rest result pieces) {piece : Piece} (genuine : piece.Genuine)
    (covers : Covers depth (piece :: pieces)) :
    Pieces depth (piece.tokens ++ rest) (piece.statement?.toList ++ result.1, result.2)
      (piece :: pieces) where
  tokens_eq := by rw [List.flatMap_cons, List.append_assoc, found.tokens_eq]
  statements_eq := by
    rw [List.filterMap_cons, ← found.statements_eq]
    cases piece.statement? <;> rfl
  genuine := List.forall_mem_cons.mpr ⟨genuine, found.genuine⟩
  covers := covers

/-- Only one kind of piece begins with a closing brace. -/
theorem Piece.eq_closing {piece : Piece} (genuine : piece.Genuine) {mark : Token}
    (first : piece.tokens.head? = some mark) (is_brace : mark.isPunct '\x7d' = true) :
    ∃ brace, piece = .closing brace := by
  have not_word := fun words (is_word : mark.isWord words = true) =>
    Bool.eq_false_iff.mp (Token.isWord_of_isPunct is_brace words) is_word
  have not_mark := fun other (is_other : mark.isPunct other = true) (ne : other ≠ '\x7d') =>
    ne (Token.isPunct_unique is_other is_brace)
  -- Every other kind begins with a word or with a mark that is no closing brace.
  cases piece <;> cases first
  case closing => exact ⟨_, rfl⟩
  case opening => exact absurd (by decide) (not_mark _ genuine)
  case empty => exact absurd (by decide) (not_mark _ genuine)
  case lead => exact absurd genuine (not_word _)
  case resources => exact absurd genuine.1 (not_word _)
  case head => exact absurd genuine.1 (not_word _)
  case simple => simp [genuine.2.1] at is_brace

theorem Pieces.head?_eq_closing {depth : Nat} {tokens : List Token}
    {result : List Statement × List Token} {pieces : List Piece}
    (found : Pieces depth tokens result pieces)
    (is_brace : ∀ mark ∈ tokens.head?, mark.isPunct '\x7d' = true) :
    ∀ piece ∈ pieces.head?, ∃ brace, piece = .closing brace := by
  intro piece member
  cases pieces with
  | nil => cases member
  | cons first others =>
    obtain rfl : first = piece := Option.some.inj member
    have tokens_eq := found.tokens_eq
    rw [List.flatMap_cons, List.append_assoc] at tokens_eq
    cases first_eq : first.tokens with
    | nil => cases first <;> cases first_eq
    | cons mark more =>
      have head_eq : tokens.head? = some mark := by rw [← tokens_eq, first_eq]; rfl
      exact Piece.eq_closing (found.genuine _ List.mem_cons_self) (by rw [first_eq]; rfl)
        (is_brace mark head_eq)

theorem readBody_pieces (depth : Nat) (tokens : List Token) :
    ∃ pieces, Pieces depth tokens (readBody depth tokens) pieces := by
  fun_induction readBody depth tokens with
  | case1 depth => exact ⟨[], rfl, rfl, by simp, trivial⟩
  -- The closing brace of the body, and below it that of an inner block.
  | case2 token rest is_brace =>
    exact ⟨[.closing token], rfl, rfl, by simpa [Piece.Genuine] using is_brace, rfl⟩
  | case3 token rest is_brace outer ih =>
    obtain ⟨pieces, found⟩ := ih
    have genuine : (Piece.closing token).Genuine := is_brace
    exact ⟨_, found.cons genuine found.covers⟩
  | case4 depth token rest _ is_brace ih =>
    obtain ⟨pieces, found⟩ := ih
    have genuine : (Piece.opening token).Genuine := is_brace
    exact ⟨_, found.cons genuine found.covers⟩
  | case5 depth token rest _ _ is_end ih =>
    obtain ⟨pieces, found⟩ := ih
    have genuine : (Piece.empty token).Genuine := is_end
    exact ⟨_, found.cons genuine found.covers⟩
  -- A head with the group behind it.
  | case6 depth token rest _ _ _ is_head head ih =>
    obtain ⟨pieces, found⟩ := ih
    have genuine : (Piece.head token head.1).Genuine := ⟨is_head, splitGroup_head rest⟩
    have tokens_eq : head.1 ++ head.2 = rest := splitGroup_append rest
    refine ⟨.head token head.1 :: pieces, ?_⟩
    rw [← tokens_eq]
    exact found.cons genuine found.covers
  -- Resources. The text may end before their closing parenthesis.
  | case7 depth token _ _ _ _ is_lead next inside is_try resources ih =>
    obtain ⟨pieces, found⟩ := ih
    rw [Bool.and_eq_true] at is_try
    have tokens_eq : resources.1 ++ resources.2 = inside := splitAtClose_append _ _ _ _
    have closed : ∀ mark ∈ resources.2.head?, mark.isPunct ')' = true := splitAtClose_rest _ _ _ _
    cases rest_eq : resources.2 with
    | nil =>
      refine ⟨[.resources token next resources.1 none], ?_, ?_, ?_, rfl⟩
      · rw [rest_eq, List.append_nil] at tokens_eq
        simp [Piece.tokens, emit, readBody, tokens_eq]
      · simp [Piece.statement?, emit, readBody]
      · simp [Piece.Genuine, is_try]
    | cons mark after =>
      rw [rest_eq] at tokens_eq found closed
      have genuine : (Piece.resources token next resources.1 (some mark)).Genuine :=
        ⟨is_try.1, is_try.2, by simpa using closed⟩
      have result := found.cons genuine found.covers
      refine ⟨.resources token next resources.1 (some mark) :: pieces, ?_⟩
      simpa [Piece.tokens, Piece.statement?, emit, ← tokens_eq] using result
  | case8 depth token _ _ _ _ is_lead next inside _ ih =>
    obtain ⟨pieces, found⟩ := ih
    have genuine : (Piece.lead token).Genuine := is_lead
    exact ⟨_, found.cons genuine found.covers⟩
  | case9 depth token _ _ _ _ is_lead =>
    exact ⟨[.lead token], rfl, rfl, by simpa [Piece.Genuine] using is_lead, trivial⟩
  -- A plain statement. If nothing ended it, a closing brace comes next or the text is over,
  -- which is what the cover asks for.
  | case10 depth token rest no_closing no_opening no_end no_head no_lead run ih =>
    obtain ⟨pieces, found⟩ := ih
    obtain ⟨semicolon, tokens_eq, is_end, is_brace⟩ := splitStatement_append 0 (token :: rest)
    simp only [Bool.not_eq_true] at no_closing no_opening no_end no_head no_lead
    cases run_eq : run.1 with
    | nil =>
      -- The first token neither ends the statement nor closes a block.
      rw [run_eq, List.nil_append] at tokens_eq
      cases semicolon with
      | none =>
        have rest_eq : run.2 = token :: rest := tokens_eq
        have is_closing := is_brace rfl token (by rw [rest_eq]; rfl)
        simp [no_closing] at is_closing
      | some mark =>
        obtain rfl : mark = token := (List.cons.inj tokens_eq).1
        simp [no_end] at is_end
    | cons first others =>
      rw [run_eq, List.cons_append] at tokens_eq
      obtain ⟨rfl, rest_eq⟩ := List.cons.inj tokens_eq
      have genuine : (Piece.simple first others semicolon).Genuine :=
        ⟨no_opening, no_closing, no_end, no_head, no_lead, is_end⟩
      have covers : Covers depth (.simple first others semicolon :: pieces) := by
        cases semicolon with
        | none => exact ⟨found.head?_eq_closing (is_brace rfl), found.covers⟩
        | some mark => exact found.covers
      have piece_eq : (Piece.simple first others semicolon).tokens ++ run.2 = first :: rest := by
        simp only [Piece.tokens, List.cons_append, List.append_assoc]
        exact tokens_eq
      have result := found.cons genuine covers
      rw [piece_eq] at result
      exact ⟨_, result⟩

/-- A piece reports its statement on the line of its first token. -/
theorem Piece.line_sublist (piece : Piece) :
    (piece.statement?.toList.map Statement.line).Sublist (piece.tokens.map Token.line) := by
  cases piece <;> simp [Piece.statement?, Piece.tokens, statementOf]

theorem Piece.lines_sublist (pieces : List Piece) :
    ((pieces.filterMap Piece.statement?).map Statement.line).Sublist
      ((pieces.flatMap Piece.tokens).map Token.line) := by
  induction pieces with
  | nil => exact List.Sublist.refl _
  | cons piece rest ih =>
    have both := List.Sublist.append piece.line_sublist ih
    rw [← List.map_append, ← List.map_append, ← List.flatMap_cons] at both
    have statements_eq : (piece :: rest).filterMap Piece.statement?
        = piece.statement?.toList ++ rest.filterMap Piece.statement? := by
      rw [List.filterMap_cons]
      cases piece.statement? <;> rfl
    rw [statements_eq]
    exact both

/-- Where the lines of the tokens never decrease, those of the statements do not either. -/
theorem Pieces.lines_pairwise {depth : Nat} {tokens : List Token}
    {result : List Statement × List Token} {pieces : List Piece}
    (found : Pieces depth tokens result pieces) (sorted : tokens.Pairwise (·.line ≤ ·.line)) :
    result.1.Pairwise (·.line ≤ ·.line) := by
  rw [← found.statements_eq]
  rw [← found.tokens_eq] at sorted
  have tokens_sorted := (List.pairwise_append.mp sorted).1
  have lines_sorted := (List.pairwise_map.mpr tokens_sorted).sublist (Piece.lines_sublist pieces)
  exact List.pairwise_map.mp lines_sorted

end SuiteMigration.Outline
