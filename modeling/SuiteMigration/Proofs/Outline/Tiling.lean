import Mathlib.Data.String.Basic
import SuiteMigration.Proofs.Outline.Lexing

/-!
# Tokens tile their source

A source is its tokens and the gaps around them, in turn and without a remainder. The offsets of a
token are where its text stands in the bytes of the source, its line is counted from the start, and
a gap is white space and comments only.
-/
namespace SuiteMigration.Outline

open Text String

/-! ## Gaps -/

/-- White space and comments. A comment may lack its end only where the source ends with it. -/
inductive IsGap (atEnd : Bool) : List Char → Prop where
  | nil : IsGap atEnd []
  | blank {c : Char} {rest : List Char} (is_blank : isBlank c = true) (behind : IsGap atEnd rest) :
      IsGap atEnd (c :: rest)
  | line {body rest : List Char} (one_line : '\n' ∉ body) (behind : IsGap atEnd rest) :
      IsGap atEnd ('/' :: '/' :: (body ++ '\n' :: rest))
  | block {body rest : List Char} (no_end : ¬['*', '/'] <:+: body) (behind : IsGap atEnd rest) :
      IsGap atEnd ('/' :: '*' :: (body ++ '*' :: '/' :: rest))
  | openLine {body : List Char} (one_line : '\n' ∉ body) (last : atEnd = true) :
      IsGap atEnd ('/' :: '/' :: body)
  | openBlock {body : List Char} (no_end : ¬['*', '/'] <:+: body) (last : atEnd = true) :
      IsGap atEnd ('/' :: '*' :: body)

/-- What is left of a gap for a reader that stands in it. -/
def LeavesGap (atEnd : Bool) : GapMode → List Char → Prop
  | .blank, text => IsGap atEnd text
  | .lineComment, text => ∃ body, '\n' ∉ body ∧
      (atEnd = true ∧ text = body ∨ ∃ rest, text = body ++ '\n' :: rest ∧ IsGap atEnd rest)
  | .blockComment, text => ∃ body, ¬['*', '/'] <:+: body ∧
      (atEnd = true ∧ text = body ∨ ∃ rest, text = body ++ '*' :: '/' :: rest ∧ IsGap atEnd rest)

private theorem leavesGap_nil (mode : GapMode) : LeavesGap true mode [] := by
  cases mode with
  | blank => exact .nil
  | lineComment => exact ⟨[], by simp, .inl ⟨rfl, rfl⟩⟩
  | blockComment => exact ⟨[], by simp, .inl ⟨rfl, rfl⟩⟩

section Comment

variable {atEnd : Bool} {c : Char} {text : List Char}

theorem IsGap.ofLine (leaves : LeavesGap atEnd .lineComment text) :
    IsGap atEnd ('/' :: '/' :: text) := by
  obtain ⟨body, one_line, ⟨last, rfl⟩ | ⟨rest, rfl, behind⟩⟩ := leaves
  · exact .openLine one_line last
  · exact .line one_line behind

theorem IsGap.ofBlock (leaves : LeavesGap atEnd .blockComment text) :
    IsGap atEnd ('/' :: '*' :: text) := by
  obtain ⟨body, no_end, ⟨last, rfl⟩ | ⟨rest, rfl, behind⟩⟩ := leaves
  · exact .openBlock no_end last
  · exact .block no_end behind

private theorem leavesGap_lineComment
    (leaves : LeavesGap atEnd (if c = '\n' then .blank else .lineComment) text) :
    LeavesGap atEnd .lineComment (c :: text) := by
  by_cases is_feed : c = '\n'
  · subst is_feed
    exact ⟨[], by simp, .inr ⟨text, rfl, leaves⟩⟩
  · rw [if_neg is_feed] at leaves
    obtain ⟨body, one_line, ⟨last, rfl⟩ | ⟨rest, rfl, behind⟩⟩ := leaves
    · exact ⟨c :: text, by simp [Ne.symm is_feed, one_line], .inl ⟨last, rfl⟩⟩
    · exact ⟨c :: body, by simp [Ne.symm is_feed, one_line], .inr ⟨rest, rfl, behind⟩⟩

/-- Where the comment does not end here, it goes on for a character. -/
theorem leavesGap_blockComment (goes_on : ∀ rest, c :: text ≠ '*' :: '/' :: rest)
    (leaves : LeavesGap atEnd .blockComment text) : LeavesGap atEnd .blockComment (c :: text) := by
  obtain ⟨body, no_end, ends⟩ := leaves
  have still_no_end : ¬['*', '/'] <:+: c :: body := by
    rw [List.infix_cons_iff]
    rintro (begins | inside)
    · obtain ⟨more, body_eq⟩ := begins
      obtain ⟨rfl, rfl⟩ := List.cons.inj body_eq
      obtain ⟨-, rfl⟩ | ⟨rest, rfl, -⟩ := ends
      · exact goes_on _ rfl
      · exact goes_on _ rfl
    · exact no_end inside
  refine ⟨c :: body, still_no_end, ?_⟩
  obtain ⟨last, rfl⟩ | ⟨rest, rfl, behind⟩ := ends
  · exact .inl ⟨last, rfl⟩
  · exact .inr ⟨rest, rfl, behind⟩

end Comment

/-- What is passed over is a gap, and one with a comment left open only reaches the end. -/
theorem isGap_of_skipGap (mode : GapMode) (place : Position) (text : List Char) :
    ∃ gap, text = gap ++ (skipGap mode place text).2 ∧
      (skipGap mode place text).1 = place.afterAll gap ∧
      LeavesGap (skipGap mode place text).2.isEmpty mode gap := by
  fun_induction skipGap mode place text with
  | case1 mode place => exact ⟨[], rfl, rfl, leavesGap_nil mode⟩
  | case2 place rest ih =>
    obtain ⟨gap, text_eq, place_eq, leaves⟩ := ih
    exact ⟨'/' :: '/' :: gap, by rw [List.cons_append, List.cons_append, ← text_eq], place_eq,
      .ofLine leaves⟩
  | case3 place rest ih =>
    obtain ⟨gap, text_eq, place_eq, leaves⟩ := ih
    exact ⟨'/' :: '*' :: gap, by rw [List.cons_append, List.cons_append, ← text_eq], place_eq,
      .ofBlock leaves⟩
  | case4 place c rest _ _ is_blank ih =>
    obtain ⟨gap, text_eq, place_eq, leaves⟩ := ih
    exact ⟨c :: gap, by rw [List.cons_append, ← text_eq], place_eq, .blank is_blank leaves⟩
  | case5 => exact ⟨[], rfl, rfl, .nil⟩
  | case6 place c rest ih =>
    obtain ⟨gap, text_eq, place_eq, leaves⟩ := ih
    exact ⟨c :: gap, by rw [List.cons_append, ← text_eq], place_eq, leavesGap_lineComment leaves⟩
  | case7 place rest ih =>
    obtain ⟨gap, text_eq, place_eq, leaves⟩ := ih
    exact ⟨'*' :: '/' :: gap, by rw [List.cons_append, List.cons_append, ← text_eq], place_eq,
      [], by simp, .inr ⟨gap, rfl, leaves⟩⟩
  | case8 place c rest goes_on ih =>
    obtain ⟨gap, text_eq, place_eq, leaves⟩ := ih
    refine ⟨c :: gap, by rw [List.cons_append, ← text_eq], place_eq,
      leavesGap_blockComment ?_ leaves⟩
    intro more gap_eq
    obtain ⟨rfl, rfl⟩ := List.cons.inj gap_eq
    exact goes_on _ rfl text_eq

section Alone

variable {atEnd : Bool} {body rest gap : List Char}

private theorem skipGap_inLine (c : Char) (place : Position) :
    skipGap .lineComment place (c :: rest)
    = skipGap (if c = '\n' then .blank else .lineComment) (place.after c) rest := by
  rw [skipGap.eq_def]
  split <;> simp_all

private theorem skipGap_line (one_line : '\n' ∉ body)
    (behind : ∀ place, (skipGap .blank place rest).2 = []) (place : Position) :
    (skipGap .lineComment place (body ++ '\n' :: rest)).2 = [] := by
  induction body generalizing place with
  | nil => exact behind _
  | cons c body ih =>
    obtain ⟨no_feed, one_line⟩ := List.ne_and_not_mem_of_not_mem_cons one_line
    rw [List.cons_append, skipGap_inLine, if_neg (Ne.symm no_feed)]
    exact ih one_line _

private theorem skipGap_openLine (one_line : '\n' ∉ body) (place : Position) :
    (skipGap .lineComment place body).2 = [] := by
  induction body generalizing place with
  | nil => rfl
  | cons c body ih =>
    obtain ⟨no_feed, one_line⟩ := List.ne_and_not_mem_of_not_mem_cons one_line
    rw [skipGap_inLine, if_neg (Ne.symm no_feed)]
    exact ih one_line _

private theorem skipGap_inBlock {c : Char} (goes_on : ∀ more, c :: rest ≠ '*' :: '/' :: more)
    (place : Position) :
    skipGap .blockComment place (c :: rest) = skipGap .blockComment (place.after c) rest := by
  rw [skipGap.eq_def]
  split <;> simp_all

private theorem skipGap_block (no_end : ¬['*', '/'] <:+: body)
    (behind : ∀ place, (skipGap .blank place rest).2 = []) (place : Position) :
    (skipGap .blockComment place (body ++ '*' :: '/' :: rest)).2 = [] := by
  induction body generalizing place with
  | nil => exact behind _
  | cons c body ih =>
    have goes_on : ∀ more, c :: (body ++ '*' :: '/' :: rest) ≠ '*' :: '/' :: more := by
      intro more text_eq
      obtain ⟨rfl, behind_eq⟩ := List.cons.inj text_eq
      cases body with
      | nil => cases behind_eq
      | cons next body =>
        obtain rfl := (List.cons.inj behind_eq).1
        exact no_end ⟨[], body, rfl⟩
    rw [List.cons_append, skipGap_inBlock goes_on]
    exact ih (mt List.infix_cons no_end) _

private theorem skipGap_openBlock (no_end : ¬['*', '/'] <:+: body) (place : Position) :
    (skipGap .blockComment place body).2 = [] := by
  induction body generalizing place with
  | nil => rfl
  | cons c body ih =>
    have goes_on : ∀ more, c :: body ≠ '*' :: '/' :: more := by
      intro more text_eq
      exact no_end ⟨[], more, text_eq.symm⟩
    rw [skipGap_inBlock goes_on]
    exact ih (mt List.infix_cons no_end) _

private theorem skipGap_of_isGap (is_gap : IsGap atEnd gap) (place : Position) :
    (skipGap .blank place gap).2 = [] := by
  induction is_gap generalizing place with
  | nil => rfl
  | @blank c rest is_blank _ ih =>
    have no_slash : c ≠ '/' := by
      rintro rfl
      exact absurd is_blank (by decide)
    rw [skipGap.eq_def]
    split <;> simp_all
  | line one_line _ ih => exact skipGap_line one_line ih _
  | block no_end _ ih => exact skipGap_block no_end ih _
  | openLine one_line => exact skipGap_openLine one_line _
  | openBlock no_end => exact skipGap_openBlock no_end _

/-- Lexed by itself a gap gives no token. -/
theorem tokenizeAt_of_isGap (is_gap : IsGap atEnd gap) (place : Position) :
    tokenizeAt place gap = [] := by
  have nothing := skipGap_of_isGap is_gap place
  rw [tokenizeAt.eq_def]
  split
  · rfl
  · next gap_eq =>
    rw [gap_eq] at nothing
    cases nothing

end Alone

/-! ## Tiling -/

/-- What stands behind a first part of a source is its tokens, each behind a gap, and a last gap. -/
inductive Tiles : (before : List Char) → List Token → (behind : List Char) → Prop where
  | last {before gap : List Char} (is_gap : IsGap true gap) : Tiles before [] gap
  | token {before gap rest : List Char} {token : Token} {tokens : List Token}
      (is_gap : IsGap false gap) (nonempty : token.text ≠ [])
      (start_eq : token.start = utf8Len (before ++ gap))
      (stop_eq : token.stop = utf8Len (before ++ gap ++ token.text))
      (line_eq : token.line = 1 + (before ++ gap).count '\n')
      (behind : Tiles (before ++ gap ++ token.text) tokens rest) :
      Tiles before (token :: tokens) (gap ++ token.text ++ rest)

/-- The place behind a first part of a source. -/
def placeAfter (before : List Char) : Position := Position.start.afterAll before

theorem Position.offset_afterAll (place : Position) (text : List Char) :
    (place.afterAll text).offset = place.offset + utf8Len text := by
  induction text generalizing place with
  | nil => rfl
  | cons c rest ih =>
    have step : ((place.after c).afterAll rest).offset = _ := ih (place.after c)
    have after_eq : (place.after c).offset = place.offset + c.utf8Size := rfl
    rw [show place.afterAll (c :: rest) = (place.after c).afterAll rest from rfl, step, after_eq,
      utf8Len_cons]
    omega

theorem Position.afterAll_append (place : Position) (first second : List Char) :
    (place.afterAll first).afterAll second = place.afterAll (first ++ second) :=
  List.foldl_append.symm

private theorem offset_placeAfter (before : List Char) :
    (placeAfter before).offset = utf8Len before := by
  rw [placeAfter, Position.offset_afterAll]
  exact Nat.zero_add _

private theorem line_placeAfter (before : List Char) :
    (placeAfter before).line = 1 + before.count '\n' :=
  Position.start.line_afterAll before

private theorem tokenizeAt_tiles (place : Position) (behind : List Char) :
    ∀ before, place = placeAfter before → Tiles before (tokenizeAt place behind) behind := by
  fun_induction tokenizeAt place behind with
  | case1 place behind start gap_eq =>
    intro before _
    obtain ⟨gap, text_eq, -, is_gap⟩ := isGap_of_skipGap .blank place behind
    rw [gap_eq] at text_eq is_gap
    rw [text_eq, List.append_nil]
    exact .last is_gap
  | case2 place behind start c rest gap_eq lexeme stop ih =>
    intro before place_eq
    obtain ⟨gap, text_eq, start_eq, is_gap⟩ := isGap_of_skipGap .blank place behind
    rw [gap_eq] at text_eq start_eq is_gap
    -- The text is the gap, the lexeme and what is lexed later.
    have rest_eq : lexeme.2.1 ++ lexeme.2.2 = rest := splitLexeme_append c rest
    have behind_eq : behind = gap ++ c :: lexeme.2.1 ++ lexeme.2.2 := by
      rw [List.append_assoc, List.cons_append, rest_eq]
      exact text_eq
    have start_place : start = placeAfter (before ++ gap) := by
      rw [show start = place.afterAll gap from start_eq, place_eq]
      exact Position.afterAll_append _ _ _
    have stop_place : stop = placeAfter (before ++ gap ++ c :: lexeme.2.1) := by
      rw [show stop = start.afterAll (c :: lexeme.2.1) from rfl, start_place]
      exact Position.afterAll_append _ _ _
    conv => rhs; rw [behind_eq]
    refine .token is_gap (by simp) ?_ ?_ ?_ (ih _ stop_place)
    · rw [start_place, offset_placeAfter]
    · rw [stop_place, offset_placeAfter]
    · rw [start_place, line_placeAfter]

/-! ## Spans -/

/-- The text between two byte offsets of a source. -/
def between (source : String) (start stop : Nat) : String :=
  Pos.Raw.extract source ⟨start⟩ ⟨stop⟩

/-- The token is a stretch of the source, at the offsets and on the line it names. -/
structure Token.Spans (token : Token) (source : String) : Prop where
  start_lt_stop : token.start < token.stop
  stop_le_size : token.stop ≤ source.utf8ByteSize
  start_valid : Pos.Raw.IsValid source ⟨token.start⟩
  stop_valid : Pos.Raw.IsValid source ⟨token.stop⟩
  text_eq : between source token.start token.stop = token.name
  line_eq : token.line = 1 + (between source 0 token.start).toList.count '\n'

/-- The stretches in front of the tokens and behind the last one, from an offset on. -/
def gapsFrom (source : String) (offset : Nat) : List Token → List String
  | [] => [between source offset source.utf8ByteSize]
  | token :: rest => between source offset token.start :: gapsFrom source token.stop rest

/-- Gaps and texts in turn. -/
def inTurn : List String → List String → String
  | gap :: gaps, text :: texts => gap ++ text ++ inTurn gaps texts
  | gaps, _ => String.join gaps

private theorem gapsFrom_ne_nil (source : String) (offset : Nat) (tokens : List Token) :
    gapsFrom source offset tokens ≠ [] := by
  cases tokens <;> simp [gapsFrom]

theorem IsGap.weaken {gap : List Char} (is_gap : IsGap false gap) : IsGap true gap := by
  induction is_gap with
  | nil => exact .nil
  | blank is_blank _ ih => exact .blank is_blank ih
  | line one_line _ ih => exact .line one_line ih
  | block no_end _ ih => exact .block no_end ih
  | openLine _ last | openBlock _ last => cases last

section Spans

variable (before inside behind : List Char)

theorem between_append :
    between (ofList (before ++ inside ++ behind)) (utf8Len before) (utf8Len (before ++ inside))
      = ofList inside := by
  rw [utf8Len_append]
  exact extract_of_valid before inside behind

private theorem isValid_append :
    Pos.Raw.IsValid (ofList (before ++ behind)) ⟨utf8Len before⟩ :=
  Pos.Raw.isValid_iff_exists_append.mpr
    ⟨ofList before, ofList behind, ofList_append, (rawEndPos_ofList before).symm⟩

end Spans

variable {before behind : List Char} {tokens : List Token}

theorem Tiles.le_start (tiles : Tiles before tokens behind) :
    ∀ token ∈ tokens, utf8Len before ≤ token.start := by
  induction tiles with
  | last => simp
  | token is_gap nonempty start_eq stop_eq line_eq behind ih =>
    refine List.forall_mem_cons.mpr ⟨?_, fun token member => ?_⟩
    · simp [start_eq]
    · have later := ih token member
      simp only [utf8Len_append] at later
      omega

theorem Tiles.pairwise (tiles : Tiles before tokens behind) :
    tokens.Pairwise (·.stop ≤ ·.start) := by
  induction tiles with
  | last => exact .nil
  | token is_gap nonempty start_eq stop_eq line_eq behind ih =>
    refine List.pairwise_cons.mpr ⟨fun token member => ?_, ih⟩
    rw [stop_eq]
    exact behind.le_start token member

theorem Tiles.spans (tiles : Tiles before tokens behind) :
    ∀ token ∈ tokens, token.Spans (ofList (before ++ behind)) := by
  induction tiles with
  | last => simp
  | @token before gap rest token tokens is_gap nonempty start_eq stop_eq line_eq behind ih =>
    have source_eq : before ++ (gap ++ token.text ++ rest)
        = before ++ gap ++ token.text ++ rest := by
      simp only [List.append_assoc]
    rw [source_eq]
    refine List.forall_mem_cons.mpr ⟨?_, ih⟩
    have first_eq : between (ofList (before ++ gap ++ (token.text ++ rest))) 0
        (utf8Len (before ++ gap)) = ofList (before ++ gap) :=
      between_append [] (before ++ gap) (token.text ++ rest)
    constructor
    · have text_pos : utf8Len token.text ≠ 0 := mt utf8Len_eq_zero.mp nonempty
      rw [start_eq, stop_eq, utf8Len_append (before ++ gap)]
      omega
    · rw [stop_eq, utf8ByteSize_ofList, utf8Len_append _ rest]
      omega
    · rw [start_eq, List.append_assoc (before ++ gap)]
      exact isValid_append _ _
    · rw [stop_eq]
      exact isValid_append _ _
    · rw [start_eq, stop_eq]
      exact between_append _ _ _
    · rw [line_eq, start_eq, List.append_assoc (before ++ gap), first_eq, toList_ofList]

section Gaps

variable (before gap rest : List Char)

theorem gapsFrom_last :
    gapsFrom (ofList (before ++ gap)) (utf8Len before) [] = [ofList gap] := by
  have gap_eq := between_append before gap []
  rw [List.append_nil] at gap_eq
  rw [gapsFrom, utf8ByteSize_ofList, gap_eq]

theorem gapsFrom_token {token : Token} (tokens : List Token)
    (start_eq : token.start = utf8Len (before ++ gap))
    (stop_eq : token.stop = utf8Len (before ++ gap ++ token.text)) :
    gapsFrom (ofList (before ++ (gap ++ token.text ++ rest))) (utf8Len before) (token :: tokens)
      = ofList gap :: gapsFrom (ofList (before ++ gap ++ token.text ++ rest))
          (utf8Len (before ++ gap ++ token.text)) tokens := by
  have source_eq : before ++ (gap ++ token.text ++ rest) = before ++ gap ++ (token.text ++ rest) := by
    simp only [List.append_assoc]
  rw [gapsFrom, source_eq, start_eq, between_append, stop_eq, ← List.append_assoc]

end Gaps

theorem Tiles.gaps (tiles : Tiles before tokens behind) :
    ∀ gap ∈ gapsFrom (ofList (before ++ behind)) (utf8Len before) tokens,
      IsGap true gap.toList := by
  induction tiles with
  | last is_gap =>
    rw [gapsFrom_last]
    simpa using is_gap
  | token is_gap nonempty start_eq stop_eq line_eq behind ih =>
    rw [gapsFrom_token _ _ _ _ start_eq stop_eq]
    exact List.forall_mem_cons.mpr ⟨by simpa using is_gap.weaken, ih⟩

/-- Only the last gap may leave a comment open. -/
theorem Tiles.closed_gaps (tiles : Tiles before tokens behind) :
    ∀ gap ∈ (gapsFrom (ofList (before ++ behind)) (utf8Len before) tokens).dropLast,
      IsGap false gap.toList := by
  induction tiles with
  | last =>
    rw [gapsFrom_last]
    simp
  | token is_gap nonempty start_eq stop_eq line_eq behind ih =>
    rw [gapsFrom_token _ _ _ _ start_eq stop_eq,
      List.dropLast_cons_of_ne_nil (gapsFrom_ne_nil _ _ _)]
    exact List.forall_mem_cons.mpr ⟨by simpa using is_gap, ih⟩

theorem Tiles.inTurn_eq (tiles : Tiles before tokens behind) :
    inTurn (gapsFrom (ofList (before ++ behind)) (utf8Len before) tokens)
      (tokens.map Token.name) = ofList behind := by
  induction tiles with
  | @last before gap is_gap =>
    rw [gapsFrom_last]
    simp [inTurn]
  | token is_gap nonempty start_eq stop_eq line_eq behind ih =>
    rw [gapsFrom_token _ _ _ _ start_eq stop_eq, List.map_cons, inTurn, ih, Token.name,
      ofList_append, ofList_append]

/-- A source is its tokens and the gaps around them, in turn. The tokens stand in their order where
they say, the gaps are white space and comments, and a gap by itself has no token. -/
theorem tokenize_tiles (source : String) :
    let tokens := tokenize source.toList
    let gaps := gapsFrom source 0 tokens
    (∀ token ∈ tokens, token.Spans source) ∧
      tokens.Pairwise (·.stop ≤ ·.start) ∧
      (∀ gap ∈ gaps, IsGap true gap.toList ∧ tokenize gap.toList = []) ∧
      (∀ gap ∈ gaps.dropLast, IsGap false gap.toList) ∧
      inTurn gaps (tokens.map Token.name) = source := by
  intro tokens gaps
  have tiles : Tiles [] tokens source.toList := tokenizeAt_tiles .start source.toList [] rfl
  have spans := tiles.spans
  have all_gaps := tiles.gaps
  have closed_gaps := tiles.closed_gaps
  have whole := tiles.inTurn_eq
  rw [List.nil_append, ofList_toList] at spans all_gaps closed_gaps whole
  exact ⟨spans, tiles.pairwise,
    fun gap member => ⟨all_gaps gap member, tokenizeAt_of_isGap (all_gaps gap member) .start⟩,
    closed_gaps, whole⟩

end SuiteMigration.Outline
