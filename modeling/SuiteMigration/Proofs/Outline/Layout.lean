import SuiteMigration.Proofs.Text.PlainName

/-!
# Lexemes on a line

A line of lexemes, with at most one blank in front of each, is split into just these lexemes. Their
tokens are known from where the line begins, and a run of them is joined into the line it came from.
-/
namespace SuiteMigration.Outline

open Text

/-- Does a lexeme begin with the character? Blanks and comments are gaps. -/
def Begins (c : Char) (rest : List Char) : Prop :=
  isBlank c = false ∧ (c = '/' → ∀ next ∈ rest.head?, next ≠ '/' ∧ next ≠ '*')

structure Lexeme where
  spaced : Bool
  kind : TokenKind
  text : List Char

namespace Lexeme

def gap (lexeme : Lexeme) : List Char :=
  if lexeme.spaced then [' '] else []

def start (lexeme : Lexeme) (place : Position) : Position :=
  place.afterAll lexeme.gap

def stop (lexeme : Lexeme) (place : Position) : Position :=
  (lexeme.start place).afterAll lexeme.text

/-- The token of a lexeme whose gap begins at the given place. -/
def token (lexeme : Lexeme) (place : Position) : Token :=
  ⟨lexeme.kind, lexeme.text, (lexeme.start place).offset, (lexeme.stop place).offset,
    (lexeme.start place).line⟩

/-- In front of the given text the lexeme is split off as it is. -/
def Splits (lexeme : Lexeme) (rest : List Char) : Prop :=
  ∃ c body, lexeme.text = c :: body ∧ isBlank c = false ∧ c ≠ '/' ∧
    splitLexeme c (body ++ rest) = (lexeme.kind, body, rest)

/-- As `Splits`, and a slash may begin the lexeme too, where it opens no comment. -/
def Leads (lexeme : Lexeme) (rest : List Char) : Prop :=
  ∃ c body, lexeme.text = c :: body ∧ Begins c (body ++ rest) ∧
    splitLexeme c (body ++ rest) = (lexeme.kind, body, rest)

theorem Splits.leads {lexeme : Lexeme} {rest : List Char} (splits : lexeme.Splits rest) :
    lexeme.Leads rest := by
  obtain ⟨c, body, text_eq, no_blank, no_slash, split_eq⟩ := splits
  exact ⟨c, body, text_eq, ⟨no_blank, fun is_slash => absurd is_slash no_slash⟩, split_eq⟩

def word (spaced : Bool) (text : List Char) : Lexeme := ⟨spaced, .ident, text⟩

def mark (spaced : Bool) (c : Char) : Lexeme := ⟨spaced, .punct, [c]⟩

def string (spaced : Bool) (body : List Char) : Lexeme := ⟨spaced, .string, '"' :: (body ++ ['"'])⟩

end Lexeme

def printed (line : List Lexeme) : List Char :=
  line.flatMap fun lexeme => lexeme.gap ++ lexeme.text

def placed (place : Position) : List Lexeme → List Token
  | [] => []
  | lexeme :: rest => lexeme.token place :: placed (lexeme.stop place) rest

/-- The place behind a line. -/
def placeBehind (place : Position) : List Lexeme → Position
  | [] => place
  | lexeme :: rest => placeBehind (lexeme.stop place) rest

/-- Every lexeme of the line is split off in front of the others. -/
inductive Splittable : List Lexeme → Prop where
  | nil : Splittable []
  | cons {lexeme : Lexeme} {rest : List Lexeme} (splits : lexeme.Splits (printed rest))
      (tail : Splittable rest) : Splittable (lexeme :: rest)

/-- Every lexeme of the line leads the others. -/
inductive Readable : List Lexeme → Prop where
  | nil : Readable []
  | cons {lexeme : Lexeme} {rest : List Lexeme} (leads : lexeme.Leads (printed rest))
      (tail : Readable rest) : Readable (lexeme :: rest)

theorem Splittable.readable {line : List Lexeme} (splittable : Splittable line) :
    Readable line := by
  induction splittable with
  | nil => exact .nil
  | cons splits _ ih => exact .cons splits.leads ih

theorem printed_nil : printed [] = [] := rfl

theorem printed_spaced (kind : TokenKind) (text : List Char) (rest : List Lexeme) :
    printed (⟨true, kind, text⟩ :: rest) = ' ' :: (text ++ printed rest) := rfl

theorem printed_bare (kind : TokenKind) (text : List Char) (rest : List Lexeme) :
    printed (⟨false, kind, text⟩ :: rest) = text ++ printed rest := rfl

theorem printed_append (first second : List Lexeme) :
    printed (first ++ second) = printed first ++ printed second :=
  List.flatMap_append

theorem placed_append (place : Position) (first second : List Lexeme) :
    placed place (first ++ second)
      = placed place first ++ placed (placeBehind place first) second := by
  induction first generalizing place with
  | nil => rfl
  | cons lexeme rest ih => rw [List.cons_append, placed, ih]; rfl

section Tokenize

variable {place start : Position} {c : Char} {text rest : List Char}

private theorem skipGap_stop (place : Position) (begins : Begins c rest) :
    skipGap .blank place (c :: rest) = (place, c :: rest) := by
  obtain ⟨no_blank, no_comment⟩ := begins
  rw [skipGap.eq_def]
  split <;> simp_all

private theorem skipGap_space (place : Position) (text : List Char) :
    skipGap .blank place (' ' :: text) = skipGap .blank (place.after ' ') text := by
  rfl

private theorem skipGap_gap (lexeme : Lexeme) (place : Position) (begins : Begins c rest) :
    skipGap .blank place (lexeme.gap ++ c :: rest) = (lexeme.start place, c :: rest) := by
  unfold Lexeme.start Lexeme.gap
  cases lexeme.spaced with
  | true => exact (skipGap_space _ _).trans (skipGap_stop _ begins)
  | false => exact skipGap_stop _ begins

private theorem tokenizeAt_of_gap (gap_eq : skipGap .blank place text = (start, c :: rest))
    {kind : TokenKind} {body after : List Char}
    (split_eq : splitLexeme c rest = (kind, body, after)) :
    tokenizeAt place text
      = ⟨kind, c :: body, start.offset, (start.afterAll (c :: body)).offset, start.line⟩
        :: tokenizeAt (start.afterAll (c :: body)) after := by
  rw [tokenizeAt.eq_def]
  split
  · next none_eq =>
    rw [gap_eq] at none_eq
    cases none_eq
  · next some_eq =>
    rw [gap_eq] at some_eq
    cases some_eq
    simp only [split_eq]

/-- The tokens of a line of lexemes. -/
theorem tokenizeAt_readable {line : List Lexeme} (readable : Readable line) (place : Position) :
    tokenizeAt place (printed line) = placed place line := by
  -- Each lexeme starts where the one in front of it stopped.
  induction readable generalizing place with
  | nil =>
    rw [tokenizeAt.eq_def]
    rfl
  | @cons lexeme rest leads _ ih =>
    obtain ⟨c, body, text_eq, begins, split_eq⟩ := leads
    have line_eq : printed (lexeme :: rest) = lexeme.gap ++ c :: (body ++ printed rest) := by
      rw [printed, List.flatMap_cons, text_eq]
      simp [printed]
    rw [line_eq, tokenizeAt_of_gap (skipGap_gap lexeme place begins) split_eq, ih,
      placed, Lexeme.stop, Lexeme.token, Lexeme.stop, text_eq]

theorem tokenizeAt_printed {line : List Lexeme} (splittable : Splittable line) (place : Position) :
    tokenizeAt place (printed line) = placed place line :=
  tokenizeAt_readable splittable.readable place

end Tokenize

section Join

theorem apart_token (left right : Lexeme) (place : Position) :
    (left.token place).apart (right.token (left.stop place)) = right.spaced := by
  unfold Token.apart Lexeme.token Lexeme.start Lexeme.gap
  cases right.spaced with
  | true =>
    have one_byte : ' '.utf8Size = 1 := by decide
    simp [Position.afterAll, Position.after, one_byte]
  | false => simp [Position.afterAll]

/-- A run is joined into the line it came from, without the gap in front. -/
theorem joinTokens_placed (lexeme : Lexeme) (rest : List Lexeme) (place : Position) :
    joinTokens (placed place (lexeme :: rest)) = lexeme.text ++ printed rest := by
  induction rest generalizing lexeme place with
  | nil => simp [placed, joinTokens, Lexeme.token, printed]
  | cons next rest ih =>
    -- The gap of the next lexeme is what sets the tokens apart, so joining puts it back.
    have behind_eq := ih next (lexeme.stop place)
    rw [placed, placed, joinTokens, ← placed, behind_eq, apart_token]
    simp [Lexeme.token, printed, Lexeme.gap]

end Join

section Split

variable {spaced : Bool} {text rest : List Char} {c : Char}

theorem takeWhile_append_stop {holds : Char → Bool} (taken : ∀ c ∈ text, holds c = true)
    (ends : ∀ c ∈ rest.head?, holds c = false) : (text ++ rest).takeWhile holds = text := by
  rw [List.takeWhile_append_of_pos taken]
  cases rest with
  | nil => simp
  | cons next rest => simp [ends next rfl]

theorem dropWhile_append_stop {holds : Char → Bool} (taken : ∀ c ∈ text, holds c = true)
    (ends : ∀ c ∈ rest.head?, holds c = false) : (text ++ rest).dropWhile holds = rest := by
  rw [List.dropWhile_append_of_pos taken]
  cases rest with
  | nil => simp
  | cons next rest => simp [ends next rfl]

theorem Lexeme.splits_word (starts : text.head?.any Char.isAlpha = true)
    (all_plain : text.all isPlainChar = true) (ends : ∀ c ∈ rest.head?, isIdentPart c = false) :
    (word spaced text).Splits rest := by
  cases text with
  | nil => cases starts
  | cons c body =>
    have letter : c.isAlpha = true := starts
    have plain := List.all_eq_true.mp all_plain
    have plain_c := plain c List.mem_cons_self
    have body_part : ∀ c ∈ body, isIdentPart c = true := fun c member =>
      isIdentPart_of_isPlainChar (plain c (List.mem_cons_of_mem _ member))
    have taken := takeWhile_append_stop body_part ends
    have dropped := dropWhile_append_stop body_part ends
    refine ⟨c, body, rfl, isBlank_of_isPlainChar plain_c, ne_of_isPlainChar plain_c rfl, ?_⟩
    unfold splitLexeme
    rw [if_neg (ne_of_isPlainChar plain_c rfl), if_neg (ne_of_isPlainChar plain_c rfl),
      if_pos (isIdentStart_of_isAlpha letter), taken, dropped]
    rfl

/-- The characters that are lexemes by themselves. -/
def isMark (c : Char) : Bool :=
  !isBlank c && c != '/' && c != '"' && c != '\'' && !isIdentStart c && !c.isDigit

theorem Lexeme.splits_mark (is_mark : isMark c = true) : (mark spaced c).Splits rest := by
  simp only [isMark, Bool.and_eq_true, Bool.not_eq_true', bne_iff_ne] at is_mark
  obtain ⟨⟨⟨⟨⟨no_blank, no_slash⟩, no_quote⟩, no_single⟩, no_start⟩, no_digit⟩ := is_mark
  refine ⟨c, [], rfl, no_blank, no_slash, ?_⟩
  simp [splitLexeme, no_quote, no_single, no_start, no_digit, mark]

theorem Splittable.word {line : List Lexeme} (starts : text.head?.any Char.isAlpha = true)
    (all_plain : text.all isPlainChar = true)
    (ends : ∀ c ∈ (printed line).head?, isIdentPart c = false) (tail : Splittable line) :
    Splittable (.word spaced text :: line) :=
  .cons (Lexeme.splits_word starts all_plain ends) tail

theorem Splittable.mark {line : List Lexeme} (is_mark : isMark c = true) (tail : Splittable line) :
    Splittable (.mark spaced c :: line) :=
  .cons (Lexeme.splits_mark is_mark) tail

end Split

end SuiteMigration.Outline
