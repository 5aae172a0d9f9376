import SuiteMigration.Outline.Token
import SuiteMigration.Text.CharacterClass

/-!
# From source text to tokens

Gaps of white space and comments are skipped, and every other stretch of text is one lexeme. A
literal or comment without its end runs to the end of the text. The gap lemma and the lexeme lemma
say that nothing is lost on the way.
-/
namespace SuiteMigration.Outline

open SuiteMigration.Text

/-- A place in the source: the bytes before it and its line. -/
structure Position where
  offset : Nat
  line : Nat
  deriving DecidableEq

namespace Position

def start : Position := ⟨0, 1⟩

/-- The place behind a character. -/
def after (place : Position) (c : Char) : Position :=
  ⟨place.offset + c.utf8Size, if c = '\n' then place.line + 1 else place.line⟩

def afterAll (place : Position) (text : List Char) : Position :=
  text.foldl after place

end Position

/-- Where a reader of a gap stands. -/
inductive GapMode where
  | blank
  | lineComment
  | blockComment

/-- Passes over white space and comments; stops at the first character of a lexeme. -/
def skipGap : GapMode → Position → List Char → Position × List Char
  | _, place, [] => (place, [])
  | .blank, place, '/' :: '/' :: rest =>
    skipGap .lineComment ((place.after '/').after '/') rest
  | .blank, place, '/' :: '*' :: rest =>
    skipGap .blockComment ((place.after '/').after '*') rest
  | .blank, place, c :: rest =>
    if isBlank c then skipGap .blank (place.after c) rest else (place, c :: rest)
  -- The line feed that ends the comment is part of it.
  | .lineComment, place, c :: rest =>
    skipGap (if c = '\n' then .blank else .lineComment) (place.after c) rest
  | .blockComment, place, '*' :: '/' :: rest =>
    skipGap .blank ((place.after '*').after '/') rest
  | .blockComment, place, c :: rest => skipGap .blockComment (place.after c) rest

/-- A gap is a first part of the text, and the new place is the one behind it. -/
theorem skipGap_split (mode : GapMode) (place : Position) (text : List Char) :
    ∃ gap, text = gap ++ (skipGap mode place text).2 ∧
      (skipGap mode place text).1 = place.afterAll gap := by
  fun_induction skipGap mode place text with
  | case1 => exact ⟨[], rfl, rfl⟩
  | case2 place rest ih =>
    obtain ⟨gap, text_eq, place_eq⟩ := ih
    exact ⟨'/' :: '/' :: gap, by rw [List.cons_append, List.cons_append, ← text_eq], place_eq⟩
  | case3 place rest ih =>
    obtain ⟨gap, text_eq, place_eq⟩ := ih
    exact ⟨'/' :: '*' :: gap, by rw [List.cons_append, List.cons_append, ← text_eq], place_eq⟩
  | case4 place c rest _ _ _ ih =>
    obtain ⟨gap, text_eq, place_eq⟩ := ih
    exact ⟨c :: gap, by rw [List.cons_append, ← text_eq], place_eq⟩
  | case5 => exact ⟨[], rfl, rfl⟩
  | case6 place c rest ih =>
    obtain ⟨gap, text_eq, place_eq⟩ := ih
    exact ⟨c :: gap, by rw [List.cons_append, ← text_eq], place_eq⟩
  | case7 place rest ih =>
    obtain ⟨gap, text_eq, place_eq⟩ := ih
    exact ⟨'*' :: '/' :: gap, by rw [List.cons_append, List.cons_append, ← text_eq], place_eq⟩
  | case8 place c rest _ ih =>
    obtain ⟨gap, text_eq, place_eq⟩ := ih
    exact ⟨c :: gap, by rw [List.cons_append, ← text_eq], place_eq⟩

theorem length_skipGap_le (mode : GapMode) (place : Position) (text : List Char) :
    (skipGap mode place text).2.length ≤ text.length := by
  obtain ⟨gap, text_eq, _⟩ := skipGap_split mode place text
  have length_eq := congrArg List.length text_eq
  rw [List.length_append] at length_eq
  omega

/-- Splits behind the closing quote. A backslash hides the next character; a line feed closes a
character literal as well. -/
def splitQuoted (quote : Char) : List Char → List Char × List Char
  | [] => ([], [])
  | '\\' :: c :: rest =>
    let (body, after) := splitQuoted quote rest
    ('\\' :: c :: body, after)
  | c :: rest =>
    if c = quote ∨ (c = '\n' ∧ quote = '\'') then ([c], rest)
    else
      let (body, after) := splitQuoted quote rest
      (c :: body, after)

/-- Splits behind the three quotes that close a text block. -/
def splitTextBlock : List Char → List Char × List Char
  | [] => ([], [])
  | '"' :: '"' :: '"' :: rest => (['"', '"', '"'], rest)
  | '\\' :: c :: rest =>
    let (body, after) := splitTextBlock rest
    ('\\' :: c :: body, after)
  | c :: rest =>
    let (body, after) := splitTextBlock rest
    (c :: body, after)

theorem splitQuoted_append (quote : Char) (text : List Char) :
    (splitQuoted quote text).1 ++ (splitQuoted quote text).2 = text := by
  fun_induction splitQuoted quote text <;> simp_all

theorem splitTextBlock_append (text : List Char) :
    (splitTextBlock text).1 ++ (splitTextBlock text).2 = text := by
  fun_induction splitTextBlock text <;> simp_all

def isIdentStart (c : Char) : Bool :=
  isLetter c || c == '_' || c == '$'

def isIdentPart (c : Char) : Bool :=
  isLetterOrNumeral c || c == '_' || c == '$'

def isNumberPart (c : Char) : Bool :=
  isLetterOrNumeral c || c == '_' || c == '.'

/-- The kind of the lexeme that begins with `c`, the rest of its text, and the text behind it. -/
def splitLexeme (c : Char) (rest : List Char) : TokenKind × List Char × List Char :=
  if c = '"' then
    match rest with
    | '"' :: '"' :: inside =>
      let (body, after) := splitTextBlock inside
      (.string, '"' :: '"' :: body, after)
    | inside => (.string, splitQuoted '"' inside)
  else if c = '\'' then (.char, splitQuoted '\'' rest)
  else if isIdentStart c then (.ident, rest.takeWhile isIdentPart, rest.dropWhile isIdentPart)
  else if c.isDigit then (.number, rest.takeWhile isNumberPart, rest.dropWhile isNumberPart)
  else (.punct, [], rest)

theorem splitLexeme_append (c : Char) (rest : List Char) :
    (splitLexeme c rest).2.1 ++ (splitLexeme c rest).2.2 = rest := by
  unfold splitLexeme
  split
  · split
    · simp [splitTextBlock_append]
    · exact splitQuoted_append _ _
  · split
    · exact splitQuoted_append _ _
    · split
      · exact List.takeWhile_append_dropWhile
      · split
        · exact List.takeWhile_append_dropWhile
        · rfl

theorem length_splitLexeme_le (c : Char) (rest : List Char) :
    (splitLexeme c rest).2.2.length ≤ rest.length := by
  have length_eq := congrArg List.length (splitLexeme_append c rest)
  rw [List.length_append] at length_eq
  omega

/-- The tokens of a text that begins at the given place. -/
def tokenizeAt (place : Position) (text : List Char) : List Token :=
  match _ : skipGap .blank place text with
  | (_, []) => []
  | (start, c :: rest) =>
    let lexeme := splitLexeme c rest
    let stop := start.afterAll (c :: lexeme.2.1)
    ⟨lexeme.1, c :: lexeme.2.1, start.offset, stop.offset, start.line⟩
      :: tokenizeAt stop lexeme.2.2
termination_by text.length
decreasing_by
  -- Whatever the lexeme is, its first character is taken.
  have gap_le := length_skipGap_le .blank place text
  have lexeme_le := length_splitLexeme_le c rest
  rw [‹skipGap .blank place text = _›, List.length_cons] at gap_le
  omega

def tokenize (source : List Char) : List Token :=
  tokenizeAt .start source

end SuiteMigration.Outline
