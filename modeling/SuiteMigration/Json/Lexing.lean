/-!
# JSON tokens

Marks, words, numbers and strings of a JSON text. Blanks are the four that the format knows, a
string holds no raw control character, and escapes may name a character in two halves.
-/
namespace SuiteMigration.Json

inductive Token where
  | mark (c : Char)
  | word (name : String)
  | number (literal : String)
  /-- A string literal, with no value where an escape names half of a surrogate pair. -/
  | string (value : Option String)
  deriving DecidableEq

def hexValue? (c : Char) : Option Nat :=
  if c.isDigit then some (c.toNat - '0'.toNat)
  else if 'a' ≤ c ∧ c ≤ 'f' then some (c.toNat - 'a'.toNat + 10)
  else if 'A' ≤ c ∧ c ≤ 'F' then some (c.toNat - 'A'.toNat + 10)
  else none

def escaped? (c : Char) : Option Char :=
  match c with
  | '"' => some '"'
  | '\\' => some '\\'
  | '/' => some '/'
  | 'b' => some '\x08'
  | 'f' => some '\x0c'
  | 'n' => some '\n'
  | 'r' => some '\r'
  | 't' => some '\t'
  | _ => none

/-- The code points and escaped code units of a string up to its closing quote, and the text behind
that quote. -/
def splitString? : List Char → Option (List Nat × List Char)
  | [] => none
  | '"' :: rest => some ([], rest)
  | '\\' :: 'u' :: a :: b :: c :: d :: rest => do
    let unit := ((← hexValue? a) * 16 + (← hexValue? b)) * 256 + (← hexValue? c) * 16
      + (← hexValue? d)
    let (units, after) ← splitString? rest
    some (unit :: units, after)
  | '\\' :: c :: rest => do
    let char ← escaped? c
    let (units, after) ← splitString? rest
    some (char.toNat :: units, after)
  | c :: rest =>
    if c.toNat < 0x20 || c = '\\' then none
    else do
      let (units, after) ← splitString? rest
      some (c.toNat :: units, after)

def isHighSurrogate (unit : Nat) : Bool := 0xd800 ≤ unit && unit < 0xdc00

def isLowSurrogate (unit : Nat) : Bool := 0xdc00 ≤ unit && unit < 0xe000

/-- Joins each pair of surrogates to its character; a surrogate on its own is no text. -/
def joinSurrogates? : List Nat → Option (List Char)
  | [] => some []
  | high :: low :: rest =>
    if isHighSurrogate high then
      if isLowSurrogate low then
        (joinSurrogates? rest).map
          (Char.ofNat (0x10000 + (high - 0xd800) * 0x400 + (low - 0xdc00)) :: ·)
      else none
    else if isLowSurrogate high then none
    else (joinSurrogates? (low :: rest)).map (Char.ofNat high :: ·)
  | [unit] => if isHighSurrogate unit || isLowSurrogate unit then none else some [Char.ofNat unit]

/-- Is the text a number: an optional minus, an integer without leading zeros, then an optional
fraction and an optional exponent? -/
def isNumber (text : List Char) : Bool :=
  let unsigned := if text.head? = some '-' then text.drop 1 else text
  let whole := unsigned.takeWhile Char.isDigit
  let behind := unsigned.dropWhile Char.isDigit
  let wholeOk := whole = ['0'] || (!whole.isEmpty && whole.head? != some '0')
  let (fractionOk, behind) := match behind with
    | '.' :: rest => (!(rest.takeWhile Char.isDigit).isEmpty, rest.dropWhile Char.isDigit)
    | rest => (true, rest)
  let exponentOk := match behind with
    | [] => true
    | mark :: rest =>
      let digits := if rest.head? = some '+' || rest.head? = some '-' then rest.drop 1 else rest
      (mark = 'e' || mark = 'E') && !digits.isEmpty && digits.all Char.isDigit
  wholeOk && fractionOk && exponentOk

/-- The characters that can stand in a number. -/
def isNumberChar (c : Char) : Bool :=
  c.isDigit || c = '-' || c = '+' || c = '.' || c = 'e' || c = 'E'

/-- One token that begins with `c`, and the text behind it. -/
def splitToken? (c : Char) (rest : List Char) : Option (Token × List Char) :=
  if c = '"' then do
    let (units, after) ← splitString? rest
    some (.string ((joinSurrogates? units).map String.ofList), after)
  else if c = '-' || c.isDigit then
    let literal := c :: rest.takeWhile isNumberChar
    if isNumber literal then
      some (.number (String.ofList literal), rest.dropWhile isNumberChar)
    else none
  else if c.isAlpha then
    some (.word (String.ofList (c :: rest.takeWhile Char.isAlpha)), rest.dropWhile Char.isAlpha)
  else some (.mark c, rest)

def isJsonBlank (c : Char) : Bool :=
  c = ' ' || c = '\n' || c = '\t' || c = '\r'

/-- The tokens of a text that is no longer than `fuel`. -/
def tokensWithin : Nat → List Char → Option (List Token)
  | _, [] => some []
  | 0, _ => none
  | fuel + 1, c :: rest =>
    if isJsonBlank c then tokensWithin fuel rest
    else do
      let (token, after) ← splitToken? c rest
      let more ← tokensWithin fuel after
      some (token :: more)

def tokens? (text : String) : Option (List Token) :=
  tokensWithin text.length text.toList

end SuiteMigration.Json
