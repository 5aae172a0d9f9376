/-!
# Punycode

The decoding of a label that spells characters above ASCII with letters and digits: the plain
characters come first, then one number for each insertion, in digits whose weights adapt.
-/
namespace SuiteMigration.Url

def punycodeDigit? (c : Char) : Option Nat :=
  if 'a' ≤ c ∧ c ≤ 'z' then some (c.toNat - 'a'.toNat)
  else if 'A' ≤ c ∧ c ≤ 'Z' then some (c.toNat - 'A'.toNat)
  else if c.isDigit then some (c.toNat - '0'.toNat + 26)
  else none

/-- The least value of a digit at this position that another digit must follow. -/
def threshold (bias position : Nat) : Nat :=
  max 1 (min 26 (position - bias))

/-- The number at the head of the digits, and the digits behind it. -/
def readNumber? (bias : Nat) (position weight value : Nat) :
    List Char → Option (Nat × List Char)
  | [] => none
  | c :: rest => do
    let digit ← punycodeDigit? c
    let value := value + digit * weight
    if value ≥ 2 ^ 32 then none
    else if digit < threshold bias position then some (value, rest)
    else readNumber? bias (position + 36) (weight * (36 - threshold bias position)) value rest

/-- Divides by 35 until the quotient is at most 455, counting the steps. -/
def scaleDown : Nat → Nat → Nat → Nat × Nat
  | 0, delta, steps => (delta, steps)
  | fuel + 1, delta, steps => if delta > 455 then scaleDown fuel (delta / 35) (steps + 1)
    else (delta, steps)

/-- The bias after an insertion, `size` characters being there now. -/
def adaptBias (delta size : Nat) (first : Bool) : Nat :=
  let delta := if first then delta / 700 else delta / 2
  let (quotient, steps) := scaleDown 32 (delta + delta / size) 0
  36 * steps + 36 * quotient / (quotient + 38)

/-- What a decoder has so far: the text, the code point and place of the next insertion, and the
bias for its number. -/
structure Insertion where
  text : List Char
  code : Nat
  place : Nat
  bias : Nat
  first : Bool

namespace Insertion

def start (plain : List Char) : Insertion :=
  ⟨plain, 0x80, 0, 72, true⟩

/-- Makes the insertion that a number tells, counted from the last one. -/
def insert? (state : Insertion) (value : Nat) : Option Insertion :=
  let size := state.text.length + 1
  let code := state.code + value / size
  let place := value % size
  if code.isValidChar then
    some {
      text := state.text.take place ++ Char.ofNat code :: state.text.drop place
      code := code
      place := place + 1
      bias := adaptBias (value - state.place) size state.first
      first := false }
  else none

/-- Makes the insertions of all digits, of which there are at most `fuel`. -/
def insertAll? : Nat → Insertion → List Char → Option (List Char)
  | _, state, [] => some state.text
  | 0, _, _ => none
  | fuel + 1, state, digits => do
    let (value, rest) ← readNumber? state.bias 36 1 state.place digits
    insertAll? fuel (← state.insert? value) rest

end Insertion

/-- The text that a label stands for; its plain characters are those in front of its last hyphen. -/
def decodePunycode? (label : List Char) : Option (List Char) :=
  let digits := (label.reverse.takeWhile (· ≠ '-')).reverse
  let plain := label.take (label.length - digits.length - 1)
  if plain.isEmpty && digits.length < label.length then none
  else Insertion.insertAll? digits.length (.start plain) digits

end SuiteMigration.Url
