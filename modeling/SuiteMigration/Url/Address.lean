import SuiteMigration.Text.Split

/-!
# Numeric addresses

Four numbers with dots, where the last may stand for the missing ones and each may be octal or
hexadecimal, and eight groups with colons, where one run of zeros may be left out and the last two
groups may be four numbers with dots.
-/
namespace SuiteMigration.Url

def digitValue (c : Char) : Nat :=
  if c.isDigit then c.toNat - '0'.toNat else c.toLower.toNat - 'a'.toNat + 10

def isHexDigit (c : Char) : Bool :=
  c.isDigit || ('a' ≤ c && c ≤ 'f') || ('A' ≤ c && c ≤ 'F')

def valueIn (base : Nat) (digits : List Char) : Nat :=
  digits.foldl (fun value digit => value * base + digitValue digit) 0

/-- A number in the base that its first characters tell; `0x` alone is zero. -/
def number? (text : List Char) : Option Nat :=
  match text with
  | [] => none
  | '0' :: 'x' :: digits | '0' :: 'X' :: digits =>
    if digits.all isHexDigit then some (valueIn 16 digits) else none
  | '0' :: c :: digits =>
    if (c :: digits).all fun d => '0' ≤ d && d ≤ '7' then some (valueIn 8 (c :: digits)) else none
  | digits => if digits.all Char.isDigit then some (valueIn 10 digits) else none

/-- The parts between dots, without the empty one behind a last dot. -/
def dottedParts (host : List Char) : List (List Char) :=
  let parts := Text.splitAt '.' host
  if parts.getLast? = some [] then parts.dropLast else parts

/-- Must the host be an address because its last part is a number? -/
def endsInNumber (host : List Char) : Bool :=
  match (dottedParts host).getLast? with
  | none => false
  | some last => (!last.isEmpty && last.all Char.isDigit) || (number? last).isSome

def isDottedAddress (host : List Char) : Bool :=
  let parts := dottedParts host
  let numbers := parts.filterMap number?
  numbers.length == parts.length && parts.length ≤ 4
    && numbers.dropLast.all (· ≤ 255)
    && numbers.getLast?.any (· < Nat.pow 256 (5 - parts.length))

/-- A number up to 255 without leading zeros. -/
def isOctet (digits : List Char) : Bool :=
  !digits.isEmpty && digits.all Char.isDigit && (digits.length == 1 || digits.head? != some '0')
    && valueIn 10 digits ≤ 255

/-- Four numbers that end the address, `groups` groups being there before. -/
def isFourOctets (text : List Char) : Bool :=
  let parts := Text.splitAt '.' text
  parts.length == 4 && parts.all isOctet

/-- Reads on at the start of a group, `groups` groups being there, the left-out run counted as one.
-/
def isGroups (groups : Nat) (shortened : Bool) (text : List Char) : Bool :=
  match text with
  | [] => shortened || groups == 8
  | c :: rest =>
    if groups ≥ 8 then false
    else if c = ':' then !shortened && isGroups (groups + 1) true rest
    else
      let digits := ((c :: rest).take 4).takeWhile isHexDigit
      match _ : (c :: rest).drop digits.length with
      | [] => isGroups (groups + 1) shortened []
      | '.' :: _ =>
        !digits.isEmpty && groups ≤ 6 && isFourOctets (c :: rest) && (shortened || groups == 6)
      | ':' :: next => !next.isEmpty && isGroups (groups + 1) shortened next
      | _ => false
termination_by text.length
decreasing_by
  · simp
  · simp
  · have length_eq := congrArg List.length ‹(c :: rest).drop digits.length = ':' :: next›
    simp only [List.length_drop, List.length_cons] at length_eq
    simp only [List.length_cons]
    omega

/-- The address between the brackets. -/
def isGroupedAddress (text : List Char) : Bool :=
  match text with
  | ':' :: ':' :: rest => isGroups 1 true rest
  | ':' :: _ => false
  | text => text.length ≥ 2 && isGroups 0 false text

end SuiteMigration.Url
