import SuiteMigration.Json.Parsing

/-!
# Values with distinct members

A value whose objects name each member once: of members with one name the last one counts.
-/
namespace SuiteMigration.Json

mutual

/-- The value with distinct members; there is none if a string in it is no text. -/
def distinct? : Json → Option Json
  | .brokenString => none
  | .array items => (distinctItems? items).map .array
  | .object members => (distinctMembers? members).map .object
  | value => some value

def distinctItems? : List Json → Option (List Json)
  | [] => some []
  | item :: rest => do
    return (← distinct? item) :: (← distinctItems? rest)

def distinctMembers? : List (String × Json) → Option (List (String × Json))
  | [] => some []
  | (name, value) :: rest => do
    let value ← distinct? value
    let kept ← distinctMembers? rest
    return if kept.any (·.1 == name) then kept else (name, value) :: kept

end

/-- Reads a text as a value with distinct members. -/
def parseDistinct? (text : String) : Option Json :=
  (parse? text).bind distinct?

end SuiteMigration.Json
