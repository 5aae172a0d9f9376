import SuiteMigration.Json.Lexing
import SuiteMigration.Json.Value

/-!
# Reading JSON

A text is a value and nothing else. A comma demands a further element, and the names of members are
proper text even where their values are not looked at.
-/
namespace SuiteMigration.Json

mutual

/-- A value at the head of the tokens, and the tokens behind it; `fuel` bounds their number. -/
def readValue? : Nat → List Token → Option (Json × List Token)
  | 0, _ => none
  | fuel + 1, tokens =>
    match tokens with
    | .word "null" :: rest => some (.null, rest)
    | .word "true" :: rest => some (.bool true, rest)
    | .word "false" :: rest => some (.bool false, rest)
    | .number literal :: rest => some (.number literal, rest)
    | .string (some value) :: rest => some (.string value, rest)
    | .string none :: rest => some (.brokenString, rest)
    | .mark '[' :: .mark ']' :: rest => some (.array [], rest)
    | .mark '[' :: rest => do
      let (items, after) ← readItems? fuel rest
      some (.array items, after)
    | .mark '\x7b' :: .mark '\x7d' :: rest => some (.object [], rest)
    | .mark '\x7b' :: rest => do
      let (members, after) ← readMembers? fuel rest
      some (.object members, after)
    | _ => none

/-- One or more items up to the closing bracket. -/
def readItems? : Nat → List Token → Option (List Json × List Token)
  | 0, _ => none
  | fuel + 1, tokens => do
    let (item, after) ← readValue? fuel tokens
    match after with
    | .mark ']' :: rest => some ([item], rest)
    | .mark ',' :: rest =>
      let (items, behind) ← readItems? fuel rest
      some (item :: items, behind)
    | _ => none

/-- One or more members up to the closing brace. -/
def readMembers? : Nat → List Token → Option (List (String × Json) × List Token)
  | 0, _ => none
  | fuel + 1, tokens =>
    match tokens with
    | .string (some name) :: .mark ':' :: rest => do
      let (value, after) ← readValue? fuel rest
      match after with
      | .mark '\x7d' :: rest => some ([(name, value)], rest)
      | .mark ',' :: rest =>
        let (members, behind) ← readMembers? fuel rest
        some ((name, value) :: members, behind)
      | _ => none
    | _ => none

end

def parse? (text : String) : Option Json := do
  let tokens ← tokens? text
  match ← readValue? (tokens.length + 1) tokens with
  | (value, []) => some value
  | _ => none

end SuiteMigration.Json
