/-!
# JSON values

A value as it was written: a number keeps its text and an object the order of its members, repeated
names included.
-/
namespace SuiteMigration

inductive Json where
  | null
  | bool (value : Bool)
  /-- A number in the spelling of its source. -/
  | number (literal : String)
  | string (value : String)
  /-- A string whose escapes name half of a surrogate pair, which is no text. -/
  | brokenString
  | array (items : List Json)
  | object (members : List (String × Json))
  deriving Inhabited

namespace Json

def ofNat (n : Nat) : Json :=
  .number (toString n)

def ofOption (encode : α → Json) : Option α → Json
  | some value => encode value
  | none => .null

def strings (values : List String) : Json :=
  .array (values.map .string)

def string? : Json → Option String
  | .string value => some value
  | _ => none

def bool? : Json → Option Bool
  | .bool value => some value
  | _ => none

def array? : Json → Option (List Json)
  | .array items => some items
  | _ => none

/-- The value of a number written with digits only. -/
def nat? : Json → Option Nat
  | .number literal =>
    if literal.toList.all Char.isDigit then
      some (literal.toList.foldl (fun value digit => value * 10 + (digit.toNat - '0'.toNat)) 0)
    else none
  | _ => none

/-- The last member of an object with this name. -/
def member? (name : String) : Json → Option Json
  | .object members => (members.reverse.find? (·.1 == name)).map (·.2)
  | _ => none

end Json

end SuiteMigration
