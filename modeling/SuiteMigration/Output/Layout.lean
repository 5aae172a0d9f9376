import SuiteMigration.Text.Lines
import SuiteMigration.Text.LowerCase

/-!
# Layout and spelling of TypeScript

Quoted literals, margins and the names of instances.
-/
namespace SuiteMigration.Output

def escapeQuoted (c : Char) : List Char :=
  if c = '\\' then ['\\', '\\'] else if c = '\'' then ['\\', '\''] else [c]

/-- A literal in single quotes. -/
def singleQuoted (value : String) : String :=
  "'" ++ String.ofList (value.toList.flatMap escapeQuoted) ++ "'"

/-- The name with its first character in lower case. -/
def lowerCamel (name : String) : String :=
  match name.toList with
  | [] => ""
  | first :: rest => String.ofList (Text.lower first ++ rest)

/-- Moves every line that is not empty by two spaces a level. -/
def indent (level : Nat) (text : String) : String :=
  "\n".intercalate ((Text.lines text.toList).map fun line =>
    if line.isEmpty then "" else String.ofList (List.replicate (2 * level) ' ' ++ line))

end SuiteMigration.Output
