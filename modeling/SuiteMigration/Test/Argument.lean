import SuiteMigration.Pattern.Search
import SuiteMigration.Locator.Expression
import SuiteMigration.Output.Layout

/-!
# Arguments of test calls

Lookups of properties become their key, and constructor calls give way to what they wrap. A
constructor call is unwrapped from the left until none is left.
-/
namespace SuiteMigration.Test

open Pattern

/-- A property looked up by a literal key. -/
def propertyLookup : Pattern :=
  .all [word, blanks, mark '.', blanks, text "getProperty", blanks, mark '(', blanks, mark '"',
    .group "key" (.many true (.one (· != '"'))), mark '"', blanks, mark ')']

/-- The head of a constructor call, up to its opening parenthesis. -/
def constructorHead : Pattern :=
  .all [.atWordEdge, text "new", someBlanks, word, blanks, mark '(']

/-- A text that is one string literal and needs no escapes. -/
def plainLiteral : Pattern :=
  .all [.atStart, mark '"',
    .group "value" (.many true (.one fun c => c != '"' && c != '\\' && c != '\'')), mark '"',
    .atEnd]

/-- Takes the parenthesis away that closes a group with `depth` groups open inside it; a text
without it stays as it is. -/
def dropClose : Nat → List Char → List Char
  | _, [] => []
  | depth, c :: rest =>
    if c = '(' then c :: dropClose (depth + 1) rest
    else if c = ')' then
      match depth with
      | 0 => rest
      | inner + 1 => c :: dropClose inner rest
    else c :: dropClose depth rest

theorem length_dropClose_le (depth : Nat) (text : List Char) :
    (dropClose depth text).length ≤ text.length := by
  fun_induction dropClose depth text <;> simp_all

/-- Replaces every constructor call by its arguments. -/
def unwrapConstructors (text : List Char) : List Char :=
  match _ : constructorHead.findFrom? none text with
  | none => text
  | some found => unwrapConstructors (found.before ++ dropClose 0 found.after)
termination_by text.length
decreasing_by
  have shorter := length_after_lt (by decide) ‹constructorHead.findFrom? none text = some found›
  have close_le := length_dropClose_le 0 found.after
  rw [List.length_append]
  omega

def convertArguments (text : List Char) : List Char :=
  unwrapConstructors (propertyLookup.replaceAll
    (fun found => (Output.singleQuoted (String.ofList (found.group "key"))).toList) text)

/-- An argument that is a plain literal changes its quotes; any other is converted. -/
def scriptArgument (text : List Char) : List Char :=
  match plainLiteral.find? text with
  | some found => (Output.singleQuoted (String.ofList (found.group "value"))).toList
  | none => convertArguments text

/-- Where a reader of arguments stands. -/
inductive LiteralMode where
  | outside
  | inside
  | escaped

/-- Outside string literals, do parentheses never close more than they open, and end balanced? -/
def isBalanced (text : List Char) : Bool :=
  go .outside 0 text
where
  go : LiteralMode → Nat → List Char → Bool
    | _, depth, [] => depth == 0
    | .escaped, depth, _ :: rest => go .inside depth rest
    | .inside, depth, c :: rest =>
      go (if c = '\\' then .escaped else if c = '"' then .outside else .inside) depth rest
    | .outside, depth, c :: rest =>
      if c = '"' then go .inside depth rest
      else if c = '(' then go .outside (depth + 1) rest
      else if c = ')' then
        match depth with
        | 0 => false
        | outer + 1 => go .outside outer rest
      else go .outside depth rest

end SuiteMigration.Test
