import SuiteMigration.Locator.Strategy
import SuiteMigration.Pattern.Search

/-!
# Locator expressions

Finds a locator inside a Java expression: a factory call on one string literal, or else a string
literal that is not empty.
-/
namespace SuiteMigration.Locator

open Pattern

/-- A character of a string literal: any but a quote or a backslash, or a backslash with the
character it escapes. -/
def stringChar : Pattern :=
  oneOf [.one fun c => c != '"' && c != '\\', .seq (mark '\\') lineChar]

/-- A string literal, its body as a group. -/
def stringLiteral : Pattern :=
  all [mark '"', .group "value" (.many true stringChar), mark '"']

/-- A call of a factory method on one string literal. -/
def factoryCall (method : String) : Pattern :=
  all [.atWordEdge, text "By", blanks, mark '.', blanks, text method, blanks, mark '(', blanks,
    stringLiteral, blanks, mark ')']

/-- The factory methods in the order in which they are sought. -/
def factories : List (Strategy × String) :=
  [(.id, "id"), (.name, "name"), (.className, "className"), (.css, "cssSelector"),
    (.xPath, "xpath")]

/-- A string literal that is not empty. -/
def bareString : Pattern :=
  all [mark '"', .group "value" (oneOrMore stringChar), mark '"']

/-- A strategy with the value it looks for. -/
structure Lookup where
  strategy : Strategy
  value : String
  deriving DecidableEq

def Lookup.selector (lookup : Lookup) : Selector :=
  lookup.strategy.selector lookup.value

/-- The lookup that an expression holds. Any factory call counts before a bare string, and an
earlier factory before a later one wherever they stand. -/
def resolve? (expression : List Char) : Option Lookup :=
  let call := factories.findSome? fun (strategy, method) =>
    ((factoryCall method).find? expression).map fun found =>
      ⟨strategy, String.ofList (found.group "value")⟩
  call <|> (bareString.find? expression).map fun found =>
    ⟨.literal, String.ofList (found.group "value")⟩

end SuiteMigration.Locator
