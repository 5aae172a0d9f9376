import SuiteMigration.Locator.Expression
import SuiteMigration.Locator.Table
import SuiteMigration.Output.Statement

/-!
# Rules for page statements

Each rule knows one shape of statement in a page method and what becomes of it. The rules are tried
in order and the first that knows the statement decides; a statement that none knows is left out.
-/
namespace SuiteMigration.Page

open Pattern Locator

inductive Rule where
  | fill
  | click
  | visibility
  | title
  | transition
  | scriptEscape
  deriving DecidableEq

namespace Rule

def name : Rule → String
  | fill => "fill"
  | click => "click"
  | visibility => "visibility"
  | title => "title"
  | transition => "transition"
  | scriptEscape => "script-escape"

/-- The rules in the order in which they are tried. -/
def all : List Rule :=
  [fill, click, visibility, title, transition, scriptEscape]

end Rule

def thisDot : Pattern :=
  .optional (.all [text "this", blanks, mark '.', blanks])

/-- An element looked up on the spot, up to the opening parenthesis of its locator. -/
def lookupHead : Pattern :=
  .all [word, blanks, mark '.', blanks, text "findElement", blanks, mark '(']

/-- What a call is made on: a name that nothing but `this` qualifies, or a lookup. -/
def target : Pattern :=
  .all [.either .atStart (.one fun c => !Text.isWordChar c && c != '.'), thisDot,
    .group "target" (.either (.all [lookupHead, shortLine, mark ')']) word)]

def elementCall (method : String) (arguments : Pattern) : Pattern :=
  .all [target, blanks, mark '.', blanks, text method, blanks, mark '(', arguments, mark ')']

def fillCall : Pattern := elementCall "sendKeys" (.group "value" line)

def clickCall : Pattern := elementCall "click" blanks

def visibilityCall : Pattern := elementCall "isDisplayed" blanks

def titleReturn : Pattern :=
  .all [.atStart, text "return", someBlanks, thisDot, word, blanks, mark '.', blanks,
    text "getTitle", blanks, mark '(', blanks, mark ')']

def pageReturn : Pattern :=
  .all [.atStart, text "return", someBlanks, text "new", someBlanks, .group "page" word, blanks,
    mark '(']

/-- A target that is a lookup, with its locator expression. -/
def inlineLookup : Pattern :=
  .all [.atStart, lookupHead, .group "locator" line, mark ')', .atEnd]

/-- The statement for the selector of a target, or a request for review where it has none. -/
def onTarget (table : Table) (statement : List Char) (target : List Char)
    (emit : Selector → Output.Statement) : Output.Statement :=
  match inlineLookup.find? target with
  | some found =>
    match resolve? (found.group "locator") with
    | some lookup => emit lookup.selector
    | none => .review "Unresolved element lookup" statement
  | none =>
    match table.selector? (String.ofList target) with
    | some selector => emit selector
    | none => .review ("Unknown locator '" ++ String.ofList target ++ "'") statement

def fillStatement (value : List Char) (selector : Selector) : Output.Statement :=
  ⟨.fill, "await this.page.fill(" ++ selector.literal ++ ", " ++ String.ofList value ++ ");"⟩

def clickStatement (selector : Selector) : Output.Statement :=
  ⟨.click, "await this.page.click(" ++ selector.literal ++ ");"⟩

def visibilityStatement (selector : Selector) : Output.Statement :=
  ⟨.visibilityQuery, "return await this.page.isVisible(" ++ selector.literal ++ ");"⟩

def titleStatement : Output.Statement :=
  ⟨.titleQuery, "return await this.page.title();"⟩

def transitionStatement (page : List Char) : Output.Statement :=
  ⟨.transitionComment, "// Page transition to " ++ String.ofList page⟩

def scriptStatement : Output.Statement :=
  ⟨.reviewComment, "// JavaScript executor call (review manually)"⟩

namespace Rule

/-- What the rule makes of a statement; nothing if it does not know the shape. -/
def convert? (rule : Rule) (table : Table) (statement : List Char) : Option Output.Statement :=
  match rule with
  | fill => (fillCall.find? statement).map fun found =>
    onTarget table statement (found.group "target")
      (fillStatement (Text.trim (found.group "value")))
  | click => (clickCall.find? statement).map fun found =>
    onTarget table statement (found.group "target") clickStatement
  | visibility => (visibilityCall.find? statement).map fun found =>
    onTarget table statement (found.group "target") visibilityStatement
  | title => if titleReturn.occursIn statement then some titleStatement else none
  | transition => (pageReturn.find? statement).map fun found =>
    transitionStatement (found.group "page")
  | scriptEscape =>
    if (text "executeScript").occursIn statement || (text "executeAsyncScript").occursIn statement
    then some scriptStatement else none

end Rule

def convertStatement? (table : Table) (statement : String) : Option Output.Statement :=
  Rule.all.findSome? (·.convert? table statement.toList)

/-- The statements of a method body; a body of which nothing is left gets a pending mark. -/
def convertBody (table : Table) (body : List String) : List Output.Statement :=
  let converted := body.filterMap (convertStatement? table)
  if converted.isEmpty then [.pending] else converted

theorem convertBody_ne_nil (table : Table) (body : List String) : convertBody table body ≠ [] := by
  simp only [convertBody]
  split
  · simp
  · next nonempty => simpa [List.isEmpty_iff] using nonempty

end SuiteMigration.Page
