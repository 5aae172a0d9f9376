import SuiteMigration.Output.Statement
import SuiteMigration.Test.Argument

/-!
# Rules for test statements

Each rule knows one shape of statement in a test method. The rules are tried in order and the first
that knows the statement decides: it gives a statement of the script, or drops an assertion, which
is counted. A statement that no rule knows is left out.
-/
namespace SuiteMigration.Test

open Pattern

inductive Rule where
  | assertion
  | navigate
  | titleBinding
  | sleep
  | println
  | driverCall
  | call
  deriving DecidableEq

namespace Rule

def name : Rule → String
  | assertion => "Assertion"
  | navigate => "Navigate"
  | titleBinding => "TitleBinding"
  | sleep => "Sleep"
  | println => "Println"
  | driverCall => "DriverCall"
  | call => "Call"

/-- The rules in the order in which they are tried. -/
def all : List Rule :=
  [assertion, navigate, titleBinding, sleep, println, driverCall, call]

end Rule

inductive Outcome where
  | emit (statement : Output.Statement)
  | assertionDropped
  deriving DecidableEq

def assertionCall : Pattern :=
  .all [.atStart,
    .either
      (.all [.optional (.all [word, blanks, mark '.', blanks]), text "assert",
        .many true wordChar])
      (.all [text "Assert", blanks, mark '.', blanks, text "fail"]),
    blanks, mark '(']

def navigateCall : Pattern :=
  .all [.atStart, text "driver", blanks, mark '.', blanks,
    .either (text "get")
      (.all [text "navigate", blanks, mark '(', blanks, mark ')', blanks, mark '.', blanks,
        text "to"]),
    blanks, mark '(', .group "url" line, mark ')', .atEnd]

def titleVariable : Pattern :=
  .all [.atStart, .optional (.all [text "final", someBlanks]), text "String", someBlanks,
    .group "variable" word, blanks, mark '=', blanks, text "driver", blanks, mark '.', blanks,
    text "getTitle", blanks, mark '(', blanks, mark ')', .atEnd]

def sleepCall : Pattern :=
  .all [.atStart, text "Thread", blanks, mark '.', blanks, text "sleep", blanks, mark '(',
    .group "duration" line, mark ')', .atEnd]

def printlnCall : Pattern :=
  .all [.atStart, text "System", blanks, mark '.', blanks, text "out", blanks, mark '.', blanks,
    text "println", blanks, mark '(', .group "arguments" line, mark ')', .atEnd]

def driverDot : Pattern :=
  .all [.atStart, text "driver", blanks, mark '.']

/-- A dotted name with optional type arguments and array brackets. -/
def typeName : Pattern :=
  .all [oneOrMore (.one fun c => Text.isWordChar c || c == '.'),
    .optional (.all [blanks, mark '<', line, mark '>']),
    .many true (.all [blanks, mark '[', blanks, mark ']'])]

/-- A method call on a name, with an optional variable, typed or not, that takes its result. -/
def boundCall : Pattern :=
  .all [.atStart,
    .optional (.all [.optional (.all [text "final", someBlanks]), .group "type" typeName,
      someBlanks]),
    .optional (.all [.group "variable" word, blanks, mark '=', blanks]),
    .group "receiver" word, blanks, mark '.', blanks, .group "method" word, blanks, mark '(',
    .group "arguments" line, mark ')', .atEnd]

/-- The call in the script. The variable that took the result is declared if it had a type; an
instance of a page takes none. -/
def callStatement (pageInstances : List String) (found : Match) : Output.Statement :=
  let arguments := convertArguments (Text.trim (found.group "arguments"))
  let call := "await " ++ String.ofList (found.group "receiver") ++ "."
    ++ String.ofList (found.group "method") ++ "(" ++ String.ofList arguments ++ ");"
  match (found.group? "variable").map String.ofList with
  | none => ⟨.methodCall, call⟩
  | some bound =>
    if pageInstances.contains bound then ⟨.methodCall, call⟩
    else if (found.group? "type").isSome then ⟨.methodCall, "const " ++ bound ++ " = " ++ call⟩
    else ⟨.methodCall, bound ++ " = " ++ call⟩

namespace Rule

/-- What the rule makes of a statement; nothing if it does not know the shape. -/
def convert? (rule : Rule) (pageInstances : List String) (statement : List Char) : Option Outcome :=
  match rule with
  | assertion => if assertionCall.occursIn statement then some .assertionDropped else none
  | navigate => (navigateCall.find? statement).map fun found =>
    .emit ⟨.navigate, "await page.goto("
      ++ String.ofList (scriptArgument (Text.trim (found.group "url"))) ++ ");"⟩
  | titleBinding => (titleVariable.find? statement).map fun found =>
    .emit ⟨.titleQuery, "const " ++ String.ofList (found.group "variable")
      ++ " = await page.title();"⟩
  | sleep => (sleepCall.find? statement).map fun found =>
    .emit ⟨.rawPassthrough, "await page.waitForTimeout("
      ++ String.ofList (Text.trim (found.group "duration")) ++ ");"⟩
  | println => (printlnCall.find? statement).map fun found =>
    .emit ⟨.rawPassthrough, "console.log("
      ++ String.ofList (convertArguments (Text.trim (found.group "arguments"))) ++ ");"⟩
  | driverCall =>
    if driverDot.occursIn statement then
      some (.emit (.review "Driver call not converted" statement))
    else none
  | call =>
    match boundCall.find? statement with
    | none => none
    | some found =>
      if isBalanced (found.group "arguments") then
        some (.emit (callStatement pageInstances found))
      else none

end Rule

def convertStatement? (pageInstances : List String) (statement : String) : Option Outcome :=
  Rule.all.findSome? (·.convert? pageInstances statement.toList)

/-- A test method as the script runs it. -/
structure Case where
  name : String
  statements : List Output.Statement
  assertionsDropped : Nat
  deriving DecidableEq

namespace Case

def add (case : Case) : Outcome → Case
  | .emit statement => { case with statements := case.statements ++ [statement] }
  | .assertionDropped => { case with assertionsDropped := case.assertionsDropped + 1 }

def ofBody (name : String) (pageInstances : List String) (body : List String) : Case :=
  (body.filterMap (convertStatement? pageInstances)).foldl add ⟨name, [], 0⟩

end Case

end SuiteMigration.Test
