import SuiteMigration.CommandLine.Usage

/-!
# Requests

The arguments of the tool ask for help or for a command, or make no sense. The global option may
stand on either side of the command, where the one behind it counts.
-/
namespace SuiteMigration.CommandLine

/-- What a command is asked to do. -/
inductive Task where
  | convert (input? output? : Option String) (json : Bool)
  | list
  | runTests
  /-- No command was given. -/
  | describe
  deriving DecidableEq

inductive Request where
  | help (text : String)
  | perform (configFile? : Option String) (task : Task)
  deriving DecidableEq

def valueOf? (given : List Given) (name : String) : Option String :=
  (given.find? (·.name == name)).bind Given.value?

/-- The task of a command with its options. -/
def CommandSpec.task (spec : CommandSpec) (given : List Given) : Task :=
  if spec.name = listSpec.name then .list
  else if spec.name = runTestsSpec.name then .runTests
  else .convert (valueOf? given "input") (valueOf? given "output") (given.any (·.name == "json"))

/-- The help that the names behind the help command ask for. -/
def helpFor? : List String → Option String
  | [] => some toolHelp
  | [name] =>
    if name = helpName then some helpHelp
    else (commandSpecs.find? (·.name == name)).map CommandSpec.help
  | _ => none

/-- Reads the arguments behind a command's name. -/
def requestOf? (spec : CommandSpec) (outer : List Given) (arguments : List String) :
    Option Request :=
  match readOptions spec.allOptions [] arguments with
  | .help => some (.help spec.help)
  | .options given [] =>
    if isRepeated given then none
    else some (.perform (valueOf? given "config" <|> valueOf? outer "config") (spec.task given))
  | _ => none

/-- The request that the arguments make, if they make sense. -/
def Request.ofArguments? (arguments : List String) : Option Request :=
  match readOptions globalOptions [] arguments with
  | .wrong => none
  | .help => some (.help toolHelp)
  | .options given [] =>
    if isRepeated given then none else some (.perform (valueOf? given "config") .describe)
  | .options given (name :: rest) =>
    if name = helpName then (helpFor? rest).map .help
    else if isRepeated given then none
    else
      match commandSpecs.find? (·.name == name) with
      | some spec => requestOf? spec given rest
      | none => none

end SuiteMigration.CommandLine
