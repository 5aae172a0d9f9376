import SuiteMigration.CommandLine.Option

/-!
# Commands and their help

The tool has one global option and three commands. A help text lists commands and options in
columns.
-/
namespace SuiteMigration.CommandLine

/-- A command as the help texts describe it. -/
structure CommandSpec where
  name : String
  about : String
  /-- The options of the command itself; the global ones are accepted too. -/
  options : List OptionSpec

def toolName : String := "selenium-migrate"

def toolAbout : String :=
  "Converts Selenium Java page objects and tests into Playwright TypeScript"

def globalOptions : List OptionSpec :=
  [⟨"config", some "FILE", "JSON configuration file"⟩]

def convertSpec : CommandSpec :=
  ⟨"convert", "Convert page objects and tests",
    [⟨"input", some "DIR", "Project root to read"⟩,
      ⟨"output", some "DIR", "Directory to write into"⟩,
      ⟨"json", none, "Print the manifest as JSON"⟩]⟩

def listSpec : CommandSpec :=
  ⟨"list", "List converted pages and tests", []⟩

def runTestsSpec : CommandSpec :=
  ⟨"run-tests", "Run every converted test script", []⟩

def commandSpecs : List CommandSpec :=
  [convertSpec, listSpec, runTestsSpec]

def CommandSpec.allOptions (spec : CommandSpec) : List OptionSpec :=
  globalOptions ++ spec.options

def helpName : String := "help"

def helpAbout : String :=
  "Print this message or the help of the given subcommand(s)"

/-- A heading with rows of two columns; the second column begins two places behind the longest first
one. -/
def columns (heading : String) (rows : List (String × String)) : String :=
  let width := (rows.map fun (left, _) => left.length).foldl max 0
  heading ++ ":\n" ++ String.join (rows.map fun (left, right) =>
    "  " ++ left ++ String.ofList (List.replicate (width - left.length + 2) ' ') ++ right ++ "\n")

/-- Long options are indented by the width of a short one. -/
def OptionSpec.row (spec : OptionSpec) : String × String :=
  let value := match spec.valueName? with
    | some name => " <" ++ name ++ ">"
    | none => ""
  ("    --" ++ spec.name ++ value, spec.about)

def optionColumns (specs : List OptionSpec) : String :=
  columns "Options" (specs.map OptionSpec.row ++ [("-h, --help", "Print help")])

def usageLine (usage : String) : String :=
  "Usage: " ++ toolName ++ " " ++ usage ++ "\n"

/-- The help of the tool as a whole. -/
def toolHelp : String :=
  toolAbout ++ "\n\n" ++ usageLine "[OPTIONS] [COMMAND]" ++ "\n"
    ++ columns "Commands" (commandSpecs.map (fun spec => (spec.name, spec.about))
      ++ [(helpName, helpAbout)])
    ++ "\n" ++ optionColumns globalOptions

def CommandSpec.help (spec : CommandSpec) : String :=
  spec.about ++ "\n\n" ++ usageLine (spec.name ++ " [OPTIONS]") ++ "\n"
    ++ optionColumns spec.allOptions

/-- The help of the help command, which takes the names of commands. -/
def helpHelp : String :=
  helpAbout ++ "\n\n" ++ usageLine (helpName ++ " [COMMAND]...") ++ "\n"
    ++ columns "Arguments" [("[COMMAND]...", "Print help for the subcommand(s)")]

end SuiteMigration.CommandLine
