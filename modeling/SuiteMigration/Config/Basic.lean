import SuiteMigration.Path
import SuiteMigration.Test.Script

/-!
# Configuration

Where sources are read and modules are written, what is baked into scripts, and how scripts are run.
-/
namespace SuiteMigration

namespace Config

/-- The subtrees are relative to the input root and the outputs to the output root. -/
structure Layout where
  inputRoot : Path
  pagesSubtree : Path
  testsSubtree : Path
  /-- Only page files below a directory of this name are converted. -/
  pageFilter : Option String
  testFilter : Option String
  outputRoot : Path
  pagesOutput : Path
  testsOutput : Path
  /-- The package segment that tells an import of a page. -/
  pageMarker : String
  deriving DecidableEq

/-- The command that runs a script, which is appended to its arguments, and its time limit in
milliseconds. -/
structure Runner where
  command : String
  arguments : List String
  timeout : Nat
  deriving DecidableEq

def Layout.default : Layout where
  inputRoot := ⟨"."⟩
  pagesSubtree := ⟨"src/main/java"⟩
  testsSubtree := ⟨"src/test/java"⟩
  pageFilter := some "pages"
  testFilter := none
  outputRoot := ⟨"converted"⟩
  pagesOutput := ⟨"pages"⟩
  testsOutput := ⟨"tests"⟩
  pageMarker := "pages"

def Runner.default : Runner :=
  ⟨"npx", ["ts-node"], 300000⟩

def defaultSettings : Test.Settings :=
  ⟨"http://localhost:3000", false⟩

end Config

structure Config where
  layout : Config.Layout
  settings : Test.Settings
  runner : Config.Runner
  deriving DecidableEq

namespace Config

def default : Config :=
  ⟨.default, defaultSettings, .default⟩

def pagesInput (config : Config) : Path :=
  config.layout.inputRoot.join config.layout.pagesSubtree

def testsInput (config : Config) : Path :=
  config.layout.inputRoot.join config.layout.testsSubtree

def pagesOutput (config : Config) : Path :=
  config.layout.outputRoot.join config.layout.pagesOutput

def testsOutput (config : Config) : Path :=
  config.layout.outputRoot.join config.layout.testsOutput

end Config

end SuiteMigration
