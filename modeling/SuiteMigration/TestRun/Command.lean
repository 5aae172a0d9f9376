import SuiteMigration.FileSystem.Access
import SuiteMigration.TestRun.Launch

/-!
# Commands

The commands of a small machine that has nothing but files.
-/
namespace SuiteMigration.TestRun

def Effect.exit (code : Nat) : Effect :=
  ⟨"", 0, .exited code⟩

/-- Effects one after another; the later ending counts. -/
def Effect.andThen (first second : Effect) : Effect :=
  ⟨first.printed ++ second.printed, first.slept + second.slept, second.ending⟩

def Effect.withEnding (effect : Effect) (ending : Ending) : Effect :=
  { effect with ending := ending }

abbrev Command := FileSystem → (arguments : List String) → Effect

namespace Command

/-- Prints the texts of files; one that cannot be read makes it fail. -/
def cat : Command := fun files arguments =>
  let texts := arguments.map fun argument => (files.readText ⟨argument⟩).toOption
  ⟨String.join (texts.map (·.getD "")), 0, .exited (if texts.all Option.isSome then 0 else 1)⟩

def echo : Command := fun _ arguments =>
  ⟨" ".intercalate arguments ++ "\n", 0, .exited 0⟩

/-- Takes one argument, a number of seconds. -/
def sleep : Command := fun _ arguments =>
  match arguments.mapM String.toNat? with
  | some [seconds] => ⟨"", seconds * 1000, .exited 0⟩
  | _ => .exit 1

/-- Is there something at a path, a file or a directory as asked for? -/
def test : Command := fun files arguments =>
  let holds := match arguments with
    | ["-e", path] => (files.open? ⟨path⟩).isOk
    | ["-d", path] => files.isDirectory ⟨path⟩
    | ["-f", path] => (files.open? ⟨path⟩).isOk && !files.isDirectory ⟨path⟩
    | _ => false
  .exit (if holds then 0 else 1)

/-- The command of a name. -/
def find? : String → Option Command
  | "true" => some fun _ _ => .exit 0
  | "false" => some fun _ _ => .exit 1
  | "cat" => some cat
  | "echo" => some echo
  | "sleep" => some sleep
  | "test" => some test
  | _ => none

end Command

end SuiteMigration.TestRun
