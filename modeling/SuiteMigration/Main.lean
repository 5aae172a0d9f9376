import Std.Time.DateTime.Timestamp
import SuiteMigration.CommandLine.Answer
import SuiteMigration.FileSystem.Change
import SuiteMigration.Manifest.Stamp
import SuiteMigration.TestRun.Shell
import SuiteMigration.Url.Check

/-!
# The tool

The paths of the files that the tool may look at come on standard input, one a line; a path that
ends in a slash is a directory. The arguments are answered over the tree of these files, and then
what changed in the tree is written.
-/
namespace SuiteMigration.Tool

open FileSystem

/-- The lines of standard input. -/
partial def readLines (input : IO.FS.Stream) : IO (List String) := do
  let line ← input.getLine
  if line.isEmpty then return []
  let text := String.ofList (line.toList.filter (· ≠ '\n'))
  return text :: (← readLines input)

/-- Adds the file or directory at a path to a tree. -/
def addPath (files : FileSystem) (path : Path) : IO FileSystem := do
  if endsInSlash path then
    return (files.makeDirectories path).1
  let content := Content.ofBytes (← IO.FS.readBinFile path.text).toList
  let (made, _) := files.makeParents path
  return (made.write path content).toOption.getD made

/-- The tree of the files and directories at these paths, from the working directory on. -/
def readTree (working : Location) (paths : List String) : IO FileSystem :=
  paths.foldlM (fun files path => addPath files ⟨path⟩) (FileSystem.empty working)

def textOf (location : Location) : String :=
  "/" ++ "/".intercalate location

def writeNode : Location × Node → IO Unit
  | (location, .directory) => IO.FS.createDirAll (textOf location)
  | (location, .file (.text text)) => IO.FS.writeFile (textOf location) text
  | (location, .file (.raw bytes)) => IO.FS.writeBinFile (textOf location) ⟨bytes.toArray⟩

def currentStamp : IO Manifest.Stamp := do
  let bytes ← IO.getRandomBytes 16
  let now ← Std.Time.Timestamp.now
  return ⟨Manifest.Stamp.identifier (bytes.toList.map UInt8.toNat),
    Manifest.Stamp.instant now.toNanosecondsSinceUnixEpoch.toInt.toNat⟩

/-- The names on the way to the working directory. -/
def workingLocation : IO Location := do
  let directory := toString (← IO.currentDir)
  return (Path.mk directory).components.filterMap fun component =>
    match component with
    | .normal name => some name
    | _ => none

end SuiteMigration.Tool

open SuiteMigration in
def main (arguments : List String) : IO UInt32 := do
  let paths ←
    match CommandLine.Request.ofArguments? arguments with
    | some (.perform _ _) => Tool.readLines (← IO.getStdin)
    | _ => pure []
  let files ← Tool.readTree (← Tool.workingLocation) paths
  let around : CommandLine.Surroundings := ⟨Url.complain, TestRun.Shell.commands, ← Tool.currentStamp⟩
  let (left, answer) := CommandLine.answer around files arguments
  (left.changesSince files).forM Tool.writeNode
  IO.print answer.printed
  if let some complaint := answer.complaint? then
    IO.eprintln complaint
  return UInt32.ofNat answer.exitCode
