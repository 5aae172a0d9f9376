import SuiteMigration.TestRun.Command

/-!
# Shell scripts

A script is a sequence of commands, separated by semicolons and line ends. A line is read whole
before any of it is run, and one with an open quote or a parenthesis ends the script in an error.
-/
namespace SuiteMigration.TestRun.Shell

inductive Quote where
  | single
  | double
  deriving DecidableEq

def Quote.mark : Quote → Char
  | .single => '\''
  | .double => '"'

/-- What has been read of a line: its commands, the words of the next one, and the next word. -/
structure Reading where
  commands : List (List String)
  words : List String
  word : Option (List Char)

namespace Reading

def empty : Reading := ⟨[], [], none⟩

/-- A quote begins a word even if nothing stands in it. -/
def beginWord (reading : Reading) : Reading :=
  { reading with word := some (reading.word.getD []) }

def push (reading : Reading) (c : Char) : Reading :=
  { reading with word := some (reading.word.getD [] ++ [c]) }

def endWord (reading : Reading) : Reading :=
  match reading.word with
  | none => reading
  | some word => { reading with words := reading.words ++ [String.ofList word], word := none }

def endCommand (reading : Reading) : Reading :=
  let ended := reading.endWord
  if ended.words.isEmpty then ended
  else { ended with commands := ended.commands ++ [ended.words], words := [] }

end Reading

/-- Where the reader stands in a line. -/
inductive Place where
  | outside
  | quoted (quote : Quote)
  | comment

/-- The lines of a script, each with its commands, or `none` for one that cannot be read. -/
def lines (place : Place) (reading : Reading) : List Char → List (Option (List (List String)))
  | [] =>
    match place with
    | .quoted _ => [none]
    | _ => [some reading.endCommand.commands]
  | c :: rest =>
    match place with
    | .quoted quote =>
      if c = quote.mark then lines .outside reading rest
      else lines place (reading.push c) rest
    | .comment =>
      if c = '\n' then some reading.endCommand.commands :: lines .outside .empty rest
      else lines .comment reading rest
    | .outside =>
      match c with
      | '\n' => some reading.endCommand.commands :: lines .outside .empty rest
      | ';' => lines .outside reading.endCommand rest
      | ' ' | '\t' => lines .outside reading.endWord rest
      | '\'' => lines (.quoted .single) reading.beginWord rest
      | '"' => lines (.quoted .double) reading.beginWord rest
      | '(' | ')' => [none]
      | '#' =>
        if reading.word.isNone then lines .comment reading rest
        else lines .outside (reading.push c) rest
      | _ => lines .outside (reading.push c) rest

/-- The exit code where a script or one of its numbers cannot be read. -/
def errorCode : Nat := 2

/-- The exit code of a command that is not known. -/
def unknownCode : Nat := 127

/-- The ending that a command asks for the shell itself, after commands that ended in `last`. -/
def ending? (last : Ending) : List String → Option Ending
  | ["exit"] => some last
  | "exit" :: code :: _ =>
    some (.exited (match code.toNat? with
      | some code => code % 256
      | none => errorCode))
  | "kill" :: arguments => if arguments.getLast? = some "$$" then some .killed else none
  | _ => none

/-- The effect of one command that does not end the shell. -/
def runCommand (files : FileSystem) : List String → Effect
  | [] | ":" :: _ => .exit 0
  | name :: arguments =>
    match Command.find? name with
    | some command => command files arguments
    | none => .exit unknownCode

/-- Runs commands one after another; tells whether one ended the shell. -/
def runCommands (files : FileSystem) (effect : Effect) : List (List String) → Effect × Bool
  | [] => (effect, false)
  | words :: rest =>
    match ending? effect.ending words with
    | some ending => (effect.withEnding ending, true)
    | none => runCommands files (effect.andThen (runCommand files words)) rest

def runLines (files : FileSystem) (effect : Effect) : List (Option (List (List String))) → Effect
  | [] => effect
  | none :: _ => effect.withEnding (.exited errorCode)
  | some commands :: rest =>
    match runCommands files effect commands with
    | (effect, true) => effect
    | (effect, false) => runLines files effect rest

def runText (files : FileSystem) (script : String) : Effect :=
  runLines files (.exit 0) (lines .outside .empty script.toList)

/-- The shell takes its script from a file, or from the argument behind `-c`. -/
def command : Command := fun files arguments =>
  match arguments with
  | "-c" :: script :: _ => runText files script
  | path :: _ =>
    match files.readText ⟨path⟩ with
    | .ok script => runText files script
    | .error _ => .exit errorCode
  | [] => .exit 0

/-- The commands of a machine with these files, the shell among them. -/
def commands (files : FileSystem) : Commands := fun name arguments =>
  match if name = "sh" then some command else Command.find? name with
  | some known => .ok (known files arguments)
  | none => .error (FileSystem.Fault.message .missing)

end SuiteMigration.TestRun.Shell
