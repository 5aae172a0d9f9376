import SuiteMigration.Text.Split

/-!
# Options

An option is a long name, with a value in the next argument or behind an equals sign, or without
one. An option is given once. Options are read up to the first argument that is none, and asking for
help ends the reading.
-/
namespace SuiteMigration.CommandLine

structure OptionSpec where
  name : String
  /-- What its value is called; an option without a value is a flag. -/
  valueName? : Option String
  about : String
  deriving DecidableEq

/-- An option as given, with its value if it takes one. -/
structure Given where
  name : String
  value? : Option String
  deriving DecidableEq

/-- What an argument looks like. -/
inductive Form where
  /-- A long option, with the text behind an equals sign if there is one. -/
  | long (name : String) (attached : Option String)
  /-- One dash and letters. -/
  | short (letters : List Char)
  /-- Two dashes alone: what follows is no option. -/
  | escape
  | word
  deriving DecidableEq

/-- A dash alone is a word. -/
def formOf (argument : String) : Form :=
  match argument.toList with
  | ['-', '-'] => .escape
  | '-' :: '-' :: rest =>
    let name := String.ofList (rest.takeWhile (· ≠ '='))
    match rest.dropWhile (· ≠ '=') with
    | [] => .long name none
    | _ :: value => .long name (some (String.ofList value))
  | '-' :: c :: letters => .short (c :: letters)
  | _ => .word

/-- The options read, and what ended the reading. -/
inductive Reading where
  /-- A word and the arguments behind it, or nothing more. -/
  | options (given : List Given) (rest : List String)
  | help
  | wrong
  deriving DecidableEq

def isRepeated (given : List Given) : Bool :=
  !(given.map Given.name).Nodup

/-- Reads the options at the front of the arguments. That the last of them is a repeated one with
its value in an argument of its own is left to the caller. -/
def readOptions (specs : List OptionSpec) (given : List Given) : List String → Reading
  | [] => .options given []
  | argument :: rest =>
    match formOf argument with
    | .word => .options given (argument :: rest)
    | .escape => if rest.isEmpty then .options given [] else .wrong
    | .short letters =>
      if letters.head? = some 'h' && !isRepeated given then .help else .wrong
    | .long name attached =>
      if isRepeated given then .wrong
      else if name = "help" then
        if attached.isSome then .wrong else .help
      else
        match specs.find? (·.name == name) with
        | none => .wrong
        | some spec =>
          match spec.valueName?, attached with
          | none, none =>
            if given.any (·.name == name) then .wrong
            else readOptions specs (given ++ [⟨name, none⟩]) rest
          | none, some _ => .wrong
          | some _, some value =>
            if given.any (·.name == name) then .wrong
            else readOptions specs (given ++ [⟨name, some value⟩]) rest
          | some _, none =>
            match rest with
            | [] => .wrong
            | value :: rest =>
              if formOf value = .word then readOptions specs (given ++ [⟨name, some value⟩]) rest
              else .wrong

end SuiteMigration.CommandLine
