import SuiteMigration.Text.Split

/-!
# Paths

A path is its text, which is kept as given. Its components leave out empty pieces and those that
name the current directory, except one at the very start. Paths are ordered by their components.
-/
namespace SuiteMigration

structure Path where
  text : String
  deriving DecidableEq

namespace Path

inductive Component where
  | root
  | current
  | parent
  | normal (name : String)
  deriving DecidableEq

def Component.text : Component → String
  | .root => "/"
  | .current => "."
  | .parent => ".."
  | .normal name => name

/-- The component that a piece between slashes stands for. -/
def Component.ofPiece? (piece : List Char) : Option Component :=
  if piece = [] ∨ piece = ['.'] then none
  else if piece = ['.', '.'] then some .parent
  else some (.normal (String.ofList piece))

def isAbsolute (path : Path) : Bool :=
  path.text.toList.head? == some '/'

def components (path : Path) : List Component :=
  let pieces := Text.splitAt '/' path.text.toList
  let first :=
    if path.isAbsolute then [Component.root]
    else if pieces.head? = some ['.'] then [Component.current]
    else []
  first ++ pieces.filterMap Component.ofPiece?

/-- The place of a kind of component among the kinds. -/
def Component.rank : Component → Nat
  | .root => 0
  | .current => 1
  | .parent => 2
  | .normal _ => 3

/-- Does a component come in front of another one? Names are ordered by their characters. -/
def Component.before : Component → Component → Bool
  | .normal left, .normal right => left < right
  | left, right => left.rank < right.rank

/-- Do some components come first, or are the two the same? The first ones that differ decide. -/
def componentsBefore : List Component → List Component → Bool
  | [], _ => true
  | _ :: _, [] => false
  | left :: lefts, right :: rights =>
    if left = right then componentsBefore lefts rights else left.before right

def sort (paths : List Path) : List Path :=
  paths.mergeSort fun left right => componentsBefore left.components right.components

/-- The components of a path behind those of a directory, if it has them in front. -/
def behind? (directory path : Path) : Option (List Component) :=
  if directory.components.isPrefixOf path.components then
    some (path.components.drop directory.components.length)
  else none

/-- Appends a path; an absolute one replaces everything in front of it. -/
def join (base path : Path) : Path :=
  if path.isAbsolute || base.text.isEmpty then path
  else if base.text.toList.getLast? = some '/' then ⟨base.text ++ path.text⟩
  else ⟨base.text ++ "/" ++ path.text⟩

/-- The last component, if it is a name. -/
def fileName? (path : Path) : Option String :=
  match path.components.getLast? with
  | some (.normal name) => some name
  | _ => none

/-- A name in front of its last dot and behind it; a dot at the start is no such dot. -/
def splitName (name : String) : String × Option String :=
  let reversed := name.toList.reverse
  let extension := (reversed.takeWhile (· ≠ '.')).reverse
  match reversed.dropWhile (· ≠ '.') with
  | _ :: c :: stem => (String.ofList (c :: stem).reverse, some (String.ofList extension))
  | _ => (name, none)

def stem? (path : Path) : Option String :=
  path.fileName?.map fun name => (splitName name).1

def extension? (path : Path) : Option String :=
  path.fileName?.bind fun name => (splitName name).2

/-- Takes slashes and components for the current directory off the end of a reversed path that does
not begin with its only slash. -/
def trimEnd : List Char → List Char
  | '/' :: c :: rest => trimEnd (c :: rest)
  | '.' :: '/' :: c :: rest => trimEnd (c :: rest)
  | '.' :: ['/'] => ['/']
  | reversed => reversed

/-- The path without its last component; the root and the empty path have no parent. -/
def parent? (path : Path) : Option Path :=
  match path.components.getLast? with
  | none | some .root => none
  | some _ =>
    let reversed := (trimEnd path.text.toList.reverse).dropWhile (· ≠ '/')
    some ⟨String.ofList (trimEnd reversed).reverse⟩

end Path

end SuiteMigration
