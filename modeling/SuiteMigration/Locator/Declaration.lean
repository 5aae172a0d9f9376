import SuiteMigration.Locator.Expression
import SuiteMigration.Locator.Table

/-!
# Locator declarations

The locators that the classes of a source file declare: annotated fields, and variables of a locator
or element type among fields and statements. Declarations count in the order of their lines, and
those that cannot be resolved are left out.
-/
namespace SuiteMigration.Locator

open Outline Pattern

/-- A variable of type `By` that is initialised by a factory call. -/
def byVariable : Pattern :=
  all [.atStart, optional (all [text "final", someBlanks]), text "By", someBlanks,
    .group "name" word, blanks, mark '=', blanks,
    .group "lookup"
      (all [text "By", blanks, mark '.', blanks, word, blanks, mark '(', line, mark ')']),
    .atEnd]

/-- A variable that is initialised by looking the element up. -/
def elementVariable : Pattern :=
  all [.atStart, optional (all [text "final", someBlanks]), text "WebElement", someBlanks,
    .group "name" word, blanks, mark '=', blanks, word, blanks, mark '.', blanks,
    text "findElement", blanks, mark '(', .group "lookup" line, mark ')', .atEnd]

/-- A name, dotted or not, as the value of an attribute. -/
def attributeConstant : Pattern :=
  .group "constant" (oneOrMore (.one fun c => Text.isWordChar c || c == '.'))

/-- An attribute with a string literal or a name as its value. -/
def attributePair : Pattern :=
  all [.group "key" word, blanks, mark '=', blanks, oneOf [stringLiteral, attributeConstant]]

/-- A place where a locator may be declared; only a field can be annotated. -/
structure Declaration where
  line : Nat
  text : String
  field : Option Field

namespace Declaration

def ofField (field : Field) : Declaration :=
  ⟨field.line, field.declaration, some field⟩

def ofStatement (statement : Statement) : Declaration :=
  ⟨statement.line, statement.text, none⟩

/-- The fields of a class, then the statements of its methods. -/
def ofClass (decl : ClassDecl) : List Declaration :=
  decl.fields.map ofField ++ decl.methods.flatMap fun method => method.statements.map ofStatement

/-- The candidates of the classes at top level, sorted by line; on one line fields stand first. -/
def ofUnit (unit : SourceUnit) : List Declaration :=
  (unit.classes.flatMap ofClass).mergeSort fun left right => left.line ≤ right.line

end Declaration

/-- What the attributes of an annotation have said so far. -/
structure Attributes where
  how : Option Strategy
  value : Option String
  direct : Option Lookup

namespace Attributes

def empty : Attributes := ⟨none, none, none⟩

/-- A later `how` or `using` replaces an earlier one; of attributes that name a strategy the first
counts. -/
def add (attributes : Attributes) (key value : String) : Attributes :=
  if key = "how" then { attributes with how := Strategy.ofConstant? value }
  else if key = "using" then { attributes with value := some value }
  else match attributes.direct, Strategy.ofAttribute? key with
    | none, some strategy => { attributes with direct := some ⟨strategy, value⟩ }
    | _, _ => attributes

def addMatch (attributes : Attributes) (found : Match) : Attributes :=
  let value := match found.group? "value" with
    | some body => body
    | none => found.group "constant"
  attributes.add (String.ofList (found.group "key")) (String.ofList value)

def ofText (arguments : String) : Attributes :=
  (attributePair.findAll arguments.toList).foldl addMatch empty

def lookup? (attributes : Attributes) : Option Lookup :=
  attributes.direct <|> match attributes.how, attributes.value with
    | some strategy, some value => some ⟨strategy, value⟩
    | _, _ => none

end Attributes

def entryOf (name : String) (lookup : Lookup) (shape : Shape) (line : Nat) : Entry :=
  ⟨name, lookup.strategy, lookup.value, lookup.selector, ⟨shape, line⟩⟩

/-- The locator of a field with a `FindBy` annotation; of several such annotations the first
counts. -/
def annotatedLocator? (declaration : Declaration) : Option Entry := do
  let field ← declaration.field
  let tag ← field.tags.find? (·.isNamed "FindBy")
  -- An annotation without arguments is looked through like one with none in its parentheses.
  let lookup ← (Attributes.ofText (tag.arguments.getD "")).lookup?
  some (entryOf field.name lookup .annotatedField declaration.line)

/-- The locator that a declaration is initialised with. -/
def initializedLocator? (declaration : Declaration) : Option Entry := do
  let text := declaration.text.toList
  let (shape, found) ← match byVariable.find? text with
    | some found => some (Shape.byVariable, found)
    | none => (elementVariable.find? text).map (Shape.elementVariable, ·)
  let lookup ← resolve? (found.group "lookup")
  some (entryOf (String.ofList (found.group "name")) lookup shape declaration.line)

/-- The entries of one declaration in the order in which they are inserted. -/
def Declaration.entries (declaration : Declaration) : List Entry :=
  (annotatedLocator? declaration).toList ++ (initializedLocator? declaration).toList

def Table.ofUnit (unit : SourceUnit) : Table :=
  ((Declaration.ofUnit unit).flatMap Declaration.entries).foldl Table.insert .empty

end SuiteMigration.Locator
