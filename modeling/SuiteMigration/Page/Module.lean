import SuiteMigration.Outline.Parsing
import SuiteMigration.Locator.Declaration
import SuiteMigration.Page.Rule
import SuiteMigration.Output.Layout

/-!
# Page modules

A page object becomes a class with one asynchronous method for each method of the source's primary
class that has a body and is no constructor. What is lost or uncertain on the way is told in
warnings.
-/
namespace SuiteMigration.Page

open Outline Locator

structure Method where
  name : String
  parameters : List String
  statements : List Output.Statement

structure Module where
  className : String
  methods : List Method
  warnings : List String

/-- A method as the source has it. -/
structure MethodOutline where
  name : String
  parameters : List String
  body : List String

/-- The methods with a body of the primary class, constructors left out; a method named like the
generated class counts as one. -/
def methodOutlines (unit : SourceUnit) (className : String) : List MethodOutline :=
  match unit.primaryClass? with
  | none => []
  | some decl =>
    let ordinary := decl.methods.filter fun method =>
      method.name != className && method.name != decl.name
    ordinary.filterMap fun method => method.body.map fun body =>
      ⟨method.name, method.parameters, body.map Outline.Statement.text⟩

def overwriteWarning (overwrite : Overwrite) : String :=
  "locator '" ++ overwrite.name ++ "' on line " ++ toString overwrite.current.line
    ++ " overrides the declaration on line " ++ toString overwrite.previous.line

/-- The warning for a statement of a method; only comments have one. -/
def statementWarning? (method : String) (statement : Output.Statement) : Option String :=
  match statement.kind with
  | .transitionComment =>
    some (method ++ ": " ++ statement.commentText
      ++ " is emitted as a comment only; page transitions are not modeled")
  | .reviewComment => some (method ++ ": needs review: " ++ statement.commentText)
  | .pending => some (method ++ ": no statements could be converted")
  | _ => none

def Method.warnings (method : Method) : List String :=
  method.statements.filterMap (statementWarning? method.name)

def Method.ofOutline (table : Table) (outline : MethodOutline) : Method :=
  ⟨outline.name, outline.parameters, convertBody table outline.body⟩

namespace Module

def ofUnit (unit : SourceUnit) (fallback : String) : Module :=
  let className := unit.publicName fallback
  let table := Table.ofUnit unit
  let methods := (methodOutlines unit className).map (Method.ofOutline table)
  ⟨className, methods,
    table.overwrites.map overwriteWarning ++ methods.flatMap Method.warnings⟩

def ofSource (source fallback : String) : Except ParseError Module :=
  (SourceUnit.parse source).map (ofUnit · fallback)

end Module

def Method.render (method : Method) : String :=
  "async " ++ method.name ++ "(" ++ ", ".intercalate method.parameters ++ ") \x7b\n"
    ++ Output.indent 1 ("\n".intercalate (method.statements.map Output.Statement.text)) ++ "\n\x7d"

namespace Module

def render (module : Module) : String :=
  let members := "constructor(private page: Page) \x7b\x7d" :: module.methods.map Method.render
  "import \x7b Page \x7d from 'playwright';\n\nexport class " ++ module.className ++ " \x7b\n"
    ++ "\n\n".intercalate (members.map (Output.indent 1)) ++ "\n\x7d\n"

def fileName (module : Module) : String :=
  module.className ++ ".ts"

end Module

end SuiteMigration.Page
