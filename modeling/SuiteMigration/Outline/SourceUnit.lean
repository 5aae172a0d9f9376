import SuiteMigration.Text.Split

/-!
# The outline of a Java source file

A source file is read down to its classes, their fields and methods, and the flat list of statements
of each method body. Types, expressions and nesting of statements stay text.
-/
namespace SuiteMigration.Outline

/-- The part of a dotted name behind its last dot. -/
def lastSegment (name : String) : String :=
  String.ofList (name.toList.reverse.takeWhile (· ≠ '.')).reverse

/-- An annotation such as @Test. -/
structure Tag where
  name : String
  /-- The text between the parentheses, if there are any. -/
  arguments : Option String
  deriving DecidableEq

/-- A qualified annotation is known by its simple name. -/
def Tag.isNamed (tag : Tag) (simpleName : String) : Bool :=
  lastSegment tag.name == simpleName

structure Import where
  path : String
  isStatic : Bool
  deriving DecidableEq

namespace Import

def isWildcard (clause : Import) : Bool :=
  ['.', '*'].isSuffixOf clause.path.toList

def simpleName (clause : Import) : String :=
  lastSegment clause.path

/-- The segments in front of the simple name. -/
def packageSegments (clause : Import) : List String :=
  (Text.splitAt '.' clause.path.toList).dropLast.map String.ofList

end Import

structure Statement where
  text : String
  line : Nat
  deriving DecidableEq

structure Field where
  tags : List Tag
  modifiers : List String
  typeText : String
  name : String
  initializer : Option String
  line : Nat
  deriving DecidableEq

/-- The declaration as it would stand in a method body, without annotations and modifiers. -/
def Field.declaration (field : Field) : String :=
  match field.initializer with
  | some value => field.typeText ++ " " ++ field.name ++ " = " ++ value
  | none => field.typeText ++ " " ++ field.name

structure Method where
  tags : List Tag
  modifiers : List String
  name : String
  parameters : List String
  /-- The statements of the body; an abstract method has none. -/
  body : Option (List Statement)
  line : Nat
  deriving DecidableEq

namespace Method

def hasTag (method : Method) (simpleName : String) : Bool :=
  method.tags.any (·.isNamed simpleName)

def statements (method : Method) : List Statement :=
  method.body.getD []

end Method

/-- A class, interface, enum or record. -/
structure ClassDecl where
  name : String
  modifiers : List String
  tags : List Tag
  fields : List Field
  methods : List Method
  nested : List ClassDecl
  line : Nat

namespace ClassDecl

def isPublic (decl : ClassDecl) : Bool :=
  decl.modifiers.contains "public"

def addField (decl : ClassDecl) (field : Field) : ClassDecl :=
  { decl with fields := decl.fields ++ [field] }

def addMethod (decl : ClassDecl) (method : Method) : ClassDecl :=
  { decl with methods := decl.methods ++ [method] }

def addNested (decl inner : ClassDecl) : ClassDecl :=
  { decl with nested := decl.nested ++ [inner] }

end ClassDecl

structure SourceUnit where
  package : Option String
  imports : List Import
  classes : List ClassDecl

namespace SourceUnit

def empty : SourceUnit := ⟨none, [], []⟩

def addImport (unit : SourceUnit) (clause : Import) : SourceUnit :=
  { unit with imports := unit.imports ++ [clause] }

def addClass (unit : SourceUnit) (decl : ClassDecl) : SourceUnit :=
  { unit with classes := unit.classes ++ [decl] }

/-- The first class at top level that is public. -/
def publicClass? (unit : SourceUnit) : Option ClassDecl :=
  unit.classes.find? (·.isPublic)

/-- The class that a conversion is about: the public one, else the first. -/
def primaryClass? (unit : SourceUnit) : Option ClassDecl :=
  unit.publicClass? <|> unit.classes.head?

/-- The name of the public class, or else the fallback. -/
def publicName (unit : SourceUnit) (fallback : String) : String :=
  match unit.publicClass? with
  | some decl => decl.name
  | none => fallback

end SourceUnit

end SuiteMigration.Outline
