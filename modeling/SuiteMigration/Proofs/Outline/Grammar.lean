import SuiteMigration.Outline.Parsing
import SuiteMigration.Proofs.Outline.Tree

/-!
# Units as trees

The grammar of a source file: what its declarations are made of, the tokens that spell them, and the
outline that a reader should make of them.
-/
namespace SuiteMigration.Outline

structure Identifier where
  token : Token
  is_ident : token.kind = .ident

/-- A segment of a qualified name behind its first one. -/
structure Segment where
  token : Token
  accepted : token.kind = .ident ∨ token.isPunct '*' = true

structure QualifiedName where
  first : Identifier
  others : List (Mark '.' × Segment)

namespace QualifiedName

def tokens (name : QualifiedName) : List Token :=
  name.first.token :: name.others.flatMap fun part => [part.1.token, part.2.token]

def text (name : QualifiedName) : String :=
  String.ofList (name.tokens.flatMap Token.text)

end QualifiedName

/-- An annotation. Behind its sign the keyword of an annotation type is no name. -/
structure TagSyntax where
  sign : Mark '@'
  name : QualifiedName
  no_type : name.first.token.isWord ["interface"] = false
  arguments : Option Group

namespace TagSyntax

def tokens (tag : TagSyntax) : List Token :=
  tag.sign.token :: (tag.name.tokens ++ (tag.arguments.map Group.tokens).getD [])

def outline (tag : TagSyntax) : Tag where
  name := tag.name.text
  arguments := tag.arguments.map fun group => String.ofList (joinTokens group.inside)

end TagSyntax

/-- What can stand in front of a declaration. -/
inductive Qualifier where
  | tag (tag : TagSyntax)
  | modifier (word : Word modifierWords)

namespace Qualifier

def tokens : Qualifier → List Token
  | tag decl => decl.tokens
  | modifier word => [word.token]

def tag? : Qualifier → Option Tag
  | tag decl => some decl.outline
  | modifier _ => none

def modifier? : Qualifier → Option String
  | tag _ => none
  | modifier word => some word.token.name

def isBare : Qualifier → Bool
  | tag decl => decl.arguments.isNone
  | modifier _ => false

end Qualifier

/-- The preamble that the qualifiers make up. -/
def preambleOf (qualifiers : List Qualifier) : Preamble :=
  ⟨qualifiers.filterMap Qualifier.tag?, qualifiers.filterMap Qualifier.modifier?⟩

/-- The head of a type up to its opening brace; other braces stand between parentheses. -/
structure ClassHead where
  keyword : Word typeWords
  name : Identifier
  clauses : List Token
  nests : Nests roundBrackets ['\x7b'] clauses
  opening : Mark '\x7b'

namespace ClassHead

def tokens (head : ClassHead) : List Token :=
  head.keyword.token :: head.name.token :: (head.clauses ++ [head.opening.token])

def outline (head : ClassHead) : TypeHead :=
  ⟨head.name.token.name, head.keyword.token.line⟩

end ClassHead

/-- The type of a member, empty for a constructor, and its name. -/
structure Declarator where
  typeRun : List Token
  name : Identifier
  unsettled : ∀ token ∈ typeRun, settlesMember token = false
  no_sign : (typeRun.headD name.token).isPunct '@' = false
  no_modifier : (typeRun.headD name.token).isWord modifierWords = false
  no_type : (typeRun.headD name.token).isWord typeWords = false

namespace Declarator

def first (declarator : Declarator) : Token :=
  declarator.typeRun.headD declarator.name.token

def tokens (declarator : Declarator) : List Token :=
  declarator.typeRun ++ [declarator.name.token]

end Declarator

/-- A parameter: annotations, modifiers and type in one run, the name, and brackets of an array. -/
structure Parameter where
  leading : List Token
  nests : Nests parameterBrackets [','] leading
  name : Identifier
  brackets : List (Mark '[' × Mark ']')

def Parameter.tokens (parameter : Parameter) : List Token :=
  parameter.leading ++ parameter.name.token
    :: parameter.brackets.flatMap fun pair => [pair.1.token, pair.2.token]

structure ParameterList where
  first : Parameter
  others : List (Mark ',' × Parameter)

namespace ParameterList

def tokens (list : ParameterList) : List Token :=
  list.first.tokens ++ list.others.flatMap fun part => part.1.token :: part.2.tokens

def names (list : ParameterList) : List String :=
  list.first.name.token.name :: list.others.map fun part => part.2.name.token.name

end ParameterList

structure FieldSyntax where
  qualifiers : List Qualifier
  declarator : Declarator
  typed : declarator.typeRun ≠ []
  initializer : Option (Mark '=' × Phrase)
  semicolon : Mark ';'

namespace FieldSyntax

def ending (field : FieldSyntax) : List Token :=
  (field.initializer.map fun value => value.1.token :: value.2.tokens).getD []
    ++ [field.semicolon.token]

def tokens (field : FieldSyntax) : List Token :=
  field.qualifiers.flatMap Qualifier.tokens ++ (field.declarator.tokens ++ field.ending)

def outline (field : FieldSyntax) : Field where
  tags := (preambleOf field.qualifiers).tags
  modifiers := (preambleOf field.qualifiers).modifiers
  typeText := String.ofList (joinTokens field.declarator.typeRun)
  name := field.declarator.name.token.name
  initializer := field.initializer.map fun value => String.ofList (joinTokens value.2.tokens)
  line := field.declarator.first.line

end FieldSyntax

/-- What ends a method: a semicolon or a body. -/
inductive MethodEnd where
  | semicolon (semicolon : Mark ';')
  | body (opening : Mark '\x7b') (trees : List Tree) (closing : Mark '\x7d')

namespace MethodEnd

def tokens : MethodEnd → List Token
  | semicolon mark => [mark.token]
  | body opening trees closing => opening.token :: (Tree.tokensAll trees ++ [closing.token])

def statements : MethodEnd → Option (List Statement)
  | semicolon _ => none
  | body _ trees _ => some (Tree.leavesAll trees)

end MethodEnd

structure MethodSyntax where
  qualifiers : List Qualifier
  declarator : Declarator
  opening : Mark '('
  parameters : Option ParameterList
  closing : Mark ')'
  clause : List Token
  unsettled : ∀ token ∈ clause, token.isPunct '\x7b' = false ∧ token.isPunct ';' = false ∧
    token.isPunct '\x7d' = false
  ending : MethodEnd

namespace MethodSyntax

def parameterTokens (method : MethodSyntax) : List Token :=
  (method.parameters.map ParameterList.tokens).getD []

def tail (method : MethodSyntax) : List Token :=
  method.opening.token
    :: (method.parameterTokens ++ method.closing.token :: (method.clause ++ method.ending.tokens))

def tokens (method : MethodSyntax) : List Token :=
  method.qualifiers.flatMap Qualifier.tokens ++ (method.declarator.tokens ++ method.tail)

def outline (method : MethodSyntax) : Method where
  tags := (preambleOf method.qualifiers).tags
  modifiers := (preambleOf method.qualifiers).modifiers
  name := method.declarator.name.token.name
  parameters := (method.parameters.map ParameterList.names).getD []
  body := method.ending.statements
  line := method.declarator.first.line

end MethodSyntax

structure Initializer where
  modifiers : List (Word modifierWords)
  opening : Mark '\x7b'
  inside : List Token
  nests : Nests braces [] inside
  closing : Mark '\x7d'

def Initializer.tokens (block : Initializer) : List Token :=
  block.modifiers.map Word.token
    ++ block.opening.token :: (block.inside ++ [block.closing.token])

inductive MemberSyntax where
  | empty (semicolon : Mark ';')
  | initializer (block : Initializer)
  | field (field : FieldSyntax)
  | method (method : MethodSyntax)
  | nested (qualifiers : List Qualifier) (head : ClassHead) (members : List MemberSyntax)
      (closing : Mark '\x7d')

namespace MemberSyntax

mutual

def tokens : MemberSyntax → List Token
  | .empty semicolon => [semicolon.token]
  | .initializer block => block.tokens
  | .field decl => decl.tokens
  | .method decl => decl.tokens
  | .nested qualifiers head members closing =>
    qualifiers.flatMap Qualifier.tokens
      ++ (head.tokens ++ (tokensAll members ++ [closing.token]))

def tokensAll : List MemberSyntax → List Token
  | [] => []
  | member :: rest => member.tokens ++ tokensAll rest

end

def field? : MemberSyntax → Option Field
  | .field decl => some decl.outline
  | _ => none

def method? : MemberSyntax → Option Method
  | .method decl => some decl.outline
  | _ => none

/-- A class with what these members give it. -/
def fill (preamble : Preamble) (head : TypeHead) (members : List MemberSyntax)
    (nested : List ClassDecl) : ClassDecl where
  name := head.name
  modifiers := preamble.modifiers
  tags := preamble.tags
  fields := members.filterMap field?
  methods := members.filterMap method?
  nested := nested
  line := head.line

mutual

def nested? : MemberSyntax → Option ClassDecl
  | .nested qualifiers head members _ =>
    some (fill (preambleOf qualifiers) head.outline members (nestedAll members))
  | _ => none

def nestedAll : List MemberSyntax → List ClassDecl
  | [] => []
  | member :: rest => member.nested?.toList ++ nestedAll rest

end

/-- A dot behind an annotation without arguments would continue its name. -/
def apart (qualifiers : List Qualifier) (declarator : Declarator) : Bool :=
  !(qualifiers.getLast?.any Qualifier.isBare && declarator.first.isPunct '.')

mutual

/-- No type begins with a dot right behind an annotation without arguments. -/
def separated : MemberSyntax → Bool
  | .field decl => apart decl.qualifiers decl.declarator
  | .method decl => apart decl.qualifiers decl.declarator
  | .nested _ _ members _ => separatedAll members
  | _ => true

def separatedAll : List MemberSyntax → Bool
  | [] => true
  | member :: rest => member.separated && separatedAll rest

end

end MemberSyntax

structure ClassSyntax where
  qualifiers : List Qualifier
  head : ClassHead
  members : List MemberSyntax
  closing : Mark '\x7d'

namespace ClassSyntax

def tokens (decl : ClassSyntax) : List Token :=
  decl.qualifiers.flatMap Qualifier.tokens
    ++ (decl.head.tokens ++ (MemberSyntax.tokensAll decl.members ++ [decl.closing.token]))

def outline (decl : ClassSyntax) : ClassDecl :=
  MemberSyntax.fill (preambleOf decl.qualifiers) decl.head.outline decl.members
    (MemberSyntax.nestedAll decl.members)

def separated (decl : ClassSyntax) : Bool :=
  MemberSyntax.separatedAll decl.members

end ClassSyntax

/-- An import clause. The word static behind its keyword is no name. -/
structure ImportSyntax where
  keyword : Word ["import"]
  isStatic : Option (Word ["static"])
  name : QualifiedName
  no_static : isStatic = none → name.first.token.isWord ["static"] = false
  semicolon : Mark ';'

namespace ImportSyntax

def tokens (clause : ImportSyntax) : List Token :=
  clause.keyword.token :: ((clause.isStatic.map Word.token).toList
    ++ (clause.name.tokens ++ [clause.semicolon.token]))

def outline (clause : ImportSyntax) : Import :=
  ⟨clause.name.text, clause.isStatic.isSome⟩

end ImportSyntax

structure PackageSyntax where
  keyword : Word ["package"]
  name : QualifiedName
  semicolon : Mark ';'

def PackageSyntax.tokens (clause : PackageSyntax) : List Token :=
  clause.keyword.token :: (clause.name.tokens ++ [clause.semicolon.token])

structure UnitSyntax where
  package : Option PackageSyntax
  imports : List ImportSyntax
  classes : List ClassSyntax

namespace UnitSyntax

def tokens (unit : UnitSyntax) : List Token :=
  (unit.package.map PackageSyntax.tokens).getD []
    ++ (unit.imports.flatMap ImportSyntax.tokens ++ unit.classes.flatMap ClassSyntax.tokens)

def outline (unit : UnitSyntax) : SourceUnit where
  package := unit.package.map fun clause => clause.name.text
  imports := unit.imports.map ImportSyntax.outline
  classes := unit.classes.map ClassSyntax.outline

def separated (unit : UnitSyntax) : Bool :=
  unit.classes.all ClassSyntax.separated

end UnitSyntax

end SuiteMigration.Outline
