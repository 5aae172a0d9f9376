import SuiteMigration.Proofs.Locator.Entry
import SuiteMigration.Proofs.Locator.Spelling
import SuiteMigration.Proofs.Page.Click

/-!
# All ways to declare a locator agree

Whichever way a locator is declared, the source gives a table with one entry, and a click on the
name becomes a click on the selector of the strategy for the value.
-/
namespace SuiteMigration.Locator

open Outline Text Page

/-- The ways to declare a locator. -/
inductive Form where
  /-- An annotation with an attribute that is named after the strategy. -/
  | keyField
  /-- An annotation with a constant for the strategy and the value by itself. -/
  | pairField
  | byField
  | elementField
  | byStatement
  | elementStatement
  deriving DecidableEq

namespace Form

def shape : Form → Shape
  | keyField | pairField => .annotatedField
  | byField | byStatement => .byVariable
  | elementField | elementStatement => .elementVariable

/-- The class body that declares a locator. -/
def inside (methodName name : PlainName) (strategy : Strategy) (body : List Char) :
    Form → List Char
  | keyField => annotatedText name (literalAttribute strategy.key.toList body) ++ [';']
  | pairField => annotatedText name (pairedAttributes strategy body) ++ [';']
  | byField => byText name (callText strategy body) ++ [';']
  | elementField => elementText name (callText strategy body) ++ [';']
  | byStatement => methodText methodName (byText name (callText strategy body))
  | elementStatement => methodText methodName (elementText name (callText strategy body))

end Form

section Unit

variable {className : PlainName} {line : List Lexeme}

private theorem ofUnit_singleField (field : FieldSyntax) :
    Declaration.ofUnit (singleUnit className line (.field field)).outline
      = [.ofField field.outline] :=
  List.mergeSort_singleton _

private theorem ofUnit_singleMethod {method : MethodSyntax} {statement : Statement}
    (statements_eq : method.outline.statements = [statement]) :
    Declaration.ofUnit (singleUnit className line (.method method)).outline
      = [.ofStatement statement] := by
  have candidates_eq :
      (singleUnit className line (.method method)).outline.classes.flatMap Declaration.ofClass
        = method.outline.statements.map Declaration.ofStatement := by
    simp [singleUnit, UnitSyntax.outline, ClassSyntax.outline, MemberSyntax.fill,
      MemberSyntax.field?, MemberSyntax.method?, Declaration.ofClass]
  rw [Declaration.ofUnit, candidates_eq, statements_eq]
  exact List.mergeSort_singleton _

end Unit

/-! ## Tables -/

section Tables

variable {strategy : Strategy} {body : List Char} {name : PlainName} {shape : Shape}

/-- A declared variable gives what its text says, as a field and as a statement. -/
def Declares (declared : Initialized) (strategy : Strategy) (body : List Char)
    (name : PlainName) (shape : Shape) : Prop :=
  ∀ declaration : Declaration, declaration.text.toList = declared.text →
    initializedLocator? declaration
      = some (.expected strategy body name ⟨shape, declaration.line⟩)

variable {declared : Initialized} (declares : Declares declared strategy body name shape)

include declares

private theorem table_initializedField (className : PlainName) : ∃ unit lineNumber,
    SourceUnit.parse (String.ofList (classText className (declared.text ++ [';']))) = .ok unit ∧
    Table.ofUnit unit = ⟨[.expected strategy body name ⟨shape, lineNumber⟩], []⟩ := by
  let field := declared.field (memberPlace className)
  refine ⟨_, field.outline.line, declared.parse_field className,
    Table.ofUnit_single (ofUnit_singleField field) ?_⟩
  -- Without annotations the initializer is the only place for a locator.
  have untagged : annotatedLocator? (.ofField field.outline) = none :=
    annotatedLocator?_untagged (by rintro _ ⟨⟩; rfl)
  have declared_eq := declares (.ofField field.outline) (declared.declaration_field _)
  rw [Declaration.entries, untagged, declared_eq]
  rfl

private theorem table_initializedStatement (className methodName : PlainName) : ∃ unit lineNumber,
    SourceUnit.parse (String.ofList (classText className (methodText methodName declared.text)))
      = .ok unit ∧
    Table.ofUnit unit = ⟨[.expected strategy body name ⟨shape, lineNumber⟩], []⟩ := by
  obtain ⟨lineNumber, statements_eq⟩ :=
    statements_singleMethod methodName declared (memberPlace className)
  refine ⟨_, lineNumber, parse_method methodName declared className,
    Table.ofUnit_single (ofUnit_singleMethod statements_eq) ?_⟩
  have untagged :
      annotatedLocator? (.ofStatement ⟨String.ofList declared.text, lineNumber⟩) = none :=
    annotatedLocator?_untagged (by rintro _ ⟨⟩)
  have declared_eq := declares (.ofStatement ⟨String.ofList declared.text, lineNumber⟩)
    String.toList_ofList
  rw [Declaration.entries, untagged, declared_eq]
  rfl

end Tables

section Annotated

variable {strategy : Strategy} {body : List Char}

theorem table_annotatedField (annotated : Annotated) (tag_eq : annotated.tag = findByTag)
    (type_eq : annotated.type = elementType)
    (lookup_eq : (Attributes.ofText (String.ofList annotated.argumentText)).lookup?
      = some ⟨strategy, String.ofList body⟩) (className : PlainName) : ∃ unit lineNumber,
    SourceUnit.parse (String.ofList (classText className (annotated.text ++ [';']))) = .ok unit ∧
    Table.ofUnit unit
      = ⟨[.expected strategy body annotated.name ⟨.annotatedField, lineNumber⟩], []⟩ := by
  have parse_eq := annotated.parse_field className
  obtain ⟨lineNumber, outline_eq⟩ := annotated.outline_field (memberPlace className)
  -- Only the outline of the field matters from here on, not how it is spelled.
  generalize annotated.field (memberPlace className) = field at outline_eq parse_eq
  refine ⟨_, field.outline.line, parse_eq, Table.ofUnit_single (ofUnit_singleField field) ?_⟩
  have tag_name : String.ofList findByTag.text = "FindBy" := String.ofList_toList
  have type_name : String.ofList elementType.text = "WebElement" := String.ofList_toList
  refine entries_taggedField annotated.name ?_ ?_ ?_ ?_ lookup_eq
  · rw [outline_eq, tag_eq, tag_name]
  · rw [outline_eq, type_eq, type_name]
  · rw [outline_eq]
  · rw [outline_eq]

end Annotated

section Agreement

variable {strategy : Strategy} {body : List Char} (literal : LiteralBody body)
  (named : strategy ≠ .literal) (name : PlainName)

include literal named

private theorem byVariableLine_declares :
    Declares (byVariableLine literal named name) strategy body name .byVariable :=
  fun _ text_eq => initializedLocator?_byText literal named name
    (text_eq.trans (text_byVariableLine literal named name))

private theorem elementVariableLine_declares :
    Declares (elementVariableLine literal named name) strategy body name .elementVariable :=
  fun _ text_eq => initializedLocator?_elementText literal named name
    (text_eq.trans (text_elementVariableLine literal named name))

theorem table_declared (form : Form) (className methodName : PlainName) : ∃ unit lineNumber,
    SourceUnit.parse
        (String.ofList (classText className (form.inside methodName name strategy body)))
      = .ok unit ∧
    Table.ofUnit unit = ⟨[.expected strategy body name ⟨form.shape, lineNumber⟩], []⟩ := by
  have by_declares := byVariableLine_declares literal named name
  have element_declares := elementVariableLine_declares literal named name
  -- Each form has its own way to be read.
  cases form with
  | keyField =>
    have lookup_eq := lookup?_literalAttribute literal named
    rw [← argumentText_attributeField literal named name] at lookup_eq
    have field_eq := table_annotatedField (attributeField literal named name) rfl rfl lookup_eq
      className
    rwa [Annotated.text, argumentText_attributeField] at field_eq
  | pairField =>
    have lookup_eq := lookup?_pairedAttributes literal named
    rw [← argumentText_pairedField literal named name] at lookup_eq
    have field_eq := table_annotatedField (pairedField literal named name) rfl rfl lookup_eq
      className
    rwa [Annotated.text, argumentText_pairedField] at field_eq
  | byField =>
    have field_eq := table_initializedField by_declares className
    rwa [text_byVariableLine] at field_eq
  | elementField =>
    have field_eq := table_initializedField element_declares className
    rwa [text_elementVariableLine] at field_eq
  | byStatement =>
    have method_eq := table_initializedStatement by_declares className methodName
    rwa [text_byVariableLine] at method_eq
  | elementStatement =>
    have method_eq := table_initializedStatement element_declares className methodName
    rwa [text_elementVariableLine] at method_eq

end Agreement

/-- Every way to declare a locator gives a table of one entry, and a click on the name is the click
on its selector. -/
theorem declarations_agree (form : Form) (className methodName name : PlainName)
    {strategy : Strategy} (named : strategy ≠ .literal) {body : List Char}
    (literal : LiteralBody body) :
    ∃ unit lineNumber,
      SourceUnit.parse
          (String.ofList (classText className (form.inside methodName name strategy body)))
        = .ok unit ∧
      Table.ofUnit unit = ⟨[.expected strategy body name ⟨form.shape, lineNumber⟩], []⟩ ∧
      convertBody (Table.ofUnit unit) [String.ofList (clickText name)]
        = [⟨.click, "await this.page.click("
            ++ (strategy.selector (String.ofList body)).literal ++ ");"⟩] := by
  obtain ⟨unit, lineNumber, parse_eq, table_eq⟩ :=
    table_declared literal named name form className methodName
  refine ⟨unit, lineNumber, parse_eq, table_eq, ?_⟩
  -- The table has one entry, and the click is on its name.
  have known : Table.selector? ⟨[.expected strategy body name ⟨form.shape, lineNumber⟩], []⟩
      (String.ofList name.text) = some (strategy.selector (String.ofList body)) := by
    simp [Table.selector?, Table.find?, Entry.expected]
  rw [table_eq]
  exact convertBody_click known

/-- A value that reads like a call, under a name that reads like the qualifier of one. -/
theorem declarations_agree_this : ∃ unit lineNumber,
    SourceUnit.parse "class A \x7b void f() \x7b By this = By.xpath(\"By.id('x')\"); \x7d \x7d"
      = .ok unit ∧
    Table.ofUnit unit = ⟨[⟨"this", .xPath, "By.id('x')", ⟨"xpath=By.id(\\'x\\')"⟩,
      ⟨.byVariable, lineNumber⟩⟩], []⟩ ∧
    convertBody (Table.ofUnit unit) ["this.click()"]
      = [⟨.click, "await this.page.click(`xpath=By.id(\\'x\\')`);"⟩] := by
  have literal : LiteralBody "By.id('x')".toList := by
    repeat' first
      | exact .empty
      | refine .plain (by decide) (by decide) (by decide) ?_
  obtain ⟨unit, lineNumber, parse_eq, table_eq, click_eq⟩ := declarations_agree .byStatement
    ⟨"A".toList, by decide, by decide⟩ ⟨"f".toList, by decide, by decide⟩
    ⟨"this".toList, by decide, by decide⟩ (by decide : Strategy.xPath ≠ .literal) literal
  exact ⟨unit, lineNumber, parse_eq, table_eq, click_eq⟩

end SuiteMigration.Locator
