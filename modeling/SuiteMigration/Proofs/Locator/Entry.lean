import SuiteMigration.Proofs.Locator.Attribute

/-!
# Entries of single declarations

The entries that one declaration gives: that of its annotation, or that of its initializer.
-/
namespace SuiteMigration.Locator

open Outline Text

/-- The entry that every way of declaring a locator should give. -/
def Entry.expected (strategy : Strategy) (body : List Char) (name : PlainName)
    (provenance : Provenance) : Entry where
  name := String.ofList name.text
  strategy := strategy
  value := String.ofList body
  selector := strategy.selector (String.ofList body)
  provenance := provenance

section Entries

variable {strategy : Strategy} {body : List Char} (literal : LiteralBody body)
  (named : strategy ≠ .literal) (name : PlainName) {declaration : Declaration}

include literal named in
theorem initializedLocator?_byText
    (text_eq : declaration.text.toList = byText name (callText strategy body)) :
    initializedLocator? declaration
      = some (.expected strategy body name ⟨.byVariable, declaration.line⟩) := by
  have resolved := resolve?_callText literal named
  simp only [initializedLocator?, text_eq, find?_byVariable literal named name]
  simp [Pattern.Match.group, Pattern.Match.group?, resolved]
  rfl

include literal named in
theorem initializedLocator?_elementText
    (text_eq : declaration.text.toList = elementText name (callText strategy body)) :
    initializedLocator? declaration
      = some (.expected strategy body name ⟨.elementVariable, declaration.line⟩) := by
  have resolved := resolve?_callText literal named
  have not_by : byVariable.find? (elementText name (callText strategy body)) = none :=
    find?_byVariable_other
  simp only [initializedLocator?, text_eq, not_by, find?_elementVariable literal name]
  simp [Pattern.Match.group, Pattern.Match.group?, resolved]
  rfl

/-- An element without an initializer. -/
theorem initializedLocator?_bare
    (text_eq : declaration.text.toList = "WebElement".toList ++ ' ' :: name.text) :
    initializedLocator? declaration = none := by
  have bare : '=' ∉ "WebElement".toList ++ ' ' :: name.text := by
    intro member
    rcases List.mem_append.mp member with in_type | behind
    · exact absurd in_type (by decide)
    · rcases List.mem_cons.mp behind with equal | in_name
      · exact absurd equal (by decide)
      · exact ne_of_isPlainChar (name.plain _ in_name) rfl rfl
  simp only [initializedLocator?, text_eq, find?_byVariable_other, find?_elementVariable_bare bare]
  rfl

theorem annotatedLocator?_untagged
    (untagged : ∀ field ∈ declaration.field, field.tags = []) :
    annotatedLocator? declaration = none := by
  unfold annotatedLocator?
  cases given : declaration.field with
  | none => rfl
  | some field =>
    simp [untagged field given]

private theorem annotatedLocator?_tagged {field : Field} {arguments : String} {lookup : Lookup}
    (tags_eq : field.tags = [⟨"FindBy", some arguments⟩])
    (lookup_eq : (Attributes.ofText arguments).lookup? = some lookup) :
    annotatedLocator? (.ofField field)
      = some (entryOf field.name lookup .annotatedField field.line) := by
  have is_named : Tag.isNamed ⟨"FindBy", some arguments⟩ "FindBy" = true :=
    (by decide : (lastSegment "FindBy" == "FindBy") = true)
  simp [annotatedLocator?, Declaration.ofField, tags_eq, is_named, lookup_eq]

/-- The entry of an annotated element is the only one of its field. -/
theorem entries_taggedField {field : Field} {arguments : String}
    (tags_eq : field.tags = [⟨"FindBy", some arguments⟩])
    (type_eq : field.typeText = "WebElement") (name_eq : field.name = String.ofList name.text)
    (initializer_eq : field.initializer = none)
    (lookup_eq : (Attributes.ofText arguments).lookup? = some ⟨strategy, String.ofList body⟩) :
    (Declaration.ofField field).entries
      = [.expected strategy body name ⟨.annotatedField, field.line⟩] := by
  have text_eq : (Declaration.ofField field).text.toList
      = "WebElement".toList ++ ' ' :: name.text := by
    simp [Declaration.ofField, Field.declaration, type_eq, name_eq, initializer_eq]
  rw [Declaration.entries, annotatedLocator?_tagged tags_eq lookup_eq,
    initializedLocator?_bare name text_eq, name_eq]
  rfl

end Entries

/-- The only entry of a unit with one declaration is inserted into an empty table. -/
theorem Table.ofUnit_single {unit : SourceUnit} {declaration : Declaration} {entry : Entry}
    (declarations_eq : Declaration.ofUnit unit = [declaration])
    (entries_eq : declaration.entries = [entry]) : Table.ofUnit unit = ⟨[entry], []⟩ := by
  rw [Table.ofUnit, declarations_eq, List.flatMap_cons, entries_eq]
  rfl

end SuiteMigration.Locator
