import SuiteMigration.Proofs.Locator.Agreement

/-!
# Entries of annotated fields

Every entry of an annotated field holds what was read of its annotation: the body of a string literal
or a name, at the attribute of the strategy or next to a constant for it. Where the values are
literals as a whole, so is that of the entry. A constant is taken by its name, and of an expression
only the beginning is read.
-/
namespace SuiteMigration.Locator

open Outline Pattern Text

/-! ## Where entries come from -/

section Table

variable {table : Table} {kept entry : Entry} {entries : List Entry} {unit : SourceUnit}
  {declaration : Declaration}

theorem Table.mem_insert (member : kept ∈ (table.insert entry).entries) :
    kept ∈ table.entries ∨ kept = entry := by
  unfold Table.insert at member
  split at member
  · exact (List.mem_append.mp member).imp_right List.mem_singleton.mp
  · obtain ⟨old, old_mem, rfl⟩ := List.mem_map.mp member
    split
    · exact .inr rfl
    · exact .inl old_mem

theorem Table.mem_foldl_insert (member : kept ∈ (entries.foldl Table.insert table).entries) :
    kept ∈ table.entries ∨ kept ∈ entries := by
  induction entries generalizing table with
  | nil => exact .inl member
  | cons entry entries ih =>
    rcases ih member with in_table | later
    · rcases Table.mem_insert in_table with old | rfl
      · exact .inl old
      · exact .inr List.mem_cons_self
    · exact .inr (List.mem_cons_of_mem entry later)

theorem Table.exists_declaration (member : kept ∈ (Table.ofUnit unit).entries) :
    ∃ declaration ∈ Declaration.ofUnit unit, kept ∈ declaration.entries := by
  rcases Table.mem_foldl_insert member with old | new
  · cases old
  · exact List.mem_flatMap.mp new

theorem Declaration.exists_field (member : declaration ∈ Declaration.ofUnit unit) {field : Field}
    (field_eq : declaration.field = some field) :
    declaration = .ofField field ∧ ∃ decl ∈ unit.classes, field ∈ decl.fields := by
  obtain ⟨decl, decl_mem, member⟩ := List.mem_flatMap.mp (List.mem_mergeSort.mp member)
  rcases List.mem_append.mp member with is_field | is_statement
  · obtain ⟨other, other_mem, rfl⟩ := List.mem_map.mp is_field
    obtain rfl := Option.some.inj field_eq
    exact ⟨rfl, decl, decl_mem, other_mem⟩
  · obtain ⟨method, -, in_method⟩ := List.mem_flatMap.mp is_statement
    obtain ⟨statement, -, rfl⟩ := List.mem_map.mp in_method
    cases field_eq

/-- No initializer gives an entry of the shape of annotated fields. -/
theorem shape_initializedLocator? (initialized : initializedLocator? declaration = some entry) :
    entry.provenance.shape ≠ .annotatedField := by
  unfold initializedLocator? at initialized
  dsimp only at initialized
  split at initialized
  · obtain ⟨_, found_eq, resolved⟩ := Option.bind_eq_some_iff.mp initialized
    obtain rfl := Option.some.inj found_eq
    obtain ⟨lookup, -, entry_eq⟩ := Option.bind_eq_some_iff.mp resolved
    obtain rfl := Option.some.inj entry_eq
    exact Shape.noConfusion
  · obtain ⟨_, found_eq, resolved⟩ := Option.bind_eq_some_iff.mp initialized
    obtain ⟨found, -, rfl⟩ := Option.map_eq_some_iff.mp found_eq
    obtain ⟨lookup, -, entry_eq⟩ := Option.bind_eq_some_iff.mp resolved
    obtain rfl := Option.some.inj entry_eq
    exact Shape.noConfusion

end Table

section Annotation

variable {field : Field} {tag : Tag} {entry : Entry} {pairs : List AttributePair}

/-- The text between the parentheses of an annotation. -/
def argumentText (tag : Tag) : List Char :=
  (tag.arguments.getD "").toList

private theorem annotatedLocator?_eq (tag_eq : field.tags.find? (·.isNamed "FindBy") = some tag) :
    annotatedLocator? (.ofField field)
      = (Attributes.ofText (tag.arguments.getD "")).lookup?.map fun lookup =>
          entryOf field.name lookup .annotatedField field.line := by
  simp only [annotatedLocator?, Declaration.ofField, Option.bind_eq_bind, Option.bind_some, tag_eq,
    Option.map_eq_bind]
  rfl

private theorem annotatedLocator?_eq_some {declaration : Declaration}
    (annotated : annotatedLocator? declaration = some entry) :
    ∃ field tag lookup, declaration.field = some field ∧
      field.tags.find? (·.isNamed "FindBy") = some tag ∧
      (Attributes.ofText (tag.arguments.getD "")).lookup? = some lookup ∧
      entry = entryOf field.name lookup .annotatedField declaration.line := by
  obtain ⟨field, field_eq, annotated⟩ := Option.bind_eq_some_iff.mp annotated
  obtain ⟨tag, tag_eq, annotated⟩ := Option.bind_eq_some_iff.mp annotated
  obtain ⟨lookup, lookup_eq, entry_eq⟩ := Option.bind_eq_some_iff.mp annotated
  exact ⟨field, tag, lookup, field_eq, tag_eq, lookup_eq, (Option.some.inj entry_eq).symm⟩

/-- What an entry of an annotated field is read from. -/
theorem Table.exists_annotation {unit : SourceUnit} (member : entry ∈ (Table.ofUnit unit).entries)
    (annotated : entry.provenance.shape = .annotatedField) :
    ∃ decl ∈ unit.classes, ∃ field ∈ decl.fields, ∃ tag lookup,
      field.tags.find? (·.isNamed "FindBy") = some tag ∧
      (Attributes.ofText (tag.arguments.getD "")).lookup? = some lookup ∧
      entry = entryOf field.name lookup .annotatedField field.line := by
  obtain ⟨declaration, declaration_mem, member⟩ := Table.exists_declaration member
  rcases List.mem_append.mp member with is_annotated | is_initialized
  · obtain ⟨field, tag, lookup, field_eq, tag_eq, lookup_eq, rfl⟩ :=
      annotatedLocator?_eq_some (Option.mem_toList.mp is_annotated)
    obtain ⟨rfl, decl, decl_mem, field_mem⟩ := Declaration.exists_field declaration_mem field_eq
    exact ⟨decl, decl_mem, field, field_mem, tag, lookup, tag_eq, lookup_eq, rfl⟩
  · exact absurd annotated (shape_initializedLocator? (Option.mem_toList.mp is_initialized))

end Annotation

/-! ## What is read -/

/-- A string literal and not a name. -/
def AttributeValue.IsLiteral (value : AttributeValue) (body : List Char) : Prop :=
  ∃ is_body, value = .literal body is_body

/-- Does the attribute give a value to look up? -/
def AttributePair.IsValue (pair : AttributePair) : Prop :=
  (Strategy.ofAttribute? pair.name).isSome = true ∨ pair.name = "using"

section Lookup

variable {held : AttributePair → Prop} {pair : AttributePair} {pairs : List AttributePair}
  {lookup : Lookup}

theorem AttributePair.Decides.isValue (decides : pair.Decides held lookup) : pair.IsValue := by
  obtain ⟨-, -, named | ⟨is_using, -⟩⟩ := decides
  · exact .inl (by rw [named]; rfl)
  · exact .inr is_using

/-- Of literals the body of one is located. -/
theorem exists_literal_of_located?
    (literals : ∀ pair ∈ pairs, pair.IsValue → ∃ body, pair.value.IsLiteral body)
    (located : located? pairs = some lookup) :
    ∃ (pair : AttributePair) (body : List Char), pair.Decides (· ∈ pairs) lookup ∧
      pair.value.IsLiteral body ∧ lookup.value = String.ofList body := by
  obtain ⟨pair, decides⟩ := exists_of_located? located
  obtain ⟨body, is_body, value_eq⟩ := literals pair decides.1 decides.isValue
  refine ⟨pair, body, decides, ⟨is_body, value_eq⟩, decides.2.1.trans ?_⟩
  rw [AttributePair.content, value_eq]
  rfl

end Lookup

/-- An entry of an annotated field is read from attributes that stand in the annotation. Where the
arguments list whole values and those to look up are literals, its value is the body of one. Of a
field, arguments that list whole values give what the list says, whether they are literals or names,
and of other arguments an attribute in front counts as far as its value is read. -/
theorem annotated_entries_read (unit : SourceUnit) :
    (∀ entry ∈ (Table.ofUnit unit).entries, entry.provenance.shape = .annotatedField →
      ∃ decl ∈ unit.classes, ∃ field ∈ decl.fields, ∃ tag lookup,
        field.tags.find? (·.isNamed "FindBy") = some tag ∧
        entry = entryOf field.name lookup .annotatedField field.line ∧
        (∃ pair : AttributePair, pair.Decides (·.StandsIn (argumentText tag)) lookup) ∧
        ∀ pairs, Lists pairs (argumentText tag) →
          (∀ pair ∈ pairs, pair.IsValue → ∃ body, pair.value.IsLiteral body) →
          ∃ (pair : AttributePair) (body : List Char), pair.Decides (· ∈ pairs) lookup ∧
            pair.value.IsLiteral body ∧ lookup.value = String.ofList body) ∧
    ∀ decl ∈ unit.classes, ∀ field ∈ decl.fields, ∀ tag,
      field.tags.find? (·.isNamed "FindBy") = some tag →
      (∀ pairs, Lists pairs (argumentText tag) →
        annotatedLocator? (.ofField field) = (located? pairs).map fun lookup =>
          entryOf field.name lookup .annotatedField field.line) ∧
      ∀ (front behind : List Char) (pair : AttributePair) (strategy : Strategy),
        (∀ c ∈ front, isWordChar c = false) → pair.value.Ends behind →
        argumentText tag = front ++ (pair.text ++ behind) →
        Strategy.ofAttribute? pair.name = some strategy →
        annotatedLocator? (.ofField field)
          = some (entryOf field.name ⟨strategy, pair.content⟩ .annotatedField field.line) := by
  constructor
  · -- What is found stands in the text, whatever else the text is.
    intro entry member annotated
    obtain ⟨decl, decl_mem, field, field_mem, tag, lookup, tag_eq, lookup_eq, entry_eq⟩ :=
      Table.exists_annotation member annotated
    obtain ⟨standing, standing_eq, stand⟩ := exists_pairs (tag.arguments.getD "")
    obtain ⟨pair, decides⟩ := exists_of_located? (standing_eq.symm.trans lookup_eq)
    refine ⟨decl, decl_mem, field, field_mem, tag, lookup, tag_eq, entry_eq,
      ⟨pair, decides.mono stand⟩, fun pairs lists literals => ?_⟩
    exact exists_literal_of_located? literals ((Lists.lookup?_eq lists).symm.trans lookup_eq)
  · intro decl _ field _ tag tag_eq
    constructor
    · intro pairs lists
      rw [annotatedLocator?_eq tag_eq, Lists.lookup?_eq lists]
    · intro front behind pair strategy outside ends arguments_eq named
      rw [annotatedLocator?_eq tag_eq, lookup?_first outside ends arguments_eq named]
      rfl

/-- An element behind an annotation with the arguments. -/
def annotatedElement (arguments : String) : Field :=
  ⟨[⟨"FindBy", some arguments⟩], [], "WebElement", "x", none, 1⟩

private theorem find?_annotatedElement (arguments : String) :
    (annotatedElement arguments).tags.find? (·.isNamed "FindBy")
      = some ⟨"FindBy", some arguments⟩ :=
  List.find?_cons_of_pos (by decide : (lastSegment "FindBy" == "FindBy") = true)

/-- A class with the element. -/
def annotatedUnit (arguments : String) : SourceUnit :=
  .addClass .empty ⟨"P", [], [], [annotatedElement arguments], [], [], 1⟩

theorem literalBody_classes : LiteralBody "a.b".toList :=
  .of_plain (by simp)

/-- A pair of attributes in a source, the same by itself, and a literal with more behind it. -/
theorem annotated_entries_read_pair :
    (∃ unit, SourceUnit.parse
          "class P \x7b @FindBy(how = How.CSS, using = \"a.b\") WebElement x; \x7d" = .ok unit ∧
      ∃ decl ∈ unit.classes, ∃ field ∈ decl.fields, field.name = "x" ∧
        ∃ tag, field.tags.find? (·.isNamed "FindBy") = some tag ∧
        ∃ pair : AttributePair, pair.Decides (·.StandsIn (argumentText tag)) ⟨.css, "a.b"⟩) ∧
      annotatedLocator? (.ofField (annotatedElement "how = How.CSS, using = \"a.b\""))
        = some ⟨"x", .css, "a.b", ⟨"a.b"⟩, ⟨.annotatedField, 1⟩⟩ ∧
      (∃ (pair : AttributePair) (body : List Char),
        pair.Decides (· ∈ [howPair .css, literalPair usingName literalBody_classes]) ⟨.css, "a.b"⟩ ∧
        pair.value.IsLiteral body ∧ "a.b" = String.ofList body) ∧
      annotatedLocator? (.ofField (annotatedElement "id = \"a\" + B"))
        = some ⟨"x", .id, "a", ⟨"#a"⟩, ⟨.annotatedField, 1⟩⟩ := by
  have named : Strategy.css ≠ .literal := by decide
  have lists : Lists _ "how = How.CSS, using = \"a.b\"".toList :=
    lists_pairedAttributes .css literalBody_classes
  have in_class (arguments : String) := (annotated_entries_read (annotatedUnit arguments)).2 _
    (List.mem_singleton_self _) _ (List.mem_singleton_self _) _ (find?_annotatedElement arguments)
  have pair_eq := (in_class "how = How.CSS, using = \"a.b\"").1 _ lists
  refine ⟨?_, pair_eq, ?_, ?_⟩
  · -- The pair as it stands in a source.
    obtain ⟨unit, lineNumber, parse_eq, table_eq⟩ := table_declared literalBody_classes named
      ⟨"x".toList, by decide, by decide⟩ .pairField ⟨"P".toList, by decide, by decide⟩
      ⟨"f".toList, by decide, by decide⟩
    obtain ⟨decl, decl_mem, field, field_mem, tag, ⟨strategy, value⟩, tag_eq, entry_eq, decides, -⟩ :=
      (annotated_entries_read unit).1 _ (by rw [table_eq]; exact List.mem_singleton_self _) rfl
    injection entry_eq with name_eq strategy_eq value_eq
    obtain rfl : Strategy.css = strategy := strategy_eq
    obtain rfl : "a.b" = value := value_eq
    exact ⟨unit, parse_eq, decl, decl_mem, field, field_mem, name_eq.symm, tag, tag_eq, decides⟩
  · -- Of the listed attributes the one with the value is a literal.
    have table_eq : Table.ofUnit (annotatedUnit "how = How.CSS, using = \"a.b\"") = ⟨[_], []⟩ :=
      Table.ofUnit_single (List.mergeSort_singleton _) (by rw [Declaration.entries, pair_eq]; rfl)
    obtain ⟨decl, decl_mem, field, field_mem, tag, ⟨strategy, value⟩, tag_eq, entry_eq, -, whole⟩ :=
      (annotated_entries_read _).1 _ (by rw [table_eq]; exact List.mem_singleton_self _) rfl
    injection entry_eq with name_eq strategy_eq value_eq
    obtain rfl : Strategy.css = strategy := strategy_eq
    obtain rfl : "a.b" = value := value_eq
    obtain rfl := List.mem_singleton.mp decl_mem
    obtain rfl := List.mem_singleton.mp field_mem
    obtain rfl := Option.some.inj tag_eq
    refine whole _ lists fun pair member is_value => ?_
    rcases List.mem_cons.mp member with rfl | member
    · exact absurd is_value (by unfold AttributePair.IsValue; decide)
    · obtain rfl := List.mem_singleton.mp member
      exact ⟨_, _, rfl⟩
  · have a_literal : LiteralBody "a".toList := .of_plain (by simp)
    exact (in_class "id = \"a\" + B").2 [] " + B".toList
      (literalPair ⟨"id".toList, by decide, by decide⟩ a_literal) .id (by simp) trivial (by rfl) rfl

/-! ## Constants -/

section Constant

variable {strategy : Strategy} (named : strategy ≠ .literal) (constant name : PlainName)

/-- A constant as the value of an attribute. -/
def constantValue : AttributeValue :=
  .constant constant.text constant.text_ne_nil fun c member =>
    isDotted_of_isWordChar (isWordChar_of_isPlainChar (constant.plain c member))

/-- A constant is looked up by its name. -/
theorem table_constantField (className : PlainName) : ∃ unit lineNumber,
    SourceUnit.parse (String.ofList (classText className
      ((constantField named name constant).text ++ [';']))) = .ok unit ∧
    Table.ofUnit unit
      = ⟨[.expected strategy constant.text name ⟨.annotatedField, lineNumber⟩], []⟩ := by
  have text_eq : (constantField named name constant).argumentText
      = strategy.key.toList ++ ' ' :: '=' :: ' ' :: constant.text := by
    simp only [Annotated.argumentText, constantField, Lexeme.word, Lexeme.mark, printed_spaced,
      printed_nil, List.append_nil]
    rfl
  have lists : Lists [spacedPair (Strategy.keyName named) (constantValue constant)]
      (String.ofList (constantField named name constant).argumentText).toList := by
    rw [String.toList_ofList, text_eq]
    exact lists_spacedPair (Strategy.keyName named) (constantValue constant)
  have lookup_eq : (Attributes.ofText
      (String.ofList (constantField named name constant).argumentText)).lookup?
      = some ⟨strategy, String.ofList constant.text⟩ := by
    rw [lists.lookup?_eq]
    cases strategy <;> first | exact absurd rfl named | rfl
  exact table_annotatedField (constantField named name constant) rfl rfl lookup_eq className

end Constant

/-- An annotation without any literal has an entry. -/
theorem constant_has_entry : ∃ unit lineNumber,
    SourceUnit.parse "class P \x7b @FindBy(id = LOGIN_ID) WebElement x; \x7d" = .ok unit ∧
    Table.ofUnit unit
      = ⟨[⟨"x", .id, "LOGIN_ID", ⟨"#LOGIN_ID"⟩, ⟨.annotatedField, lineNumber⟩⟩], []⟩ :=
  @table_constantField .id (by decide) ⟨"LOGIN_ID".toList, by decide, by decide⟩
    ⟨"x".toList, by decide, by decide⟩ ⟨"P".toList, by decide, by decide⟩

end SuiteMigration.Locator
