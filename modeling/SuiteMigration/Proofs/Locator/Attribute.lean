import SuiteMigration.Proofs.Locator.AttributeLookup
import SuiteMigration.Proofs.Locator.Variable

/-!
# Annotations that hold locators

Both forms of an annotation, an attribute named after the strategy and the pair of a constant and a
value, give the strategy with the body of the string literal.
-/
namespace SuiteMigration.Locator

open Pattern Text

namespace Strategy

/-- The attribute that is named after a strategy. -/
def key : Strategy → String
  | id => "id"
  | name => "name"
  | className => "className"
  | css => "css"
  | xPath => "xpath"
  | literal => ""

/-- The constant for a strategy. -/
def constant : Strategy → String
  | id => "ID"
  | name => "NAME"
  | className => "CLASS_NAME"
  | css => "CSS"
  | xPath => "XPATH"
  | literal => ""

def keyName {strategy : Strategy} (named : strategy ≠ .literal) : PlainName where
  text := strategy.key.toList
  starts := by cases strategy <;> first | exact absurd rfl named | decide
  all_plain := by cases strategy <;> decide

private theorem constant_plain (strategy : Strategy) :
    ∀ c ∈ strategy.constant.toList, isPlainChar c = true :=
  List.all_eq_true.mp (by cases strategy <;> decide)

def constantName {strategy : Strategy} (named : strategy ≠ .literal) : PlainName where
  text := strategy.constant.toList
  starts := by cases strategy <;> first | exact absurd rfl named | decide
  all_plain := List.all_eq_true.mpr strategy.constant_plain

private theorem ofConstant?_constant {strategy : Strategy} (named : strategy ≠ .literal) :
    ofConstant? (String.ofList ("How.".toList ++ strategy.constant.toList)) = some strategy := by
  cases strategy <;> first | exact absurd rfl named | decide

end Strategy

def howName : PlainName := ⟨"how".toList, by decide, by decide⟩

def usingName : PlainName := ⟨"using".toList, by decide, by decide⟩

/-- An attribute with a string literal for its value. -/
def literalAttribute (key body : List Char) : List Char :=
  key ++ ' ' :: '=' :: ' ' :: '"' :: (body ++ ['"'])

/-- A strategy by its constant, and the value it looks for. -/
def pairedAttributes (strategy : Strategy) (body : List Char) : List Char :=
  "how".toList ++ ' ' :: '=' :: ' ' :: ("How.".toList ++ strategy.constant.toList
    ++ ',' :: ' ' :: literalAttribute "using".toList body)

/-- A field of element type behind an annotation. -/
def annotatedText (name : PlainName) (arguments : List Char) : List Char :=
  '@' :: ("FindBy".toList ++ '(' :: (arguments ++ ')' :: ' ' :: ("WebElement".toList
    ++ ' ' :: name.text)))

section Attributes

variable {strategy : Strategy} {body : List Char}

/-- An attribute with single blanks around its sign. -/
def spacedPair (key : PlainName) (value : AttributeValue) : AttributePair where
  key := key.text
  key_ne := key.text_ne_nil
  key_word := fun c member => isWordChar_of_isPlainChar (key.plain c member)
  gap := [' ']
  gap_blank := List.forall_mem_singleton.mpr rfl
  space := [' ']
  space_blank := List.forall_mem_singleton.mpr rfl
  value := value

theorem lists_spacedPair (key : PlainName) (value : AttributeValue) :
    Lists [spacedPair key value] (key.text ++ ' ' :: '=' :: ' ' :: value.text) := by
  have lists := @Lists.last [] [] (spacedPair key value) (by simp) (by simp)
  rwa [List.append_nil, List.nil_append] at lists

def literalPair (key : PlainName) (literal : LiteralBody body) : AttributePair :=
  spacedPair key (.literal body (accepts_stringChars literal))

private theorem text_literalPair (key : PlainName) (literal : LiteralBody body) :
    (literalPair key literal).text = literalAttribute key.text body :=
  rfl

private theorem lists_literalAttribute (key : PlainName) (literal : LiteralBody body) :
    Lists [literalPair key literal] (literalAttribute key.text body) :=
  lists_spacedPair key _

theorem lookup?_literalAttribute (literal : LiteralBody body) (named : strategy ≠ .literal) :
    (Attributes.ofText (String.ofList (literalAttribute strategy.key.toList body))).lookup?
      = some ⟨strategy, String.ofList body⟩ := by
  have lists : Lists [literalPair (Strategy.keyName named) literal]
      (String.ofList (literalAttribute strategy.key.toList body)).toList := by
    rw [String.toList_ofList]
    exact lists_literalAttribute (Strategy.keyName named) literal
  rw [lists.lookup?_eq]
  cases strategy <;> first | exact absurd rfl named | rfl

private theorem dotted_constant (strategy : Strategy) :
    ∀ c ∈ "How.".toList ++ strategy.constant.toList, isDotted c = true := by
  intro c member
  rcases List.mem_append.mp member with in_how | in_constant
  · have all_how : "How.".toList.all isDotted = true := by decide
    exact List.all_eq_true.mp all_how c in_how
  · exact isDotted_of_isWordChar (isWordChar_of_isPlainChar (strategy.constant_plain c in_constant))

def howPair (strategy : Strategy) : AttributePair :=
  spacedPair howName (.constant ("How.".toList ++ strategy.constant.toList)
    (List.append_ne_nil_of_left_ne_nil (by decide) _) (dotted_constant strategy))

theorem lists_pairedAttributes (strategy : Strategy) (literal : LiteralBody body) :
    Lists [howPair strategy, literalPair usingName literal] (pairedAttributes strategy body) := by
  have space_blank : ∀ c ∈ [' '], isBlank c = true := List.forall_mem_singleton.mpr rfl
  have using_lists := @Lists.last [' '] [] (literalPair usingName literal) space_blank (by simp)
  have using_text : usingName.text = "using".toList := rfl
  have lists := @Lists.more [] [] _ (howPair strategy) _ (by simp) (by simp) using_lists
  have how_text : (howPair strategy).text
      = "how".toList ++ ' ' :: '=' :: ' ' :: ("How.".toList ++ strategy.constant.toList) := rfl
  rw [List.append_nil, text_literalPair, using_text, how_text] at lists
  simpa only [pairedAttributes, List.append_assoc, List.cons_append, List.nil_append] using lists

theorem lookup?_pairedAttributes (literal : LiteralBody body) (named : strategy ≠ .literal) :
    (Attributes.ofText (String.ofList (pairedAttributes strategy body))).lookup?
      = some ⟨strategy, String.ofList body⟩ := by
  have lists := lists_pairedAttributes strategy literal
  rw [← @String.toList_ofList (pairedAttributes strategy body)] at lists
  have last_eq : last? "how" [howPair strategy, literalPair usingName literal]
      = some (howPair strategy).content := rfl
  have how_eq : Strategy.ofConstant? (howPair strategy).content = some strategy :=
    Strategy.ofConstant?_constant named
  rw [lists.lookup?_eq, located?, last_eq, Option.bind_some, how_eq]
  rfl

end Attributes

end SuiteMigration.Locator
