import SuiteMigration.Proofs.Locator.Attribute
import SuiteMigration.Proofs.Outline.SingleMember

/-!
# Lexemes of locator declarations

What the ways to declare a locator look like as lexemes. A string literal is one lexeme, whatever
its body looks like, so a declaration is a line of known lexemes.
-/
namespace SuiteMigration.Locator

open Outline Text

section Literal

variable {body rest : List Char} {line : List Lexeme} {spaced : Bool}

theorem LiteralBody.splitQuoted_append (literal : LiteralBody body) (rest : List Char) :
    splitQuoted '"' (body ++ '"' :: rest) = (body ++ ['"'], rest) := by
  induction literal with
  | empty => rfl
  | plain no_quote no_backslash no_feed _ ih =>
    rw [List.cons_append, splitQuoted.eq_def]
    split
    · next split_eq => cases split_eq
    · next split_eq => exact absurd (List.cons.inj split_eq).1 no_backslash
    · next split_eq =>
      obtain ⟨rfl, rfl⟩ := List.cons.inj split_eq
      simp [no_quote, ih]
  | escape _ _ ih =>
    rw [List.cons_append, List.cons_append, splitQuoted, ih]
    rfl

/-- Three quotes in a row would open a text block. -/
theorem LiteralBody.splits_string (literal : LiteralBody body)
    (apart : ∀ c ∈ rest.head?, c ≠ '"') : (Lexeme.string spaced body).Splits rest := by
  refine ⟨'"', body ++ ['"'], rfl, by decide, by decide, ?_⟩
  have quoted := literal.splitQuoted_append rest
  have text_eq : body ++ ['"'] ++ rest = body ++ '"' :: rest := by simp
  rw [text_eq, splitLexeme.eq_def, if_pos rfl]
  split
  · next inside split_eq =>
    exfalso
    cases literal with
    | empty => exact apart '"' (by rw [(List.cons.inj split_eq).2]; rfl) rfl
    | plain no_quote => exact no_quote (List.cons.inj split_eq).1
    | escape => cases (List.cons.inj split_eq).1
  · rw [quoted]
    rfl

theorem LiteralBody.splittable (literal : LiteralBody body)
    (apart : ∀ c ∈ (printed line).head?, c ≠ '"') (tail : Splittable line) :
    Splittable (.string spaced body :: line) :=
  .cons (literal.splits_string apart) tail

end Literal

/-! ## Calls and attributes -/

/-- A call of a factory method behind the name of its class. -/
def callRest (strategy : Strategy) (body : List Char) : List Lexeme :=
  [.mark false '.', .word false strategy.factory.toList, .mark false '(', .string false body,
    .mark false ')']

def callLine (spaced : Bool) (strategy : Strategy) (body : List Char) : List Lexeme :=
  .word spaced "By".toList :: callRest strategy body

/-- An element that is looked up by a call, behind the name of the driver. -/
def lookupRest (strategy : Strategy) (body : List Char) : List Lexeme :=
  .mark false '.' :: .word false "findElement".toList :: .mark false '('
    :: (callLine false strategy body ++ [Lexeme.mark false ')'])

/-- A sign and a string literal behind the name of an attribute. -/
def valueRest (body : List Char) : List Lexeme :=
  [.mark true '=', .string true body]

/-- A sign, a constant and the attribute for the value behind the name of an attribute. -/
def constantRest (strategy : Strategy) (body : List Char) : List Lexeme :=
  [.mark true '=', .word true "How".toList, .mark false '.', .word false strategy.constant.toList,
    .mark false ',', .word true "using".toList] ++ valueRest body

section Calls

variable {strategy : Strategy} {body : List Char} (literal : LiteralBody body)
  {rest : List Lexeme} (tail : Splittable rest)

include literal tail

private theorem splittable_callRest (named : strategy ≠ .literal) :
    Splittable (callRest strategy body ++ rest) := by
  refine .mark (by decide) ?_
  refine .word (Strategy.factoryName named).starts (Strategy.factoryName named).all_plain
    (head_false (by decide)) ?_
  refine .mark (by decide) ?_
  refine literal.splittable (by rintro c member; cases member; decide) ?_
  exact .mark (by decide) tail

private theorem splittable_callLine (spaced : Bool) (named : strategy ≠ .literal) :
    Splittable (callLine spaced strategy body ++ rest) :=
  .word (by decide) (by decide) (head_false (by decide)) (splittable_callRest literal tail named)

private theorem splittable_lookupRest (named : strategy ≠ .literal) :
    Splittable (lookupRest strategy body ++ rest) := by
  refine .mark (by decide) ?_
  refine .word (by decide) (by decide) (head_false (by decide)) ?_
  refine .mark (by decide) ?_
  have closed : Splittable (Lexeme.mark false ')' :: rest) := .mark (by decide) tail
  have call_splittable := splittable_callLine literal closed false named
  rwa [← List.singleton_append, ← List.append_assoc] at call_splittable

private theorem splittable_valueRest (apart : ∀ c ∈ (printed rest).head?, c ≠ '"') :
    Splittable (valueRest body ++ rest) :=
  .mark (by decide) (literal.splittable apart tail)

private theorem splittable_constantRest (named : strategy ≠ .literal)
    (apart : ∀ c ∈ (printed rest).head?, c ≠ '"') :
    Splittable (constantRest strategy body ++ rest) := by
  refine .mark (by decide) ?_
  refine .word (by decide) (by decide) (head_false (by decide)) ?_
  refine .mark (by decide) ?_
  refine .word (Strategy.constantName named).starts (Strategy.constantName named).all_plain
    (head_false (by decide)) ?_
  refine .mark (by decide) ?_
  refine .word (by decide) (by decide) (head_false (by decide)) ?_
  exact splittable_valueRest literal tail apart

end Calls

/-! ## Texts -/

section Texts

variable (strategy : Strategy) (body : List Char)

private theorem printed_callRest (rest : List Lexeme) :
    printed (callRest strategy body ++ rest) = '.' :: (strategy.factory.toList
      ++ '(' :: '"' :: (body ++ '"' :: ')' :: printed rest)) := by
  simp only [callRest, List.cons_append, List.nil_append, List.append_assoc, Lexeme.word,
    Lexeme.mark, Lexeme.string, printed_bare]

private theorem callText_eq :
    "By".toList ++ printed (callRest strategy body) = callText strategy body := by
  have rest_eq := printed_callRest strategy body []
  rw [List.append_nil, printed_nil] at rest_eq
  rw [rest_eq, callText]

private theorem printed_lookupRest : printed (lookupRest strategy body)
    = '.' :: ("findElement".toList ++ '(' :: (callText strategy body ++ [')'])) := by
  simp only [lookupRest, callLine, Lexeme.mark, Lexeme.word, printed_bare, List.cons_append,
    List.nil_append, printed_append, printed_nil, ← callText_eq, List.append_assoc]

private theorem printed_valueRest (rest : List Lexeme) : printed (valueRest body ++ rest)
    = ' ' :: '=' :: ' ' :: '"' :: (body ++ '"' :: printed rest) := by
  simp only [valueRest, List.cons_append, List.nil_append, List.append_assoc, Lexeme.mark,
    Lexeme.string, printed_spaced]

private theorem literalAttribute_eq (key : List Char) :
    key ++ printed (valueRest body) = literalAttribute key body := by
  have rest_eq := printed_valueRest body []
  rw [List.append_nil, printed_nil] at rest_eq
  rw [rest_eq, literalAttribute]

private theorem pairedAttributes_eq : "how".toList ++ printed (constantRest strategy body)
    = pairedAttributes strategy body := by
  simp only [constantRest, pairedAttributes, List.cons_append, List.nil_append, List.append_assoc,
    Lexeme.mark, Lexeme.word, printed_spaced, printed_bare, literalAttribute_eq]
  rfl

private theorem nests_callLine (place : Position) :
    Nests allBrackets [';'] (placed place (callLine true strategy body)) :=
  rfl

private theorem nests_lookupRest (place : Position) :
    Nests allBrackets [';']
      (placed place (.word true "driver".toList :: lookupRest strategy body)) :=
  rfl

private theorem nests_valueRest (key : List Char) (place : Position) :
    Nests roundBrackets [] (placed place (.word false key :: valueRest body)) :=
  rfl

private theorem nests_constantRest (place : Position) :
    Nests roundBrackets []
      (placed place (.word false "how".toList :: constantRest strategy body)) :=
  rfl

end Texts

/-! ## Declarations -/

def elementType : PlainName := ⟨"WebElement".toList, by decide, by decide⟩

def findByTag : PlainName := ⟨"FindBy".toList, by decide, by decide⟩

private theorem byName_unreserved : String.ofList byName.text ∉ reservedWords := by
  decide

theorem elementType_unreserved : String.ofList elementType.text ∉ reservedWords := by
  decide

theorem findByTag_ne : String.ofList findByTag.text ≠ "interface" := by
  decide

section Declarations

variable {strategy : Strategy} {body : List Char} (literal : LiteralBody body)
  (named : strategy ≠ .literal) (name : PlainName)

def byVariableLine : Initialized where
  type := byName
  unreserved := byName_unreserved
  name := name
  first := .word true "By".toList
  spaced := rfl
  others := callRest strategy body
  nests := nests_callLine strategy body
  splittable := fun tail => splittable_callLine literal tail true named

def elementVariableLine : Initialized where
  type := elementType
  unreserved := elementType_unreserved
  name := name
  first := .word true "driver".toList
  spaced := rfl
  others := lookupRest strategy body
  nests := nests_lookupRest strategy body
  splittable := fun tail =>
    .word (by decide) (by decide) (head_false (by decide))
      (splittable_lookupRest literal tail named)

theorem text_byVariableLine :
    (byVariableLine literal named name).text = byText name (callText strategy body) :=
  congrArg (fun call => byName.text ++ ' ' :: (name.text ++ ' ' :: '=' :: ' ' :: call))
    (callText_eq strategy body)

theorem text_elementVariableLine :
    (elementVariableLine literal named name).text = elementText name (callText strategy body) :=
  congrArg (fun rest => elementType.text ++ ' ' :: (name.text ++ ' ' :: '=' :: ' '
    :: ("driver".toList ++ rest))) (printed_lookupRest strategy body)

def attributeField : Annotated where
  tag := findByTag
  no_interface := findByTag_ne
  first := .word false strategy.key.toList
  unspaced := rfl
  others := valueRest body
  nests := nests_valueRest body strategy.key.toList
  splittable := fun tail =>
    .word (Strategy.keyName named).starts (Strategy.keyName named).all_plain
      (head_false (by decide)) (splittable_valueRest literal (.mark (by decide) tail)
        (by rintro c member; cases member; decide))
  type := elementType
  unreserved := elementType_unreserved
  name := name

def pairedField : Annotated where
  tag := findByTag
  no_interface := findByTag_ne
  first := .word false "how".toList
  unspaced := rfl
  others := constantRest strategy body
  nests := nests_constantRest strategy body
  splittable := fun tail =>
    .word (by decide) (by decide) (head_false (by decide))
      (splittable_constantRest literal (.mark (by decide) tail) named
        (by rintro c member; cases member; decide))
  type := elementType
  unreserved := elementType_unreserved
  name := name

/-- A field whose annotation has a constant for the value to look up. -/
def constantField (constant : PlainName) : Annotated where
  tag := findByTag
  no_interface := findByTag_ne
  first := .word false strategy.key.toList
  unspaced := rfl
  others := [.mark true '=', .word true constant.text]
  nests := fun _ => rfl
  splittable := fun tail =>
    .word (Strategy.keyName named).starts (Strategy.keyName named).all_plain
      (head_false (by decide)) (.mark (by decide) (.word constant.starts constant.all_plain
        (head_false (by decide)) (.mark (by decide) tail)))
  type := elementType
  unreserved := elementType_unreserved
  name := name

theorem argumentText_attributeField :
    (attributeField literal named name).argumentText = literalAttribute strategy.key.toList body :=
  literalAttribute_eq body strategy.key.toList

theorem argumentText_pairedField :
    (pairedField literal named name).argumentText = pairedAttributes strategy body :=
  pairedAttributes_eq strategy body

end Declarations

end SuiteMigration.Locator
