import SuiteMigration.Outline.SourceUnit

/-!
# Locator strategies and selectors

How an element is looked up, under the three names the source has for it, and the selector that does
the same in a script.
-/
namespace SuiteMigration.Locator

inductive Strategy where
  | id
  | name
  | className
  | css
  | xPath
  /-- The selector itself, where no strategy is named. -/
  | literal
  deriving DecidableEq

namespace Strategy

/-- The strategy of a factory method such as `By.id`. -/
def ofFactory? : String → Option Strategy
  | "id" => some id
  | "name" => some name
  | "className" => some className
  | "cssSelector" => some css
  | "xpath" => some xPath
  | _ => none

/-- The strategy of an attribute of a `FindBy` annotation. -/
def ofAttribute? : String → Option Strategy
  | "id" => some id
  | "name" => some name
  | "className" => some className
  | "css" => some css
  | "xpath" => some xPath
  | _ => none

/-- The strategy of a constant such as `How.ID`, qualified or not. -/
def ofConstant? (constant : String) : Option Strategy :=
  match Outline.lastSegment constant with
  | "ID" => some id
  | "NAME" => some name
  | "CLASS_NAME" => some className
  | "CSS" => some css
  | "XPATH" => some xPath
  | _ => none

end Strategy

/-- A selector as a script has it, all escapes in place. -/
structure Selector where
  text : String
  deriving DecidableEq

/-- The literal for a selector: back quotes if it holds a single quote, else single quotes. -/
def Selector.literal (selector : Selector) : String :=
  if selector.text.toList.contains '\'' then "`" ++ selector.text ++ "`"
  else "'" ++ selector.text ++ "'"

/-- The selector for a value looked up by a strategy. Only a path has its single quotes escaped. -/
def Strategy.selector (strategy : Strategy) (value : String) : Selector :=
  match strategy with
  | .id => ⟨"#" ++ value⟩
  | .name => ⟨"[name=\"" ++ value ++ "\"]"⟩
  | .className => ⟨"." ++ value⟩
  | .css | .literal => ⟨value⟩
  | .xPath =>
    ⟨"xpath=" ++ String.ofList (value.toList.flatMap fun c =>
      if c = '\'' then ['\\', '\''] else [c])⟩

end SuiteMigration.Locator
