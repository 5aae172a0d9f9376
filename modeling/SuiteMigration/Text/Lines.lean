import SuiteMigration.Text.CharacterClass

/-!
# Lines and margins

A text is a list of characters. Lines end at a line feed; a carriage return just before it belongs
to the line end. Trimming takes blanks off both ends.
-/
namespace SuiteMigration.Text

/-- One line without the carriage return that may end it. -/
def dropReturn (line : List Char) : List Char :=
  if line.getLast? = some '\r' then line.dropLast else line

/-- A text ending in a line feed has no empty last line. -/
def lines (text : List Char) : List (List Char) :=
  go [] text
where
  /-- Reads on with the characters of the open line in reverse. -/
  go (line : List Char) : List Char → List (List Char)
    | [] => if line.isEmpty then [] else [line.reverse]
    | c :: rest =>
      if c = '\n' then dropReturn line.reverse :: go [] rest else go (c :: line) rest

def trimLeft (text : List Char) : List Char :=
  text.dropWhile isBlank

def trimRight (text : List Char) : List Char :=
  (text.reverse.dropWhile isBlank).reverse

def trim (text : List Char) : List Char :=
  trimRight (trimLeft text)

end SuiteMigration.Text
