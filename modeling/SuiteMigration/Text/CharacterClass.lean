import SuiteMigration.Text.LetterRange
import SuiteMigration.Text.NumeralRange

/-!
# Character classes

Blanks, letters, letters with numerals, and word characters, each over all of Unicode. ASCII is
decided by comparison and only the rest by table.
-/
namespace SuiteMigration.Text

def inRanges (ranges : Array (Nat × Nat)) (c : Char) : Bool :=
  ranges.any fun range => range.1 ≤ c.toNat && c.toNat ≤ range.2

/-- The code points of the property `White_Space`. -/
def isBlank (c : Char) : Bool :=
  let code := c.toNat
  (9 ≤ code && code ≤ 13) || code == 0x20 || code == 0x85 || code == 0xa0 || code == 0x1680
    || (0x2000 ≤ code && code ≤ 0x200a) || code == 0x2028 || code == 0x2029 || code == 0x202f
    || code == 0x205f || code == 0x3000

/-- The code points of the property `Alphabetic`. -/
def isLetter (c : Char) : Bool :=
  if c.toNat < 0x80 then c.isAlpha else inRanges letterRanges c

/-- A letter, or a digit, letter number or other number of any script. -/
def isLetterOrNumeral (c : Char) : Bool :=
  if c.toNat < 0x80 then c.isAlphanum else inRanges letterRanges c || inRanges numeralRanges c

/-- A letter, mark, decimal digit, connector or joiner. -/
def isWordChar (c : Char) : Bool :=
  if c.toNat < 0x80 then c.isAlphanum || c == '_'
  else inRanges letterRanges c || inRanges wordExtraRanges c

theorem isLetterOrNumeral_of_isLetter {c : Char} (letter : isLetter c = true) :
    isLetterOrNumeral c = true := by
  unfold isLetter at letter
  unfold isLetterOrNumeral
  split <;> simp_all [Char.isAlphanum]

end SuiteMigration.Text
