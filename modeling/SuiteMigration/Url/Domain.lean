import SuiteMigration.Text.CharacterClass
import SuiteMigration.Text.LowerCase
import SuiteMigration.Text.Split
import SuiteMigration.Url.Punycode
import SuiteMigration.Url.UnusableRange

/-!
# Domain names

The form in which a domain is compared: lower case, full-width characters made plain, invisible ones
dropped, every full stop a dot. A domain that holds a character no host can have, or a label whose
encoding is broken, has none.
-/
namespace SuiteMigration.Url

/-- The characters of ASCII that a domain cannot hold. -/
def isForbidden (c : Char) : Bool :=
  c.toNat ≤ 0x20 || c.toNat == 0x7f || "#%/:<>?@[\\]^|".toList.contains c

/-- The invisible characters that are dropped from a domain. -/
def isDropped (c : Char) : Bool :=
  let code := c.toNat
  code == 0xad || code == 0x34f || (0x180b ≤ code && code ≤ 0x180d) || code == 0x180f
    || code == 0x200b || code == 0x2060 || code == 0x2064 || (0xfe00 ≤ code && code ≤ 0xfe0f)
    || code == 0xfeff || (0x1bca0 ≤ code && code ≤ 0x1bca3) || (0xe0100 ≤ code && code ≤ 0xe01ef)

/-- The character that stands for another in a domain. -/
def foldChar (c : Char) : List Char :=
  if isDropped c then []
  else if c = '\u3002' || c = '\uff61' then ['.']
  else if '\uff01' ≤ c && c ≤ '\uff5e' then [(Char.ofNat (c.toNat - 0xfee0)).toLower]
  else Text.lower c

def isUsable (c : Char) : Bool :=
  if c.toNat < 0x80 then !isForbidden c else !Text.inRanges unusableRanges c

/-- Is the label plain, or the encoding of usable characters that are not all plain? -/
def isLabel (label : List Char) : Bool :=
  if "xn--".toList.isPrefixOf label then
    match decodePunycode? (label.drop 4) with
    | some decoded => decoded.all isUsable && decoded.any fun c => c.toNat ≥ 0x80
    | none => false
  else true

def domain? (name : List Char) : Option (List Char) :=
  let folded := name.flatMap foldChar
  if folded.all isUsable && (Text.splitAt '.' folded).all isLabel then some folded else none

end SuiteMigration.Url
