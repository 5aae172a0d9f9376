import SuiteMigration.Url.Address
import SuiteMigration.Url.Domain

/-!
# Absolute addresses

Does a text name a place absolutely, the way a browser reads its address bar? Only the scheme, the
host and the number behind the host can be wrong.
-/
namespace SuiteMigration.Url

inductive Fault where
  | relative
  | emptyHost
  | invalidDomain
  | forbiddenHostCharacter
  | invalidDottedAddress
  | invalidGroupedAddress
  | invalidPort
  deriving DecidableEq

def Fault.message : Fault → String
  | .relative => "relative URL without a base"
  | .emptyHost => "empty host"
  | .invalidDomain => "invalid international domain name"
  | .forbiddenHostCharacter => "invalid domain character"
  | .invalidDottedAddress => "invalid IPv4 address"
  | .invalidGroupedAddress => "invalid IPv6 address"
  | .invalidPort => "invalid port number"

/-- The text without blanks and controls at its ends and without tabs and line breaks anywhere. -/
def strip (text : List Char) : List Char :=
  let isEdge := fun c : Char => decide (c.toNat ≤ 0x20)
  let trimmed := ((text.dropWhile isEdge).reverse.dropWhile isEdge).reverse
  trimmed.filter fun c => c != '\t' && c != '\n' && c != '\r'

def isSchemeChar (c : Char) : Bool :=
  c.isAlphanum || c = '+' || c = '-' || c = '.'

/-- The scheme in lower case and the text behind its colon. -/
def splitScheme? (text : List Char) : Option (String × List Char) :=
  match text.dropWhile isSchemeChar with
  | ':' :: rest =>
    if text.head?.any Char.isAlpha then
      some (String.ofList ((text.takeWhile isSchemeChar).map Char.toLower), rest)
    else none
  | _ => none

/-- How hosts are read for a scheme. -/
inductive SchemeKind where
  | file
  | special
  | other
  deriving DecidableEq

def SchemeKind.ofScheme (scheme : String) : SchemeKind :=
  if scheme = "file" then .file
  else if ["http", "https", "ws", "wss", "ftp"].contains scheme then .special
  else .other

/-- Does the character end the authority? A backslash is a slash except under other schemes. -/
def endsAuthority (kind : SchemeKind) (c : Char) : Bool :=
  c = '/' || c = '?' || c = '#' || (c = '\\' && kind != .other)

/-- The bytes of a text with its percent escapes decoded. -/
def percentDecode : List Char → List UInt8
  | [] => []
  | '%' :: a :: b :: rest =>
    if isHexDigit a && isHexDigit b then
      UInt8.ofNat (digitValue a * 16 + digitValue b) :: percentDecode rest
    else 0x25 :: percentDecode (a :: b :: rest)
  | c :: rest => (String.utf8EncodeChar c) ++ percentDecode rest

/-- A host in brackets is a grouped address. -/
def checkBracketed (host : List Char) : Except Fault Unit :=
  if host.getLast? = some ']' && isGroupedAddress host.tail.dropLast then .ok ()
  else .error .invalidGroupedAddress

def checkDomain (host : List Char) : Except Fault Unit :=
  if host.head? = some '[' then checkBracketed host
  else match (String.fromUTF8? ⟨(percentDecode host).toArray⟩).bind (domain? ·.toList) with
    | none => .error .invalidDomain
    | some domain =>
      if domain.isEmpty then .error .emptyHost
      else if endsInNumber domain && !isDottedAddress domain then .error .invalidDottedAddress
      else .ok ()

/-- A host that is kept as written. -/
def checkOpaque (host : List Char) : Except Fault Unit :=
  if host.head? = some '[' then checkBracketed host
  else if host.any fun c => c.toNat == 0 || " #/:<>?@[\\]^|".toList.contains c then
    .error .forbiddenHostCharacter
  else .ok ()

/-- Splits a host from the colon and number behind it; colons between brackets belong to the host.
-/
def splitHost (bracketed : Bool) : List Char → List Char × List Char
  | [] => ([], [])
  | c :: rest =>
    if c = ':' && !bracketed then ([], c :: rest)
    else
      let (host, number) := splitHost ((bracketed || c = '[') && c != ']') rest
      (c :: host, number)

/-- The digits behind the colon, up to a backslash, give a number below 65536; there may be none. -/
def checkPort (text : List Char) : Except Fault Unit :=
  let digits := text.takeWhile (· ≠ '\\')
  if digits.all Char.isDigit && valueIn 10 digits < 65536 then .ok () else .error .invalidPort

/-- The host, and the number behind it, after any user information. -/
def checkHostAndPort (kind : SchemeKind) (hasUser : Bool) (text : List Char) :
    Except Fault Unit := do
  let (host, number) := splitHost false text
  if host.isEmpty then
    if kind = .special || !number.isEmpty || hasUser then .error .emptyHost
  else if kind = .special then checkDomain host
  else checkOpaque host
  checkPort (number.drop 1)

/-- The authority: user information up to the last at sign, then the host with its number. -/
def checkAuthority (kind : SchemeKind) (text : List Char) : Except Fault Unit :=
  let authority := text.takeWhile (!endsAuthority kind ·)
  let host := (authority.reverse.takeWhile (· ≠ '@')).reverse
  if host.length = authority.length then checkHostAndPort kind false authority
  else
    let user := authority.take (authority.length - host.length - 1)
    if user.isEmpty && host.isEmpty && authority.length < text.length then .error .emptyHost
    else checkHostAndPort kind (!user.isEmpty && user != [':']) host

/-- A drive letter in the place of a host is the start of a path. -/
def isDriveLetter (host : List Char) : Bool :=
  match host with
  | [letter, mark] => letter.isAlpha && (mark = ':' || mark = '|')
  | _ => false

def isSlash (c : Char) : Bool :=
  c = '/' || c = '\\'

def checkFile (text : List Char) : Except Fault Unit :=
  match text with
  | a :: b :: rest =>
    if isSlash a && isSlash b then
      let host := rest.takeWhile (!endsAuthority .file ·)
      if host.isEmpty || isDriveLetter host then .ok () else checkDomain host
    else .ok ()
  | _ => .ok ()

def check (text : String) : Except Fault Unit :=
  match splitScheme? (strip text.toList) with
  | none => .error .relative
  | some (scheme, rest) =>
    match SchemeKind.ofScheme scheme with
    | .file => checkFile rest
    | .special => checkAuthority .special (rest.dropWhile isSlash)
    | .other =>
      match rest with
      | '/' :: '/' :: behind => checkAuthority .other behind
      | _ => .ok ()

/-- The check, with its complaint as a text. -/
def complain (text : String) : Except String Unit :=
  (check text).mapError Fault.message

end SuiteMigration.Url
