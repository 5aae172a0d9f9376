/-!
# Java tokens

A token is a stretch of source text with its kind, its byte span and its line. A run of tokens is
joined back into text with one space for every gap.
-/
namespace SuiteMigration.Outline

inductive TokenKind where
  | ident
  | string
  | char
  | number
  | punct
  deriving DecidableEq

/-- Offsets count UTF-8 bytes from the start of the source and lines count from one. -/
structure Token where
  kind : TokenKind
  text : List Char
  start : Nat
  stop : Nat
  line : Nat
  deriving DecidableEq

namespace Token

def isPunct (token : Token) (mark : Char) : Bool :=
  token.kind == .punct && token.text == [mark]

/-- Is the token an identifier spelled as one of these words? -/
def isWord (token : Token) (words : List String) : Bool :=
  token.kind == .ident && words.contains (String.ofList token.text)

def name (token : Token) : String :=
  String.ofList token.text

/-- Is there white space or a comment between the two tokens? -/
def apart (left right : Token) : Bool :=
  left.stop < right.start

end Token

/-- The text of a run of tokens, each gap in it reduced to one space. -/
def joinTokens : List Token → List Char
  | [] => []
  | [last] => last.text
  | first :: next :: rest =>
    first.text ++ (if first.apart next then [' '] else []) ++ joinTokens (next :: rest)

end SuiteMigration.Outline
