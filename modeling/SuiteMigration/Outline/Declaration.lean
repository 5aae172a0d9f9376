import SuiteMigration.Outline.Body

/-!
# Pieces of a declaration

Qualified names, annotations with modifiers, the head of a type declaration, and the members that
are neither types nor initializer blocks. Every reader returns what it read and the tokens behind
it, never more than there were.
-/
namespace SuiteMigration.Outline

def modifierWords : List String :=
  ["public", "protected", "private", "static", "final", "abstract", "synchronized", "native",
    "transient", "volatile", "strictfp", "default", "sealed"]

/-- The words that begin a type declaration. -/
def typeWords : List String := ["class", "interface", "enum", "record"]

/-- Segments and dots in turn, the text of which is the name; a star may stand for any segment but
the first. -/
def splitName (segment started : Bool) : List Token → List Char × List Token
  | [] => ([], [])
  | token :: rest =>
    -- Where a segment is due a dot ends the name, and the other way round.
    let accepted :=
      if segment then token.kind == .ident || (started && token.isPunct '*')
      else token.isPunct '.'
    if accepted then
      let (more, after) := splitName (!segment) true rest
      (token.text ++ more, after)
    else ([], token :: rest)

def readName (tokens : List Token) : String × List Token :=
  let (name, after) := splitName true false tokens
  (String.ofList name, after)

theorem length_readName_le (tokens : List Token) :
    (readName tokens).2.length ≤ tokens.length := by
  suffices split_le : ∀ segment started,
      (splitName segment started tokens).2.length ≤ tokens.length from split_le true false
  intro segment started
  fun_induction splitName segment started tokens with
  | case1 => exact Nat.le_refl _
  | case2 segment started token rest accepted is_accepted more after split_eq ih =>
    rw [split_eq] at ih
    exact Nat.le_succ_of_le ih
  | case3 => exact Nat.le_refl _

/-- The import clause behind its keyword, to the end of its statement. -/
def readImport (tokens : List Token) : Import × List Token :=
  let isStatic := tokens.head?.any (·.isWord ["static"])
  let name := readName (if isStatic then tokens.tail else tokens)
  (⟨name.1, isStatic⟩, (splitStatement 0 name.2).2)

theorem length_readImport_le (tokens : List Token) :
    (readImport tokens).2.length ≤ tokens.length := by
  have name_le := length_readName_le
  have statement_le := length_splitStatement_le 0
  have tail_le : tokens.tail.length ≤ tokens.length := by simp
  simp only [readImport]
  split
  · exact Nat.le_trans (Nat.le_trans (statement_le _) (name_le _)) tail_le
  · exact Nat.le_trans (statement_le _) (name_le _)

/-- The annotation behind its `@`. -/
def readTag (tokens : List Token) : Tag × List Token :=
  let (name, after) := readName tokens
  match after with
  | token :: rest =>
    if token.isPunct '(' then
      let inside := splitAtClose '(' ')' 0 rest
      (⟨name, some (String.ofList (joinTokens inside.1))⟩, inside.2.drop 1)
    else (⟨name, none⟩, token :: rest)
  | [] => (⟨name, none⟩, [])

theorem length_readTag_le (tokens : List Token) :
    (readTag tokens).2.length ≤ tokens.length := by
  have name_le := length_readName_le tokens
  have inside_le := length_splitAtClose_le '(' ')' 0
  unfold readTag
  grind

/-- The annotations and modifiers in front of a declaration. -/
structure Preamble where
  tags : List Tag
  modifiers : List String
  deriving DecidableEq

namespace Preamble

def empty : Preamble := ⟨[], []⟩

def isEmpty (preamble : Preamble) : Bool :=
  preamble.tags.isEmpty && preamble.modifiers.isEmpty

end Preamble

/-- Annotations and modifiers in any mix; the `@` of an annotation type is no annotation. -/
def readPreamble : List Token → Preamble × List Token
  | [] => (.empty, [])
  | token :: rest =>
    if token.isPunct '@' then
      if rest.head?.any (·.isWord ["interface"]) then (.empty, token :: rest)
      else
        let tag := readTag rest
        let more := readPreamble tag.2
        ({ more.1 with tags := tag.1 :: more.1.tags }, more.2)
    else if token.isWord modifierWords then
      let more := readPreamble rest
      ({ more.1 with modifiers := token.name :: more.1.modifiers }, more.2)
    else (.empty, token :: rest)
termination_by tokens => tokens.length
decreasing_by
  · exact Nat.lt_succ_of_le (length_readTag_le rest)
  · simp

theorem length_readPreamble_le (tokens : List Token) :
    (readPreamble tokens).2.length ≤ tokens.length := by
  fun_induction readPreamble tokens with
  | case1 => exact Nat.le_refl _
  | case2 => exact Nat.le_refl _
  | case3 token rest _ _ tag more ih =>
    exact Nat.le_succ_of_le (Nat.le_trans ih (length_readTag_le rest))
  | case4 _ _ _ _ _ ih => exact Nat.le_succ_of_le ih
  | case5 => exact Nat.le_refl _

/-- Passes over the rest of a type's head, to its opening brace; `depth` counts open parentheses,
and a brace between parentheses is part of the head. -/
def skipToBrace : Nat → List Token → List Token
  | _, [] => []
  | 0, token :: rest =>
    if token.isPunct '\x7b' then token :: rest
    else skipToBrace (if token.isPunct '(' then 1 else 0) rest
  | depth + 1, token :: rest =>
    if token.isPunct '(' then skipToBrace (depth + 2) rest
    else if token.isPunct ')' then skipToBrace depth rest
    else skipToBrace (depth + 1) rest

theorem length_skipToBrace_le (depth : Nat) (tokens : List Token) :
    (skipToBrace depth tokens).length ≤ tokens.length := by
  fun_induction skipToBrace depth tokens <;> simp_all <;> omega

/-- The name of a declared type and the line of its keyword. -/
structure TypeHead where
  name : String
  line : Nat
  deriving DecidableEq

/-- The head of a type declaration and the tokens from its opening brace on. Where no type is
declared, a keyword without a name is passed over and nothing else. -/
def readTypeHead (tokens : List Token) : Option TypeHead × List Token :=
  -- The sign of an annotation type is passed over.
  let tokens := match tokens with
    | token :: rest => if token.isPunct '@' then rest else token :: rest
    | [] => []
  match tokens with
  | keyword :: rest =>
    if keyword.isWord typeWords then
      match rest with
      | name :: after =>
        if name.kind = .ident then (some ⟨name.name, keyword.line⟩, skipToBrace 0 after)
        else (none, name :: after)
      | [] => (none, [])
    else (none, keyword :: rest)
  | [] => (none, [])

theorem length_readTypeHead_le (tokens : List Token) :
    (readTypeHead tokens).2.length ≤ tokens.length := by
  have brace_le := length_skipToBrace_le 0
  unfold readTypeHead
  grind

/-- A type's head takes at least one token where a type can begin. -/
theorem length_readTypeHead_lt (token : Token) (rest : List Token)
    (begins : (token.isPunct '@' || token.isWord typeWords) = true) :
    (readTypeHead (token :: rest)).2.length < (token :: rest).length := by
  have brace_le := length_skipToBrace_le 0
  unfold readTypeHead
  grind

/-- The names that end the comma-separated parts of a parameter list: the last identifier of each
part outside parentheses, brackets and angle brackets, if it has one. -/
def parameterNames (tokens : List Token) : List String :=
  go 0 none tokens
where
  go (depth : Int) (last : Option String) : List Token → List String
    | [] => last.toList
    | token :: rest =>
      if token.isPunct '(' || token.isPunct '<' || token.isPunct '[' then go (depth + 1) last rest
      else if token.isPunct ')' || token.isPunct '>' || token.isPunct ']' then
        go (depth - 1) last rest
      else if token.isPunct ',' && depth == 0 then last.toList ++ go depth none rest
      -- The name stands last, so a later identifier replaces it.
      else if token.kind == .ident && depth == 0 then go depth (some token.name) rest
      else go depth last rest

/-- Passes over a `throws` clause and reads the body, if the method has one. -/
def readMethodTail : List Token → Option (List Statement) × List Token
  | [] => (none, [])
  | token :: rest =>
    if token.isPunct '\x7b' then
      let body := readBody 0 rest
      (some body.1, body.2)
    else if token.isPunct ';' then (none, rest)
    else if token.isPunct '\x7d' then (none, token :: rest)
    else readMethodTail rest

theorem length_readMethodTail_le (tokens : List Token) :
    (readMethodTail tokens).2.length ≤ tokens.length := by
  fun_induction readMethodTail tokens with
  | case1 => exact Nat.le_refl _
  | case2 token rest _ body => exact Nat.le_succ_of_le (length_readBody_le 0 rest)
  | case3 => simp
  | case4 => exact Nat.le_refl _
  | case5 _ _ _ _ _ ih => exact Nat.le_succ_of_le ih

/-- The marks that settle what kind of member has begun. -/
def settlesMember (token : Token) : Bool :=
  token.isPunct '(' || token.isPunct '=' || token.isPunct ';' || token.isPunct '\x7b'
    || token.isPunct '\x7d'

/-- The tokens in front of the mark that settles the member; a parenthesised group at the very start
is among them. -/
def splitLeading (tokens : List Token) : List Token × List Token :=
  let group := splitGroup tokens
  (group.1 ++ group.2.takeWhile (!settlesMember ·), group.2.dropWhile (!settlesMember ·))

theorem splitLeading_append (tokens : List Token) :
    (splitLeading tokens).1 ++ (splitLeading tokens).2 = tokens := by
  simp only [splitLeading, List.append_assoc, List.takeWhile_append_dropWhile, splitGroup_append]

/-- What a class can hold besides types. -/
inductive Member where
  | field (field : Field)
  | method (method : Method)
  deriving DecidableEq

/-- The declared name of a field: the last identifier in front of the mark that settles it. -/
def fieldName (leading : List Token) : String :=
  match leading.reverse.find? (·.kind == .ident) with
  | some token => token.name
  | none => ""

/-- The field whose declaration is `leading`, its last token being left out of the type. -/
def fieldOf (preamble : Preamble) (leading : List Token) (initializer : Option String)
    (line : Nat) : Field where
  tags := preamble.tags
  modifiers := preamble.modifiers
  typeText := String.ofList (joinTokens leading.dropLast)
  name := fieldName leading
  initializer := initializer
  line := line

/-- The member behind a preamble. A block that no parameter list precedes is passed over and gives
no member. -/
def readMember (preamble : Preamble) (line : Nat) (tokens : List Token) :
    Option Member × List Token :=
  let leading := splitLeading tokens
  match leading.2 with
  | [] => (none, [])
  | mark :: rest =>
    if mark.isPunct '(' then
      let inside := splitAtClose '(' ')' 0 rest
      let tail := readMethodTail (inside.2.drop 1)
      -- The name of a method stands right in front of its parameters.
      let name := (leading.1.getLast?.map Token.name).getD ""
      (some (.method ⟨preamble.tags, preamble.modifiers, name, parameterNames inside.1,
        tail.1, line⟩), tail.2)
    else if mark.isPunct '=' then
      let value := splitStatement 0 rest
      let field := fieldOf preamble leading.1 (String.ofList (joinTokens value.1)) line
      (some (.field field), value.2)
    else if mark.isPunct ';' then (some (.field (fieldOf preamble leading.1 none line)), rest)
    else if mark.isPunct '\x7b' then (none, (splitAtClose '\x7b' '\x7d' 0 rest).2.drop 1)
    else (none, mark :: rest)

theorem settlesMember_of_splitLeading {tokens : List Token} {mark : Token} {rest : List Token}
    (leading_eq : (splitLeading tokens).2 = mark :: rest) : settlesMember mark = true := by
  have first := List.head?_dropWhile_not (!settlesMember ·) (splitGroup tokens).2
  have rest_eq : (splitGroup tokens).2.dropWhile (!settlesMember ·) = mark :: rest := leading_eq
  simpa [rest_eq] using first

/-- A member takes at least one token unless it begins with a closing brace. -/
theorem length_readMember_lt (preamble : Preamble) (line : Nat) (token : Token) (rest : List Token)
    (no_brace : token.isPunct '\x7d' = false) :
    (readMember preamble line (token :: rest)).2.length < (token :: rest).length := by
  have close_le := length_splitAtClose_le
  have tail_le := length_readMethodTail_le
  have statement_le := length_splitStatement_le
  have leading_eq := splitLeading_append (token :: rest)
  have settles := @settlesMember_of_splitLeading (token :: rest)
  unfold readMember
  cases run : (splitLeading (token :: rest)).1 with
  | nil => grind [settlesMember]
  | cons first more => grind

end SuiteMigration.Outline
