import SuiteMigration.Outline.Token

/-!
# Runs of tokens

The splitters that the reader of declarations and bodies shares: up to a closing mark, up to the end
of a statement, and behind a parenthesised group. Each comes with what it keeps and how much it
leaves.
-/
namespace SuiteMigration.Outline

/-- Puts a token in front of the first of two runs. -/
def prepend (token : Token) (split : List Token × List Token) : List Token × List Token :=
  (token :: split.1, split.2)

/-- Splits in front of the mark that closes the group already opened, `depth` groups of the same
marks being open inside it. -/
def splitAtClose (opening closing : Char) : Nat → List Token → List Token × List Token
  | _, [] => ([], [])
  | depth, token :: rest =>
    if token.isPunct opening then prepend token (splitAtClose opening closing (depth + 1) rest)
    else if token.isPunct closing then
      match depth with
      | 0 => ([], token :: rest)
      | inner + 1 => prepend token (splitAtClose opening closing inner rest)
    else prepend token (splitAtClose opening closing depth rest)

theorem splitAtClose_append (opening closing : Char) (depth : Nat) (tokens : List Token) :
    (splitAtClose opening closing depth tokens).1
      ++ (splitAtClose opening closing depth tokens).2 = tokens := by
  fun_induction splitAtClose opening closing depth tokens <;> simp_all [prepend]

theorem length_splitAtClose_le (opening closing : Char) (depth : Nat) (tokens : List Token) :
    (splitAtClose opening closing depth tokens).2.length ≤ tokens.length := by
  have length_eq := congrArg List.length (splitAtClose_append opening closing depth tokens)
  rw [List.length_append] at length_eq
  omega

/-- Splits behind the semicolon that ends a statement: the first one with no bracket open. A closing
brace with no bracket open ends the statement too and stays. Brackets of all kinds share one count,
which surplus closing brackets take below zero. -/
def splitStatement : Int → List Token → List Token × List Token
  | _, [] => ([], [])
  | depth, token :: rest =>
    if token.isPunct '(' || token.isPunct '[' || token.isPunct '\x7b' then
      prepend token (splitStatement (depth + 1) rest)
    else if token.isPunct ')' || token.isPunct ']' then
      prepend token (splitStatement (depth - 1) rest)
    else if token.isPunct '\x7d' then
      -- Outside all brackets the brace closes the block around the statement.
      if depth = 0 then ([], token :: rest) else prepend token (splitStatement (depth - 1) rest)
    else if token.isPunct ';' && decide (depth ≤ 0) then ([], rest)
    else prepend token (splitStatement depth rest)

theorem length_splitStatement_le (depth : Int) (tokens : List Token) :
    (splitStatement depth tokens).2.length ≤ tokens.length := by
  fun_induction splitStatement depth tokens <;> simp_all [prepend] <;> omega

/-- A statement takes at least one token unless a closing brace comes first. -/
theorem length_splitStatement_lt (depth : Int) (token : Token) (rest : List Token)
    (no_brace : token.isPunct '\x7d' = false) :
    (splitStatement depth (token :: rest)).2.length < (token :: rest).length := by
  have shorter := fun depth => length_splitStatement_le depth rest
  unfold splitStatement
  simp only [no_brace, Bool.false_eq_true, ↓reduceIte, List.length_cons, prepend]
  split
  · exact Nat.lt_succ_of_le (shorter _)
  · split
    · exact Nat.lt_succ_of_le (shorter _)
    · split
      · exact Nat.lt_succ_self _
      · exact Nat.lt_succ_of_le (shorter _)

/-- Splits behind a parenthesised group at the head, its parentheses included. -/
def splitGroup : List Token → List Token × List Token
  | [] => ([], [])
  | token :: rest =>
    if token.isPunct '(' then
      let inside := splitAtClose '(' ')' 0 rest
      (token :: inside.1 ++ inside.2.take 1, inside.2.drop 1)
    else ([], token :: rest)

theorem splitGroup_append (tokens : List Token) :
    (splitGroup tokens).1 ++ (splitGroup tokens).2 = tokens := by
  unfold splitGroup
  split
  · rfl
  · split
    · simp only [List.cons_append, List.append_assoc, List.take_append_drop, splitAtClose_append]
    · rfl

theorem length_splitGroup_le (tokens : List Token) :
    (splitGroup tokens).2.length ≤ tokens.length := by
  have length_eq := congrArg List.length (splitGroup_append tokens)
  rw [List.length_append] at length_eq
  omega

end SuiteMigration.Outline
