import SuiteMigration.Outline.Group
import SuiteMigration.Outline.SourceUnit

/-!
# Method bodies

A body is read into the flat list of its statements in source order. Blocks leave no trace, the head
of a conditional, loop or handler is a statement of its own in front of what it governs, and the
resources of a `try` are one too.
-/
namespace SuiteMigration.Outline

/-- The words that begin a statement with a parenthesised head. -/
def headWords : List String := ["if", "while", "for", "switch", "synchronized", "catch"]

/-- The words that stand in front of a statement or block and leave no trace. -/
def leadWords : List String := ["else", "try", "finally", "do"]

def statementOf (run : List Token) (line : Nat) : Statement :=
  ⟨String.ofList (joinTokens run), line⟩

/-- Puts a statement in front of those already read. -/
def emit (statement : Statement) (result : List Statement × List Token) :
    List Statement × List Token :=
  (statement :: result.1, result.2)

/-- The statements up to the brace that closes the body, and the tokens behind that brace; `depth`
counts the blocks open inside the body. -/
def readBody (depth : Nat) : List Token → List Statement × List Token
  | [] => ([], [])
  | token :: rest =>
    if token.isPunct '\x7d' then
      match depth with
      | 0 => ([], rest)
      | outer + 1 => readBody outer rest
    else if token.isPunct '\x7b' then readBody (depth + 1) rest
    else if token.isPunct ';' then readBody depth rest
    else if token.isWord headWords then
      -- What the head governs is read as the next statement.
      let head := splitGroup rest
      emit (statementOf (token :: head.1) token.line) (readBody depth head.2)
    else if token.isWord leadWords then
      match rest with
      | next :: inside =>
        -- Of these words only `try` can have a parenthesis of its own.
        if token.isWord ["try"] && next.isPunct '(' then
          let resources := splitAtClose '(' ')' 0 inside
          emit (statementOf resources.1 token.line) (readBody depth (resources.2.drop 1))
        else readBody depth (next :: inside)
      | [] => ([], [])
    else
      let run := splitStatement 0 (token :: rest)
      emit (statementOf run.1 token.line) (readBody depth run.2)
termination_by tokens => tokens.length
decreasing_by
  all_goals simp only [List.length_cons, List.length_drop]
  · omega
  · omega
  · omega
  · exact Nat.lt_succ_of_le (length_splitGroup_le rest)
  · have inside_le := length_splitAtClose_le '(' ')' 0 inside
    omega
  · omega
  · -- A statement takes a token, since no closing brace comes first.
    exact length_splitStatement_lt 0 token rest (by simpa using ‹¬token.isPunct '\x7d' = true›)

theorem length_readBody_le (depth : Nat) (tokens : List Token) :
    (readBody depth tokens).2.length ≤ tokens.length := by
  fun_induction readBody depth tokens with
  | case1 => exact Nat.le_refl _
  | case2 => simp
  | case3 token rest _ outer ih => exact Nat.le_succ_of_le ih
  | case4 _ _ _ _ _ ih => exact Nat.le_succ_of_le ih
  | case5 _ _ _ _ _ _ ih => exact Nat.le_succ_of_le ih
  | case6 depth token rest _ _ _ _ head ih =>
    exact Nat.le_succ_of_le (Nat.le_trans ih (length_splitGroup_le rest))
  | case7 depth token _ _ _ _ _ next inside _ resources ih =>
    have inside_le : resources.2.length ≤ inside.length := length_splitAtClose_le _ _ _ _
    simp only [emit, List.length_cons, List.length_drop] at *
    omega
  | case8 _ _ _ _ _ _ _ _ _ _ ih => exact Nat.le_succ_of_le ih
  | case9 => simp
  | case10 depth token rest _ _ _ _ _ run ih =>
    exact Nat.le_trans ih (length_splitStatement_le 0 (token :: rest))

end SuiteMigration.Outline
