import SuiteMigration.Text.Lines

/-!
# Statements of a generated script

A statement has a kind and its text. The comment kinds stand for source that has no counterpart and
stay on one line.
-/
namespace SuiteMigration.Output

inductive Kind where
  | fill
  | click
  | visibilityQuery
  | titleQuery
  | transitionComment
  | reviewComment
  | rawPassthrough
  | navigate
  | methodCall
  | pending
  deriving DecidableEq

def Kind.isComment : Kind → Bool
  | .transitionComment | .reviewComment | .pending => true
  | _ => false

structure Statement where
  kind : Kind
  text : String
  deriving DecidableEq

namespace Statement

/-- A comment that asks for review and quotes the source, its lines trimmed and put on one. -/
def review (reason : String) (source : List Char) : Statement :=
  let quoted := [' '].intercalate ((Text.lines source).map Text.trim)
  ⟨.reviewComment, "// " ++ reason ++ ": " ++ String.ofList quoted ++ " (review manually)"⟩

/-- Stands alone in the body of a method of which nothing could be converted. -/
def pending : Statement :=
  ⟨.pending, "// TODO: Add implementation"⟩

/-- The text of a comment without the marks that open it, however often they are repeated. -/
def commentText (statement : Statement) : String :=
  String.ofList (dropMarks statement.text.toList)
where
  dropMarks : List Char → List Char
    | '/' :: '/' :: ' ' :: rest => dropMarks rest
    | text => text

end Statement

end SuiteMigration.Output
