/-!
# Splitting at a character

A text without the mark is one piece, and there is always a piece.
-/
namespace SuiteMigration.Text

def splitAt (mark : Char) : List Char → List (List Char)
  | [] => [[]]
  | c :: rest =>
    if c = mark then [] :: splitAt mark rest
    else match splitAt mark rest with
      | [] => [[c]]
      | piece :: pieces => (c :: piece) :: pieces

theorem splitAt_ne_nil (mark : Char) (text : List Char) : splitAt mark text ≠ [] := by
  fun_induction splitAt mark text <;> simp_all

end SuiteMigration.Text
