import SuiteMigration.Output.Layout
import SuiteMigration.Proofs.Text.Splitting

/-!
# Lines of a text

A line holds no line feed. A text whose lines do not end in a carriage return, and whose last line is
not empty, is read line by line just as it is split at its line feeds, and a margin is put in front
of each line.
-/
namespace SuiteMigration

namespace Text

theorem notMem_of_mem_lines {line text : List Char} (member : line ∈ lines text) : '\n' ∉ line := by
  suffices go_whole : ∀ openLine : List Char, '\n' ∉ openLine →
      ∀ line ∈ lines.go openLine text, '\n' ∉ line from go_whole [] List.not_mem_nil line member
  clear member
  have dropReturn_subset (line : List Char) : dropReturn line ⊆ line := by
    unfold dropReturn
    split
    · exact List.dropLast_subset line
    · exact List.Subset.refl line
  induction text with
  | nil =>
    intro openLine whole line member
    unfold lines.go at member
    split at member
    · cases member
    · obtain rfl := List.mem_singleton.mp member
      simpa using whole
  | cons c text ih =>
    intro openLine whole line member
    unfold lines.go at member
    split at member
    · rcases List.mem_cons.mp member with rfl | later
      · exact fun feed => whole (List.mem_reverse.mp (dropReturn_subset _ feed))
      · exact ih [] List.not_mem_nil line later
    · next no_feed => exact ih (c :: openLine) (by simp [Ne.symm no_feed, whole]) line member

theorem toList_joined (items : List String) :
    ("\n".intercalate items).toList = ['\n'].intercalate (items.map String.toList) :=
  String.toList_intercalate

/-- Reading the lines of the text gives its pieces between line feeds. -/
structure Lined (text : List Char) : Prop where
  no_return : ∀ line ∈ splitAt '\n' text, line.getLast? ≠ some '\r'
  last : (splitAt '\n' text).getLast? ≠ some []

theorem Lined.lines_eq {text : List Char} (lined : Lined text) :
    lines text = splitAt '\n' text := by
  suffices go_eq : ∀ openLine : List Char, '\n' ∉ openLine → Lined (openLine.reverse ++ text) →
      lines.go openLine text = splitAt '\n' (openLine.reverse ++ text) from
    go_eq [] List.not_mem_nil lined
  clear lined
  -- The reader holds the front of the first piece in reverse, so the induction is over every front.
  induction text with
  | nil =>
    intro openLine whole lined
    have split_eq : splitAt '\n' (openLine.reverse ++ []) = [openLine.reverse] := by
      rw [List.append_nil]
      exact splitAt_of_notMem (by simpa using whole)
    have last := lined.last
    rw [split_eq] at last ⊢
    have nonempty : openLine ≠ [] := by simpa using last
    simp [lines.go, nonempty]
  | cons c text ih =>
    intro openLine whole lined
    by_cases feed : c = '\n'
    · subst feed
      have split_eq : splitAt '\n' (openLine.reverse ++ '\n' :: text)
          = openLine.reverse :: splitAt '\n' text := by
        rw [splitAt_append_mark, splitAt_of_notMem (by simpa using whole), List.singleton_append]
      obtain ⟨no_return, last⟩ := lined
      rw [split_eq] at no_return last ⊢
      obtain ⟨first_return, no_return⟩ := List.forall_mem_cons.mp no_return
      rw [List.getLast?_cons_of_ne_nil (splitAt_ne_nil _ _)] at last
      rw [lines.go, if_pos rfl, dropReturn, if_neg first_return,
        ih [] List.not_mem_nil ⟨no_return, last⟩]
      rfl
    · have shifted : openLine.reverse ++ c :: text = (c :: openLine).reverse ++ text := by simp
      rw [shifted] at lined ⊢
      rw [lines.go, if_neg feed]
      exact ih (c :: openLine) (by simp [Ne.symm feed, whole]) lined

end Text

namespace Output

/-- The line behind as many blanks as the level asks for; an empty one has none. -/
def margin (level : Nat) (line : List Char) : List Char :=
  if line.isEmpty then [] else List.replicate (2 * level) ' ' ++ line

private theorem notMem_margin {line : List Char} (level : Nat) (whole : '\n' ∉ line) :
    '\n' ∉ margin level line := by
  unfold margin
  split
  · exact List.not_mem_nil
  · simp [whole]

theorem toList_indent (level : Nat) (text : String) :
    (indent level text).toList
      = ['\n'].intercalate ((Text.lines text.toList).map (margin level)) := by
  rw [indent, Text.toList_joined, List.map_map]
  congr 2
  funext line
  simp only [Function.comp_apply, margin]
  split <;> simp

/-- The lines of an indented text are those of the text, each with its margin. -/
theorem splitAt_indent (level : Nat) {text : String} (lined : Text.Lined text.toList) :
    Text.splitAt '\n' (indent level text).toList
      = (Text.splitAt '\n' text.toList).map (margin level) := by
  rw [toList_indent, lined.lines_eq]
  refine Text.splitAt_intercalate_of_notMem ?_ (List.forall_mem_map.mpr fun line member => ?_)
  · simpa using Text.splitAt_ne_nil '\n' text.toList
  · exact notMem_margin level (Text.chars_of_mem_splitAt member).1

end Output

end SuiteMigration
