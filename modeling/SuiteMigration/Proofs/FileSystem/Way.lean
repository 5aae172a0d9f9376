import SuiteMigration.FileSystem.View
import SuiteMigration.FileSystem.Way
import SuiteMigration.Proofs.FileSystem.WellFormed

/-!
# Paths below a directory

A name that is joined to a path is one more component and one more move, and makes the path longer.
What is wrong with a path is wrong with everything joined to it.
-/
namespace SuiteMigration

open FileSystem

variable {name : String} {base root : Path} {way left right : Location}

theorem FileSystem.isEntryName_iff : isEntryName name = true ↔
    Path.stays name.toList = false ∧ name.toList ≠ ['.', '.'] ∧ '/' ∉ name.toList := by
  simp [isEntryName, Path.stays, and_assoc]

theorem FileSystem.ProperName.isEntryName (proper : ProperName name) : isEntryName name = true :=
  isEntryName_iff.mpr ⟨proper.leads, proper.not_up, proper.no_slash⟩

theorem FileSystem.joinWay_append (root : Path) (way : Location) (name : String) :
    joinWay root (way ++ [name]) = (joinWay root way).join ⟨name⟩ := by
  rw [joinWay, List.foldl_append]
  rfl

namespace Path

section Join

variable (named : isEntryName name = true)
include named

theorem fileName?_join_name (base : Path) : (base.join ⟨name⟩).fileName? = some name := by
  obtain ⟨leads, not_up, no_slash⟩ := isEntryName_iff.mp named
  exact fileName?_join base (fileName?_name no_slash leads not_up)

/-- A name that is joined to a path is one more component. -/
theorem components_join (base : Path) :
    (base.join ⟨name⟩).components = base.components ++ [.normal name] := by
  obtain ⟨leads, not_up, no_slash⟩ := isEntryName_iff.mp named
  have is_name : [name.toList].filterMap Component.ofPiece? = [.normal name] := by
    rw [List.filterMap_cons_some (ofPiece?_name leads not_up), List.filterMap_nil]
  rcases join_cases base no_slash with ⟨rfl, join_eq⟩ | ⟨nonempty, -⟩
  · have not_dot : name.toList ≠ ['.'] := by
      rintro is_dot
      simp [stays, is_dot] at leads
    have nothing : (Path.mk "").components = [] := rfl
    rw [join_eq, nothing, components, not_isAbsolute_name no_slash, Text.splitAt_of_notMem no_slash,
      is_name]
    simp [not_dot]
  · -- The pieces of the base, without an empty one at its end, stand in front of the name.
    obtain ⟨front, text_eq, base_eq⟩ := join_behind_slash nonempty no_slash
    have pieces_eq (rest : List Char) : Text.splitAt '/' (front ++ '/' :: rest)
        = Text.splitAt '/' front ++ Text.splitAt '/' rest := Text.splitAt_append_mark '/' front rest
    have same_head (pieces : List (List Char)) : (Text.splitAt '/' front ++ pieces).head?
        = (Text.splitAt '/' front).head? :=
      List.head?_append_of_ne_nil _ (Text.splitAt_ne_nil '/' front)
    have empty_piece : [[]].filterMap Component.ofPiece? = [] := rfl
    rw [components, isAbsolute_join base no_slash, text_eq, pieces_eq, Text.splitAt_of_notMem no_slash,
      List.filterMap_append, is_name, components]
    rcases base_eq with base_eq | base_eq
    · simp only [base_eq, same_head, List.append_assoc]
    · simp only [base_eq, pieces_eq, same_head, Text.splitAt, List.filterMap_append, empty_piece,
        List.append_nil, List.append_assoc]

/-- A name comes behind the text of a path, and makes it longer. -/
theorem exists_text_join (base : Path) : ∃ rest, (base.join ⟨name⟩).text = base.text ++ rest ∧
    name.utf8ByteSize ≤ rest.utf8ByteSize := by
  rw [join, not_isAbsolute_name (isEntryName_iff.mp named).2.2, Bool.false_or]
  split
  · next empty => exact ⟨name, by rw [String.isEmpty_iff.mp empty, String.empty_append], le_refl _⟩
  split
  · exact ⟨name, rfl, le_refl _⟩
  · exact ⟨"/" ++ name, String.append_assoc, by simp⟩

private theorem size_name_pos : 0 < name.utf8ByteSize := by
  refine Nat.pos_of_ne_zero fun empty => ?_
  obtain rfl := String.utf8ByteSize_eq_zero_iff.mp empty
  cases (isEntryName_iff.mp named).1

theorem size_le_join (base : Path) :
    base.text.utf8ByteSize + name.utf8ByteSize ≤ (base.join ⟨name⟩).text.utf8ByteSize := by
  obtain ⟨rest, text_eq, longer⟩ := exists_text_join named base
  rw [text_eq, String.utf8ByteSize_append]
  omega

theorem size_lt_join (base : Path) :
    base.text.utf8ByteSize < (base.join ⟨name⟩).text.utf8ByteSize := by
  have longer := size_le_join named base
  have positive := size_name_pos named
  omega

theorem isEmpty_join (base : Path) : (base.join ⟨name⟩).text.isEmpty = false := by
  have longer := size_lt_join named base
  by_contra empty
  rw [Bool.not_eq_false, String.isEmpty_iff] at empty
  simp [empty] at longer

/-- A path that is accepted has an accepted path in front of its last name. -/
theorem refusal?_of_join (nonempty : base.text.isEmpty = false)
    (accepted : refusal? (base.join ⟨name⟩) = none) : refusal? base = none := by
  obtain ⟨rest, text_eq, -⟩ := exists_text_join named base
  rw [refusal?_eq_none, text_eq, String.toList_append, String.utf8ByteSize_append] at accepted
  obtain ⟨-, no_nul, short⟩ := accepted
  exact refusal?_eq_none.mpr ⟨nonempty, fun member => no_nul (List.mem_append_left _ member),
    Nat.le_trans (Nat.le_add_right _ _) short⟩

/-- A name can be joined to an accepted path if there is room for it. -/
theorem refusal?_join (accepted : refusal? base = none) (no_nul : '\x00' ∉ name.toList)
    (room : base.text.utf8ByteSize + 1 + name.utf8ByteSize ≤ pathLimit) :
    refusal? (base.join ⟨name⟩) = none := by
  obtain ⟨nonempty, base_no_nul, -⟩ := refusal?_eq_none.mp accepted
  have slash_size : "/".utf8ByteSize = 1 := by decide +kernel
  refine refusal?_eq_none.mpr ⟨isEmpty_join named base, ?_⟩
  rw [join, not_isAbsolute_name (isEntryName_iff.mp named).2.2, nonempty]
  simp only [Bool.or_self, Bool.false_eq_true, ↓reduceIte]
  split
  · simp only [String.toList_append, String.utf8ByteSize_append, List.mem_append]
    exact ⟨not_or.mpr ⟨base_no_nul, no_nul⟩, by omega⟩
  · simp only [String.toList_append, String.utf8ByteSize_append, List.mem_append]
    exact ⟨not_or.mpr ⟨not_or.mpr ⟨base_no_nul, by decide⟩, no_nul⟩, by omega⟩

end Join

section Ways

theorem components_joinWay (root : Path) (named : ∀ name ∈ way, isEntryName name = true) :
    (joinWay root way).components = root.components ++ way.map .normal := by
  induction way using List.reverseRecOn with
  | nil => exact (List.append_nil _).symm
  | append_singleton front name ih =>
    rw [joinWay_append, components_join (named name (by simp)),
      ih fun other member => named other (by simp [member]), List.map_append, List.append_assoc]
    rfl

theorem components_joinWay_ne (left_named : ∀ name ∈ left, isEntryName name = true)
    (right_named : ∀ name ∈ right, isEntryName name = true) (root : Path) (different : left ≠ right) :
    (joinWay root left).components ≠ (joinWay root right).components := by
  rw [components_joinWay root left_named, components_joinWay root right_named]
  intro same
  refine different (List.map_injective_iff.mpr (fun _ _ => ?_) (List.append_cancel_left same))
  exact Component.normal.inj

theorem lastPiece_joinWay (root : Path) (named : ∀ name ∈ way, isEntryName name = true)
    (nonempty : way ≠ []) : stays (lastPiece (joinWay root way).text.toList) = false := by
  induction way using List.reverseRecOn with
  | nil => exact absurd rfl nonempty
  | append_singleton front name =>
    obtain ⟨leads, -, no_slash⟩ := isEntryName_iff.mp (named name (by simp))
    rw [joinWay_append, lastPiece_join _ no_slash]
    exact leads

theorem refusal?_of_joinWay (named : ∀ name ∈ way, isEntryName name = true)
    (nonempty : root.text.isEmpty = false) (accepted : refusal? (joinWay root way) = none) :
    refusal? root = none := by
  induction way generalizing root with
  | nil => exact accepted
  | cons name rest ih =>
    have name_named := named name List.mem_cons_self
    exact refusal?_of_join name_named nonempty
      (ih (fun other member => named other (List.mem_cons_of_mem _ member)) (isEmpty_join name_named root)
        accepted)

end Ways

end Path

end SuiteMigration
