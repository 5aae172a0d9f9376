import SuiteMigration.Outline.Parsing
import SuiteMigration.Proofs.Outline.Token

/-!
# The reader of units, one declaration at a time

What the next clause, class, member or closing brace makes the reader do.
-/
namespace SuiteMigration.Outline

theorem readUnit_nil (unit : SourceUnit) (classes : List ClassDecl) :
    readUnit unit classes [] = .ok (closeAll unit classes) := by
  rw [readUnit]

theorem closeAll_closeClass (unit : SourceUnit) (inner : ClassDecl) (outer : List ClassDecl) :
    closeAll (closeClass unit inner outer).1 (closeClass unit inner outer).2
      = closeAll unit (inner :: outer) := by
  cases outer with
  | nil => simp [closeClass, closeAll]
  | cons => simp [closeClass, closeAll]

variable (unit : SourceUnit)

section TopLevel

variable {token : Token} (rest : List Token)

theorem readUnit_package (is_package : token.isWord ["package"] = true) :
    readUnit unit [] (token :: rest)
      = readUnit { unit with package := some (readName rest).1 } []
          (splitStatement 0 (readName rest).2).2 := by
  rw [readUnit.eq_def]
  simp only [is_package, ↓reduceIte]

theorem readUnit_import (is_import : token.isWord ["import"] = true) :
    readUnit unit [] (token :: rest)
      = readUnit (unit.addImport (readImport rest).1) [] (readImport rest).2 := by
  have no_package := Token.isWord_of_disjoint is_import
    (by decide : ∀ word ∈ ["import"], word ∉ ["package"])
  rw [readUnit.eq_def]
  simp only [no_package, is_import, Bool.false_eq_true, ↓reduceIte]

theorem readUnit_class (no_package : token.isWord ["package"] = false)
    (no_import : token.isWord ["import"] = false) {preamble : Preamble} {behind : List Token}
    (preamble_eq : readPreamble (token :: rest) = (preamble, behind)) {head : TypeHead}
    {body : List Token} (head_eq : readTypeHead behind = (some head, body)) :
    readUnit unit [] (token :: rest) = readUnit unit [openClass preamble head] (body.drop 1) := by
  rw [readUnit.eq_def]
  simp only [no_package, no_import, Bool.false_eq_true, ↓reduceIte]
  -- The reader was unfolded with its own preamble and head: both are the given ones.
  split
  · next found after found_eq =>
    rw [preamble_eq, head_eq] at found_eq
    cases found_eq
    rw [preamble_eq]
  · next after found_eq =>
    rw [preamble_eq, head_eq] at found_eq
    cases found_eq

theorem readUnit_skip (no_package : token.isWord ["package"] = false)
    (no_import : token.isWord ["import"] = false) {preamble : Preamble} {behind : List Token}
    (preamble_eq : readPreamble (token :: rest) = (preamble, behind)) {after : List Token}
    (head_eq : readTypeHead behind = (none, after)) :
    readUnit unit [] (token :: rest) = readUnit unit [] (after.drop 1) := by
  rw [readUnit.eq_def]
  simp only [no_package, no_import, Bool.false_eq_true, ↓reduceIte]
  split
  · next found body found_eq =>
    rw [preamble_eq, head_eq] at found_eq
    cases found_eq
  · next found found_eq =>
    rw [preamble_eq, head_eq] at found_eq
    cases found_eq
    rfl

end TopLevel

section InClass

variable (decl : ClassDecl) (outer : List ClassDecl)

/-- Where the text ends behind a preamble, it ends the open classes. -/
theorem readUnit_unfinished {token : Token} {rest : List Token} {preamble : Preamble}
    (preamble_eq : readPreamble (token :: rest) = (preamble, [])) :
    readUnit unit (decl :: outer) (token :: rest) = .ok (closeAll unit (decl :: outer)) := by
  rw [readUnit.eq_def]
  simp only
  split
  · rfl
  · next first after found_eq =>
    rw [preamble_eq] at found_eq
    cases found_eq

variable {tokens : List Token} {preamble : Preamble} {first : Token} {after : List Token}
  (preamble_eq : readPreamble tokens = (preamble, first :: after))

include preamble_eq

/-- Inside a class what comes next is settled by the first token behind the preamble. -/
theorem readUnit_inClass :
    readUnit unit (decl :: outer) tokens =
      if first.isPunct '\x7d' then
        readUnit (closeClass unit decl outer).1 (closeClass unit decl outer).2 after
      else if first.isPunct ';' then
        if preamble.isEmpty then readUnit unit (decl :: outer) after
        else .error .memberWithoutName
      else if first.isPunct '=' then .error .memberWithoutName
      else if first.isPunct '@' || first.isWord typeWords then
        match readTypeHead (first :: after) with
        | (some head, body) =>
          readUnit unit (openClass preamble head :: decl :: outer) (body.drop 1)
        | (none, behind) => readUnit unit (decl :: outer) behind
      else if first.isPunct '\x7b' then
        readUnit unit (decl :: outer) ((splitAtClose '\x7b' '\x7d' 0 after).2.drop 1)
      else
        readUnit unit (decl.addMember (readMember preamble first.line (first :: after)).1 :: outer)
          (readMember preamble first.line (first :: after)).2 := by
  cases tokens with
  | nil =>
    rw [readPreamble.eq_def] at preamble_eq
    cases preamble_eq
  | cons token rest =>
    rw [readUnit.eq_def]
    simp only
    split
    · next behind_eq =>
      rw [preamble_eq] at behind_eq
      cases behind_eq
    · next next_first next_after behind_eq =>
      rw [preamble_eq] at behind_eq
      cases behind_eq
      simp only [preamble_eq]
      rcases readTypeHead (first :: after) with ⟨_ | head, body⟩ <;> rfl

theorem readUnit_closing (is_brace : first.isPunct '\x7d' = true) :
    readUnit unit (decl :: outer) tokens
      = readUnit (closeClass unit decl outer).1 (closeClass unit decl outer).2 after := by
  rw [readUnit_inClass unit decl outer preamble_eq, if_pos is_brace]

theorem readUnit_semicolon (is_end : first.isPunct ';' = true)
    (is_empty : preamble.isEmpty = true) :
    readUnit unit (decl :: outer) tokens = readUnit unit (decl :: outer) after := by
  rw [readUnit_inClass unit decl outer preamble_eq]
  simp only [Token.isPunct_of_ne is_end (by decide : ';' ≠ '\x7d'), is_end, is_empty,
    Bool.false_eq_true, ↓reduceIte]

theorem readUnit_nested (is_type : first.isWord typeWords = true) {head : TypeHead}
    {body : List Token} (head_eq : readTypeHead (first :: after) = (some head, body)) :
    readUnit unit (decl :: outer) tokens
      = readUnit unit (openClass preamble head :: decl :: outer) (body.drop 1) := by
  rw [readUnit_inClass unit decl outer preamble_eq]
  simp only [Token.isPunct_of_isWord is_type, is_type, Bool.or_true, Bool.false_eq_true,
    ↓reduceIte, head_eq]

theorem readUnit_initializer (is_brace : first.isPunct '\x7b' = true) :
    readUnit unit (decl :: outer) tokens
      = readUnit unit (decl :: outer) ((splitAtClose '\x7b' '\x7d' 0 after).2.drop 1) := by
  have other := fun mark => @Token.isPunct_of_ne first '\x7b' is_brace mark
  have no_word := Token.isWord_of_isPunct is_brace typeWords
  rw [readUnit_inClass unit decl outer preamble_eq]
  simp only [other '\x7d' (by decide), other ';' (by decide), other '=' (by decide),
    other '@' (by decide), no_word, is_brace, Bool.or_self, Bool.false_eq_true, ↓reduceIte]

theorem readUnit_member (unsettled : settlesMember first = false)
    (no_sign : first.isPunct '@' = false) (no_type : first.isWord typeWords = false) :
    readUnit unit (decl :: outer) tokens
      = readUnit unit
          (decl.addMember (readMember preamble first.line (first :: after)).1 :: outer)
          (readMember preamble first.line (first :: after)).2 := by
  simp only [settlesMember, Bool.or_eq_false_iff] at unsettled
  rw [readUnit_inClass unit decl outer preamble_eq]
  simp only [unsettled, no_sign, no_type, Bool.or_self, Bool.false_eq_true, ↓reduceIte]

end InClass

end SuiteMigration.Outline
