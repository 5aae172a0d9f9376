import Mathlib.Data.List.Infix
import Mathlib.Data.List.TakeWhile
import SuiteMigration.Proofs.Locator.Literal
import SuiteMigration.Test.Argument
import SuiteMigration.Text.Lines

/-!
# Parentheses outside string literals

The code of a text is what stands outside its string literals. Its parentheses are balanced if at no
place more of them are closed than were opened, and none is left open at the end. The reader of
arguments decides that.
-/
namespace SuiteMigration.Text

open Locator (LiteralBody accepts_stringChars)
open Test (isBalanced)

/-- The text has closed string literals, and the code is what stands outside them. -/
inductive HasCode : List Char → List Char → Prop where
  | nil : HasCode [] []
  | code {c : Char} {text code : List Char} (no_quote : c ≠ '"') (rest : HasCode text code) :
      HasCode (c :: text) (c :: code)
  | literal {body text code : List Char} (is_body : LiteralBody body) (rest : HasCode text code) :
      HasCode ('"' :: (body ++ '"' :: text)) code

section HasCode

variable {text front back code frontCode : List Char}

theorem hasCode_self (no_quote : '"' ∉ text) : HasCode text text := by
  induction text with
  | nil => exact .nil
  | cons c text ih =>
    rw [List.mem_cons, not_or] at no_quote
    exact .code (Ne.symm no_quote.1) (ih no_quote.2)

theorem HasCode.append (first : HasCode front frontCode) (second : HasCode back code) :
    HasCode (front ++ back) (frontCode ++ code) := by
  induction first with
  | nil => exact second
  | code no_quote _ ih => exact .code no_quote ih
  | literal is_body _ ih =>
    rw [List.cons_append, List.append_assoc, List.cons_append]
    exact .literal is_body ih

/-- A front with closed literals has its own code, and the rest of the text has the rest. -/
theorem HasCode.of_append (whole : HasCode (front ++ back) code)
    (first : HasCode front frontCode) :
    ∃ backCode, HasCode back backCode ∧ code = frontCode ++ backCode := by
  induction first generalizing code with
  | nil => exact ⟨code, whole, rfl⟩
  | @code c text _ no_quote _ ih =>
    generalize whole_eq : c :: text ++ back = whole_text at whole
    cases whole with
    | nil => cases whole_eq
    | code _ rest =>
      obtain ⟨rfl, rfl⟩ := List.cons.inj whole_eq
      obtain ⟨backCode, has_code, rfl⟩ := ih rest
      exact ⟨backCode, has_code, rfl⟩
    | literal => exact absurd (List.cons.inj whole_eq).1 no_quote
  | @literal body text _ is_body _ ih =>
    rw [List.cons_append, List.append_assoc, List.cons_append] at whole
    generalize whole_eq : '"' :: (body ++ '"' :: (text ++ back)) = whole_text at whole
    cases whole with
    | nil => cases whole_eq
    | code no_quote => exact absurd (List.cons.inj whole_eq).1.symm no_quote
    | literal other_body rest =>
      -- Both literals begin at this quote, so they are the same.
      obtain ⟨rfl, rfl⟩ :=
        is_body.eq_of_closed (accepts_stringChars other_body) (List.cons.inj whole_eq).2
      exact ih rest

theorem HasCode.subset (has_code : HasCode text code) : code ⊆ text := by
  induction has_code with
  | nil => exact List.Subset.refl []
  | code _ _ ih => exact List.cons_subset_cons _ ih
  | @literal body text _ _ _ ih =>
    intro c member
    exact List.mem_cons_of_mem _ (List.mem_append_right body (List.mem_cons_of_mem _ (ih member)))

theorem HasCode.unique {other : List Char} (first : HasCode text code) (second : HasCode text other) :
    other = code := by
  rw [← List.append_nil text] at second
  obtain ⟨rest, has_rest, rfl⟩ := second.of_append first
  cases has_rest
  rw [List.append_nil]

/-- An end without quotes is outside the literals. -/
theorem HasCode.of_append_plain (whole : HasCode (front ++ back) code) (no_quote : '"' ∉ back) :
    ∃ frontCode, HasCode front frontCode ∧ code = frontCode ++ back := by
  generalize whole_eq : front ++ back = whole_text at whole
  induction whole generalizing front with
  | nil =>
    obtain ⟨rfl, rfl⟩ := List.append_eq_nil_iff.mp whole_eq
    exact ⟨[], .nil, rfl⟩
  | @code c text code is_code rest ih =>
    cases front with
    | nil =>
      obtain rfl : back = c :: text := whole_eq
      exact ⟨[], .nil, (hasCode_self no_quote).unique (.code is_code rest)⟩
    | cons d front =>
      obtain ⟨rfl, front_eq⟩ := List.cons.inj whole_eq
      obtain ⟨frontCode, has_code, rfl⟩ := ih front_eq
      exact ⟨d :: frontCode, .code is_code has_code, rfl⟩
  | @literal body text code is_body rest ih =>
    cases front with
    | nil =>
      obtain rfl : back = '"' :: (body ++ '"' :: text) := whole_eq
      exact absurd List.mem_cons_self no_quote
    | cons d front =>
      obtain ⟨rfl, front_eq⟩ := List.cons.inj whole_eq
      -- The end has no quote, so the front reaches beyond the closing one.
      rcases List.append_eq_append_iff.mp front_eq with ⟨more, -, back_eq⟩ | ⟨more, rfl, more_eq⟩
      · exact absurd (back_eq ▸ by simp) no_quote
      · cases more with
        | nil =>
          obtain rfl : '"' :: text = back := more_eq
          exact absurd List.mem_cons_self no_quote
        | cons d more =>
          obtain ⟨rfl, text_eq⟩ := List.cons.inj more_eq
          obtain ⟨frontCode, has_code, rfl⟩ := ih text_eq.symm
          exact ⟨frontCode, .literal is_body has_code, rfl⟩

end HasCode

/-! ## Balance -/

/-- With `depth` groups open in front of it, the code closes no more than is open at any place, and
in the end all. -/
structure ClosesAll (depth : Nat) (code : List Char) : Prop where
  within : ∀ front, front <+: code → front.count ')' ≤ front.count '(' + depth
  closed : code.count ')' = code.count '(' + depth

instance (depth : Nat) (code : List Char) : Decidable (ClosesAll depth code) :=
  decidable_of_iff ((∀ front ∈ code.inits, front.count ')' ≤ front.count '(' + depth) ∧
      code.count ')' = code.count '(' + depth)
    ⟨fun ⟨within, closed⟩ =>
        ⟨fun front initial => within front ((List.mem_inits ..).mpr initial), closed⟩,
      fun closes =>
        ⟨fun front member => closes.within front ((List.mem_inits ..).mp member), closes.closed⟩⟩

def Balanced (code : List Char) : Prop :=
  ClosesAll 0 code

instance (code : List Char) : Decidable (Balanced code) :=
  inferInstanceAs (Decidable (ClosesAll 0 code))

section Balance

variable {depth : Nat} {c : Char} {code front back : List Char}

theorem closesAll_nil : ClosesAll depth [] ↔ depth = 0 := by
  constructor
  · intro closes
    simpa using closes.closed.symm
  · rintro rfl
    exact ⟨by simp, rfl⟩

/-- The first character opens a group, closes one or does neither. -/
theorem closesAll_cons {after : Nat} (moved : ∀ text : List Char,
    (c :: text).count ')' + (text.count '(' + after)
      = text.count ')' + ((c :: text).count '(' + depth)) :
    ClosesAll depth (c :: code) ↔ ClosesAll after code := by
  constructor
  · rintro ⟨within, closed⟩
    have moved_code := moved code
    refine ⟨fun front initial => ?_, by omega⟩
    have moved_front := moved front
    have within_front := within (c :: front) (List.prefix_cons_inj c |>.mpr initial)
    omega
  · rintro ⟨within, closed⟩
    have moved_code := moved code
    refine ⟨fun front initial => ?_, by omega⟩
    rcases List.prefix_cons_iff.mp initial with rfl | ⟨rest, rfl, rest_initial⟩
    · simp
    · have moved_rest := moved rest
      have within_rest := within rest rest_initial
      omega

theorem closesAll_opening : ClosesAll depth ('(' :: code) ↔ ClosesAll (depth + 1) code := by
  apply closesAll_cons
  intro text
  simp
  omega

theorem closesAll_closing : ClosesAll (depth + 1) (')' :: code) ↔ ClosesAll depth code := by
  apply closesAll_cons
  intro text
  simp
  omega

theorem not_closesAll_closing : ¬ClosesAll 0 (')' :: code) := by
  intro closes
  have excess := closes.within [')'] ⟨code, rfl⟩
  simp at excess

theorem closesAll_other (no_opening : c ≠ '(') (no_closing : c ≠ ')') :
    ClosesAll depth (c :: code) ↔ ClosesAll depth code := by
  apply closesAll_cons
  intro text
  rw [List.count_cons_of_ne no_opening, List.count_cons_of_ne no_closing]

/-- Behind a balanced part nothing is open that could be closed. -/
theorem Balanced.not_closed_behind (balanced : Balanced front) :
    ¬Balanced (front ++ ')' :: back) := by
  intro closes
  have excess := closes.within (front ++ [')']) ⟨back, by simp⟩
  have even := balanced.closed
  simp at excess even
  omega

end Balance

/-! ## The reader of arguments -/

section Reader

variable {text code body : List Char}

/-- The reader passes over a literal. -/
theorem go_literal (is_body : LiteralBody body) (depth : Nat) (text : List Char) :
    isBalanced.go .inside depth (body ++ '"' :: text) = isBalanced.go .outside depth text := by
  induction is_body with
  | empty => simp [isBalanced.go]
  | plain no_quote no_backslash _ _ ih => simp [isBalanced.go, no_quote, no_backslash, ih]
  | escape _ _ ih => simp [isBalanced.go, ih]

private theorem go_iff (has_code : HasCode text code) (depth : Nat) :
    isBalanced.go .outside depth text = true ↔ ClosesAll depth code := by
  induction has_code generalizing depth with
  | nil => simp [isBalanced.go, closesAll_nil]
  | @code c text code no_quote _ ih =>
    by_cases opening : c = '('
    · rw [opening, closesAll_opening, ← ih (depth + 1)]
      simp [isBalanced.go]
    by_cases closing : c = ')'
    · rw [closing]
      cases depth with
      | zero => simp [isBalanced.go, not_closesAll_closing]
      | succ depth =>
        rw [closesAll_closing, ← ih depth]
        simp [isBalanced.go]
    · rw [closesAll_other opening closing, ← ih depth]
      simp [isBalanced.go, no_quote, opening, closing]
  | literal is_body _ ih => simp [isBalanced.go, go_literal is_body, ih]

/-- The reader of arguments tells whether the parentheses of their code are balanced. -/
theorem isBalanced_iff (has_code : HasCode text code) : isBalanced text = true ↔ Balanced code :=
  go_iff has_code 0

end Reader

/-! ## Trimmed texts -/

section Trim

variable {text code : List Char}

theorem exists_trim (text : List Char) : ∃ lead trail, (∀ c ∈ lead, isBlank c = true) ∧
    (∀ c ∈ trail, isBlank c = true) ∧ text = lead ++ (trim text ++ trail) := by
  refine ⟨text.takeWhile isBlank, ((trimLeft text).reverse.takeWhile isBlank).reverse, ?_, ?_, ?_⟩
  · exact fun c member => List.mem_takeWhile_imp member
  · exact fun c member => List.mem_takeWhile_imp (List.mem_reverse.mp member)
  · rw [trim, trimRight, ← List.reverse_append, List.takeWhile_append_dropWhile,
      List.reverse_reverse, trimLeft, List.takeWhile_append_dropWhile]

/-- Trimming takes blanks from the code, and no parentheses. -/
theorem HasCode.trim (has_code : HasCode text code) : ∃ trimmed, HasCode (trim text) trimmed ∧
    trimmed.count '(' = code.count '(' ∧ trimmed.count ')' = code.count ')' := by
  obtain ⟨lead, trail, lead_blank, trail_blank, text_eq⟩ := exists_trim text
  have no_blank : ∀ {blanks : List Char} {mark : Char}, (∀ c ∈ blanks, isBlank c = true) →
      isBlank mark = false → mark ∉ blanks := by
    intro blanks mark all_blank no_blank member
    rw [all_blank mark member] at no_blank
    cases no_blank
  rw [text_eq] at has_code
  obtain ⟨rest, has_rest, rfl⟩ :=
    has_code.of_append (hasCode_self (no_blank lead_blank (by decide)))
  obtain ⟨trimmed, has_trimmed, rfl⟩ :=
    has_rest.of_append_plain (no_blank trail_blank (by decide))
  refine ⟨trimmed, has_trimmed, ?_, ?_⟩
  · simp [List.count_eq_zero.mpr (no_blank lead_blank (by decide : isBlank '(' = false)),
      List.count_eq_zero.mpr (no_blank trail_blank (by decide : isBlank '(' = false))]
  · simp [List.count_eq_zero.mpr (no_blank lead_blank (by decide : isBlank ')' = false)),
      List.count_eq_zero.mpr (no_blank trail_blank (by decide : isBlank ')' = false))]

end Trim

end SuiteMigration.Text
