import Mathlib.Data.List.Basic
import SuiteMigration.Locator.Expression
import SuiteMigration.Proofs.Pattern.Occurrence
import SuiteMigration.Proofs.Text.PlainName

/-!
# String literals

The body of a string literal is what its pattern takes between the quotes. Inside a body every quote
stands behind a backslash, so the first quote without one closes the literal.
-/
namespace SuiteMigration.Locator

open Pattern Text

/-- The body of a string literal on one line. -/
inductive LiteralBody : List Char → Prop where
  | empty : LiteralBody []
  | plain {c : Char} {rest : List Char} (no_quote : c ≠ '"') (no_backslash : c ≠ '\\')
      (no_feed : c ≠ '\n') (tail : LiteralBody rest) : LiteralBody (c :: rest)
  | escape {c : Char} {rest : List Char} (no_feed : c ≠ '\n') (tail : LiteralBody rest) :
      LiteralBody ('\\' :: c :: rest)

section LiteralBody

variable {body : List Char}

theorem LiteralBody.of_plain
    (plain : ∀ c ∈ body, c ≠ '"' ∧ c ≠ '\\' ∧ c ≠ '\n') : LiteralBody body := by
  induction body with
  | nil => exact .empty
  | cons c body ih =>
    obtain ⟨⟨no_quote, no_backslash, no_feed⟩, others⟩ := List.forall_mem_cons.mp plain
    exact .plain no_quote no_backslash no_feed (ih others)

theorem LiteralBody.no_feed (literal : LiteralBody body) : ∀ c ∈ body, c ≠ '\n' := by
  induction literal with
  | empty => simp
  | plain _ _ no_feed _ ih => exact List.forall_mem_cons.mpr ⟨no_feed, ih⟩
  | escape no_feed _ ih =>
    exact List.forall_mem_cons.mpr ⟨by decide, List.forall_mem_cons.mpr ⟨no_feed, ih⟩⟩

/-- Every quote in a body is escaped. -/
theorem LiteralBody.getLast?_of_quote (literal : LiteralBody body) {before after : List Char}
    (split_eq : body = before ++ '"' :: after) : before.getLast? = some '\\' := by
  induction literal generalizing before with
  | empty => simp at split_eq
  | @plain c rest no_quote _ _ _ ih =>
    cases before with
    | nil =>
      obtain ⟨rfl, -⟩ := List.cons.inj split_eq
      exact absurd rfl no_quote
    | cons first others =>
      have last_eq := ih (List.cons.inj split_eq).2
      rw [List.getLast?_cons, last_eq]
      rfl
  | @escape c rest _ _ ih =>
    -- An escape is two characters, so the split falls before, inside or behind it.
    match before with
    | [] => cases (List.cons.inj split_eq).1
    | [first] =>
      obtain ⟨rfl, -⟩ := List.cons.inj split_eq
      rfl
    | first :: second :: others =>
      have last_eq := ih (List.cons.inj (List.cons.inj split_eq).2).2
      rw [List.getLast?_cons, List.getLast?_cons, last_eq]
      rfl

private theorem fails_stringChar_quote (rest : List Char) : stringChar.Fails ('"' :: rest) :=
  (fails_one (by simp)).either (fails_one (by simp)).seq

private theorem takes_stringChar_escape {c : Char} (no_feed : c ≠ '\n') (rest : List Char)
    (groups : List (String × List Char)) :
    stringChar.Takes ('\\' :: c :: rest) rest groups groups :=
  Takes.either_right (fails_one (by simp)) ((takes_mark '\\').seq (takes_lineChar no_feed))

end LiteralBody

section StringChars

variable {body other rest more : List Char}

theorem accepts_stringChar {part : List Char} : stringChar.Accepts part ↔
    (∃ c, c ≠ '"' ∧ c ≠ '\\' ∧ part = [c]) ∨ ∃ c, c ≠ '\n' ∧ part = ['\\', c] := by
  constructor
  · rintro (⟨c, plain, rfl⟩ | ⟨_, _, rfl, is_mark, c, no_feed, rfl⟩)
    · simp only [Bool.and_eq_true, bne_iff_ne] at plain
      exact .inl ⟨c, plain.1, plain.2, rfl⟩
    · rw [accepts_mark.mp is_mark]
      exact .inr ⟨c, bne_iff_ne.mp no_feed, rfl⟩
  · rintro (⟨c, no_quote, no_backslash, rfl⟩ | ⟨c, no_feed, rfl⟩)
    · exact .inl ⟨c, by simp [no_quote, no_backslash], rfl⟩
    · exact .inr ⟨['\\'], [c], rfl, accepts_mark.mpr rfl, c, bne_iff_ne.mpr no_feed, rfl⟩

theorem accepts_stringChars (literal : LiteralBody body) :
    (Pattern.many true stringChar).Accepts body := by
  induction literal with
  | empty => exact ⟨[], rfl, by simp⟩
  | @plain c rest no_quote no_backslash _ _ ih =>
    obtain ⟨parts, rfl, accepted⟩ := ih
    have accepted_c := accepts_stringChar.mpr (.inl ⟨c, no_quote, no_backslash, rfl⟩)
    exact ⟨[c] :: parts, rfl, List.forall_mem_cons.mpr ⟨accepted_c, accepted⟩⟩
  | @escape c rest no_feed _ ih =>
    obtain ⟨parts, rfl, accepted⟩ := ih
    have accepted_escape := accepts_stringChar.mpr (.inr ⟨c, no_feed, rfl⟩)
    exact ⟨['\\', c] :: parts, rfl, List.forall_mem_cons.mpr ⟨accepted_escape, accepted⟩⟩

/-- String characters are taken up to the quote behind them. -/
theorem repeats_stringChars (accepted : (Pattern.many true stringChar).Accepts other)
    (rest : List Char) (groups : List (String × List Char)) :
    Repeats stringChar groups (other ++ '"' :: rest) ('"' :: rest) := by
  obtain ⟨parts, rfl, accepted⟩ := accepted
  induction parts with
  | nil => exact .stop (fails_stringChar_quote rest)
  | cons part parts ih =>
    obtain ⟨first, others⟩ := List.forall_mem_cons.mp accepted
    have later := ih others
    rw [List.flatten_cons, List.append_assoc]
    rcases accepts_stringChar.mp first with ⟨c, no_quote, no_backslash, rfl⟩ | ⟨c, no_feed, rfl⟩
    · exact .turn (Nat.lt_succ_self _) (takes_one (by simp [no_quote, no_backslash])).either_left
        later
    · exact .turn (Nat.lt_succ_of_lt (Nat.lt_succ_self _)) (takes_stringChar_escape no_feed _ groups)
        later

theorem takes_stringLiteral (accepted : (Pattern.many true stringChar).Accepts other)
    (rest : List Char) (groups : List (String × List Char)) :
    stringLiteral.Takes ('"' :: (other ++ '"' :: rest)) rest groups (("value", other) :: groups) :=
  (takes_mark '"').seq <| ((repeats_stringChars accepted rest groups).takes.group "value").seq <|
    (takes_mark '"').seq takes_empty

theorem LiteralBody.takes_stringLiteral (literal : LiteralBody body) (rest : List Char)
    (groups : List (String × List Char)) :
    stringLiteral.Takes ('"' :: (body ++ '"' :: rest)) rest groups (("value", body) :: groups) :=
  Locator.takes_stringLiteral (accepts_stringChars literal) rest groups

theorem LiteralBody.takes_bareString (literal : LiteralBody body) (nonempty : body ≠ [])
    (rest : List Char) (groups : List (String × List Char)) :
    bareString.Takes ('"' :: (body ++ '"' :: rest)) rest groups (("value", body) :: groups) := by
  have body_takes :
      (oneOrMore stringChar).Takes (body ++ '"' :: rest) ('"' :: rest) groups groups := by
    cases literal with
    | empty => exact absurd rfl nonempty
    | plain no_quote no_backslash _ tail =>
      exact (takes_one (by simp [no_quote, no_backslash])).either_left.seq
        (repeats_stringChars (accepts_stringChars tail) rest groups).takes
    | escape no_feed tail =>
      exact (takes_stringChar_escape no_feed _ groups).seq
        (repeats_stringChars (accepts_stringChars tail) rest groups).takes
  exact (takes_mark '"').seq <| (body_takes.group "value").seq <| (takes_mark '"').seq takes_empty

/-- What string characters begin with: nothing, a plain character, or an escape. -/
theorem stringChars_cases (accepted : (Pattern.many true stringChar).Accepts other) :
    other = [] ∨ (∃ c tail, c ≠ '"' ∧ c ≠ '\\' ∧ other = c :: tail ∧
      (Pattern.many true stringChar).Accepts tail) ∨
    ∃ c tail, other = '\\' :: c :: tail ∧ (Pattern.many true stringChar).Accepts tail := by
  obtain ⟨parts, rfl, accepted⟩ := accepted
  cases parts with
  | nil => exact .inl rfl
  | cons part parts =>
    obtain ⟨first, others⟩ := List.forall_mem_cons.mp accepted
    rcases accepts_stringChar.mp first with ⟨c, no_quote, no_backslash, rfl⟩ | ⟨c, -, rfl⟩
    · exact .inr (.inl ⟨c, _, no_quote, no_backslash, rfl, parts, rfl, others⟩)
    · exact .inr (.inr ⟨c, _, rfl, parts, rfl, others⟩)

/-- The quote behind a body is the first one that can close a literal there. -/
theorem LiteralBody.eq_of_closed (literal : LiteralBody body)
    (accepted : (Pattern.many true stringChar).Accepts other)
    (same : body ++ '"' :: rest = other ++ '"' :: more) : other = body ∧ more = rest := by
  induction literal generalizing other with
  | empty =>
    rcases stringChars_cases accepted with rfl | ⟨c, tail, no_quote, -, rfl, -⟩ | ⟨c, tail, rfl, -⟩
    · exact ⟨rfl, (List.cons.inj same).2.symm⟩
    · exact absurd (List.cons.inj same).1.symm no_quote
    · cases (List.cons.inj same).1
  | plain no_quote no_backslash _ _ ih =>
    rcases stringChars_cases accepted with rfl | ⟨c, tail, -, -, rfl, behind⟩ | ⟨c, tail, rfl, -⟩
    · exact absurd (List.cons.inj same).1 no_quote
    · obtain ⟨rfl, same_tail⟩ := List.cons.inj same
      obtain ⟨rfl, rest_eq⟩ := ih behind same_tail
      exact ⟨rfl, rest_eq⟩
    · exact absurd (List.cons.inj same).1 no_backslash
  | escape _ _ ih =>
    rcases stringChars_cases accepted with
      rfl | ⟨c, tail, -, no_backslash, rfl, -⟩ | ⟨c, tail, rfl, behind⟩
    · cases (List.cons.inj same).1
    · exact absurd (List.cons.inj same).1.symm no_backslash
    · obtain ⟨rfl, same_tail⟩ := List.cons.inj (List.cons.inj same).2
      obtain ⟨rfl, rest_eq⟩ := ih behind same_tail
      exact ⟨rfl, rest_eq⟩

end StringChars

section BareString

variable {body front expression taken : List Char}

theorem accepts_bareString (accepted : bareString.Accepts taken) :
    ∃ inner, inner ≠ [] ∧ taken = '"' :: (inner ++ ['"']) := by
  obtain ⟨_, _, rfl, is_open, _, _, rfl, ⟨first, others, rfl, is_char, -⟩, _, _, rfl, is_close, rfl⟩ :=
    accepted
  rw [accepts_mark.mp is_open, accepts_mark.mp is_close]
  have first_ne : first ≠ [] := by
    rcases accepts_stringChar.mp is_char with ⟨c, -, -, rfl⟩ | ⟨c, -, rfl⟩ <;> simp
  exact ⟨first ++ others, by simp [first_ne], rfl⟩

/-- The first quote of a text opens the literal that is found, unless the literal is empty. -/
theorem find?_bareString (literal : LiteralBody body) (nonempty : body ≠ [])
    (no_quote : '"' ∉ front) (back : List Char) :
    (bareString.find? (front ++ '"' :: (body ++ '"' :: back))).map (·.group "value")
      = some body := by
  have passed : ∀ left, left <:+ front → left ≠ [] →
      bareString.Fails (left ++ '"' :: (body ++ '"' :: back)) := by
    intro left suffix left_ne
    refine (fails_one ?_).seq
    obtain ⟨c, left, rfl⟩ := List.exists_cons_of_ne_nil left_ne
    rintro _ ⟨⟩
    rw [beq_eq_false_iff_ne]
    rintro rfl
    exact no_quote (suffix.subset List.mem_cons_self)
  have takes := literal.takes_bareString nonempty back []
  have text_eq : '"' :: (body ++ '"' :: back) = '"' :: (body ++ ['"']) ++ back := by simp
  have found := findFrom?_of_takes text_eq takes (front.getLast?.or none)
  rw [find?, findFrom?_front passed, found]
  rfl

/-- A literal that is not empty is found in any text that holds it. -/
theorem occursIn_bareString (literal : LiteralBody body) (nonempty : body ≠ [])
    (front back : List Char) :
    bareString.occursIn (front ++ ('"' :: (body ++ '"' :: back))) = true := by
  have accepted : bareString.Accepts ('"' :: (body ++ ['"'])) := by
    obtain ⟨parts, rfl, accepted⟩ := accepts_stringChars literal
    cases parts with
    | nil => exact absurd rfl nonempty
    | cons part parts =>
      have split := List.forall_mem_cons.mp accepted
      exact ⟨['"'], _, rfl, accepts_mark.mpr rfl, _, ['"'], rfl,
        ⟨part, parts.flatten, rfl, split.1, parts, rfl, split.2⟩, ['"'], [], rfl,
        accepts_mark.mpr rfl, rfl⟩
  have text_eq : front ++ ('"' :: (body ++ '"' :: back))
      = front ++ ('"' :: (body ++ ['"']) ++ back) := by simp
  exact occursIn_of_accepts (by rfl) accepted text_eq

theorem isSome_resolve? (found : bareString.occursIn expression = true) :
    (resolve? expression).isSome = true := by
  unfold resolve?
  cases factories.findSome? _ with
  | some lookup => rfl
  | none => simpa [occursIn] using found

end BareString

end SuiteMigration.Locator
