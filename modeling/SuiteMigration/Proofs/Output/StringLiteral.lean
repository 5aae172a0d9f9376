import SuiteMigration.Json.Lexing
import SuiteMigration.Proofs.Output.Literal

/-!
# Literals in single quotes

How a module reads a literal in single quotes at the head of a text, with every escape of the
language: by letter, by number, by code point, and in front of a line end. The value is a list of
UTF-16 units. What is written in single quotes is read back, and its last quote is the one that ends
the literal, whatever follows.
-/
namespace SuiteMigration.Output

/-- The UTF-16 units of a code point. -/
def units (code : Nat) : List Nat :=
  if code < 0x10000 then [code]
  else [0xd800 + (code - 0x10000) / 0x400, 0xdc00 + (code - 0x10000) % 0x400]

def utf16 (text : List Char) : List Nat :=
  text.flatMap fun c => units c.toNat

/-- The number that hexadecimal digits spell. -/
def hexNumber? (digits : List Char) : Option Nat :=
  digits.foldlM (fun number c => (Json.hexValue? c).map (16 * number + ·)) 0

/-- The unit with a fixed count of digits, and the text behind it. -/
def readUnit? (count : Nat) (text : List Char) : Option (List Nat × List Char) :=
  if count ≤ text.length then (hexNumber? (text.take count)).map ([·], text.drop count) else none

/-- The code point in front of a closing brace, and the text behind that. -/
def readCodePoint? (text : List Char) : Option (List Nat × List Char) :=
  match text.dropWhile (· ≠ '\x7d'), hexNumber? (text.takeWhile (· ≠ '\x7d')) with
  | _ :: behind, some code =>
    if text.head? ≠ some '\x7d' ∧ code ≤ 0x10ffff then some (units code, behind) else none
  | _, _ => none

/-- What an escape stands for that does not stand for a character by letter, and the text behind
it. In front of a line end the backslash takes that away. -/
def readCoded? (c : Char) (rest : List Char) : Option (List Nat × List Char) :=
  if c = 'x' then readUnit? 2 rest
  else if c = 'u' then
    if rest.head? = some '\x7b' then readCodePoint? rest.tail else readUnit? 4 rest
  else if c = '\r' ∧ rest.head? = some '\n' then some ([], rest.tail)
  else if c ∈ ['\n', '\r', '\u2028', '\u2029'] then some ([], rest)
  -- A zero is no digit of a number here, and other digits escape nothing.
  else if c = '0' ∧ rest.head?.all (!·.isDigit) then some ([0], rest)
  else none

/-- What stands behind a backslash: the units it means, and the text behind them. -/
def readEscape? : List Char → Option (List Nat × List Char)
  | [] => none
  | c :: rest =>
    match escapeValue? c with
    | some value => some (units value.toNat, rest)
    | none => readCoded? c rest

section Shorter

variable {text rest behind : List Char} {value : List Nat} {c : Char} {count : Nat}

private theorem length_readUnit?_le (read_eq : readUnit? count text = some (value, rest)) :
    rest.length ≤ text.length := by
  unfold readUnit? at read_eq
  split at read_eq
  · obtain ⟨unit, -, same⟩ := Option.map_eq_some_iff.mp read_eq
    rw [← (Prod.mk.inj same).2, List.length_drop]
    omega
  · cases read_eq

private theorem length_readCodePoint?_le (read_eq : readCodePoint? text = some (value, rest)) :
    rest.length ≤ text.length := by
  have dropped := (List.dropWhile_suffix (· ≠ '\x7d') (l := text)).length_le
  unfold readCodePoint? at read_eq
  split at read_eq
  · next brace behind code behind_eq number_eq =>
    split at read_eq
    · obtain ⟨-, rfl⟩ := Prod.mk.inj (Option.some.inj read_eq)
      rw [behind_eq, List.length_cons] at dropped
      omega
    · cases read_eq
  · cases read_eq

private theorem length_readCoded?_le (read_eq : readCoded? c rest = some (value, behind)) :
    behind.length ≤ rest.length := by
  unfold readCoded? at read_eq
  split_ifs at read_eq
  · exact length_readUnit?_le read_eq
  · have shorter := length_readCodePoint?_le read_eq
    rw [List.length_tail] at shorter
    omega
  · exact length_readUnit?_le read_eq
  all_goals
    obtain ⟨-, rfl⟩ := Prod.mk.inj (Option.some.inj read_eq)
    simp

private theorem length_readEscape?_le (read_eq : readEscape? text = some (value, rest)) :
    rest.length ≤ text.length := by
  cases text with
  | nil => cases read_eq
  | cons c text =>
    simp only [readEscape?] at read_eq
    split at read_eq
    · obtain ⟨-, rfl⟩ := Prod.mk.inj (Option.some.inj read_eq)
      simp
    · exact Nat.le_succ_of_le (length_readCoded?_le read_eq)

end Shorter

/-- Puts units in front of what was read. -/
def precede (value : List Nat) (read : List Nat × List Char) : List Nat × List Char :=
  (value ++ read.1, read.2)

/-- The units up to the closing quote, and the text behind that. -/
def readContents? : List Char → Option (List Nat × List Char)
  | [] => none
  | c :: rest =>
    if c = '\'' then some ([], rest)
    else if c = '\\' then
      match read_eq : readEscape? rest with
      | some (value, behind) =>
        have := length_readEscape?_le read_eq
        (readContents? behind).map (precede value)
      | none => none
    else if c = '\n' ∨ c = '\r' then none
    else (readContents? rest).map (precede (units c.toNat))
termination_by text => text.length

/-- The value of the literal in single quotes at the head of a text, and the text behind it. -/
def readSingleQuoted? : List Char → Option (List Nat × List Char)
  | [] => none
  | c :: rest => if c = '\'' then readContents? rest else none

/-! ## Units -/

section Units

variable {c d : Char} {left right : List Nat}

/-- A character is known by its units, whatever follows them: no unit of a pair is a character. -/
theorem units_append_inj (same : units c.toNat ++ left = units d.toNat ++ right) :
    c = d ∧ left = right := by
  have range : ∀ c : Char, c.toNat < 0xd800 ∨ 0xdfff < c.toNat ∧ c.toNat < 0x110000 :=
    fun c => c.valid
  have c_range := range c
  have d_range := range d
  unfold units at same
  -- Of the mixed cases there is none: the first unit of a pair is in a range without characters.
  split_ifs at same <;> simp only [List.cons_append, List.nil_append, List.cons.injEq] at same
  · exact ⟨Char.toNat_inj.mp same.1, same.2⟩
  · omega
  · omega
  · exact ⟨Char.toNat_inj.mp (by omega), same.2.2⟩

private theorem units_ne_nil (code : Nat) : units code ≠ [] := by
  unfold units
  split_ifs <;> simp

theorem utf16_cons (c : Char) (text : List Char) : utf16 (c :: text) = units c.toNat ++ utf16 text :=
  List.flatMap_cons

private theorem utf16_injective : Function.Injective utf16 := by
  intro left right same
  induction left generalizing right with
  | nil =>
    cases right with
    | nil => rfl
    | cons d right => exact absurd same.symm (by simp [utf16, units_ne_nil])
  | cons c left ih =>
    cases right with
    | nil => exact absurd same (by simp [utf16, units_ne_nil])
    | cons d right =>
      rw [utf16_cons, utf16_cons] at same
      obtain ⟨rfl, rest_same⟩ := units_append_inj same
      rw [ih rest_same]

end Units

/-! ## Reading -/

/-- No line feed and no carriage return. -/
def NoLineEnd (text : List Char) : Prop :=
  ∀ c ∈ text, c ≠ '\n' ∧ c ≠ '\r'

instance (text : List Char) : Decidable (NoLineEnd text) :=
  inferInstanceAs (Decidable (∀ c ∈ text, _))

section Reading

variable {text rest behind : List Char} {c value : Char}

private theorem readContents?_quote (rest : List Char) :
    readContents? ('\'' :: rest) = some ([], rest) := by
  rw [readContents?, if_pos rfl]

/-- A character that is escaped by letter is read as what it stands for. -/
theorem readContents?_escape (value_eq : escapeValue? c = some value) (rest : List Char) :
    readContents? ('\\' :: c :: rest) = (readContents? rest).map (precede (units value.toNat)) := by
  have escape_eq : readEscape? (c :: rest) = some (units value.toNat, rest) := by
    rw [readEscape?, value_eq]
  rw [readContents?, if_neg (by decide), if_pos rfl]
  split
  · next read_eq =>
    obtain ⟨rfl, rfl⟩ := Prod.mk.inj (Option.some.inj (escape_eq.symm.trans read_eq))
    rfl
  · next none_eq =>
    rw [escape_eq] at none_eq
    cases none_eq

private theorem readContents?_plain (no_backslash : c ≠ '\\') (no_quote : c ≠ '\'')
    (rest : List Char) :
    readContents? (c :: rest)
      = if c = '\n' ∨ c = '\r' then none
        else (readContents? rest).map (precede (units c.toNat)) := by
  rw [readContents?, if_neg no_quote, if_neg no_backslash]

theorem noLineEnd_cons : NoLineEnd (c :: text) ↔ ¬(c = '\n' ∨ c = '\r') ∧ NoLineEnd text := by
  rw [NoLineEnd, List.forall_mem_cons, not_or]
  rfl

/-- The escaped text is read back up to the quote behind it, unless a line end stops the reader. -/
theorem readContents?_escaped (text behind : List Char) :
    readContents? (text.flatMap escapeQuoted ++ '\'' :: behind)
      = if NoLineEnd text then some (utf16 text, behind) else none := by
  induction text with
  | nil =>
    have no_line_end : NoLineEnd [] := by simp [NoLineEnd]
    rw [if_pos no_line_end]
    exact readContents?_quote behind
  | cons c text ih =>
    -- A value in front does not change where the reader stops.
    have precede_eq : ∀ value, (if NoLineEnd text then some (utf16 text, behind) else none).map
        (precede value) = if NoLineEnd text then some (value ++ utf16 text, behind) else none := by
      intro value
      split <;> rfl
    rw [escapeQuoted_cons]
    split
    · next marked =>
      obtain ⟨escape_eq, no_end⟩ : escapeValue? c = some c ∧ ¬(c = '\n' ∨ c = '\r') := by
        rcases marked with rfl | rfl <;> decide
      rw [List.cons_append, List.cons_append, readContents?_escape escape_eq, ih, precede_eq,
        utf16_cons]
      simp only [noLineEnd_cons, no_end, not_false_eq_true, true_and]
    · next plain =>
      rw [not_or] at plain
      rw [List.cons_append, readContents?_plain plain.1 plain.2, ih, precede_eq, utf16_cons]
      by_cases is_end : c = '\n' ∨ c = '\r'
      · simp only [noLineEnd_cons, is_end, not_true_eq_false, false_and, ↓reduceIte]
      · simp only [noLineEnd_cons, is_end, not_false_eq_true, true_and, ↓reduceIte]

private theorem readSingleQuoted?_singleQuoted (value : String) (behind : List Char) :
    readSingleQuoted? ((singleQuoted value).toList ++ behind)
      = if NoLineEnd value.toList then some (utf16 value.toList, behind) else none := by
  rw [toList_singleQuoted, List.cons_append, List.append_assoc, readSingleQuoted?, if_pos rfl]
  exact readContents?_escaped value.toList behind

private theorem readContents?_of_contents? {values : List Char}
    (read : contents? '\'' text = some values)
    (behind : List Char) : readContents? (text ++ behind) = some (utf16 values, behind) := by
  fun_induction contents? '\'' text generalizing values with
  | case1 | case2 | case5 => cases read
  | case3 c rest ih =>
    obtain ⟨value, value_eq, read⟩ := Option.bind_eq_some_iff.mp read
    obtain ⟨others, others_eq, read⟩ := Option.bind_eq_some_iff.mp read
    obtain rfl := Option.some.inj read
    rw [List.cons_append, List.cons_append, readContents?_escape value_eq, ih others_eq, utf16_cons]
    rfl
  | case4 =>
    obtain rfl := Option.some.inj read
    exact readContents?_quote behind
  | case6 c rest not_last not_escape no_quote ih =>
    -- A backslash would be the last character or begin an escape, and both are other cases.
    have no_backslash : c ≠ '\\' := by
      rintro rfl
      cases rest with
      | nil => exact not_last rfl rfl
      | cons d rest => exact not_escape d rest rfl rfl
    obtain ⟨value, value_eq, read⟩ := Option.bind_eq_some_iff.mp read
    obtain ⟨others, others_eq, read⟩ := Option.bind_eq_some_iff.mp read
    obtain rfl := Option.some.inj read
    obtain ⟨no_end, rfl⟩ : ¬(c = '\n' ∨ c = '\r') ∧ [c] = value := by
      simpa [plainValue?, backquote] using value_eq
    rw [List.cons_append, readContents?_plain no_backslash no_quote, if_neg no_end, ih others_eq]
    exact congrArg some (Prod.ext (utf16_cons c others).symm rfl)

/-- What the reader of whole literals gives is the value here: it refuses some escapes, but it reads
none differently. -/
theorem readSingleQuoted?_of_literalValue? {values : List Char}
    (read : literalValue? ('\'' :: text) = some values) (behind : List Char) :
    readSingleQuoted? ('\'' :: text ++ behind) = some (utf16 values, behind) :=
  readContents?_of_contents? read behind

end Reading

/-! ## Two passes -/

/-- The text with every occurrence of a character replaced. -/
def replaceEach (mark : Char) (spelled text : List Char) : List Char :=
  text.flatMap fun c => if c = mark then spelled else [c]

/-- Escaping character by character is to double the backslashes first and then to escape the
quotes: the second pass leaves the backslashes of the first as they are. -/
theorem escaped_eq_two_passes (text : List Char) :
    text.flatMap escapeQuoted
      = replaceEach '\'' ['\\', '\''] (replaceEach '\\' ['\\', '\\'] text) := by
  simp only [replaceEach, List.flatMap_assoc]
  refine List.flatMap_congr fun c _ => ?_
  unfold escapeQuoted
  split
  · rfl
  · simp

/-! ## Written and read -/

/-- A value without line ends is read back from its literal in single quotes, which ends at its last
character whatever follows. So no two such values have the same literal. -/
theorem singleQuoted_denotes {value : String} (no_line_end : NoLineEnd value.toList) :
    (∀ behind, readSingleQuoted? ((singleQuoted value).toList ++ behind)
      = some (utf16 value.toList, behind)) ∧
    ∀ other : String, NoLineEnd other.toList → singleQuoted other = singleQuoted value →
      other = value := by
  have reads : ∀ {value : String}, NoLineEnd value.toList → ∀ behind,
      readSingleQuoted? ((singleQuoted value).toList ++ behind)
        = some (utf16 value.toList, behind) := by
    intro value no_line_end behind
    rw [readSingleQuoted?_singleQuoted, if_pos no_line_end]
  refine ⟨reads no_line_end, fun other other_no_line_end same => ?_⟩
  have read_same := (reads other_no_line_end []).symm
  rw [same, reads no_line_end, Option.some.injEq, Prod.mk.injEq] at read_same
  exact String.toList_inj.mp (utf16_injective read_same.1)

/-- The value `it's\`, a backslash last, in front of the end of a statement. -/
theorem singleQuoted_denotes_backslash :
    NoLineEnd "it's\\".toList ∧
    readSingleQuoted? "'it\\'s\\\\';".toList = some (utf16 "it's\\".toList, [';']) := by
  have no_line_end : NoLineEnd "it's\\".toList := by simp [NoLineEnd]
  have spelled : (singleQuoted "it's\\").toList ++ [';'] = "'it\\'s\\\\';".toList := by
    rw [toList_singleQuoted]
    decide
  have read := (singleQuoted_denotes no_line_end).1 [';']
  rw [spelled] at read
  exact ⟨no_line_end, read⟩

end SuiteMigration.Output
