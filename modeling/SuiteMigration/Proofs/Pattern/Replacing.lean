import SuiteMigration.Proofs.Pattern.Passing

/-!
# Replacing from the left

The matches of a text are replaced one behind another. A front in which none begins stays, and the
first match gives way to its replacement in front of what becomes of the rest.
-/
namespace SuiteMigration.Pattern

/-- A text with every match replaced, `previous` being the character in front of it. -/
def replaceFrom (pattern : Pattern) (replacement : Match → List Char) (previous : Option Char)
    (text : List Char) : List Char :=
  let found := pattern.findAllFrom previous text
  match found.getLast? with
  | none => text
  | some last => (found.flatMap fun one => one.before ++ replacement one) ++ last.after

section Replace

variable {pattern : Pattern} {replacement : Match → List Char} {previous : Option Char}
  {front taken rest text : List Char} {expected : List Char → Prop}

theorem replaceAll_eq_replaceFrom :
    pattern.replaceAll replacement text = pattern.replaceFrom replacement none text :=
  rfl

theorem replaceFrom_none (not_found : pattern.findFrom? previous text = none) :
    pattern.replaceFrom replacement previous text = text := by
  rw [replaceFrom, findAllFrom_none not_found]
  rfl

theorem replaceFrom_some (takes : pattern.takesText = true) {found : Match}
    (found_eq : pattern.findFrom? previous text = some found) :
    pattern.replaceFrom replacement previous text
      = found.before ++ (replacement found
        ++ pattern.replaceFrom replacement found.lastChar? found.after) := by
  rw [replaceFrom, replaceFrom, findAllFrom_some takes found_eq]
  cases later_eq : pattern.findAllFrom found.lastChar? found.after with
  | nil => simp
  | cons next later => simp [List.getLast?_cons]

/-- What a match leaves on its two sides is part of the text. -/
theorem notMem_sides {c : Char} {found : Match} (absent : c ∉ text)
    (found_eq : pattern.findFrom? previous text = some found) :
    c ∉ found.before ∧ c ∉ found.after := by
  rw [← findFrom?_append found_eq, List.mem_append, List.mem_append, not_or, not_or] at absent
  exact ⟨absent.1.1, absent.2⟩

/-- Replacements bring in no other characters than their own. -/
theorem notMem_replaceFrom (takes : pattern.takesText = true) {c : Char}
    (kept : ∀ {previous : Option Char} {text : List Char} {found : Match}, c ∉ text →
      pattern.findFrom? previous text = some found → c ∉ replacement found)
    (absent : c ∉ text) : c ∉ pattern.replaceFrom replacement previous text := by
  -- The induction is on the length, since what is left behind a match is shorter.
  induction length_eq : text.length using Nat.strongRecOn generalizing text previous with
  | ind length ih =>
    cases found_eq : pattern.findFrom? previous text with
    | none => rwa [replaceFrom_none found_eq]
    | some found =>
      obtain ⟨not_before, not_after⟩ := notMem_sides absent found_eq
      have shorter := length_after_lt takes found_eq
      have later : c ∉ pattern.replaceFrom replacement found.lastChar? found.after :=
        ih found.after.length (by omega) not_after rfl
      rw [replaceFrom_some takes found_eq, List.mem_append, List.mem_append, not_or, not_or]
      exact ⟨not_before, kept absent found_eq, later⟩

/-- A match takes text, so its last character does not depend on what stands in front of it. -/
theorem lastChar?_of_text {found : Match} (nonempty : found.text ≠ []) :
    found.lastChar? = found.text.getLast? := by
  rw [Match.lastChar?, List.getLast?_eq_some_getLast nonempty]
  rfl

/-- A front in which no match begins stays as it is. -/
theorem Passes.replaceFrom_append (passes : pattern.Passes front expected)
    (as_expected : expected rest) (takes : pattern.takesText = true)
    (same : ∀ (found : Match) (before : List Char),
      replacement { found with before } = replacement found) :
    pattern.replaceFrom replacement previous (front ++ rest)
      = front ++ pattern.replaceFrom replacement (front.getLast?.or previous) rest := by
  have found_eq := passes previous rest as_expected
  cases rest_eq : pattern.findFrom? (front.getLast?.or previous) rest with
  | none =>
    rw [rest_eq] at found_eq
    rw [replaceFrom_none found_eq, replaceFrom_none rest_eq]
  | some found =>
    rw [rest_eq, Option.map_some] at found_eq
    have nonempty := findFrom?_text_ne_nil takes rest_eq
    have last_eq : Match.lastChar? { found with before := front ++ found.before }
        = found.lastChar? := by
      rw [lastChar?_of_text nonempty]
      exact lastChar?_of_text nonempty
    rw [replaceFrom_some takes found_eq, replaceFrom_some takes rest_eq, same, last_eq,
      List.append_assoc]

/-- A match at the start of a text gives way to its replacement. -/
theorem replaceFrom_of_takes (takes : pattern.takesText = true)
    {groups : List (String × List Char)} (at_start : pattern.Takes (taken ++ rest) rest [] groups)
    (previous : Option Char) :
    ∃ last, pattern.replaceFrom replacement previous (taken ++ rest)
      = replacement ⟨[], taken, rest, groups⟩ ++ pattern.replaceFrom replacement last rest :=
  ⟨_, replaceFrom_some takes (findFrom?_of_takes rfl at_start previous)⟩

end Replace

end SuiteMigration.Pattern
