import SuiteMigration.Output.Layout

/-!
# Names of instances

An instance is named like its class with the first character in lower case. The image of a character
is a character, `İ` apart, and above ASCII only `İ` and the Kelvin sign have an image that begins
with an ASCII letter.
-/
namespace SuiteMigration.Text

/-- A run all images of which are characters above ASCII, or that of the Kelvin sign alone. -/
def CaseRun.staysAbove (run : CaseRun) : Bool :=
  (run.first == 0x212a && run.last == 0x212a && run.shift == -0x20bf) ||
    (0x80 ≤ run.first + run.shift
      && (run.last + run.shift < 0xd800 ||
        (0xdfff < run.first + run.shift && run.last + run.shift < 0x110000)))

private theorem staysAbove_of_mem {run : CaseRun} (member : run ∈ caseRuns) :
    run.staysAbove = true := by
  have all_stay : caseRuns.all CaseRun.staysAbove = true := by decide +kernel
  exact Array.all_eq_true_iff_forall_mem.mp all_stay run member

section Lower

variable {c d : Char}

private theorem lower_of_lt (ascii : c.toNat < 0x80) : lower c = [c.toLower] := by
  rw [lower, if_pos ascii]

theorem lower_cases (c : Char) : (c = 'İ' ∧ lower c = ['i', '\u0307']) ∨ ∃ d, lower c = [d] := by
  unfold lower
  split
  · exact .inr ⟨_, rfl⟩
  · split
    · next dotted => exact .inl ⟨dotted, rfl⟩
    · split
      · exact .inr ⟨_, rfl⟩
      · exact .inr ⟨_, rfl⟩

private theorem le_toNat_ofNat {code : Nat} (valid : code.isValidChar) (above : 0x80 ≤ code) :
    0x80 ≤ (Char.ofNat code).toNat := by
  have code_eq : (Char.ofNat code).toNat = code := by
    unfold Char.ofNat
    rw [dif_pos valid]
    rfl
  rwa [code_eq]

theorem CaseRun.image_cases {run : CaseRun} (stays : run.staysAbove = true)
    (contained : run.contains c.toNat = true) :
    Char.ofNat (c.toNat + run.shift).toNat = 'k'
      ∨ 0x80 ≤ (Char.ofNat (c.toNat + run.shift).toNat).toNat := by
  simp only [CaseRun.staysAbove, CaseRun.contains, Bool.or_eq_true, Bool.and_eq_true,
    decide_eq_true_eq, beq_iff_eq] at stays contained
  rcases stays with ⟨⟨first_eq, last_eq⟩, shift_eq⟩ | ⟨above, valid_code⟩
  · have code_eq : (c.toNat + run.shift).toNat = 107 := by omega
    exact .inl (by rw [code_eq])
  · have valid : (c.toNat + run.shift).toNat.isValidChar := by
      unfold Nat.isValidChar
      omega
    exact .inr (le_toNat_ofNat valid (by omega))

/-- Above ASCII an image begins with an ASCII letter for two characters only. -/
theorem head_lower_of_le (above : 0x80 ≤ c.toNat) (head_eq : (lower c).head? = some d) :
    d = 'i' ∨ d = 'k' ∨ 0x80 ≤ d.toNat := by
  unfold lower at head_eq
  rw [if_neg (Nat.not_lt.mpr above)] at head_eq
  split at head_eq
  · exact .inl (Option.some.inj head_eq).symm
  · split at head_eq
    · next run found =>
      have member : run ∈ caseRuns := Array.mem_of_find?_eq_some found
      have contained := Array.find?_some found
      obtain rfl := Option.some.inj head_eq
      exact .inr (run.image_cases (staysAbove_of_mem member) contained)
    · exact .inr (.inr (Option.some.inj head_eq ▸ above))

/-- An ASCII letter apart from `i` and `k` is the image of ASCII letters only. -/
theorem toLower_of_head_lower (ascii : d.toNat < 0x80) (not_i : d ≠ 'i') (not_k : d ≠ 'k')
    (head_eq : (lower c).head? = some d) : c.toNat < 0x80 ∧ c.toLower = d := by
  rcases Nat.lt_or_ge c.toNat 0x80 with below | above
  · rw [lower_of_lt below] at head_eq
    exact ⟨below, Option.some.inj head_eq⟩
  · rcases head_lower_of_le above head_eq with is_i | is_k | high
    · exact absurd is_i not_i
    · exact absurd is_k not_k
    · omega

end Lower

end SuiteMigration.Text

namespace SuiteMigration.Output

open Text

/-- Two names with the same rest whose first characters are the same in lower case, where `İ` is an
`i` with a dot above. -/
inductive SameButCase : List Char → List Char → Prop where
  | initial {first other : Char} {rest : List Char} (lower_eq : lower first = lower other) :
      SameButCase (first :: rest) (other :: rest)
  | dotted {other : Char} {rest : List Char} (lower_eq : lower other = ['i']) :
      SameButCase ('İ' :: rest) (other :: '\u0307' :: rest)
  | undotted {first : Char} {rest : List Char} (lower_eq : lower first = ['i']) :
      SameButCase (first :: '\u0307' :: rest) ('İ' :: rest)

section LowerCamel

theorem toList_lowerCamel_nil {name : String} (name_eq : name.toList = []) :
    (lowerCamel name).toList = [] := by
  unfold lowerCamel
  rw [name_eq]
  rfl

theorem toList_lowerCamel_cons {name : String} {first : Char} {rest : List Char}
    (name_eq : name.toList = first :: rest) : (lowerCamel name).toList = lower first ++ rest := by
  unfold lowerCamel
  rw [name_eq]
  exact String.toList_ofList

private theorem lower_append_ne_nil (first : Char) (rest : List Char) :
    lower first ++ rest ≠ [] := by
  rcases lower_cases first with ⟨-, lower_eq⟩ | ⟨d, lower_eq⟩ <;> simp [lower_eq]

private theorem lower_append_inj {first other : Char} {rest more : List Char}
    (equal : lower first ++ rest = lower other ++ more) :
    SameButCase (first :: rest) (other :: more) := by
  rcases lower_cases first with ⟨rfl, first_eq⟩ | ⟨c, first_eq⟩
  · rcases lower_cases other with ⟨rfl, -⟩ | ⟨d, other_eq⟩
    · obtain rfl := List.append_cancel_left equal
      exact .initial rfl
    · rw [first_eq, other_eq] at equal
      obtain ⟨rfl, rfl⟩ := List.cons.inj equal
      exact .dotted other_eq
  · rcases lower_cases other with ⟨rfl, other_eq⟩ | ⟨d, other_eq⟩
    · rw [first_eq, other_eq] at equal
      obtain ⟨rfl, rfl⟩ := List.cons.inj equal
      exact .undotted first_eq
    · rw [first_eq, other_eq] at equal
      obtain ⟨rfl, rfl⟩ := List.cons.inj equal
      exact .initial (first_eq.trans other_eq.symm)

/-- Instances share a name only where their classes do, up to the case of the first character. -/
theorem lowerCamel_eq_iff (left right : String) :
    lowerCamel left = lowerCamel right ↔ left = right ∨ SameButCase left.toList right.toList := by
  constructor
  · -- No character is lost in lower case, so neither name is empty if the other is not.
    intro equal
    cases left_eq : left.toList with
    | nil =>
      cases right_eq : right.toList with
      | nil => exact .inl (String.toList_inj.mp (left_eq.trans right_eq.symm))
      | cons other more =>
        have lists_eq := congrArg String.toList equal
        rw [toList_lowerCamel_nil left_eq, toList_lowerCamel_cons right_eq] at lists_eq
        exact absurd lists_eq.symm (lower_append_ne_nil other more)
    | cons first rest =>
      have lists_eq := congrArg String.toList equal
      rw [toList_lowerCamel_cons left_eq] at lists_eq
      cases right_eq : right.toList with
      | nil =>
        rw [toList_lowerCamel_nil right_eq] at lists_eq
        exact absurd lists_eq (lower_append_ne_nil first rest)
      | cons other more =>
        rw [toList_lowerCamel_cons right_eq] at lists_eq
        exact .inr (lower_append_inj lists_eq)
  · rintro (rfl | same)
    · rfl
    · apply String.toList_inj.mp
      generalize left_eq : left.toList = lefts at same
      generalize right_eq : right.toList = rights at same
      -- The one character that becomes two in lower case.
      have dot_eq : lower 'İ' = ['i', '\u0307'] := rfl
      cases same with
      | initial lower_eq =>
        rw [toList_lowerCamel_cons left_eq, toList_lowerCamel_cons right_eq, lower_eq]
      | dotted lower_eq =>
        rw [toList_lowerCamel_cons left_eq, toList_lowerCamel_cons right_eq, lower_eq, dot_eq]
        rfl
      | undotted lower_eq =>
        rw [toList_lowerCamel_cons left_eq, toList_lowerCamel_cons right_eq, lower_eq, dot_eq]
        rfl

/-- A word that begins with an ASCII letter other than `i` and `k` is the name of the instances of
itself and its capitalised form. -/
theorem lowerCamel_eq_word {name : String} {small : Char} {rest : List Char}
    (ascii : small.toNat < 0x80) (not_i : small ≠ 'i') (not_k : small ≠ 'k')
    (equal : (lowerCamel name).toList = small :: rest) :
    ∃ first, name.toList = first :: rest ∧ first.toNat < 0x80 ∧ first.toLower = small := by
  cases name_eq : name.toList with
  | nil => cases (toList_lowerCamel_nil name_eq).symm.trans equal
  | cons first more =>
    rw [toList_lowerCamel_cons name_eq] at equal
    rcases lower_cases first with ⟨-, lower_eq⟩ | ⟨d, lower_eq⟩
    · rw [lower_eq] at equal
      exact absurd (List.cons.inj equal).1.symm not_i
    · rw [lower_eq] at equal
      obtain ⟨rfl, rfl⟩ := List.cons.inj equal
      exact ⟨first, rfl, toLower_of_head_lower ascii not_i not_k (by rw [lower_eq]; rfl)⟩

/-- No character but a line feed becomes one in lower case. -/
theorem feed_notMem_lower {c : Char} (no_feed : c ≠ '\n') : '\n' ∉ lower c := by
  rcases lower_cases c with ⟨-, lower_eq⟩ | ⟨d, lower_eq⟩
  · rw [lower_eq]
    decide
  · rw [lower_eq, List.mem_singleton]
    rintro rfl
    have head_eq : (lower c).head? = some '\n' := by rw [lower_eq, List.head?_singleton]
    obtain ⟨ascii, image⟩ := toLower_of_head_lower (by decide) (by decide) (by decide) head_eq
    have only_feed : ∀ code < 0x80, (Char.ofNat code).toLower = '\n' → Char.ofNat code = '\n' := by
      decide
    have is_feed := only_feed c.toNat ascii
    rw [Char.ofNat_toNat] at is_feed
    exact no_feed (is_feed image)

theorem feed_notMem_lowerCamel {name : String} (whole : '\n' ∉ name.toList) :
    '\n' ∉ (lowerCamel name).toList := by
  cases name_eq : name.toList with
  | nil =>
    rw [toList_lowerCamel_nil name_eq]
    exact List.not_mem_nil
  | cons first rest =>
    rw [name_eq, List.mem_cons, not_or] at whole
    rw [toList_lowerCamel_cons name_eq, List.mem_append, not_or]
    exact ⟨feed_notMem_lower (Ne.symm whole.1), whole.2⟩

end LowerCamel

end SuiteMigration.Output
