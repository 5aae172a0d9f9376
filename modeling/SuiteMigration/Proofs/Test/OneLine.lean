import SuiteMigration.Proofs.Pattern.Groups
import SuiteMigration.Proofs.Test.Emitting
import SuiteMigration.Proofs.Test.PropertyLookup
import SuiteMigration.Proofs.Text.Lines

/-!
# Statements on one line

Every statement of a script stands on one line, however many lines its source has. What a rule takes
over from the source is a stretch of one line, and the comment that quotes it puts its lines on one.
-/
namespace SuiteMigration.Test

open Pattern Text Output

/-- A text that can begin a line behind a margin. -/
def Opens (text : List Char) : Prop :=
  '\n' ∉ text ∧ text.head?.any (· != ' ') = true

/-- A text that can end a line. -/
def Closes (text : List Char) : Prop :=
  '\n' ∉ text ∧ text.getLast?.any (· != '\r') = true

/-- A text that is read back from behind its margin as it stands. -/
structure OneLine (text : List Char) : Prop where
  opens : Opens text
  closes : Closes text

instance (text : List Char) : Decidable (Opens text) :=
  inferInstanceAs (Decidable (_ ∧ _))

instance (text : List Char) : Decidable (Closes text) :=
  inferInstanceAs (Decidable (_ ∧ _))

section OneLine

variable {front middle back text name : List Char}

theorem Opens.append (opens : Opens front) (whole : '\n' ∉ back) : Opens (front ++ back) := by
  obtain ⟨front_whole, first⟩ := opens
  refine ⟨by simp [front_whole, whole], ?_⟩
  cases front with
  | nil => cases first
  | cons c front => exact first

theorem Opens.ne_nil (opens : Opens text) : text ≠ [] := by
  rintro rfl
  exact absurd opens.2 (by decide)

theorem Closes.behind (closes : Closes back) (whole : '\n' ∉ front) : Closes (front ++ back) := by
  obtain ⟨back_whole, last⟩ := closes
  refine ⟨by simp [whole, back_whole], ?_⟩
  rw [List.getLast?_append]
  cases last_eq : back.getLast? with
  | none =>
    rw [last_eq] at last
    cases last
  | some c =>
    rw [last_eq] at last
    exact last

theorem oneLine_append (opens : Opens front) (whole : '\n' ∉ middle) (closes : Closes back) :
    OneLine (front ++ middle ++ back) where
  opens := (opens.append whole).append closes.1
  closes := closes.behind (opens.append whole).1

theorem oneLine_around {head tail : String} (opens : Opens head.toList) (whole : '\n' ∉ middle)
    (closes : Closes tail.toList) : OneLine (head ++ String.ofList middle ++ tail).toList := by
  simpa using oneLine_append opens whole closes

theorem OneLine.no_feed (one_line : OneLine text) : '\n' ∉ text :=
  one_line.opens.1

/-- A text with such lines is read line by line; empty ones may stand between them. -/
theorem lined_of_closes {lines : List String}
    (lines_eq : Text.splitAt '\n' text = lines.map String.toList)
    (closes : ∀ line ∈ lines, line = "" ∨ Closes line.toList) (last : lines.getLast? ≠ some "") :
    Lined text := by
  constructor
  · rw [lines_eq]
    refine List.forall_mem_map.mpr fun line member ends => ?_
    rcases closes line member with rfl | closes
    · cases ends
    · have last := closes.2
      rw [ends] at last
      exact absurd last (by decide)
  · rw [lines_eq, List.getLast?_map]
    intro empty
    obtain ⟨line, line_eq, empty_line⟩ := Option.map_eq_some_iff.mp empty
    rw [String.toList_eq_nil_iff.mp empty_line] at line_eq
    exact last line_eq

theorem notMem_of_isWord_feed (is_word : IsWord name) : '\n' ∉ name :=
  not_mem_of_isWord is_word (by decide)

private theorem opens_of_isWord (is_word : IsWord name) : Opens name := by
  refine ⟨notMem_of_isWord_feed is_word, ?_⟩
  obtain ⟨nonempty, all_word⟩ := is_word
  rw [List.head?_eq_some_head nonempty, Option.any_some, bne_iff_ne]
  intro is_space
  have space_word := all_word _ (List.head_mem nonempty)
  rw [is_space] at space_word
  exact absurd space_word (by decide)

private theorem opens_opening {opening : Opening} (named : opening.IsNamed) :
    Opens (opening.text ++ "await ".toList) := by
  cases opening with
  | plain => decide
  | assigns name => exact ((opens_of_isWord named).append (by decide)).append (by decide)
  | declares name => exact ⟨by simp [notMem_of_isWord_feed named], rfl⟩

end OneLine

section Converted

variable {c : Char} {text : List Char} {found : Match}

theorem notMem_trim (absent : c ∉ text) : c ∉ trim text := by
  obtain ⟨lead, trail, -, -, text_eq⟩ := exists_trim text
  rw [text_eq, List.mem_append, List.mem_append, not_or, not_or] at absent
  exact absent.2.1

private theorem notMem_singleQuoted (no_mark : c ∉ ['\\', '\'']) (absent : c ∉ text) :
    c ∉ (singleQuoted (String.ofList text)).toList := by
  have no_escape : c ∉ text.flatMap escapeQuoted := by
    intro member
    obtain ⟨d, in_text, escaped⟩ := List.mem_flatMap.mp member
    have other : c ≠ d := fun same => absent (same ▸ in_text)
    unfold escapeQuoted at escaped
    split_ifs at escaped <;> simp_all
  simp_all [singleQuoted]

private theorem dropClose_subset (depth : Nat) (text : List Char) :
    dropClose depth text ⊆ text := by
  fun_induction dropClose depth text with
  | case1 => exact List.Subset.refl _
  | case3 => exact List.subset_cons_self _ _
  | case2 _ _ ih | case4 _ _ _ ih | case5 _ _ _ _ _ ih => exact List.cons_subset_cons _ ih

private theorem notMem_unwrapConstructors (absent : c ∉ text) : c ∉ unwrapConstructors text := by
  -- What stands around a constructor call is all that is read on with.
  fun_induction unwrapConstructors text with
  | case1 => exact absent
  | case2 text found found_eq ih =>
    obtain ⟨not_before, not_after⟩ := notMem_sides absent found_eq
    refine ih ?_
    rw [List.mem_append, not_or]
    exact ⟨not_before, fun member => not_after (dropClose_subset 0 found.after member)⟩

/-- Converting arguments brings in no characters but quotes and escapes. -/
theorem notMem_convertArguments (no_mark : c ∉ ['\\', '\'']) (absent : c ∉ text) :
    c ∉ convertArguments text := by
  rw [convertArguments_eq]
  refine notMem_unwrapConstructors (notMem_replaceFrom (by decide) ?_ absent)
  intro previous part found absent found_eq
  exact notMem_singleQuoted no_mark fun member => absent (group_subset found_eq "key" member)

private theorem notMem_scriptArgument (no_mark : c ∉ ['\\', '\'']) (absent : c ∉ text) :
    c ∉ scriptArgument text := by
  unfold scriptArgument
  split
  · next found found_eq =>
    exact notMem_singleQuoted no_mark fun member => absent (group_subset found_eq "value" member)
  · exact notMem_convertArguments no_mark absent

end Converted

section Rules

variable {pages : List String} {source : List Char} {statement : Output.Statement}

/-- The comment quotes its source on one line. -/
theorem oneLine_review (reason : String) (no_feed : '\n' ∉ reason.toList) (source : List Char) :
    OneLine (Output.Statement.review reason source).text.toList := by
  have quoted_whole : '\n' ∉ [' '].intercalate ((Text.lines source).map Text.trim) :=
    notMem_intercalate (by decide) (List.forall_mem_map.mpr fun line member =>
      notMem_trim (notMem_of_mem_lines member))
  have text_eq : (Output.Statement.review reason source).text.toList
      = "// ".toList ++ (reason.toList ++ ": ".toList
        ++ [' '].intercalate ((Text.lines source).map Text.trim)) ++ " (review manually)".toList := by
    simp [Output.Statement.review]
  rw [text_eq]
  exact oneLine_append (by decide) (by simp [no_feed, quoted_whole]) (by decide)

private theorem oneLine_call {found : Match} (found_eq : boundCall.find? source = some found) :
    OneLine (callStatement pages found).text.toList := by
  obtain ⟨call, spells, grouped⟩ := spells_of_boundCall found_eq
  have arguments_whole : '\n' ∉ call.arguments := by
    rw [← grouped.arguments]
    exact notMem_group found_eq (by decide)
  have converted_whole := notMem_convertArguments (by decide) (notMem_trim arguments_whole)
  have middle_whole : '\n' ∉ call.receiver ++ '.' :: (call.method
      ++ '(' :: convertArguments (trim call.arguments)) := by
    simp [notMem_of_isWord_feed spells.receiver, notMem_of_isWord_feed spells.method,
      converted_whole]
  have one_line := oneLine_append (opens_opening (spells.named_opening pages)) middle_whole
    (show Closes ");".toList by decide)
  rw [text_callStatement pages grouped]
  simpa using one_line

/-- What becomes of a statement stands on one line. -/
theorem oneLine_of_convert? {rule : Rule}
    (emitted : rule.convert? pages source = some (.emit statement)) :
    OneLine statement.text.toList := by
  -- What a rule takes over stands in a group of one line, and the conversions keep it so.
  cases rule with
  | assertion =>
    simp only [Rule.convert?] at emitted
    split at emitted <;> cases emitted
  | navigate =>
    obtain ⟨found, found_eq, outcome_eq⟩ := Option.map_eq_some_iff.mp emitted
    obtain rfl := Outcome.emit.inj outcome_eq
    have url_whole : '\n' ∉ found.group "url" := notMem_group found_eq (by decide)
    have argument_whole := notMem_scriptArgument (by decide) (notMem_trim url_whole)
    exact oneLine_around (by decide) argument_whole (by decide)
  | titleBinding =>
    obtain ⟨found, found_eq, outcome_eq⟩ := Option.map_eq_some_iff.mp emitted
    obtain rfl := Outcome.emit.inj outcome_eq
    have name_whole : '\n' ∉ found.group "variable" := notMem_group found_eq (by decide)
    exact oneLine_around (by decide) name_whole (by decide)
  | sleep =>
    obtain ⟨found, found_eq, outcome_eq⟩ := Option.map_eq_some_iff.mp emitted
    obtain rfl := Outcome.emit.inj outcome_eq
    have duration_whole : '\n' ∉ found.group "duration" := notMem_group found_eq (by decide)
    exact oneLine_around (by decide) (notMem_trim duration_whole) (by decide)
  | println =>
    obtain ⟨found, found_eq, outcome_eq⟩ := Option.map_eq_some_iff.mp emitted
    obtain rfl := Outcome.emit.inj outcome_eq
    have arguments_whole : '\n' ∉ found.group "arguments" := notMem_group found_eq (by decide)
    have converted_whole := notMem_convertArguments (by decide) (notMem_trim arguments_whole)
    exact oneLine_around (by decide) converted_whole (by decide)
  | driverCall =>
    simp only [Rule.convert?] at emitted
    split at emitted
    · obtain rfl := Outcome.emit.inj (Option.some.inj emitted)
      exact oneLine_review _ (by decide) source
    · cases emitted
  | call =>
    simp only [Rule.convert?] at emitted
    split at emitted
    · cases emitted
    · next found found_eq =>
      split at emitted
      · obtain rfl := Outcome.emit.inj (Option.some.inj emitted)
        exact oneLine_call found_eq
      · cases emitted

end Rules

end SuiteMigration.Test
