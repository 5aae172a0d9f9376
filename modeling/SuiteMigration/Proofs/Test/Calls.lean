import SuiteMigration.Proofs.Pattern.Language
import SuiteMigration.Test.Rule

/-!
# Calls in test statements

A call on a name, as a test has it: behind a type, behind a variable that takes its result, behind
both, or alone. What the rules for calls and for titles know is such a call.
-/
namespace SuiteMigration.Test

open Pattern Text

def AllBlank (text : List Char) : Prop :=
  ∀ c ∈ text, isBlank c = true

def IsWord (text : List Char) : Prop :=
  text ≠ [] ∧ ∀ c ∈ text, isWordChar c = true

instance (text : List Char) : Decidable (IsWord text) :=
  decidable_of_iff (text ≠ [] ∧ text.all isWordChar = true) (by rw [IsWord, List.all_eq_true])

theorem IsWord.all {text : List Char} (is_word : IsWord text) : text.all isWordChar = true :=
  List.all_eq_true.mpr is_word.2

theorem accepts_blanks {text : List Char} : blanks.Accepts text ↔ AllBlank text :=
  accepts_many_one

theorem accepts_someBlanks {text : List Char} :
    someBlanks.Accepts text ↔ text ≠ [] ∧ AllBlank text :=
  accepts_oneOrMore_one

theorem accepts_word {text : List Char} : word.Accepts text ↔ IsWord text :=
  accepts_oneOrMore_one

/-- The keyword that a typed variable may have in front. -/
def IsFinal (text : List Char) : Prop :=
  text = [] ∨ ∃ gap, gap ≠ [] ∧ AllBlank gap ∧ text = "final".toList ++ gap

/-- What stands in front of the variable or the receiver. -/
inductive Lead : Option (List Char) → List Char → Prop where
  | none : Lead none []
  /-- A type, or a keyword such as `return` in its place. -/
  | typed {final type gap : List Char} (is_final : IsFinal final) (is_type : typeName.Accepts type)
      (nonempty : gap ≠ []) (is_gap : AllBlank gap) : Lead (some type) (final ++ type ++ gap)

/-- The variable that takes the result. -/
inductive Binder : Option (List Char) → List Char → Prop where
  | none : Binder none []
  | bound {name before after : List Char} (is_word : IsWord name) (is_before : AllBlank before)
      (is_after : AllBlank after) : Binder (some name) (name ++ before ++ '=' :: after)

/-- The parts of a call on a name. -/
structure Call where
  type? : Option (List Char)
  bound? : Option (List Char)
  receiver : List Char
  method : List Char
  arguments : List Char

namespace Call

/-- Is the statement the call, up to its blanks? -/
structure Spells (call : Call) (statement : List Char) : Prop where
  receiver : IsWord call.receiver
  method : IsWord call.method
  spelled : ∃ lead binder before after behind, Lead call.type? lead ∧ Binder call.bound? binder ∧
    AllBlank before ∧ AllBlank after ∧ AllBlank behind ∧
    statement = lead ++ binder ++ call.receiver ++ before ++ '.' :: after ++ call.method ++ behind
      ++ '(' :: call.arguments ++ [')']

theorem Spells.isWord_variable {call : Call} {statement name : List Char}
    (spells : call.Spells statement) (bound : call.bound? = some name) : IsWord name := by
  obtain ⟨_, _, _, _, _, -, is_binder, -⟩ := spells.spelled
  rw [bound] at is_binder
  cases is_binder with
  | bound is_word => exact is_word

/-- A call stands alone in its statement, or behind a type or a variable. -/
theorem Spells.leads_or_bound {call : Call} {statement : List Char}
    (spells : call.Spells statement) :
    (∃ before after behind, AllBlank before ∧ AllBlank after ∧ AllBlank behind ∧
      statement = call.receiver ++ before ++ '.' :: after ++ call.method ++ behind
        ++ '(' :: call.arguments ++ [')']) ∨
    (call.type?.isSome = true ∨ call.bound?.isSome = true) := by
  obtain ⟨lead, binder, before, after, behind, is_lead, is_binder, is_before, is_after, is_behind,
    statement_eq⟩ := spells.spelled
  cases type_eq : call.type? with
  | some type => exact .inr (.inl rfl)
  | none =>
    cases bound_eq : call.bound? with
    | some name => exact .inr (.inr rfl)
    | none =>
      rw [type_eq] at is_lead
      rw [bound_eq] at is_binder
      cases is_lead
      cases is_binder
      exact .inl ⟨before, after, behind, is_before, is_after, is_behind, statement_eq⟩

end Call

private theorem typeName_accepts_string : typeName.Accepts "String".toList :=
  ⟨"String".toList, [], (List.append_nil _).symm, accepts_oneOrMore_one.mpr (by simp; decide),
    [], [], rfl, .inr rfl, [], [], rfl, ⟨[], rfl, by simp⟩, rfl⟩

section Inversion

variable {cursor stop : Cursor} {others : List Pattern} {statement : List Char} {found : Match}

private theorem isFinal_of_mem_ways
    (found : stop ∈ (all (optional (all [text "final", someBlanks]) :: others)).ways cursor) :
    ∃ final middle, cursor.rest = final ++ middle.rest ∧ IsFinal final ∧
      middle.groups = cursor.groups ∧ stop ∈ (all others).ways middle := by
  obtain ⟨final, middle, rest_eq, accepted, groups_eq, found⟩ :=
    plain_of_mem_ways [optional (all [text "final", someBlanks])] rfl found
  refine ⟨final, middle, rest_eq, ?_, groups_eq, found⟩
  obtain ⟨_, _, rfl, accepted, rfl⟩ := accepted
  obtain ⟨_, _, rfl, word_accepted, gap, _, rfl, gap_accepted, rfl⟩ | rfl := accepted
  · obtain ⟨nonempty, is_gap⟩ := accepts_someBlanks.mp gap_accepted
    refine .inr ⟨gap, nonempty, is_gap, ?_⟩
    rw [accepts_literal.mp word_accepted, List.append_nil, List.append_nil]
  · exact .inl rfl

private theorem lead_of_mem_ways (found : stop ∈ (all (optional (all [optional (all
      [text "final", someBlanks]), group "type" typeName, someBlanks]) :: others)).ways cursor) :
    ∃ type? lead middle, cursor.rest = lead ++ middle.rest ∧ Lead type? lead ∧
      middle.groups = (type?.map (("type", ·))).toList ++ cursor.groups ∧
      stop ∈ (all others).ways middle := by
  obtain ⟨middle, lead_found, next_found⟩ := exists_of_mem_ways_seq found
  obtain lead_found | rfl := mem_ways_optional lead_found
  · obtain ⟨final, _, final_eq, is_final, final_groups, lead_found⟩ :=
      isFinal_of_mem_ways lead_found
    obtain ⟨type, _, type_eq, is_type, type_groups, lead_found⟩ := group_of_mem_ways rfl lead_found
    obtain ⟨_, _, gap_eq, ⟨gap, _, rfl, is_gap, rfl⟩, gap_groups, lead_found⟩ :=
      plain_of_mem_ways [someBlanks] rfl lead_found
    obtain rfl := eq_of_mem_ways_empty lead_found
    obtain ⟨nonempty, is_gap⟩ := accepts_someBlanks.mp is_gap
    refine ⟨some type, final ++ type ++ gap, middle, ?_, .typed is_final is_type nonempty is_gap,
      ?_, next_found⟩
    · simp only [final_eq, type_eq, gap_eq, List.append_assoc, List.nil_append]
    · rw [gap_groups, type_groups, final_groups]
      rfl
  · exact ⟨none, [], middle, rfl, .none, rfl, next_found⟩

private theorem binder_of_mem_ways (found : stop ∈ (all (optional (all
      [group "variable" word, blanks, mark '=', blanks]) :: others)).ways cursor) :
    ∃ bound? binder middle, cursor.rest = binder ++ middle.rest ∧ Binder bound? binder ∧
      middle.groups = (bound?.map (("variable", ·))).toList ++ cursor.groups ∧
      stop ∈ (all others).ways middle := by
  obtain ⟨middle, binder_found, next_found⟩ := exists_of_mem_ways_seq found
  obtain binder_found | rfl := mem_ways_optional binder_found
  · obtain ⟨name, _, name_eq, is_word, name_groups, binder_found⟩ :=
      group_of_mem_ways rfl binder_found
    obtain ⟨_, _, sign_eq, accepted, sign_groups, binder_found⟩ :=
      plain_of_mem_ways [blanks, mark '=', blanks] rfl binder_found
    obtain ⟨before, _, rfl, is_before, _, _, rfl, is_sign, after, _, rfl, is_after, rfl⟩ := accepted
    obtain rfl := accepts_mark.mp is_sign
    obtain rfl := eq_of_mem_ways_empty binder_found
    refine ⟨some name, name ++ before ++ '=' :: after, middle, ?_,
      .bound (accepts_word.mp is_word) (accepts_blanks.mp is_before) (accepts_blanks.mp is_after),
      ?_, next_found⟩
    · simp only [name_eq, sign_eq, List.append_assoc, List.append_nil, List.cons_append,
        List.nil_append]
    · rw [sign_groups, name_groups]
      rfl
  · exact ⟨none, [], middle, rfl, .none, rfl, next_found⟩

/-- The groups of a match are the parts of the call. -/
structure Call.Grouped (call : Call) (found : Match) : Prop where
  type? : found.group? "type" = call.type?
  bound? : found.group? "variable" = call.bound?
  receiver : found.group "receiver" = call.receiver
  method : found.group "method" = call.method
  arguments : found.group "arguments" = call.arguments

theorem Call.grouped_of_groups {call : Call}
    (groups_eq : found.groups = ("arguments", call.arguments) :: ("method", call.method)
      :: ("receiver", call.receiver) :: ((call.bound?.map (("variable", ·))).toList
        ++ (call.type?.map (("type", ·))).toList)) : call.Grouped found := by
  constructor <;> simp only [Match.group, Match.group?, groups_eq] <;>
    cases call.bound? <;> cases call.type? <;> rfl

/-- What the rule for calls finds is a call. -/
theorem spells_of_boundCall (found_eq : boundCall.find? statement = some found) :
    ∃ call : Call, call.Spells statement ∧ call.Grouped found := by
  obtain ⟨stop, found_mem, groups_eq⟩ := mem_ways_of_find?_anchored found_eq
  obtain ⟨type?, lead, _, lead_eq, is_lead, lead_groups, found_mem⟩ := lead_of_mem_ways found_mem
  obtain ⟨bound?, binder, _, binder_eq, is_binder, binder_groups, found_mem⟩ :=
    binder_of_mem_ways found_mem
  obtain ⟨receiver, _, receiver_eq, is_receiver, receiver_groups, found_mem⟩ :=
    group_of_mem_ways rfl found_mem
  obtain ⟨_, _, dot_eq, ⟨before, _, rfl, is_before, _, _, rfl, is_dot, after, _, rfl, is_after,
    rfl⟩, dot_groups, found_mem⟩ := plain_of_mem_ways [blanks, mark '.', blanks] rfl found_mem
  obtain ⟨method, _, method_eq, is_method, method_groups, found_mem⟩ :=
    group_of_mem_ways rfl found_mem
  obtain ⟨_, _, opening_eq, ⟨behind, _, rfl, is_behind, _, _, rfl, is_opening, rfl⟩, opening_groups,
    found_mem⟩ := plain_of_mem_ways [blanks, mark '('] rfl found_mem
  obtain ⟨arguments, _, arguments_eq, -, arguments_groups, found_mem⟩ :=
    group_of_mem_ways rfl found_mem
  obtain ⟨_, _, closing_eq, ⟨_, _, rfl, is_closing, rfl⟩, closing_groups, found_mem⟩ :=
    plain_of_mem_ways [mark ')'] rfl found_mem
  have at_end := rest_of_mem_ways_atEnd found_mem
  obtain rfl := accepts_mark.mp is_dot
  obtain rfl := accepts_mark.mp is_opening
  obtain rfl := accepts_mark.mp is_closing
  refine ⟨⟨type?, bound?, receiver, method, arguments⟩, ⟨accepts_word.mp is_receiver,
    accepts_word.mp is_method, lead, binder, before, after, behind, is_lead, is_binder,
    accepts_blanks.mp is_before, accepts_blanks.mp is_after, accepts_blanks.mp is_behind, ?_⟩,
    Call.grouped_of_groups ?_⟩
  · rw [← show lead ++ _ = statement from lead_eq.symm]
    simp only [binder_eq, receiver_eq, dot_eq, method_eq, opening_eq, arguments_eq, closing_eq,
      at_end.1, List.append_assoc, List.append_nil, List.cons_append, List.nil_append]
  · rw [groups_eq, at_end.2, closing_groups, arguments_groups, opening_groups, method_groups,
      dot_groups, receiver_groups, binder_groups, lead_groups, List.append_nil]

/-- What the rule for titles finds is a typed call on the driver. -/
theorem spells_of_titleVariable (found_eq : titleVariable.find? statement = some found) :
    ∃ call : Call, call.Spells statement ∧ call.type?.isSome = true ∧
      call.bound? = some (found.group "variable") ∧ call.receiver = "driver".toList ∧
      call.method = "getTitle".toList := by
  -- The pattern is taken apart from its left, so the text falls into as many parts.
  obtain ⟨stop, found_mem, groups_eq⟩ := mem_ways_of_find?_anchored found_eq
  obtain ⟨final, _, final_eq, is_final, final_groups, found_mem⟩ := isFinal_of_mem_ways found_mem
  obtain ⟨_, _, type_eq, ⟨_, _, rfl, is_type, gap, _, rfl, is_gap, rfl⟩, type_groups, found_mem⟩ :=
    plain_of_mem_ways [text "String", someBlanks] rfl found_mem
  obtain ⟨name, _, name_eq, is_name, name_groups, found_mem⟩ := group_of_mem_ways rfl found_mem
  obtain ⟨_, _, sign_eq, ⟨left, _, rfl, is_left, _, _, rfl, is_sign, right, _, rfl, is_right, rfl⟩,
    sign_groups, found_mem⟩ := plain_of_mem_ways [blanks, mark '=', blanks] rfl found_mem
  obtain ⟨_, _, dot_eq, ⟨_, _, rfl, is_driver, before, _, rfl, is_before, _, _, rfl, is_dot, after,
    _, rfl, is_after, rfl⟩, dot_groups, found_mem⟩ :=
    plain_of_mem_ways [text "driver", blanks, mark '.', blanks] rfl found_mem
  obtain ⟨_, _, opening_eq, ⟨_, _, rfl, is_method, behind, _, rfl, is_behind, _, _, rfl, is_opening,
    arguments, _, rfl, -, _, _, rfl, is_closing, rfl⟩, opening_groups, found_mem⟩ :=
    plain_of_mem_ways [text "getTitle", blanks, mark '(', blanks, mark ')'] rfl found_mem
  have at_end := rest_of_mem_ways_atEnd found_mem
  obtain rfl := accepts_literal.mp is_type
  obtain rfl := accepts_mark.mp is_sign
  obtain rfl := accepts_literal.mp is_driver
  obtain rfl := accepts_mark.mp is_dot
  obtain rfl := accepts_literal.mp is_method
  obtain rfl := accepts_mark.mp is_opening
  obtain rfl := accepts_mark.mp is_closing
  obtain ⟨nonempty, is_gap⟩ := accepts_someBlanks.mp is_gap
  have is_driver_word : IsWord "driver".toList := by decide
  have is_title_word : IsWord "getTitle".toList := by decide
  refine ⟨⟨some "String".toList, some name, "driver".toList, "getTitle".toList, arguments⟩,
    ⟨is_driver_word, is_title_word, final ++ "String".toList ++ gap, name ++ left ++ '=' :: right,
      before, after, behind, .typed is_final typeName_accepts_string nonempty is_gap,
      .bound (accepts_word.mp is_name) (accepts_blanks.mp is_left) (accepts_blanks.mp is_right),
      accepts_blanks.mp is_before, accepts_blanks.mp is_after, accepts_blanks.mp is_behind, ?_⟩,
    rfl, ?_, rfl, rfl⟩
  · rw [← show final ++ _ = statement from final_eq.symm]
    simp only [type_eq, name_eq, sign_eq, dot_eq, opening_eq, at_end.1, List.append_assoc,
      List.append_nil, List.cons_append, List.nil_append]
  · rw [Match.group, Match.group?, groups_eq, at_end.2, opening_groups, dot_groups, sign_groups,
      name_groups]
    rfl

end Inversion

end SuiteMigration.Test
