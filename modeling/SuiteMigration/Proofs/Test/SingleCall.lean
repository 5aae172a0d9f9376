import SuiteMigration.Proofs.Locator.Factory
import SuiteMigration.Proofs.Pattern.LiteralSearch
import SuiteMigration.Proofs.Test.Assertions
import SuiteMigration.Proofs.Text.Parentheses

/-!
# Single calls

The rule for calls takes a statement that is one call on a name, and no chain or sum of calls. The
text of such a statement settles the parts of the call, so the script says the same whatever way
the rule matches it.
-/
namespace SuiteMigration.Test

open Pattern Text
open Locator (before_mark_inj)

/-- A dotted name with optional array brackets, without type arguments. -/
def bareType : Pattern :=
  .all [oneOrMore (.one fun c => isWordChar c || c == '.'),
    .many true (.all [blanks, mark '[', blanks, mark ']'])]

/-- What the rule for calls takes up to the parenthesis, if its types are as given. -/
def frontParts (type : Pattern) : List Pattern :=
  [optional (.all [optional (.all [text "final", someBlanks]), .group "type" type, someBlanks]),
    optional (.all [.group "variable" word, blanks, mark '=', blanks]),
    .group "receiver" word, blanks, mark '.', blanks, .group "method" word, blanks]

namespace Call

def IsBare (call : Call) : Prop :=
  ∀ type ∈ call.type?, bareType.Accepts type

/-- Is the text what the call has in front of its parenthesis? -/
structure Fronts (call : Call) (front : List Char) : Prop where
  receiver : IsWord call.receiver
  method : IsWord call.method
  spelled : ∃ lead binder before after behind, Lead call.type? lead ∧ Binder call.bound? binder ∧
    AllBlank before ∧ AllBlank after ∧ AllBlank behind ∧
    front = lead ++ binder ++ call.receiver ++ before ++ '.' :: after ++ call.method ++ behind

/-- Do the calls agree in all but their arguments and the spelling of their types? -/
structure SameFront (call other : Call) : Prop where
  receiver : other.receiver = call.receiver
  method : other.method = call.method
  bound? : other.bound? = call.bound?
  typed : other.type?.isSome = call.type?.isSome

/-- What the script says for the call. -/
def statement (pages : List String) (call : Call) : Output.Statement :=
  ⟨.methodCall, String.ofList ((call.opening pages).text ++ "await ".toList
    ++ (call.receiver ++ '.' :: (call.method ++ '('
      :: (convertArguments (trim call.arguments) ++ ");".toList))))⟩

end Call

/-! ## Acceptance -/

section Acceptance

variable {type? bound? : Option (List Char)} {final lead binder front text : List Char}
  {type : Pattern} {call : Call}

theorem IsFinal.accepts (is_final : IsFinal final) :
    (optional (all [Pattern.text "final", someBlanks])).Accepts final := by
  obtain rfl | ⟨gap, nonempty, is_gap, rfl⟩ := is_final
  · exact .inr rfl
  · exact .inl ⟨"final".toList, gap, rfl, accepts_literal.mpr rfl, gap, [],
      (List.append_nil gap).symm, accepts_someBlanks.mpr ⟨nonempty, is_gap⟩, rfl⟩

theorem Lead.accepts (is_lead : Lead type? lead) (typed : ∀ name ∈ type?, type.Accepts name) :
    (optional (all [optional (all [Pattern.text "final", someBlanks]), group "type" type,
      someBlanks])).Accepts lead := by
  cases is_lead with
  | none => exact .inr rfl
  | @typed final name gap is_final _ nonempty is_gap =>
    exact .inl ⟨final, name ++ gap, List.append_assoc final name gap, is_final.accepts, name, gap,
      rfl, typed name rfl, gap, [], (List.append_nil gap).symm,
      accepts_someBlanks.mpr ⟨nonempty, is_gap⟩, rfl⟩

theorem Lead.typeName (is_lead : Lead type? lead) : ∀ name ∈ type?, typeName.Accepts name := by
  cases is_lead with
  | none => exact fun name member => nomatch member
  | typed _ is_type =>
    rintro name ⟨⟩
    exact is_type

theorem Binder.accepts (is_binder : Binder bound? binder) :
    (optional (all [group "variable" word, blanks, mark '=', blanks])).Accepts binder := by
  cases is_binder with
  | none => exact .inr rfl
  | @bound name before after is_word is_before is_after =>
    exact .inl ⟨name, before ++ '=' :: after, List.append_assoc name before _,
      accepts_word.mpr is_word, before, _, rfl, accepts_blanks.mpr is_before, ['='], after, rfl,
      accepts_mark.mpr rfl, after, [], (List.append_nil after).symm, accepts_blanks.mpr is_after,
      rfl⟩

theorem Call.Fronts.accepts (fronts : call.Fronts front)
    (typed : ∀ name ∈ call.type?, type.Accepts name) :
    (all (frontParts type)).Accepts front := by
  obtain ⟨lead, binder, before, after, behind, is_lead, is_binder, is_before, is_after, is_behind,
    rfl⟩ := fronts.spelled
  exact ⟨lead, binder ++ (call.receiver ++ (before ++ '.' :: (after ++ (call.method ++ behind)))),
    by simp, is_lead.accepts typed, binder, _, rfl, is_binder.accepts, call.receiver, _, rfl,
    accepts_word.mpr fronts.receiver, before, _, rfl, accepts_blanks.mpr is_before, ['.'], _, rfl,
    accepts_mark.mpr rfl, after, _, rfl, accepts_blanks.mpr is_after, call.method, behind, rfl,
    accepts_word.mpr fronts.method, behind, [], (List.append_nil behind).symm,
    accepts_blanks.mpr is_behind, rfl⟩

theorem Call.Spells.exists_front (spells : call.Spells text) :
    ∃ front, call.Fronts front ∧ text = front ++ '(' :: (call.arguments ++ [')']) := by
  obtain ⟨lead, binder, before, after, behind, is_lead, is_binder, is_before, is_after, is_behind,
    text_eq⟩ := spells.spelled
  refine ⟨_, ⟨spells.receiver, spells.method, lead, binder, before, after, behind, is_lead,
    is_binder, is_before, is_after, is_behind, rfl⟩, ?_⟩
  simpa using text_eq

/-- The rule for calls finds every call with its arguments on one line. -/
theorem isSome_find?_boundCall (spells : call.Spells text) (one_line : '\n' ∉ call.arguments) :
    (boundCall.find? text).isSome = true := by
  obtain ⟨front, fronts, rfl⟩ := spells.exists_front
  obtain ⟨_, _, _, _, _, is_lead, -⟩ := fronts.spelled
  have is_line : line.Accepts call.arguments :=
    accepts_line.mpr fun c member same => one_line (same ▸ member)
  have tail_accepted : (all [mark '(', group "arguments" line, mark ')']).Accepts
      ('(' :: (call.arguments ++ [')'])) :=
    ⟨['('], _, rfl, accepts_mark.mpr rfl, call.arguments, [')'], rfl, is_line, [')'], [], rfl,
      accepts_mark.mpr rfl, rfl⟩
  exact isSome_find?_whole (by rfl)
    (accepts_all_append (fronts.accepts is_lead.typeName) tail_accepted)

end Acceptance

/-! ## One reading -/

section Reading

variable {type? other? bound? taken? : Option (List Char)}
  {lead left binder taken front clear rest more text : List Char} {call other : Call}

theorem Lead.isSome_eq (is_lead : Lead type? lead) : type?.isSome = !lead.isEmpty := by
  cases is_lead with
  | none => rfl
  | typed _ _ nonempty => simp [nonempty]

theorem Lead.endsOutside (is_lead : Lead type? lead) : EndsOutside isWordChar lead := by
  cases is_lead with
  | none => exact fun c member => nomatch member
  | typed _ _ nonempty is_gap =>
    exact endsOutside_append nonempty (fun c member => isWordChar_of_isBlank (is_gap c member)) _

theorem Lead.append_endsOutside (is_lead : Lead type? lead) (is_binder : Binder bound? binder) :
    EndsOutside isWordChar (lead ++ binder) := by
  cases is_binder with
  | none =>
    rw [List.append_nil]
    exact is_lead.endsOutside
  | @bound name before after _ _ is_after =>
    have ends := endsOutside_gap (by decide : isWordChar '=' = false) is_after
      (lead ++ name ++ before)
    simpa using ends

theorem Lead.no_sign (is_lead : Lead type? lead) (bare : ∀ type ∈ type?, bareType.Accepts type) :
    '=' ∉ lead :=
  not_mem_of_accepts (by decide) (is_lead.accepts bare)

theorem Binder.sign_mem {name : List Char} (is_binder : Binder (some name) binder) :
    '=' ∈ binder := by
  cases is_binder with
  | bound => simp

/-- The sign of an assignment tells the variable from its type and from the receiver. -/
theorem taking_inj (is_lead : Lead type? lead) (is_left : Lead other? left)
    (bare : ∀ type ∈ type?, bareType.Accepts type) (other_bare : ∀ type ∈ other?, bareType.Accepts type)
    (is_binder : Binder bound? binder) (is_taken : Binder taken? taken)
    (text_eq : lead ++ binder = left ++ taken) :
    taken? = bound? ∧ other?.isSome = type?.isSome := by
  have no_sign := is_lead.no_sign bare
  have other_sign := is_left.no_sign other_bare
  cases is_binder with
  | none =>
    rw [List.append_nil] at text_eq
    cases is_taken with
    | none =>
      rw [List.append_nil] at text_eq
      -- A type never has the empty text.
      rw [is_lead.isSome_eq, is_left.isSome_eq, text_eq]
      exact ⟨rfl, rfl⟩
    | bound => simp [text_eq] at no_sign
  | @bound name before after is_name is_before is_after =>
    cases is_taken with
    | none =>
      rw [List.append_nil] at text_eq
      simp [← text_eq] at other_sign
    | @bound other gap beyond is_other is_gap is_beyond =>
      have sign_name : '=' ∉ name := not_mem_of_isWord is_name (by decide)
      have sign_other : '=' ∉ other := not_mem_of_isWord is_other (by decide)
      have sign_before : '=' ∉ before := not_mem_of_allBlank is_before (by decide)
      have sign_gap : '=' ∉ gap := not_mem_of_allBlank is_gap (by decide)
      have split_eq : (lead ++ name ++ before) ++ '=' :: after
          = (left ++ other ++ gap) ++ '=' :: beyond := by simpa using text_eq
      obtain ⟨front_eq, -⟩ := before_mark_inj
        (by simp [no_sign, sign_name, sign_before]) (by simp [other_sign, sign_other, sign_gap])
        split_eq
      obtain ⟨rfl, rfl⟩ := last_word_inj is_name is_other is_before is_gap is_lead.endsOutside
        is_left.endsOutside front_eq
      rw [is_lead.isSome_eq, is_left.isSome_eq]
      exact ⟨rfl, rfl⟩

/-- The text of a front settles the method, the receiver and what takes the result. -/
theorem Call.Fronts.settled {before after behind name method : List Char}
    (fronts : call.Fronts front) (is_name : IsWord name) (is_method : IsWord method)
    (is_before : AllBlank before) (is_after : AllBlank after) (is_behind : AllBlank behind)
    (left_ends : EndsOutside isWordChar left)
    (front_eq : front = left ++ name ++ before ++ '.' :: after ++ method ++ behind) :
    ∃ lead binder, Lead call.type? lead ∧ Binder call.bound? binder ∧ lead ++ binder = left ∧
      name = call.receiver ∧ method = call.method := by
  obtain ⟨lead, binder, gap, between, beyond, is_lead, is_binder, is_gap, is_between, is_beyond,
    own_eq⟩ := fronts.spelled
  have dotted_eq : (lead ++ binder ++ call.receiver ++ gap)
        ++ '.' :: (between ++ (call.method ++ beyond))
      = (left ++ name ++ before) ++ '.' :: (after ++ (method ++ behind)) := by
    simpa using own_eq.symm.trans front_eq
  -- The front is read from its end: first the method, then the receiver.
  obtain ⟨receiver_eq, method_eq⟩ :=
    dotted_word_inj fronts.method is_method is_between is_beyond is_after is_behind dotted_eq
  obtain ⟨taking_eq, name_eq⟩ := last_word_inj fronts.receiver is_name is_gap is_before
    (is_lead.append_endsOutside is_binder) left_ends receiver_eq
  exact ⟨lead, binder, is_lead, is_binder, taking_eq, name_eq.symm, method_eq.symm⟩

theorem Call.Fronts.same (fronts : call.Fronts front) (again : other.Fronts front)
    (bare : call.IsBare) (other_bare : other.IsBare) : call.SameFront other := by
  obtain ⟨left, taken, before, after, behind, is_left, is_taken, is_before, is_after, is_behind,
    front_eq⟩ := again.spelled
  obtain ⟨lead, binder, is_lead, is_binder, taking_eq, receiver_eq, method_eq⟩ :=
    fronts.settled again.receiver again.method is_before is_after is_behind
      (is_left.append_endsOutside is_taken) front_eq
  obtain ⟨bound_eq, typed_eq⟩ := taking_inj is_lead is_left bare other_bare is_binder is_taken
    taking_eq
  exact ⟨receiver_eq, method_eq, bound_eq, typed_eq⟩

/-- A type is bare, or begins with a dotted name and an angle bracket. -/
theorem bareType_or_angle {type : List Char} (is_type : typeName.Accepts type) :
    bareType.Accepts type ∨ ∃ head more, type = head ++ '<' :: more ∧
      (all [oneOrMore (.one fun c => isWordChar c || c == '.'), blanks]).Accepts head := by
  obtain ⟨name, _, rfl, is_name, generics, _, rfl, is_generics, pairs, _, rfl, is_pairs, rfl⟩ :=
    is_type
  obtain ⟨gap, _, rfl, is_gap, _, more, rfl, is_angle, -⟩ | rfl := is_generics
  · obtain rfl := accepts_mark.mp is_angle
    exact .inr ⟨name ++ gap, more ++ (pairs ++ []), by simp, name, gap, rfl, is_name, gap, [],
      (List.append_nil gap).symm, is_gap, rfl⟩
  · exact .inl ⟨name, pairs ++ [], rfl, is_name, pairs, [], rfl, is_pairs, rfl⟩

/-- A call has no type arguments where no angle bracket stands in front of the parenthesis. -/
theorem Call.Fronts.isBare (fronts : call.Fronts front) (no_opening : '(' ∉ clear)
    (no_angle : '<' ∉ clear) (text_eq : front ++ '(' :: rest = clear ++ '(' :: more) :
    call.IsBare := by
  intro type type_mem
  obtain ⟨lead, binder, before, after, behind, is_lead, -, -, -, -, rfl⟩ := fronts.spelled
  rw [Option.mem_def.mp type_mem] at is_lead
  cases is_lead with
  | @typed final _ gap is_final is_type _ _ =>
    rcases bareType_or_angle is_type with bare | ⟨head, others, rfl, is_head⟩
    · exact bare
    · -- The text has one first bracket, be it round or an angle.
      let holds : Char → Bool := fun c => c != '(' && c != '<'
      have holds_all : ∀ {text : List Char}, '(' ∉ text → '<' ∉ text → text.all holds = true := by
        intro text no_round no_angle
        refine List.all_eq_true.mpr fun c member => ?_
        have round_ne : c ≠ '(' := fun same => no_round (same ▸ member)
        have angle_ne : c ≠ '<' := fun same => no_angle (same ▸ member)
        simp [holds, round_ne, angle_ne]
      have final_holds : final.all holds = true :=
        holds_all (not_mem_of_accepts (by decide) is_final.accepts)
          (not_mem_of_accepts (by decide) is_final.accepts)
      have head_holds : head.all holds = true :=
        holds_all (not_mem_of_accepts (by decide) is_head) (not_mem_of_accepts (by decide) is_head)
      have both_hold : (final ++ head).all holds = true := by
        rw [List.all_append, final_holds, head_holds]
        rfl
      have split_eq : (final ++ head) ++ '<' :: (others ++ gap ++ binder ++ call.receiver ++ before
          ++ '.' :: after ++ call.method ++ behind ++ '(' :: rest) = clear ++ '(' :: more := by
        simpa using text_eq
      have bracket_eq := (stretch_append_inj both_hold (holds_all no_opening no_angle) (by decide)
        (by decide) split_eq).2.1
      cases bracket_eq

theorem Call.Fronts.no_opening (fronts : call.Fronts front) (bare : call.IsBare) : '(' ∉ front :=
  not_mem_of_accepts (by decide) (fronts.accepts bare)

theorem Call.Fronts.no_angle (fronts : call.Fronts front) (bare : call.IsBare) : '<' ∉ front :=
  not_mem_of_accepts (by decide) (fronts.accepts bare)

/-- What stands in front of the first parenthesis of a call is its front. -/
theorem Call.Spells.fronts (spells : call.Spells text) (bare : call.IsBare)
    (no_opening : '(' ∉ front) (text_eq : text = front ++ '(' :: rest) :
    call.Fronts front ∧ rest = call.arguments ++ [')'] := by
  obtain ⟨own, fronts, own_eq⟩ := spells.exists_front
  obtain ⟨rfl, rfl⟩ :=
    before_mark_inj (fronts.no_opening bare) no_opening (own_eq.symm.trans text_eq)
  exact ⟨fronts, rfl⟩

/-- The text of a call without type arguments has no other reading. -/
theorem Call.Spells.same_front (spells : call.Spells text) (bare : call.IsBare)
    (again : other.Fronts front) (text_eq : text = front ++ '(' :: rest) :
    call.SameFront other ∧ rest = call.arguments ++ [')'] := by
  obtain ⟨own, fronts, own_eq⟩ := spells.exists_front
  -- A type argument of the other reading would stand in front of the parenthesis of this one.
  have other_bare := again.isBare (fronts.no_opening bare) (fronts.no_angle bare)
    (text_eq.symm.trans own_eq)
  obtain ⟨own_fronts, rest_eq⟩ := spells.fronts bare (again.no_opening other_bare) text_eq
  exact ⟨own_fronts.same again bare other_bare, rest_eq⟩

end Reading

/-! ## The call in the script -/

section Script

variable {pages : List String} {call other : Call} {found : Match}

private theorem callStatement_eq (pages : List String) (grouped : call.Grouped found) :
    callStatement pages found = call.statement pages := by
  unfold callStatement Call.statement Call.opening
  rw [grouped.bound?, grouped.type?, grouped.receiver, grouped.method, grouped.arguments]
  cases call.bound? with
  | none => simp [← String.toList_inj]
  | some name =>
    simp only [Option.map_some]
    split
    · simp [← String.toList_inj]
    · split <;> simp [← String.toList_inj]

theorem Call.SameFront.statement_eq (same : call.SameFront other)
    (arguments_eq : other.arguments = call.arguments) (pages : List String) :
    other.statement pages = call.statement pages := by
  simp only [Call.statement, Call.opening, same.receiver, same.method, same.bound?, same.typed,
    arguments_eq]

end Script

/-- A call on another name than the driver, alone in its statement or with a variable that takes its
result, typed or not. It asserts nothing, does not sleep and has its arguments on one line. -/
structure Call.Ordinary (call : Call) (text : List Char) : Prop where
  spells : call.Spells text
  bare : call.IsBare
  taken : call.type?.isSome = true → call.bound?.isSome = true
  not_driver : call.receiver ≠ "driver".toList
  no_assertion : ¬IsAssertion call.receiver call.method
  no_sleep : ¬(call.receiver = "Thread".toList ∧ call.method = "sleep".toList)
  one_line : '\n' ∉ call.arguments

section Ordinary

variable {pages : List String} {call : Call} {text code : List Char} {source : String}

theorem Call.Ordinary.not_assertionLed (ordinary : call.Ordinary text) : ¬AssertionLed text := by
  intro led
  have bare := ordinary.bare
  cases led with
  | @alone method gap rest is_word asserts is_gap =>
    -- The text has a dot in front of its parenthesis.
    have no_opening : '(' ∉ method ++ gap := by
      simp [not_mem_of_isWord is_word (by decide : isWordChar '(' = false),
        not_mem_of_allBlank is_gap (by decide : isBlank '(' = false)]
    have no_dot : '.' ∉ method ++ gap := by
      simp [not_mem_of_isWord is_word (by decide : isWordChar '.' = false),
        not_mem_of_allBlank is_gap (by decide : isBlank '.' = false)]
    obtain ⟨fronts, -⟩ := ordinary.spells.fronts bare no_opening rfl
    obtain ⟨_, _, _, _, _, -, -, -, -, -, front_eq⟩ := fronts.spelled
    simp [front_eq] at no_dot
  | @named receiver before after method gap rest is_name is_before is_after is_word asserts is_gap =>
    have fronts : (Call.mk none none receiver method []).Fronts
        (receiver ++ before ++ '.' :: after ++ method ++ gap) :=
      ⟨is_name, is_word, [], [], before, after, gap, .none, .none, is_before, is_after, is_gap, rfl⟩
    obtain ⟨same, -⟩ := ordinary.spells.same_front bare fronts rfl
    obtain rfl : receiver = call.receiver := same.receiver
    obtain rfl : method = call.method := same.method
    exact ordinary.no_assertion asserts

theorem Call.Ordinary.not_title (ordinary : call.Ordinary text) :
    titleVariable.find? text = none := by
  refine Option.eq_none_iff_forall_ne_some.mpr fun found found_eq => ?_
  obtain ⟨other, spells, -, -, on_driver, -⟩ := spells_of_titleVariable found_eq
  obtain ⟨front, fronts, text_eq⟩ := spells.exists_front
  obtain ⟨same, -⟩ := ordinary.spells.same_front ordinary.bare fronts text_eq
  exact ordinary.not_driver (same.receiver.symm.trans on_driver)

theorem Call.Ordinary.not_sleep (ordinary : call.Ordinary text) : sleepCall.find? text = none := by
  refine Option.eq_none_iff_forall_ne_some.mpr fun found found_eq => ?_
  obtain ⟨_, rest, text_eq, _, _, rfl, is_thread, before, _, rfl, is_before, _, _, rfl, is_dot,
    after, _, rfl, is_after, _, _, rfl, is_sleep, gap, _, rfl, is_gap, _, _, rfl, is_opening, rfl⟩ :=
    front_of_find?_anchored
      [Pattern.text "Thread", blanks, mark '.', blanks, Pattern.text "sleep", blanks, mark '(']
      found_eq
  obtain rfl := accepts_literal.mp is_thread
  obtain rfl := accepts_mark.mp is_dot
  obtain rfl := accepts_literal.mp is_sleep
  obtain rfl := accepts_mark.mp is_opening
  have fronts : (Call.mk none none "Thread".toList "sleep".toList []).Fronts
      ("Thread".toList ++ before ++ '.' :: after ++ "sleep".toList ++ gap) :=
    ⟨by decide, by decide, [], [], before, after, gap, .none, .none, accepts_blanks.mp is_before,
      accepts_blanks.mp is_after, accepts_blanks.mp is_gap, rfl⟩
  have split_eq : text = ("Thread".toList ++ before ++ '.' :: after ++ "sleep".toList ++ gap)
      ++ '(' :: rest := by simpa using text_eq
  obtain ⟨same, -⟩ := ordinary.spells.same_front ordinary.bare fronts split_eq
  exact ordinary.no_sleep ⟨same.receiver.symm, same.method.symm⟩

/-- Nothing stands in front of the receiver, or an assignment. -/
theorem Call.Ordinary.nil_or_sign {lead binder : List Char} (ordinary : call.Ordinary text)
    (is_lead : Lead call.type? lead) (is_binder : Binder call.bound? binder) :
    lead ++ binder = [] ∨ '=' ∈ lead ++ binder := by
  cases bound_eq : call.bound? with
  | none =>
    have untyped : call.type? = none := by
      refine Option.not_isSome_iff_eq_none.mp fun typed => ?_
      have bound := ordinary.taken typed
      rw [bound_eq] at bound
      cases bound
    rw [untyped] at is_lead
    rw [bound_eq] at is_binder
    cases is_lead
    cases is_binder
    exact .inl rfl
  | some name =>
    rw [bound_eq] at is_binder
    exact .inr (List.mem_append_right lead is_binder.sign_mem)

/-- What a print has in front of its parenthesis. -/
def printlnFront : List Pattern :=
  [Pattern.text "System", blanks, mark '.', blanks, Pattern.text "out", blanks, mark '.', blanks,
    Pattern.text "println", blanks]

theorem Call.Fronts.not_println {front : List Char} (fronts : call.Fronts front)
    (ordinary : call.Ordinary text) : ¬(all printlnFront).Accepts front := by
  rintro ⟨_, _, rfl, is_system, first, _, rfl, is_first, _, _, rfl, is_dot, second, _, rfl,
    is_second, _, _, rfl, is_out, third, _, rfl, is_third, _, _, rfl, is_point, fourth, _, rfl,
    is_fourth, _, _, rfl, is_println, gap, _, rfl, is_gap, rfl⟩
  obtain rfl := accepts_literal.mp is_system
  obtain rfl := accepts_mark.mp is_dot
  obtain rfl := accepts_literal.mp is_out
  obtain rfl := accepts_mark.mp is_point
  obtain rfl := accepts_literal.mp is_println
  have first_blank := accepts_blanks.mp is_first
  have second_blank := accepts_blanks.mp is_second
  have out_word : IsWord "out".toList := by decide
  have println_word : IsWord "println".toList := by decide
  have system_ends : EndsOutside isWordChar ("System".toList ++ first ++ ['.'] ++ second) :=
    endsOutside_gap (by decide) second_blank _
  obtain ⟨lead, binder, is_lead, is_binder, taking_eq, -, -⟩ :=
    fronts.settled out_word println_word (accepts_blanks.mp is_third) (accepts_blanks.mp is_fourth)
      (accepts_blanks.mp is_gap) system_ends (by simp)
  have first_sign : '=' ∉ first := not_mem_of_allBlank first_blank (by decide)
  have second_sign : '=' ∉ second := not_mem_of_allBlank second_blank (by decide)
  rcases ordinary.nil_or_sign is_lead is_binder with empty | sign_mem
  · simp [taking_eq] at empty
  · simp [taking_eq, first_sign, second_sign] at sign_mem

/-- A print is a call of a method on a field, and no variable takes its result. -/
theorem Call.Ordinary.not_println (ordinary : call.Ordinary text) :
    printlnCall.find? text = none := by
  refine Option.eq_none_iff_forall_ne_some.mpr fun found found_eq => ?_
  obtain ⟨_, rest, text_eq, accepted⟩ :=
    front_of_find?_anchored (printlnFront ++ [mark '(']) found_eq
  obtain ⟨front, _, rfl, is_front, _, _, rfl, is_opening, rfl⟩ :=
    exists_of_accepts_all printlnFront accepted
  obtain rfl := accepts_mark.mp is_opening
  have split_eq : text = front ++ '(' :: rest := by simpa using text_eq
  have no_opening : '(' ∉ front := not_mem_of_accepts (by decide) is_front
  obtain ⟨fronts, -⟩ := ordinary.spells.fronts ordinary.bare no_opening split_eq
  exact fronts.not_println ordinary is_front

private theorem navigateCall_of_not_led (not_led : ¬DriverLed text) :
    navigateCall.find? text = none := by
  refine Option.eq_none_iff_forall_ne_some.mpr fun found found_eq => not_led ?_
  obtain ⟨_, rest, text_eq, _, _, rfl, is_driver, gap, _, rfl, is_gap, _, _, rfl, is_dot, rfl⟩ :=
    front_of_find?_anchored [Pattern.text "driver", blanks, mark '.'] found_eq
  obtain rfl := accepts_literal.mp is_driver
  obtain rfl := accepts_mark.mp is_dot
  exact ⟨gap, rest, accepts_blanks.mp is_gap, by simpa using text_eq⟩

/-- The rule for calls reads the parts of the call. -/
theorem Call.Ordinary.call_eq (ordinary : call.Ordinary text) (pages : List String) :
    Rule.call.convert? pages text
      = if isBalanced call.arguments then some (.emit (call.statement pages)) else none := by
  -- What is found is a call with the same text, so it agrees with the one at hand.
  have is_some := isSome_find?_boundCall ordinary.spells ordinary.one_line
  obtain ⟨found, found_eq⟩ := Option.isSome_iff_exists.mp is_some
  obtain ⟨other, spells, grouped⟩ := spells_of_boundCall found_eq
  obtain ⟨front, fronts, text_eq⟩ := spells.exists_front
  obtain ⟨same, closed_eq⟩ := ordinary.spells.same_front ordinary.bare fronts text_eq
  have arguments_eq : other.arguments = call.arguments := List.append_cancel_right closed_eq
  simp only [Rule.convert?, found_eq, grouped.arguments, arguments_eq,
    callStatement_eq pages grouped, same.statement_eq arguments_eq]

/-- No rule but the one for calls is for such a statement. -/
theorem Call.Ordinary.converted_eq (ordinary : call.Ordinary source.toList)
    (not_led : ¬DriverLed source.toList) (pages : List String) :
    convertStatement? pages source
      = if isBalanced call.arguments then some (.emit (call.statement pages)) else none := by
  have assertion_eq : Rule.assertion.convert? pages source.toList = none := by
    rw [Rule.convert?, if_neg fun occurs => ordinary.not_assertionLed (assertionLed_iff.mp occurs)]
  have driver_eq : Rule.driverCall.convert? pages source.toList = none := by
    rw [Rule.convert?, if_neg fun occurs => not_led (driverLed_of_occursIn occurs)]
  have navigate_eq : Rule.navigate.convert? pages source.toList = none := by
    rw [Rule.convert?, navigateCall_of_not_led not_led, Option.map_none]
  have title_eq : Rule.titleBinding.convert? pages source.toList = none := by
    rw [Rule.convert?, ordinary.not_title, Option.map_none]
  have sleep_eq : Rule.sleep.convert? pages source.toList = none := by
    rw [Rule.convert?, ordinary.not_sleep, Option.map_none]
  have println_eq : Rule.println.convert? pages source.toList = none := by
    rw [Rule.convert?, ordinary.not_println, Option.map_none]
  simp only [convertStatement?, Rule.all, List.findSome?_cons, List.findSome?_nil,
    assertion_eq, navigate_eq, title_eq, sleep_eq, println_eq, driver_eq,
    ordinary.call_eq pages]
  cases isBalanced call.arguments <;> rfl

/-- A parenthesis that closes the arguments before their end leaves them unbalanced. -/
theorem not_balanced_of_closed {arguments inner innerCode rest : List Char}
    (has_code : HasCode arguments code) (inner_code : HasCode inner innerCode)
    (balanced : Balanced innerCode) (arguments_eq : arguments = inner ++ ')' :: rest) :
    ¬Balanced code := by
  rw [arguments_eq] at has_code
  obtain ⟨_, rest_code, rfl⟩ := has_code.of_append inner_code
  cases rest_code with
  | code _ _ => exact balanced.not_closed_behind

/-- What becomes of a statement stands between what becomes of those around it. -/
theorem statements_ofBody_middle (caseName : String) (pages before after : List String)
    (source : String) :
    (Case.ofBody caseName pages (before ++ source :: after)).statements
      = (Case.ofBody caseName pages before).statements
        ++ ((convertStatement? pages source).bind Outcome.statement?).toList
        ++ (Case.ofBody caseName pages after).statements := by
  rw [statements_ofBody, statements_ofBody, statements_ofBody, List.filterMap_append,
    List.filterMap_cons, List.append_assoc]
  cases (convertStatement? pages source).bind Outcome.statement? <;> rfl

/-- A statement of a body that is one call on a name, and does not begin as a call on the driver does,
becomes one awaited call, if the parentheses in the code of its arguments are balanced, and else
nothing. So nothing becomes of a chain or a sum of calls, where a parenthesis closes the arguments of
the first one before the end. -/
theorem statements_ofBody_singleCall (ordinary : call.Ordinary source.toList)
    (not_led : ¬DriverLed source.toList) (has_code : HasCode call.arguments code)
    (caseName : String) (pages before after : List String) :
    ∃ emitted, (Case.ofBody caseName pages (before ++ source :: after)).statements
        = (Case.ofBody caseName pages before).statements ++ emitted
          ++ (Case.ofBody caseName pages after).statements ∧
      (Balanced code → emitted = [call.statement pages]) ∧
      (¬Balanced code → emitted = []) ∧
      ∀ inner innerCode rest, HasCode inner innerCode → Balanced innerCode →
        call.arguments = inner ++ ')' :: rest → emitted = [] := by
  have emitted_eq : ((convertStatement? pages source).bind Outcome.statement?).toList
      = if isBalanced call.arguments then [call.statement pages] else [] := by
    rw [ordinary.converted_eq not_led pages]
    split <;> rfl
  have unbalanced_nil (unbalanced : ¬Balanced code) :
      (if isBalanced call.arguments then [call.statement pages] else []) = [] :=
    if_neg fun balanced => unbalanced ((isBalanced_iff has_code).mp balanced)
  refine ⟨_, statements_ofBody_middle caseName pages before after source, ?_⟩
  rw [emitted_eq]
  refine ⟨fun balanced => if_pos ((isBalanced_iff has_code).mpr balanced), unbalanced_nil, ?_⟩
  intro inner innerCode rest inner_code balanced arguments_eq
  exact unbalanced_nil (not_balanced_of_closed has_code inner_code balanced arguments_eq)

end Ordinary

section Typed

variable {type : List Char}

private theorem bareType_of_name (nonempty : type ≠ [])
    (dotted : type.all (fun c => isWordChar c || c == '.') = true) : bareType.Accepts type :=
  ⟨type, [], (List.append_nil type).symm,
    accepts_oneOrMore_one.mpr ⟨nonempty, List.all_eq_true.mp dotted⟩, [], [], rfl,
    ⟨[], rfl, List.forall_mem_nil _⟩, rfl⟩

private theorem typeName_of_bareType (bare : bareType.Accepts type) : typeName.Accepts type := by
  obtain ⟨name, _, rfl, is_name, pairs, _, rfl, is_pairs, rfl⟩ := bare
  exact ⟨name, pairs ++ [], rfl, is_name, [], pairs ++ [], rfl, .inr rfl, pairs, [], rfl, is_pairs,
    rfl⟩

private theorem lead_of_bareType (bare : bareType.Accepts type) :
    Lead (some type) (type ++ [' ']) :=
  .typed (.inl rfl) (typeName_of_bareType bare) (List.cons_ne_nil ' ' [])
    (List.forall_mem_singleton.mpr (by decide))

private theorem binder_of_word {name : List Char} (is_word : IsWord name) :
    Binder (some name) (name ++ " = ".toList) := by
  have blank : AllBlank [' '] := List.forall_mem_singleton.mpr (by decide)
  have is_binder := Binder.bound is_word blank blank
  rwa [List.append_assoc] at is_binder

/-- With no blanks around its dot and in front of its parenthesis a call is spelled as it is read. -/
theorem Call.spells_of_text {call : Call} {lead binder text : List Char}
    (is_lead : Lead call.type? lead) (is_binder : Binder call.bound? binder)
    (receiver : IsWord call.receiver) (method : IsWord call.method)
    (text_eq : text = lead ++ binder ++ (call.receiver ++ '.' :: (call.method
      ++ '(' :: (call.arguments ++ [')'])))) : call.Spells text := by
  have no_blank : AllBlank [] := List.forall_mem_nil _
  refine ⟨receiver, method, lead, binder, [], [], [], is_lead, is_binder, no_blank, no_blank,
    no_blank, ?_⟩
  simp [text_eq]

end Typed

/-- A call with a parenthesis in a literal and a nested call among its arguments. -/
def rowCall : Call :=
  ⟨some "app.Row".toList, some "r".toList, "page".toList, "find".toList,
    "\"a)\", key(k)".toList⟩

private theorem rowCall_ordinary :
    rowCall.Ordinary "app.Row r = page.find(\"a)\", key(k))".toList := by
  have bare : bareType.Accepts "app.Row".toList := bareType_of_name (by decide) (by decide)
  have lead : Lead rowCall.type? ("app.Row".toList ++ [' ']) := lead_of_bareType bare
  have binder : Binder rowCall.bound? ("r".toList ++ " = ".toList) := binder_of_word (by decide)
  constructor
  case spells => exact Call.spells_of_text lead binder (by decide) (by decide) (by decide)
  case bare =>
    rintro type ⟨⟩
    exact bare
  case taken => exact fun _ => rfl
  all_goals decide

theorem statements_ofBody_singleCall_row :
    (Case.ofBody "t" [] ["app.Row r = page.find(\"a)\", key(k))"]).statements
      = [⟨.methodCall, "const r = await page.find(\"a)\", key(k));"⟩] := by
  have is_body : Locator.LiteralBody "a)".toList := .of_plain (by simp)
  have rest_code : HasCode ", key(k)".toList _ := hasCode_self (by decide)
  have has_code : HasCode rowCall.arguments ", key(k)".toList := .literal is_body rest_code
  have not_led : ¬DriverLed "app.Row r = page.find(\"a)\", key(k))".toList := by
    rintro ⟨gap, rest, -, text_eq⟩
    exact absurd (congrArg List.head? text_eq) (by simp)
  have balanced := (isBalanced_iff rest_code).mp (by decide)
  obtain ⟨emitted, statements_eq, emitted_eq, -⟩ :=
    statements_ofBody_singleCall rowCall_ordinary not_led has_code "t" [] [] []
  have nil_eq : (Case.ofBody "t" [] []).statements = [] := rfl
  rw [nil_eq, List.nil_append, List.append_nil, emitted_eq balanced] at statements_eq
  exact statements_eq.trans (by decide +kernel)

/-- A call behind a type that begins as a call on the driver does. -/
def sessionCall : Call :=
  ⟨some "driver.Session".toList, some "s".toList, "p".toList, "open".toList, []⟩

private theorem sessionCall_ordinary :
    sessionCall.Ordinary "driver.Session s = p.open()".toList := by
  have bare : bareType.Accepts "driver.Session".toList := bareType_of_name (by decide) (by decide)
  have lead : Lead sessionCall.type? ("driver.Session".toList ++ [' ']) := lead_of_bareType bare
  have binder : Binder sessionCall.bound? ("s".toList ++ " = ".toList) := binder_of_word (by decide)
  constructor
  case spells => exact Call.spells_of_text lead binder (by decide) (by decide) (by decide)
  case bare =>
    rintro type ⟨⟩
    exact bare
  case taken => exact fun _ => rfl
  all_goals decide

/-- The type may keep the statement from the rule for calls. -/
theorem statements_ofBody_singleCall_not_led :
    ¬ ∀ (call : Call) (source : String) (code : List Char), call.Ordinary source.toList →
      HasCode call.arguments code → Balanced code → ∀ (caseName : String) (pages : List String),
        (Case.ofBody caseName pages [source]).statements = [call.statement pages] := by
  intro always
  have balanced : Balanced [] := closesAll_nil.mpr rfl
  have statements_eq := always sessionCall "driver.Session s = p.open()" [] sessionCall_ordinary
    .nil balanced "t" []
  revert statements_eq
  decide +kernel

end SuiteMigration.Test
