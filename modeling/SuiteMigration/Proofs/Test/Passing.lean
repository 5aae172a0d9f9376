import Mathlib.Data.List.Basic
import SuiteMigration.Proofs.Test.Emitting

/-!
# What a statement passes on

A statement of a script that is no comment says one call. In front of its parenthesis stand a receiver
and a method, and behind it the converted arguments of a statement of the source. So whatever a
statement uses, it uses in front of the parenthesis or in its arguments.
-/
namespace SuiteMigration.Test

open Pattern Text Output

/-- The arguments with which a statement of the source ends, as a script passes them on. -/
inductive Passed (source : List Char) : List Char → Prop where
  | converted {front arguments : List Char}
      (source_eq : source = front ++ '(' :: (arguments ++ [')'])) :
      Passed source (convertArguments (trim arguments))
  /-- The address of a page. -/
  | address {front arguments : List Char} (source_eq : source = front ++ '(' :: (arguments ++ [')'])) :
      Passed source (scriptArgument (trim arguments))
  /-- The time to wait. -/
  | plain {front arguments : List Char} (source_eq : source = front ++ '(' :: (arguments ++ [')'])) :
      Passed source (trim arguments)
  | nothing : Passed source []

/-- What stands in front of the receiver: nothing, or what awaits the call. -/
def IsFront (front : List Char) : Prop :=
  front = [] ∨ ∃ opening : Opening, opening.IsNamed ∧ front = opening.text ++ "await ".toList

/-- Is the text one call with arguments? -/
structure SaysCall (text front receiver method passed : List Char) : Prop where
  is_front : IsFront front
  /-- What is not awaited prints. -/
  prints : front = [] → receiver = "console".toList ∧ method = "log".toList
  receiver_word : IsWord receiver
  method_word : IsWord method
  text_eq : text = front ++ (receiver ++ '.' :: method) ++ '(' :: (passed ++ ");".toList)

section Saying

variable {pages : List String} {source text front receiver method passed : List Char}
  {statement : Output.Statement} {opening : Opening} {found : Match} {call : Call}

private theorem await_ne_nil (opening : Opening) : opening.text ++ "await ".toList ≠ [] := by
  simp

theorem isFront_await (named : opening.IsNamed) : IsFront (opening.text ++ "await ".toList) :=
  .inr ⟨opening, named, rfl⟩

/-- Is the character one that stands in front of a receiver: of a word, a blank or an assignment? -/
def isFrontChar (c : Char) : Bool :=
  isWordChar c || c == ' ' || c == '='

private theorem isFrontChar_of_isWord {name : List Char} (is_word : IsWord name) :
    ∀ c ∈ name, isFrontChar c = true := by
  intro c member
  simp [isFrontChar, is_word.2 c member]

private theorem isFrontChar_of_named (named : opening.IsNamed) :
    ∀ c ∈ opening.text, isFrontChar c = true := by
  have in_const : ∀ c ∈ "const ".toList, isFrontChar c = true := List.all_eq_true.mp (by decide)
  have in_sign : ∀ c ∈ " = ".toList, isFrontChar c = true := List.all_eq_true.mp (by decide)
  cases opening with
  | plain => exact List.forall_mem_nil _
  | assigns name => exact List.forall_mem_append.mpr ⟨isFrontChar_of_isWord named, in_sign⟩
  | declares name =>
    exact List.forall_mem_append.mpr
      ⟨List.forall_mem_append.mpr ⟨in_const, isFrontChar_of_isWord named⟩, in_sign⟩

/-- Only words, blanks and signs of assignment stand in front of a receiver. -/
theorem IsFront.notMem (is_front : IsFront front) {c : Char} (is_mark : isFrontChar c = false) :
    c ∉ front := by
  rcases is_front with rfl | ⟨opening, named, rfl⟩
  · exact List.not_mem_nil
  · intro member
    have in_await : ∀ c ∈ "await ".toList, isFrontChar c = true := List.all_eq_true.mp (by decide)
    have is_char := List.forall_mem_append.mpr ⟨isFrontChar_of_named named, in_await⟩ c member
    rw [is_mark] at is_char
    cases is_char

/-- No word runs into the receiver. -/
theorem IsFront.ends (is_front : IsFront front) : EndsOutside isWordChar front := by
  rcases is_front with rfl | ⟨opening, named, rfl⟩
  · exact nofun
  · have ends : EndsOutside isWordChar (opening.text ++ "await".toList ++ [' ']) :=
      endsOutside_append (List.cons_ne_nil _ _) (List.forall_mem_singleton.mpr (by decide)) _
    simpa using ends

private theorem saysCall_callStatement (pages : List String) (spells : call.Spells source)
    (grouped : call.Grouped found) :
    ∃ front, SaysCall (callStatement pages found).text.toList front call.receiver call.method
      (convertArguments (trim call.arguments)) := by
  refine ⟨_, isFront_await (spells.named_opening pages), fun nothing => absurd nothing (await_ne_nil _),
    spells.receiver, spells.method, ?_⟩
  rw [text_callStatement pages grouped]
  simp

private theorem saysCall_page (is_word : IsWord method) (statement_eq :
    text = "await page.".toList ++ method ++ '(' :: (passed ++ ");".toList)) :
    SaysCall text "await ".toList "page".toList method passed := by
  have is_front : IsFront "await ".toList := @isFront_await .plain trivial
  refine ⟨is_front, nofun, by decide, is_word, ?_⟩
  rw [statement_eq]
  simp

/-- The group that a rule takes for arguments ends the statement with its parentheses. -/
theorem source_of_mem_ways {name : String} {cursor stop : Cursor}
    (found : stop ∈ (all [group name line, mark ')', atEnd]).ways cursor) :
    ∃ arguments, cursor.rest = arguments ++ [')'] ∧
      stop.groups = (name, arguments) :: cursor.groups := by
  obtain ⟨arguments, _, arguments_eq, -, arguments_groups, found⟩ := group_of_mem_ways rfl found
  obtain ⟨_, _, closing_eq, ⟨_, _, rfl, is_closing, rfl⟩, closing_groups, found⟩ :=
    plain_of_mem_ways [mark ')'] rfl found
  have at_end := rest_of_mem_ways_atEnd found
  obtain rfl := accepts_mark.mp is_closing
  refine ⟨arguments, ?_, by rw [at_end.2, closing_groups, arguments_groups]⟩
  rw [arguments_eq, closing_eq, at_end.1]
  rfl

/-- A rule that takes the arguments behind some parts of a statement. -/
theorem source_of_find? {name : String} (parts : List Pattern) (plain : (all parts).isPlain = true)
    (found_eq : (all (.atStart :: (parts ++ [mark '(', group name line, mark ')', atEnd]))).find? source
      = some found) :
    ∃ front, source = front ++ '(' :: (found.group name ++ [')']) := by
  obtain ⟨stop, found_mem, groups_eq⟩ := mem_ways_of_find?_anchored found_eq
  obtain ⟨front, _, front_eq, -, front_groups, found_mem⟩ := plain_of_mem_ways parts plain found_mem
  obtain ⟨_, _, opening_eq, ⟨_, _, rfl, is_opening, rfl⟩, opening_groups, found_mem⟩ :=
    plain_of_mem_ways [mark '('] rfl found_mem
  obtain ⟨arguments, arguments_eq, arguments_groups⟩ := source_of_mem_ways found_mem
  obtain rfl := accepts_mark.mp is_opening
  have group_eq : found.group name = arguments := by
    simp [Match.group, Match.group?, groups_eq, arguments_groups]
  refine ⟨front, ?_⟩
  rw [group_eq, show source = front ++ _ from front_eq, opening_eq, arguments_eq]
  rfl

/-- What becomes of a statement says a call with the arguments of the statement, or is a comment. -/
theorem exists_saysCall {source : String}
    (emitted : convertStatement? pages source = some (.emit statement))
    (no_comment : statement.kind.isComment = false) :
    ∃ front receiver method passed, SaysCall statement.text.toList front receiver method passed ∧
      Passed source.toList passed := by
  obtain ⟨rule, -, rule_eq⟩ := List.exists_of_findSome?_eq_some emitted
  -- Assertions are dropped and other driver calls become comments. The other rules say a call each.
  cases rule with
  | assertion =>
    rw [Rule.convert?] at rule_eq
    split at rule_eq <;> cases rule_eq
  | navigate =>
    obtain ⟨found, found_eq, outcome_eq⟩ := Option.map_eq_some_iff.mp rule_eq
    obtain rfl := Outcome.emit.inj outcome_eq
    obtain ⟨front, source_eq⟩ := source_of_find? [text "driver", blanks, mark '.', blanks,
      .either (text "get") (.all [text "navigate", blanks, mark '(', blanks, mark ')', blanks, mark '.',
        blanks, text "to"]), blanks] rfl found_eq
    exact ⟨_, _, "goto".toList, _, saysCall_page (by decide) (by simp), .address source_eq⟩
  | titleBinding =>
    obtain ⟨found, found_eq, outcome_eq⟩ := Option.map_eq_some_iff.mp rule_eq
    obtain rfl := Outcome.emit.inj outcome_eq
    obtain ⟨call, spells, -, bound, -⟩ := spells_of_titleVariable found_eq
    have named : Opening.IsNamed (.declares (found.group "variable")) := spells.isWord_variable bound
    exact ⟨_, "page".toList, "title".toList, [], ⟨isFront_await named,
      fun nothing => absurd nothing (await_ne_nil _), by decide, by decide, by simp⟩, .nothing⟩
  | sleep =>
    obtain ⟨found, found_eq, outcome_eq⟩ := Option.map_eq_some_iff.mp rule_eq
    obtain rfl := Outcome.emit.inj outcome_eq
    obtain ⟨front, source_eq⟩ := source_of_find?
      [text "Thread", blanks, mark '.', blanks, text "sleep", blanks] rfl found_eq
    exact ⟨_, _, "waitForTimeout".toList, _, saysCall_page (by decide) (by simp), .plain source_eq⟩
  | println =>
    obtain ⟨found, found_eq, outcome_eq⟩ := Option.map_eq_some_iff.mp rule_eq
    obtain rfl := Outcome.emit.inj outcome_eq
    obtain ⟨front, source_eq⟩ := source_of_find? [text "System", blanks, mark '.', blanks, text "out",
      blanks, mark '.', blanks, text "println", blanks] rfl found_eq
    exact ⟨[], "console".toList, "log".toList, _,
      ⟨.inl rfl, fun _ => ⟨rfl, rfl⟩, by decide, by decide, by simp⟩, .converted source_eq⟩
  | driverCall =>
    rw [Rule.convert?] at rule_eq
    split at rule_eq
    · obtain rfl := Outcome.emit.inj (Option.some.inj rule_eq)
      cases no_comment
    · cases rule_eq
  | call =>
    simp only [Rule.convert?] at rule_eq
    split at rule_eq
    · cases rule_eq
    · next found found_eq =>
      split at rule_eq
      · obtain rfl := Outcome.emit.inj (Option.some.inj rule_eq)
        obtain ⟨call, spells, grouped⟩ := spells_of_boundCall found_eq
        obtain ⟨front, spoken⟩ := saysCall_callStatement pages spells grouped
        obtain ⟨lead, binder, before, after, behind, -, -, -, -, -, source_eq⟩ := spells.spelled
        refine ⟨_, _, _, _, spoken, @Passed.converted _ (lead ++ binder ++ call.receiver ++ before
          ++ '.' :: after ++ call.method ++ behind) _ ?_⟩
        rw [source_eq]
        simp
      · cases rule_eq

end Saying

/-- Is something spelled in the text, where no word runs into it? -/
def Uses (spelled : List Char → Prop) (text : List Char) : Prop :=
  ∃ before found after, text = before ++ (found ++ after) ∧ spelled found ∧
    EndsOutside isWordChar before

section Uses

variable {spelled : List Char → Prop} {text front head receiver method passed : List Char}

/-- Something is spelled without the marks that end a call, and has a parenthesis only at its end. -/
def IsPlain (spelled : List Char → Prop) : Prop :=
  ∀ found, spelled found → found ≠ [] ∧ '(' ∉ found.dropLast ∧ ∀ c ∈ ");".toList, c ∉ found

/-- What is used behind the parenthesis of a call is used in its arguments. -/
theorem uses_behind (plain : IsPlain spelled) {before found after : List Char}
    (is_spelled : spelled found) (ends : EndsOutside isWordChar before)
    (text_eq : passed ++ ");".toList = before ++ (found ++ after)) : Uses spelled passed := by
  obtain ⟨nonempty, -, no_mark⟩ := plain found is_spelled
  rw [← List.append_assoc] at text_eq
  obtain ⟨more, passed_eq, -⟩ | ⟨more, found_eq, marks_eq⟩ := List.append_eq_append_iff.mp text_eq.symm
  · exact ⟨before, found, more, by rw [passed_eq, List.append_assoc], is_spelled, ends⟩
  · by_cases no_more : more = []
    · rw [no_more, List.append_nil] at found_eq
      exact ⟨before, found, [], by rw [← found_eq, List.append_nil], is_spelled, ends⟩
    · -- What is found would end among the marks.
      have last_eq := congrArg List.getLast? found_eq
      rw [List.getLast?_append_of_ne_nil _ nonempty, List.getLast?_append_of_ne_nil _ no_more,
        List.getLast?_eq_some_getLast nonempty] at last_eq
      have last_mark : found.getLast nonempty ∈ ");".toList := by
        rw [marks_eq]
        exact List.mem_append_left _ (List.mem_of_getLast? last_eq.symm)
      exact absurd (List.getLast_mem nonempty) (no_mark _ last_mark)

/-- A call uses what is used up to its parenthesis, or in its arguments. -/
theorem uses_call (plain : IsPlain spelled)
    (uses : Uses spelled (head ++ '(' :: (passed ++ ");".toList))) :
    Uses spelled (head ++ ['(']) ∨ Uses spelled passed := by
  obtain ⟨before, found, after, text_eq, is_spelled, ends⟩ := uses
  rw [List.append_cons] at text_eq
  obtain ⟨more, before_eq, behind_eq⟩ | ⟨more, head_eq, behind_eq⟩ :=
    List.append_eq_append_iff.mp text_eq
  · -- It begins in the arguments.
    refine .inr (uses_behind plain is_spelled (fun c member => ?_) behind_eq)
    refine ends c ?_
    rw [before_eq, List.getLast?_append]
    rw [Option.mem_def] at member
    simp [member]
  · obtain ⟨rest, more_eq, -⟩ | ⟨rest, found_eq, rest_eq⟩ := List.append_eq_append_iff.mp behind_eq
    · exact .inl ⟨before, found, rest, by rw [head_eq, more_eq], is_spelled, ends⟩
    · by_cases no_rest : rest = []
      · rw [no_rest, List.append_nil] at found_eq
        exact .inl ⟨before, found, [], by rw [head_eq, found_eq, List.append_nil], is_spelled, ends⟩
      · by_cases no_more : more = []
        · rw [no_more, List.nil_append] at found_eq
          exact .inr (@uses_behind _ _ plain [] found after is_spelled nofun
            (by rw [rest_eq, found_eq]; rfl))
        · -- It would run over the parenthesis.
          have last_eq := congrArg List.getLast? head_eq
          rw [List.getLast?_concat, List.getLast?_append_of_ne_nil _ no_more] at last_eq
          refine absurd ?_ (plain found is_spelled).2.1
          rw [found_eq, List.dropLast_append_of_ne_nil no_rest]
          exact List.mem_append_left _ (List.mem_of_getLast? last_eq.symm)

/-- A statement uses something up to the parenthesis of its call, or in the arguments. -/
theorem SaysCall.uses (spoken : SaysCall text front receiver method passed) (plain : IsPlain spelled)
    (uses : Uses spelled text) :
    Uses spelled (front ++ (receiver ++ '.' :: method) ++ ['(']) ∨ Uses spelled passed :=
  uses_call plain (spoken.text_eq ▸ uses)

/-- Every call but the one that prints is awaited. -/
theorem SaysCall.awaitsCall (spoken : SaysCall text front receiver method passed)
    (other : ¬(receiver = "console".toList ∧ method = "log".toList)) :
    ∃ opening, AwaitsCall text opening receiver method := by
  rcases spoken.is_front with nothing | ⟨opening, named, front_eq⟩
  · exact absurd (spoken.prints nothing) other
  · refine ⟨opening, spoken.receiver_word, spoken.method_word, named, passed ++ ");".toList, ?_⟩
    rw [spoken.text_eq, front_eq]
    simp

end Uses

end SuiteMigration.Test
