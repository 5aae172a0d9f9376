import SuiteMigration.Proofs.Test.Words

/-!
# Statements of a test script

What a converted statement says, and which call of the source it says it for. A statement of a
script prints, or it awaits a call: alone, for a variable, or for one that it declares.
-/
namespace SuiteMigration.Test

open Pattern Text Output

/-- What stands in front of an awaited call. -/
inductive Opening where
  | plain
  | assigns (name : List Char)
  | declares (name : List Char)
  deriving DecidableEq

namespace Opening

def text : Opening → List Char
  | plain => []
  | assigns name => name ++ " = ".toList
  | declares name => "const ".toList ++ name ++ " = ".toList

def IsNamed : Opening → Prop
  | plain => True
  | assigns name | declares name => IsWord name

/-- The first word of a statement with the opening. -/
def firstWord : Opening → List Char
  | plain => "await".toList
  | assigns name => name
  | declares _ => "const".toList

/-- What follows the first word and a space. -/
def behind (call : List Char) : Opening → List Char
  | plain => call
  | assigns _ => '=' :: ' ' :: ("await ".toList ++ call)
  | declares name => name ++ ' ' :: '=' :: ' ' :: ("await ".toList ++ call)

@[simp] theorem text_plain : plain.text = [] := rfl

@[simp] theorem text_assigns (name : List Char) :
    (assigns name).text = name ++ " = ".toList := rfl

@[simp] theorem text_declares (name : List Char) :
    (declares name).text = "const ".toList ++ name ++ " = ".toList := rfl

private theorem text_append (opening : Opening) (call : List Char) :
    opening.text ++ "await ".toList ++ call = opening.firstWord ++ ' ' :: opening.behind call := by
  cases opening <;> simp [firstWord, behind]

theorem IsNamed.firstWord {opening : Opening} (named : opening.IsNamed) :
    opening.firstWord.all isWordChar = true := by
  cases opening with
  | plain | declares => rfl
  | assigns name => exact IsWord.all named

end Opening

/-- Does the text await a call on the receiver? -/
structure Awaits (text : List Char) (opening : Opening) (receiver : List Char) : Prop where
  is_word : IsWord receiver
  named : opening.IsNamed
  spelled : ∃ rest, text = opening.text ++ "await ".toList ++ (receiver ++ '.' :: rest)

section Awaits

variable {text receiver other name rest : List Char} {opening second : Opening}

/-- The first word of a statement that awaits, and what follows it. -/
theorem Awaits.behind_eq (awaits : Awaits text opening receiver) {word : List Char}
    (is_word : word.all isWordChar = true) (text_eq : text = word ++ ' ' :: rest) :
    opening.firstWord = word ∧ ∃ more, opening.behind (receiver ++ '.' :: more) = rest := by
  obtain ⟨more, spelled⟩ := awaits.spelled
  rw [spelled, opening.text_append] at text_eq
  obtain ⟨word_eq, -, behind_eq⟩ :=
    word_append_inj awaits.named.firstWord is_word (by decide) (by decide) text_eq
  exact ⟨word_eq, more, behind_eq⟩

theorem Awaits.declares (awaits : Awaits text opening receiver) (is_word : IsWord name)
    (text_eq : text = "const ".toList ++ name ++ " = ".toList ++ rest) :
    opening = .declares name := by
  have split_eq : text = "const".toList ++ ' ' :: (name ++ ' ' :: '=' :: ' ' :: rest) := by
    simp [text_eq]
  obtain ⟨word_eq, more, behind_eq⟩ := awaits.behind_eq (by decide) split_eq
  cases opening with
  | plain => cases word_eq
  | assigns other => exact absurd behind_eq.symm (is_word.append_ne_cons (by decide))
  | declares other =>
    have other_word : IsWord other := awaits.named
    rw [(word_append_inj other_word.all is_word.all (by decide) (by decide) behind_eq).1]

theorem Awaits.assigns (awaits : Awaits text opening receiver) (is_word : IsWord name)
    (text_eq : text = name ++ " = await ".toList ++ rest) : opening = .assigns name := by
  have split_eq : text = name ++ ' ' :: '=' :: ' ' :: ("await ".toList ++ rest) := by
    simp [text_eq]
  obtain ⟨word_eq, more, behind_eq⟩ := awaits.behind_eq is_word.all split_eq
  cases opening with
  | plain => exact absurd behind_eq (awaits.is_word.append_ne_cons (by decide))
  | assigns other => rw [show other = name from word_eq]
  | declares other =>
    have other_word : IsWord other := awaits.named
    exact absurd behind_eq (other_word.append_ne_cons (by decide))

theorem Awaits.plain (awaits : Awaits text opening receiver) (is_word : IsWord other)
    (text_eq : text = "await ".toList ++ (other ++ '.' :: rest)) : opening = .plain := by
  have split_eq : text = "await".toList ++ ' ' :: (other ++ '.' :: rest) := by simp [text_eq]
  obtain ⟨word_eq, more, behind_eq⟩ := awaits.behind_eq (by decide) split_eq
  cases opening with
  | plain => rfl
  | assigns name => exact absurd behind_eq.symm (is_word.append_ne_cons (by decide))
  | declares name => cases word_eq

/-- An awaited call is read in one way. -/
theorem Awaits.unique (first : Awaits text opening receiver) (again : Awaits text second other) :
    opening = second ∧ receiver = other := by
  obtain ⟨more, again_eq⟩ := again.spelled
  have same_opening : opening = second := by
    cases second with
    | plain => exact first.plain again.is_word again_eq
    | assigns name => exact first.assigns again.named (by simpa using again_eq)
    | declares name => exact first.declares again.named (by simpa using again_eq)
  obtain ⟨rest, first_eq⟩ := first.spelled
  rw [first_eq, same_opening] at again_eq
  exact ⟨same_opening, (word_append_inj first.is_word.all again.is_word.all (by decide) (by decide)
    (List.append_cancel_left again_eq)).1⟩

/-- A text with another mark behind its first word awaits nothing. -/
theorem Awaits.not_behind {word : List Char} {mark : Char}
    (is_word : word.all isWordChar = true) (is_mark : isWordChar mark = false)
    (no_space : mark ≠ ' ') : ¬Awaits (word ++ mark :: rest) opening receiver := by
  intro awaits
  obtain ⟨more, text_eq⟩ := awaits.spelled
  rw [opening.text_append] at text_eq
  have split_eq := word_append_inj is_word awaits.named.firstWord is_mark (by decide) text_eq
  exact no_space split_eq.2.1

end Awaits

/-- Does the text await a call of the method on the receiver? -/
structure AwaitsCall (text : List Char) (opening : Opening) (receiver method : List Char) :
    Prop where
  receiver_word : IsWord receiver
  method_word : IsWord method
  named : opening.IsNamed
  spelled : ∃ rest,
    text = opening.text ++ "await ".toList ++ (receiver ++ '.' :: (method ++ '(' :: rest))

section AwaitsCall

variable {text receiver other method otherMethod : List Char} {opening second : Opening}

theorem AwaitsCall.awaits (calls : AwaitsCall text opening receiver method) :
    Awaits text opening receiver := by
  obtain ⟨rest, spelled⟩ := calls.spelled
  exact ⟨calls.receiver_word, calls.named, method ++ '(' :: rest, spelled⟩

/-- The awaited method is read in one way, too. -/
theorem AwaitsCall.unique (first : AwaitsCall text opening receiver method)
    (again : AwaitsCall text second other otherMethod) :
    opening = second ∧ receiver = other ∧ method = otherMethod := by
  obtain ⟨rfl, rfl⟩ := first.awaits.unique again.awaits
  obtain ⟨rest, first_eq⟩ := first.spelled
  obtain ⟨more, again_eq⟩ := again.spelled
  rw [first_eq] at again_eq
  have behind_eq := (List.cons.inj (List.append_cancel_left
    (List.append_cancel_left again_eq))).2
  exact ⟨rfl, rfl, (word_append_inj first.method_word.all again.method_word.all (by decide)
    (by decide) behind_eq).1⟩

end AwaitsCall

/-- Does the statement begin with a dot behind the driver? -/
def DriverLed (statement : List Char) : Prop :=
  ∃ gap rest, AllBlank gap ∧ statement = "driver".toList ++ gap ++ '.' :: rest

/-- What a converted call has in front: an instance of a page takes no result. -/
def Call.opening (pages : List String) (call : Call) : Opening :=
  match call.bound? with
  | none => .plain
  | some name =>
    if pages.contains (String.ofList name) then .plain
    else if call.type?.isSome then .declares name
    else .assigns name

/-- The statements that a statement of the source can become. -/
inductive Emits (pages : List String) (source : List Char) : Output.Statement → Prop where
  | review (led : DriverLed source) :
      Emits pages source (.review "Driver call not converted" source)
  | console {text : String} {rest : List Char}
      (prints : text.toList = "console".toList ++ '.' :: rest) :
      Emits pages source ⟨.rawPassthrough, text⟩
  | page {kind : Kind} {text : String} {method : List Char}
      (method_mem : method ∈ ["goto".toList, "waitForTimeout".toList])
      (calls : AwaitsCall text.toList .plain "page".toList method) : Emits pages source ⟨kind, text⟩
  | title {call : Call} {name : List Char} {text : String} (spells : call.Spells source)
      (typed : call.type?.isSome = true) (bound : call.bound? = some name)
      (on_driver : call.receiver = "driver".toList) (is_title : call.method = "getTitle".toList)
      (calls : AwaitsCall text.toList (.declares name) "page".toList "title".toList) :
      Emits pages source ⟨.titleQuery, text⟩
  | call {call : Call} {text : String} (spells : call.Spells source)
      (balanced : isBalanced call.arguments = true) (not_led : ¬DriverLed source)
      (calls : AwaitsCall text.toList (call.opening pages) call.receiver call.method) :
      Emits pages source ⟨.methodCall, text⟩

section Emits

variable {pages : List String} {source : List Char} {statement : Output.Statement} {call : Call}
  {found : Match}

theorem review_text (reason : String) (source : List Char) :
    ∃ rest, (Output.Statement.review reason source).text.toList = '/' :: rest := by
  simp only [Output.Statement.review, String.toList_append, List.append_assoc]
  exact ⟨_, rfl⟩

theorem driverDot_occursIn (led : DriverLed source) : driverDot.occursIn source = true := by
  obtain ⟨gap, rest, is_gap, rfl⟩ := led
  have takes : (Pattern.all [text "driver", blanks, mark '.']).Takes
      ("driver".toList ++ (gap ++ '.' :: rest)) rest [] [] := by
    have gap_takes : blanks.Takes (gap ++ '.' :: rest) ('.' :: rest) [] [] :=
      (repeats_one is_gap (by simp; decide)).takes
    exact (takes_literal _).seq (gap_takes.seq ((takes_mark '.').seq takes_empty))
  have text_eq : "driver".toList ++ (gap ++ '.' :: rest)
      = ("driver".toList ++ gap ++ ['.']) ++ rest := by simp
  rw [List.append_assoc]
  exact Option.isSome_of_mem (find?_anchored text_eq takes)

theorem driverLed_of_occursIn (occurs : driverDot.occursIn source = true) : DriverLed source := by
  obtain ⟨found, found_eq⟩ := Option.isSome_iff_exists.mp occurs
  obtain ⟨stop, found_mem, -⟩ := mem_ways_of_find?_anchored found_eq
  obtain ⟨_, rest_eq, _, _, rfl, is_driver, gap, _, rfl, is_gap, _, _, rfl, is_dot, rfl⟩ :=
    accepts_of_mem_ways found_mem
  refine ⟨gap, stop.rest, accepts_blanks.mp is_gap, ?_⟩
  rw [accepts_literal.mp is_driver, accepts_mark.mp is_dot] at rest_eq
  simpa using rest_eq

theorem kind_callStatement (pages : List String) (found : Match) :
    (callStatement pages found).kind = .methodCall := by
  unfold callStatement
  split
  · rfl
  · split
    · rfl
    · split <;> rfl

/-- The text of a converted call, from what takes its result to its converted arguments. -/
theorem text_callStatement (pages : List String) (grouped : call.Grouped found) :
    (callStatement pages found).text.toList = (call.opening pages).text ++ "await ".toList
      ++ (call.receiver ++ '.' :: (call.method ++ '(' :: (convertArguments (trim call.arguments)
        ++ ");".toList))) := by
  unfold callStatement Call.opening
  rw [grouped.bound?, grouped.type?, grouped.receiver, grouped.method, grouped.arguments]
  cases call.bound? with
  | none => simp
  | some name =>
    simp only [Option.map_some]
    split
    · simp
    · split <;> simp

theorem Call.Spells.named_opening (spells : call.Spells source) (pages : List String) :
    (call.opening pages).IsNamed := by
  unfold Call.opening
  cases bound_eq : call.bound? with
  | none => trivial
  | some name =>
    have is_word := spells.isWord_variable bound_eq
    dsimp only
    split
    · trivial
    · split <;> exact is_word

private theorem awaitsCall_callStatement (pages : List String) (spells : call.Spells source)
    (grouped : call.Grouped found) :
    AwaitsCall (callStatement pages found).text.toList (call.opening pages) call.receiver
      call.method :=
  ⟨spells.receiver, spells.method, spells.named_opening pages, _, text_callStatement pages grouped⟩

private theorem awaitsCall_page {head : String} {method : List Char} (is_word : IsWord method)
    (on_page : "await page.".toList ++ method ++ ['('] = head.toList) (argument last : String) :
    AwaitsCall (head ++ argument ++ last).toList .plain "page".toList method :=
  ⟨by decide, is_word, trivial, argument.toList ++ last.toList, by simp [← on_page]⟩

private theorem emits_of_titleVariable (found_eq : titleVariable.find? source = some found) :
    Emits pages source ⟨.titleQuery, "const " ++ String.ofList (found.group "variable")
      ++ " = await page.title();"⟩ := by
  obtain ⟨call, spells, typed, bound, on_driver, is_title⟩ := spells_of_titleVariable found_eq
  refine .title spells typed bound on_driver is_title
    ⟨by decide, by decide, spells.isWord_variable bound, ?_⟩
  exact ⟨");".toList, by simp⟩

private theorem emits_of_call (not_led : ¬DriverLed source)
    (emitted : Rule.call.convert? pages source = some (.emit statement)) :
    Emits pages source statement := by
  simp only [Rule.convert?] at emitted
  split at emitted
  · cases emitted
  · next found found_eq =>
    obtain ⟨call, spells, grouped⟩ := spells_of_boundCall found_eq
    split at emitted
    · next balanced =>
      obtain rfl := Outcome.emit.inj (Option.some.inj emitted)
      rw [grouped.arguments] at balanced
      have kind_eq := kind_callStatement pages found
      have calls := awaitsCall_callStatement pages spells grouped
      cases statement_eq : callStatement pages found with
      | mk kind text =>
        rw [statement_eq] at kind_eq calls
        obtain rfl : kind = .methodCall := kind_eq
        exact .call spells balanced not_led calls
    · cases emitted

/-- What becomes of a statement is one of the forms. -/
theorem emits_of_convertStatement? {source : String}
    (emitted : convertStatement? pages source = some (.emit statement)) :
    Emits pages source.toList statement := by
  simp only [convertStatement?, Rule.all, List.findSome?_cons, List.findSome?_nil] at emitted
  -- The rules are gone through in their order.
  split at emitted
  · next rule_eq =>
    rw [emitted, Rule.convert?] at rule_eq
    split at rule_eq <;> cases rule_eq
  split at emitted
  · next rule_eq =>
    obtain ⟨found, -, outcome_eq⟩ := Option.map_eq_some_iff.mp (rule_eq.trans emitted)
    obtain rfl := Outcome.emit.inj outcome_eq
    exact .page List.mem_cons_self (awaitsCall_page (by decide) (by decide) _ _)
  split at emitted
  · next rule_eq =>
    obtain ⟨found, found_eq, outcome_eq⟩ := Option.map_eq_some_iff.mp (rule_eq.trans emitted)
    obtain rfl := Outcome.emit.inj outcome_eq
    exact emits_of_titleVariable found_eq
  split at emitted
  · next rule_eq =>
    obtain ⟨found, -, outcome_eq⟩ := Option.map_eq_some_iff.mp (rule_eq.trans emitted)
    obtain rfl := Outcome.emit.inj outcome_eq
    exact .page (List.mem_cons_of_mem _ (List.mem_singleton_self _))
      (awaitsCall_page (by decide) (by decide) _ _)
  split at emitted
  · next rule_eq =>
    obtain ⟨found, -, outcome_eq⟩ := Option.map_eq_some_iff.mp (rule_eq.trans emitted)
    obtain rfl := Outcome.emit.inj outcome_eq
    exact .console (by simp; rfl)
  split at emitted
  · next rule_eq =>
    rw [emitted, Rule.convert?] at rule_eq
    split at rule_eq
    · next occurs =>
      obtain rfl := Outcome.emit.inj (Option.some.inj rule_eq)
      exact .review (driverLed_of_occursIn occurs)
    · cases rule_eq
  · next driver_none =>
    -- No call on the driver is left over for the last rule.
    have not_led : ¬DriverLed source.toList := by
      intro led
      simp [Rule.convert?, driverDot_occursIn led] at driver_none
    split at emitted
    · next rule_eq => exact emits_of_call not_led (rule_eq.trans emitted)
    · cases emitted

end Emits

def Outcome.statement? : Outcome → Option Output.Statement
  | .emit statement => some statement
  | .assertionDropped => none

private theorem statements_foldl_add (outcomes : List Outcome) (case : Case) :
    (outcomes.foldl Case.add case).statements
      = case.statements ++ outcomes.filterMap Outcome.statement? := by
  induction outcomes generalizing case with
  | nil => simp
  | cons outcome outcomes ih =>
    rw [List.foldl_cons, ih]
    cases outcome with
    | emit statement => simp [Case.add, Outcome.statement?]
    | assertionDropped => simp only [Case.add, List.filterMap_cons, Outcome.statement?]

/-- The statements of a case, in the order of the body. -/
theorem statements_ofBody (name : String) (pages body : List String) :
    (Case.ofBody name pages body).statements
      = body.filterMap fun source => (convertStatement? pages source).bind Outcome.statement? := by
  rw [Case.ofBody, statements_foldl_add, List.filterMap_filterMap, List.nil_append]

theorem convertStatement?_of_bind {pages : List String} {source : String}
    {statement : Output.Statement}
    (emitted : (convertStatement? pages source).bind Outcome.statement? = some statement) :
    convertStatement? pages source = some (.emit statement) := by
  obtain ⟨outcome, outcome_eq, statement_eq⟩ := Option.bind_eq_some_iff.mp emitted
  cases outcome with
  | emit other =>
    obtain rfl := Option.some.inj statement_eq
    exact outcome_eq
  | assertionDropped => cases statement_eq

theorem exists_of_mem_ofBody {pages body : List String} {caseName : String}
    {statement : Output.Statement}
    (member : statement ∈ (Case.ofBody caseName pages body).statements) :
    ∃ source ∈ body, convertStatement? pages source = some (.emit statement) := by
  rw [statements_ofBody] at member
  obtain ⟨source, source_mem, emitted⟩ := List.mem_filterMap.mp member
  exact ⟨source, source_mem, convertStatement?_of_bind emitted⟩

theorem emits_of_bind {pages : List String} {source : String} {statement : Output.Statement}
    (emitted : (convertStatement? pages source).bind Outcome.statement? = some statement) :
    Emits pages source.toList statement :=
  emits_of_convertStatement? (convertStatement?_of_bind emitted)

end SuiteMigration.Test
