import SuiteMigration.Proofs.Test.Passing

/-!
# Calls on the driver

A script has no driver. A statement that begins with a call on it is navigation, an assertion or
left for review. Behind a type, a keyword or a variable the call is taken for one on any other
object, and the script awaits it on the driver. Calls on it in arguments are passed on with these.
-/
namespace SuiteMigration.Test

open Pattern Text Output

variable {pages : List String} {statement : Output.Statement} {opening : Opening}

section Led

variable {source : List Char}

private theorem head?_of_led (led : DriverLed source) : source.head? = some 'd' := by
  obtain ⟨gap, rest, -, rfl⟩ := led
  rfl

theorem fails_text_of_led {first : Char} {word : List Char} {more : Pattern}
    (led : DriverLed source) (other : first ≠ 'd') :
    ((literal (first :: word)).seq more).Fails source := by
  refine (fails_literal (by simp) ?_).seq
  rw [head?_of_led led]
  simpa using other

private theorem titleVariable_of_led (led : DriverLed source) :
    titleVariable.find? source = none := by
  have no_final : (Pattern.all [text "final", someBlanks]).Fails source :=
    fails_text_of_led led (by decide)
  exact find?_anchored_eq_none (no_final.optional_seq (fails_text_of_led led (by decide)))

private theorem sleepCall_of_led (led : DriverLed source) : sleepCall.find? source = none :=
  find?_anchored_eq_none (fails_text_of_led led (by decide))

private theorem printlnCall_of_led (led : DriverLed source) : printlnCall.find? source = none :=
  find?_anchored_eq_none (fails_text_of_led led (by decide))

end Led

/-- A statement that begins with a call on the driver is an assertion, navigation or left for
review. -/
theorem convertStatement?_of_led {source : String} (led : DriverLed source.toList) :
    convertStatement? pages source = some .assertionDropped ∨
      ∃ statement, convertStatement? pages source = some (.emit statement) ∧
        (statement.kind = .navigate
          ∨ statement = .review "Driver call not converted" source.toList) := by
  have driver_eq : Rule.driverCall.convert? pages source.toList
      = some (.emit (.review "Driver call not converted" source.toList)) := by
    rw [Rule.convert?, if_pos (driverDot_occursIn led)]
  simp only [convertStatement?, Rule.all, List.findSome?_cons, driver_eq]
  split
  · next assertion_eq =>
    rw [Rule.convert?] at assertion_eq
    split at assertion_eq
    · obtain rfl := Option.some.inj assertion_eq
      exact .inl rfl
    · cases assertion_eq
  split
  · next navigate_eq =>
    obtain ⟨found, -, rfl⟩ := Option.map_eq_some_iff.mp navigate_eq
    exact .inr ⟨_, rfl, .inl rfl⟩
  · simp only [Rule.convert?, titleVariable_of_led led, sleepCall_of_led led,
      printlnCall_of_led led, Option.map_none]
    exact .inr ⟨_, rfl, .inr rfl⟩

/-- Nothing stands in front of a call that begins its statement. -/
theorem Call.Spells.bound_of_not_led {call : Call} {source : List Char}
    (spells : call.Spells source) (on_driver : call.receiver = "driver".toList)
    (not_led : ¬DriverLed source) :
    call.type?.isSome = true ∨ call.bound?.isSome = true := by
  refine spells.leads_or_bound.resolve_left ?_
  rintro ⟨before, after, behind, is_before, -, -, source_eq⟩
  refine not_led ⟨before, after ++ call.method ++ behind ++ '(' :: call.arguments ++ [')'],
    is_before, ?_⟩
  rw [source_eq, on_driver]
  simp

theorem Emits.awaits_driver {source : List Char} (emits : Emits pages source statement)
    (awaits : Awaits statement.text.toList opening "driver".toList) :
    ¬DriverLed source ∧ ∃ call : Call, call.Spells source ∧ call.receiver = "driver".toList ∧
      (call.type?.isSome = true ∨ call.bound?.isSome = true) := by
  cases emits with
  | review =>
    obtain ⟨rest, review_eq⟩ := review_text "Driver call not converted" source
    rw [review_eq, ← List.nil_append ('/' :: rest)] at awaits
    exact absurd awaits (Awaits.not_behind rfl (by decide) (by decide))
  | console prints =>
    rw [prints] at awaits
    exact absurd awaits (Awaits.not_behind (by decide) (by decide) (by decide))
  | page _ on_page => exact absurd (awaits.unique on_page.awaits).2 (by decide)
  | title _ _ _ _ _ on_page => exact absurd (awaits.unique on_page.awaits).2 (by decide)
  | @call call _ spells _ not_led on_receiver =>
    have on_driver := (awaits.unique on_receiver.awaits).2.symm
    exact ⟨not_led, call, spells, on_driver, spells.bound_of_not_led on_driver not_led⟩

/-- The name of the driver with the dot of a call behind it. -/
def OnDriver (found : List Char) : Prop :=
  ∃ gap, AllBlank gap ∧ found = "driver".toList ++ (gap ++ ['.'])

private theorem isPlain_onDriver : IsPlain OnDriver := by
  rintro _ ⟨gap, is_gap, rfl⟩
  have outside : ∀ c ∈ "();".toList, (!isBlank c && !"driver.".toList.contains c) = true :=
    List.all_eq_true.mp (by decide)
  have no_mark : ∀ c ∈ "();".toList, c ∉ "driver".toList ++ (gap ++ ['.']) := by
    intro c is_mark member
    obtain ⟨no_blank, not_in_name⟩ : isBlank c = false ∧ c ∉ "driver.".toList := by
      simpa using outside c is_mark
    simp only [List.mem_append, List.mem_singleton] at member
    rcases member with in_name | in_gap | rfl
    · exact not_in_name (List.mem_append_left ['.'] in_name)
    · exact not_mem_of_allBlank is_gap no_blank in_gap
    · exact absurd is_mark (by decide)
  exact ⟨by simp, fun member => no_mark '(' (by decide) (List.dropLast_subset _ member),
    fun c is_mark => no_mark c (List.mem_cons_of_mem _ is_mark)⟩

/-- In front of its parenthesis a call is on the driver only if that is its receiver. -/
theorem SaysCall.receiver_of_uses {text front receiver method passed : List Char}
    (spoken : SaysCall text front receiver method passed)
    (uses : Uses OnDriver (front ++ (receiver ++ '.' :: method) ++ ['('])) :
    receiver = "driver".toList := by
  obtain ⟨before, _, after, text_eq, ⟨gap, is_gap, rfl⟩, ends⟩ := uses
  have no_dot : '.' ∉ front ++ receiver := by
    rw [List.mem_append, not_or]
    exact ⟨spoken.is_front.notMem (by decide),
      not_mem_of_isWord spoken.receiver_word (by decide)⟩
  have no_dot_behind : '.' ∉ method ++ ['('] := by
    rw [List.mem_append, not_or]
    exact ⟨not_mem_of_isWord spoken.method_word (by decide), by decide⟩
  -- The dot of the call is the only one.
  have dots_eq : front ++ receiver ++ '.' :: (method ++ ['('])
      = before ++ "driver".toList ++ gap ++ '.' :: after := by simpa using text_eq
  have names_eq : before ++ "driver".toList ++ gap = front ++ receiver ++ [] := by
    rw [List.append_nil]
    exact ((List.append_cons_inj_of_notMem no_dot no_dot_behind).mp dots_eq).1.symm
  have no_gap : AllBlank [] := fun c member => absurd member List.not_mem_nil
  exact (last_word_inj (by decide) spoken.receiver_word is_gap no_gap ends spoken.is_front.ends
    names_eq).2.symm

section Body

variable {body : List String}

/-- A statement of the body that begins with a call on the driver is no call of the script. -/
theorem ofBody_of_led (caseName : String) {source : String} (source_mem : source ∈ body)
    (led : DriverLed source.toList) :
    convertStatement? pages source = some .assertionDropped ∨
      ∃ statement ∈ (Case.ofBody caseName pages body).statements,
        convertStatement? pages source = some (.emit statement) ∧ (statement.kind = .navigate
          ∨ statement = .review "Driver call not converted" source.toList) := by
  refine (convertStatement?_of_led led).imp_right ?_
  rintro ⟨statement, emitted, diverted⟩
  refine ⟨statement, ?_, emitted, diverted⟩
  rw [statements_ofBody, List.mem_filterMap]
  exact ⟨source, source_mem, by rw [emitted]; rfl⟩

/-- A statement of the body that begins with a call on the driver is navigation, an assertion or left
for review. Where a script awaits a call on the driver, the source has the call behind a type, a keyword
or a variable. Every other call on the driver is one in the arguments that a statement passes on. -/
theorem ofBody_awaits_driver (caseName : String) (pages body : List String) :
    (∀ source ∈ body, DriverLed source.toList →
      convertStatement? pages source = some .assertionDropped ∨
      ∃ statement ∈ (Case.ofBody caseName pages body).statements,
        convertStatement? pages source = some (.emit statement) ∧ (statement.kind = .navigate
          ∨ statement = .review "Driver call not converted" source.toList)) ∧
    (∀ statement ∈ (Case.ofBody caseName pages body).statements, ∀ opening,
      Awaits statement.text.toList opening "driver".toList →
      ∃ source ∈ body, ¬DriverLed source.toList ∧ ∃ call : Call, call.Spells source.toList ∧
        call.receiver = "driver".toList ∧ (call.type?.isSome = true ∨ call.bound?.isSome = true)) ∧
    ∀ statement ∈ (Case.ofBody caseName pages body).statements, statement.kind.isComment = false →
      Uses OnDriver statement.text.toList →
      (∃ opening, Awaits statement.text.toList opening "driver".toList) ∨
      ∃ source ∈ body, ∃ front receiver method passed,
        SaysCall statement.text.toList front receiver method passed ∧
        Passed source.toList passed ∧ Uses OnDriver passed := by
  refine ⟨fun source source_mem led => ofBody_of_led caseName source_mem led, ?_, ?_⟩
  · intro statement member opening awaits
    obtain ⟨source, source_mem, emitted⟩ := exists_of_mem_ofBody member
    exact ⟨source, source_mem, (emits_of_convertStatement? emitted).awaits_driver awaits⟩
  · intro statement member no_comment uses
    obtain ⟨source, source_mem, emitted⟩ := exists_of_mem_ofBody member
    obtain ⟨front, receiver, method, passed, spoken, is_passed⟩ := exists_saysCall emitted no_comment
    -- What the statement uses is its own call, or in the arguments of that.
    rcases spoken.uses isPlain_onDriver uses with in_front | in_arguments
    · obtain rfl := spoken.receiver_of_uses in_front
      obtain ⟨opening, calls⟩ := spoken.awaitsCall fun printing => absurd printing.1 (by decide)
      exact .inl ⟨opening, calls.awaits⟩
    · exact .inr ⟨source, source_mem, front, receiver, method, passed, spoken, is_passed, in_arguments⟩

/-- A call on the driver in the arguments of another call. -/
example : (Case.ofBody "t" [] ["home.open(driver.getTitle())"]).statements
    = [⟨.methodCall, "await home.open(driver.getTitle());"⟩] := by
  decide +kernel

end Body

/-- What becomes of the address of a page that a test reads from the driver. -/
def addressStatement : Output.Statement :=
  ⟨.methodCall, "const url = await driver.getCurrentUrl();"⟩

private theorem addressStatement_mem : addressStatement
    ∈ (Case.ofBody "t" [] ["String url = driver.getCurrentUrl()"]).statements := by
  decide +kernel

private theorem addressStatement_awaits :
    Awaits addressStatement.text.toList (.declares "url".toList) "driver".toList := by
  have is_word : IsWord "url".toList := by decide
  exact ⟨by decide, is_word, "getCurrentUrl();".toList, by decide⟩

theorem ofBody_awaits_driver_address :
    ∃ source ∈ ["String url = driver.getCurrentUrl()"], ¬DriverLed source.toList ∧
      ∃ call : Call, call.Spells source.toList ∧ call.receiver = "driver".toList ∧
        (call.type?.isSome = true ∨ call.bound?.isSome = true) :=
  (ofBody_awaits_driver "t" [] ["String url = driver.getCurrentUrl()"]).2.1 _ addressStatement_mem _
    addressStatement_awaits

/-- A script may await a call on the driver. -/
theorem ofBody_awaits_driver_not_never :
    ¬ ∀ (caseName : String) (pages body : List String),
      ∀ statement ∈ (Case.ofBody caseName pages body).statements, ∀ opening,
        ¬Awaits statement.text.toList opening "driver".toList := by
  intro never
  exact never "t" [] _ _ addressStatement_mem _ addressStatement_awaits

end SuiteMigration.Test
