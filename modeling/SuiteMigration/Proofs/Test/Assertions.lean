import SuiteMigration.Proofs.Pattern.Occurrence
import SuiteMigration.Proofs.Test.Passing

/-!
# Assertions

A statement that begins with an assertion is dropped and counted, and the script is that of the
other statements. Behind a type, a keyword or a variable an assertion is taken for a call like any
other, and the script awaits it. Assertions in arguments are passed on with these.
-/
namespace SuiteMigration.Test

open Pattern Text Output

/-- Is the method of the receiver an assertion? -/
def IsAssertion (receiver method : List Char) : Prop :=
  "assert".toList <+: method ∨ receiver = "Assert".toList ∧ method = "fail".toList

instance (receiver method : List Char) : Decidable (IsAssertion receiver method) :=
  inferInstanceAs (Decidable (_ ∨ _))

/-- Does the statement begin with a call of an assertion, on a name or on none? -/
inductive AssertionLed : List Char → Prop where
  | alone {method gap rest : List Char} (is_word : IsWord method)
      (asserts : "assert".toList <+: method) (is_gap : AllBlank gap) :
      AssertionLed (method ++ gap ++ '(' :: rest)
  | named {receiver before after method gap rest : List Char} (is_name : IsWord receiver)
      (is_before : AllBlank before) (is_after : AllBlank after) (is_word : IsWord method)
      (asserts : IsAssertion receiver method) (is_gap : AllBlank gap) :
      AssertionLed (receiver ++ before ++ '.' :: after ++ method ++ gap ++ '(' :: rest)

section Led

variable {statement method receiver : List Char}

/-- What the rule for assertions takes, from the start of a statement. -/
def assertionHead : Pattern :=
  .all [.either
      (.all [.optional (.all [word, blanks, mark '.', blanks]), text "assert",
        .many true wordChar])
      (.all [text "Assert", blanks, mark '.', blanks, text "fail"]),
    blanks, mark '(']

/-- A method of which the name begins as that of an assertion does. -/
theorem accepts_assertName : (all [text "assert", .many true wordChar]).Accepts method ↔
    IsWord method ∧ "assert".toList <+: method := by
  constructor
  · rintro ⟨_, _, rfl, is_assert, more, _, rfl, is_more, rfl⟩
    obtain rfl := accepts_literal.mp is_assert
    rw [List.append_nil]
    refine ⟨⟨by simp, fun c member => ?_⟩, List.prefix_append _ _⟩
    rcases List.mem_append.mp member with inside | behind
    · exact List.all_eq_true.mp (by decide : "assert".toList.all isWordChar = true) c inside
    · exact accepts_many_one.mp is_more c behind
  · rintro ⟨is_word, more, rfl⟩
    refine ⟨"assert".toList, more, rfl, accepts_literal.mpr rfl, more, [],
      (List.append_nil _).symm, ?_, rfl⟩
    exact accepts_many_one.mpr fun c member => is_word.2 c (List.mem_append_right _ member)

private theorem assertionLed_of_accepts {taken rest : List Char}
    (accepted : assertionHead.Accepts taken) :
    AssertionLed (taken ++ rest) := by
  obtain ⟨head, _, rfl, is_head, gap, _, rfl, is_gap, _, _, rfl, is_opening, rfl⟩ := accepted
  obtain rfl := accepts_mark.mp is_opening
  have is_gap := accepts_blanks.mp is_gap
  obtain ⟨lead, method, rfl, is_lead, is_method⟩ | ⟨_, _, rfl, is_name, before, _, rfl, is_before, _,
    _, rfl, is_dot, after, _, rfl, is_after, _, _, rfl, is_method, rfl⟩ := is_head
  · obtain ⟨is_word, asserts⟩ := accepts_assertName.mp is_method
    obtain ⟨receiver, _, rfl, is_name, before, _, rfl, is_before, _, _, rfl, is_dot, after, _, rfl,
      is_after, rfl⟩ | rfl := is_lead
    · obtain rfl := accepts_mark.mp is_dot
      have led : AssertionLed (receiver ++ before ++ '.' :: after ++ method ++ gap ++ '(' :: rest) :=
        .named (accepts_word.mp is_name) (accepts_blanks.mp is_before) (accepts_blanks.mp is_after)
          is_word (.inl asserts) is_gap
      simpa using led
    · have led : AssertionLed (method ++ gap ++ '(' :: rest) := .alone is_word asserts is_gap
      simpa using led
  · obtain rfl := accepts_literal.mp is_name
    obtain rfl := accepts_mark.mp is_dot
    obtain rfl := accepts_literal.mp is_method
    have fails : IsAssertion "Assert".toList "fail".toList := .inr ⟨rfl, rfl⟩
    have led : AssertionLed ("Assert".toList ++ before ++ '.' :: after ++ "fail".toList ++ gap
        ++ '(' :: rest) :=
      .named (by decide) (accepts_blanks.mp is_before) (accepts_blanks.mp is_after) (by decide)
        fails is_gap
    simpa using led

private theorem accepts_of_assertionLed (led : AssertionLed statement) :
    ∃ taken rest, statement = taken ++ rest ∧ assertionHead.Accepts taken := by
  cases led with
  | @alone method gap rest is_word asserts is_gap =>
    have is_method := accepts_assertName.mpr ⟨is_word, asserts⟩
    refine ⟨method ++ (gap ++ ['(']), rest, by simp, method, _, rfl, .inl ?_, gap, _, rfl,
      accepts_blanks.mpr is_gap, ['('], [], rfl, accepts_mark.mpr rfl, rfl⟩
    exact ⟨[], method, rfl, .inr rfl, is_method⟩
  | @named receiver before after method gap rest is_name is_before is_after is_word asserts is_gap =>
    have is_lead : (all [word, blanks, mark '.', blanks]).Accepts
        (receiver ++ (before ++ ('.' :: after))) :=
      ⟨receiver, _, rfl, accepts_word.mpr is_name, before, _, rfl, accepts_blanks.mpr is_before,
        ['.'], after, rfl, accepts_mark.mpr rfl, after, [], (List.append_nil _).symm,
        accepts_blanks.mpr is_after, rfl⟩
    refine ⟨receiver ++ (before ++ ('.' :: after)) ++ method ++ (gap ++ ['(']), rest, by simp,
      _, _, rfl, ?_, gap, _, rfl, accepts_blanks.mpr is_gap, ['('], [], rfl, accepts_mark.mpr rfl,
      rfl⟩
    rcases asserts with asserts | ⟨rfl, rfl⟩
    · exact .inl ⟨_, method, rfl, .inl is_lead, accepts_assertName.mpr ⟨is_word, asserts⟩⟩
    · refine .inr ⟨"Assert".toList, _, (List.append_assoc _ _ _), accepts_literal.mpr rfl, before,
        '.' :: after ++ "fail".toList, by simp, accepts_blanks.mpr is_before, ['.'], _, rfl,
        accepts_mark.mpr rfl, after, "fail".toList, rfl, accepts_blanks.mpr is_after, "fail".toList,
        [], rfl, accepts_literal.mpr rfl, rfl⟩

/-- The rule for assertions knows the statements that begin with one. -/
theorem assertionLed_iff : assertionCall.occursIn statement = true ↔ AssertionLed statement := by
  have free : assertionHead.isFree = true := by rfl
  have occurs_iff : assertionCall.occursIn statement = true ↔ _ := occursIn_anchored free
  rw [occurs_iff]
  constructor
  · rintro ⟨taken, rest, rfl, accepted⟩
    exact assertionLed_of_accepts accepted
  · exact accepts_of_assertionLed

instance : Decidable (AssertionLed statement) :=
  decidable_of_iff _ assertionLed_iff

end Led

section Statement

variable {pages : List String} {source : String} {statement : Output.Statement}
  {opening : Opening} {receiver method : List Char}

/-- What is dropped and counted is what begins with an assertion. -/
theorem convertStatement?_eq_dropped_iff :
    convertStatement? pages source = some .assertionDropped ↔ AssertionLed source.toList := by
  rw [← assertionLed_iff]
  constructor
  · intro dropped
    obtain ⟨rule, -, rule_eq⟩ := List.exists_of_findSome?_eq_some dropped
    -- Every other rule emits a statement or does not know the one it is given.
    cases rule with
    | assertion => simpa [Rule.convert?] using rule_eq
    | navigate | titleBinding | sleep | println | driverCall => simp [Rule.convert?] at rule_eq
    | call =>
      simp only [Rule.convert?] at rule_eq
      split at rule_eq
      · cases rule_eq
      · split at rule_eq <;> cases rule_eq
  · intro occurs
    have rule_eq : Rule.assertion.convert? pages source.toList = some .assertionDropped := by
      rw [Rule.convert?, if_pos occurs]
    rw [convertStatement?, Rule.all, List.findSome?_cons, rule_eq]

private theorem not_assertionLed_of_emit
    (emitted : convertStatement? pages source = some (.emit statement)) :
    ¬AssertionLed source.toList := by
  intro led
  rw [convertStatement?_eq_dropped_iff.mpr led] at emitted
  cases emitted

/-- An awaited assertion is a call of the source behind a type or a variable. -/
theorem awaits_assertion (emitted : convertStatement? pages source = some (.emit statement))
    (awaits : AwaitsCall statement.text.toList opening receiver method)
    (asserts : IsAssertion receiver method) :
    ∃ call : Call, call.Spells source.toList ∧ call.receiver = receiver ∧ call.method = method ∧
      (call.type?.isSome = true ∨ call.bound?.isSome = true) := by
  have not_led := not_assertionLed_of_emit emitted
  -- Comments, prints and calls on the page are no assertions, so it is the call of the source.
  cases emits_of_convertStatement? emitted with
  | review =>
    obtain ⟨rest, review_eq⟩ := review_text "Driver call not converted" source.toList
    have no_await := awaits.awaits
    rw [review_eq, ← List.nil_append ('/' :: rest)] at no_await
    exact absurd no_await (Awaits.not_behind rfl (by decide) (by decide))
  | console prints =>
    have no_await := awaits.awaits
    rw [prints] at no_await
    exact absurd no_await (Awaits.not_behind (by decide) (by decide) (by decide))
  | page method_mem calls =>
    obtain ⟨-, rfl, rfl⟩ := awaits.unique calls
    simp only [List.mem_cons, List.not_mem_nil, or_false] at method_mem
    rcases method_mem with rfl | rfl <;> exact absurd asserts (by decide)
  | title _ _ _ _ _ calls =>
    obtain ⟨-, rfl, rfl⟩ := awaits.unique calls
    exact absurd asserts (by decide)
  | @call call _ spells _ _ calls =>
    obtain ⟨-, rfl, rfl⟩ := awaits.unique calls
    refine ⟨call, spells, rfl, rfl, spells.leads_or_bound.resolve_left ?_⟩
    rintro ⟨before, after, behind, is_before, is_after, is_behind, source_eq⟩
    refine not_led ?_
    rw [source_eq, List.append_assoc, List.cons_append]
    exact .named spells.receiver is_before is_after spells.method asserts is_behind

end Statement

/-- The call of an assertion up to its parenthesis, on some receiver or on none. -/
inductive Asserting : List Char → Prop where
  | method {method gap : List Char} (is_word : IsWord method) (asserts : "assert".toList <+: method)
      (is_gap : AllBlank gap) : Asserting (method ++ gap ++ ['('])
  | fail {before after gap : List Char} (is_before : AllBlank before) (is_after : AllBlank after)
      (is_gap : AllBlank gap) :
      Asserting ("Assert".toList ++ before ++ '.' :: (after ++ ("fail".toList ++ gap)) ++ ['('])

section Asserting

variable {text front receiver method passed : List Char}

/-- Two words with blanks around the dot between them hold no mark. -/
private theorem notMem_dotted {c : Char} {word before after other gap : List Char}
    (is_word : IsWord word)
    (is_before : AllBlank before) (is_after : AllBlank after) (is_other : IsWord other)
    (is_gap : AllBlank gap) (is_mark : isWordChar c = false ∧ isBlank c = false ∧ c ≠ '.') :
    c ∉ word ++ before ++ '.' :: (after ++ (other ++ gap)) := by
  obtain ⟨no_word, no_blank, no_dot⟩ := is_mark
  simp only [List.mem_append, List.mem_cons, not_or]
  exact ⟨⟨not_mem_of_isWord is_word no_word, not_mem_of_allBlank is_before no_blank⟩, no_dot,
    not_mem_of_allBlank is_after no_blank, not_mem_of_isWord is_other no_word,
    not_mem_of_allBlank is_gap no_blank⟩

private theorem isPlain_asserting : IsPlain Asserting := by
  have outside : ∀ c ∈ "();".toList, (!isWordChar c && !isBlank c && c != '.') = true :=
    List.all_eq_true.mp (by decide)
  have marks : ∀ c ∈ "();".toList, isWordChar c = false ∧ isBlank c = false ∧ c ≠ '.' :=
    fun c is_mark => by simpa [and_assoc] using outside c is_mark
  have no_closing : ∀ c ∈ ");".toList, c ≠ '(' := by simp
  rintro _ (⟨is_word, -, is_gap⟩ | ⟨is_before, is_after, is_gap⟩)
  all_goals
    refine ⟨List.append_ne_nil_of_right_ne_nil _ (List.cons_ne_nil _ _), ?_, ?_⟩
  · rw [List.dropLast_concat, List.mem_append, not_or]
    exact ⟨not_mem_of_isWord is_word (by decide), not_mem_of_allBlank is_gap (by decide)⟩
  · intro c is_mark
    obtain ⟨no_word, no_blank, -⟩ := marks c (List.mem_cons_of_mem _ is_mark)
    simp only [List.mem_append, List.mem_singleton, not_or]
    exact ⟨⟨not_mem_of_isWord is_word no_word, not_mem_of_allBlank is_gap no_blank⟩,
      no_closing c is_mark⟩
  · rw [List.dropLast_concat]
    exact notMem_dotted (by decide) is_before is_after (by decide) is_gap (marks '(' (by decide))
  · intro c is_mark
    rw [List.mem_append, not_or, List.mem_singleton]
    exact ⟨notMem_dotted (by decide) is_before is_after (by decide) is_gap
      (marks c (List.mem_cons_of_mem _ is_mark)), no_closing c is_mark⟩

/-- In front of its parenthesis a call is an assertion only by its receiver and its method. -/
theorem SaysCall.isAssertion_of_uses (spoken : SaysCall text front receiver method passed)
    (uses : Uses Asserting (front ++ (receiver ++ '.' :: method) ++ ['('])) :
    IsAssertion receiver method := by
  obtain ⟨before, _, after, text_eq, asserting, ends⟩ := uses
  have no_gap : AllBlank [] := fun c member => absurd member List.not_mem_nil
  have no_mark : '(' ∉ front ++ (receiver ++ '.' :: method) := by
    simp only [List.mem_append, List.mem_cons, not_or]
    exact ⟨spoken.is_front.notMem (by decide),
      not_mem_of_isWord spoken.receiver_word (by decide), by decide,
      not_mem_of_isWord spoken.method_word (by decide)⟩
  -- The parenthesis of the call is the only one.
  have behind_eq (found : List Char)
      (text_eq : front ++ (receiver ++ '.' :: method) ++ ['('] = before ++ (found ++ ['('] ++ after)) :
      before ++ found = front ++ (receiver ++ '.' :: method) := by
    have split_eq : front ++ (receiver ++ '.' :: method) ++ '(' :: []
        = (before ++ found) ++ '(' :: after := by simpa using text_eq
    exact ((List.append_cons_inj_of_notMem no_mark List.not_mem_nil).mp split_eq).1.symm
  cases asserting with
  | @method name gap is_word asserts is_gap =>
    have method_eq : before ++ name ++ gap = (front ++ receiver ++ ['.'] ++ []) ++ method ++ [] := by
      simpa using behind_eq _ text_eq
    obtain ⟨-, rfl⟩ := last_word_inj is_word spoken.method_word is_gap no_gap ends
      (endsOutside_gap (by decide) no_gap _) method_eq
    exact .inl asserts
  | @fail left right gap is_before is_after is_gap =>
    have dots_eq : (before ++ "Assert".toList ++ left) ++ '.' :: (right ++ ("fail".toList ++ gap))
        = (front ++ receiver) ++ '.' :: ([] ++ (method ++ [])) := by
      simpa using behind_eq _ text_eq
    obtain ⟨names_eq, method_eq⟩ := dotted_word_inj (by decide) spoken.method_word is_after is_gap
      no_gap no_gap dots_eq
    rw [← List.append_nil (front ++ receiver)] at names_eq
    have receiver_eq := (last_word_inj (by decide) spoken.receiver_word is_before no_gap ends
      spoken.is_front.ends names_eq).2
    exact .inr ⟨receiver_eq.symm, method_eq.symm⟩

end Asserting

private theorem assertionsDropped_foldl_add (outcomes : List Outcome) (case : Case) :
    (outcomes.foldl Case.add case).assertionsDropped
      = case.assertionsDropped + outcomes.countP (· = .assertionDropped) := by
  induction outcomes generalizing case with
  | nil => rfl
  | cons outcome outcomes ih =>
    rw [List.foldl_cons, ih, List.countP_cons]
    cases outcome with
    | emit statement => simp [Case.add]
    | assertionDropped =>
      simp [Case.add]
      omega

/-- What is counted is the statements of the body that begin with an assertion. -/
theorem assertionsDropped_ofBody (caseName : String) (pages body : List String) :
    (Case.ofBody caseName pages body).assertionsDropped
      = body.countP fun source => AssertionLed source.toList := by
  rw [Case.ofBody, assertionsDropped_foldl_add, List.countP_filterMap, Nat.zero_add]
  refine List.countP_congr fun source _ => ?_
  rw [decide_eq_true_eq, ← @convertStatement?_eq_dropped_iff pages]
  cases convertStatement? pages source with
  | none => simp
  | some outcome => simp

/-- The statements are those of the body without what begins with an assertion. -/
theorem statements_ofBody_filter (caseName : String) (pages body : List String) :
    (Case.ofBody caseName pages body).statements
      = (Case.ofBody caseName pages
          (body.filter fun source => ¬AssertionLed source.toList)).statements := by
  rw [statements_ofBody, statements_ofBody, List.filterMap_filter]
  refine congrArg (List.filterMap · body) (funext fun source => ?_)
  by_cases led : AssertionLed source.toList
  · rw [convertStatement?_eq_dropped_iff.mpr led]
    simp [led, Outcome.statement?]
  · simp [led]

/-- A script drops and counts the statements that begin with an assertion and says what it would say
without them. An assertion that it awaits is one behind a type, a keyword or a variable, and every other
one is in the arguments that a statement passes on. -/
theorem ofBody_assertions (caseName : String) (pages body : List String) :
    (Case.ofBody caseName pages body).assertionsDropped
        = body.countP (fun source => AssertionLed source.toList) ∧
      (Case.ofBody caseName pages body).statements
        = (Case.ofBody caseName pages
            (body.filter fun source => ¬AssertionLed source.toList)).statements ∧
      (∀ statement ∈ (Case.ofBody caseName pages body).statements, ∀ opening receiver method,
        AwaitsCall statement.text.toList opening receiver method → IsAssertion receiver method →
        ∃ source ∈ body, ¬AssertionLed source.toList ∧ ∃ call : Call, call.Spells source.toList ∧
          call.receiver = receiver ∧ call.method = method ∧
          (call.type?.isSome = true ∨ call.bound?.isSome = true)) ∧
      ∀ statement ∈ (Case.ofBody caseName pages body).statements, statement.kind.isComment = false →
        Uses Asserting statement.text.toList →
        (∃ opening receiver method, AwaitsCall statement.text.toList opening receiver method ∧
          IsAssertion receiver method) ∨
        ∃ source ∈ body, ∃ front receiver method passed,
          SaysCall statement.text.toList front receiver method passed ∧
          Passed source.toList passed ∧ Uses Asserting passed := by
  refine ⟨assertionsDropped_ofBody _ _ _, statements_ofBody_filter _ _ _, ?_, ?_⟩
  · intro statement member opening receiver method awaits asserts
    obtain ⟨source, source_mem, emitted⟩ := exists_of_mem_ofBody member
    exact ⟨source, source_mem, not_assertionLed_of_emit emitted,
      awaits_assertion emitted awaits asserts⟩
  · intro statement member no_comment uses
    obtain ⟨source, source_mem, emitted⟩ := exists_of_mem_ofBody member
    obtain ⟨front, receiver, method, passed, spoken, is_passed⟩ := exists_saysCall emitted no_comment
    -- What the statement uses is its own call, or in the arguments of that.
    rcases spoken.uses isPlain_asserting uses with in_front | in_arguments
    · have asserts := spoken.isAssertion_of_uses in_front
      obtain ⟨opening, calls⟩ := spoken.awaitsCall fun ⟨console, log⟩ => by
        rw [console, log] at asserts
        exact absurd asserts (by decide)
      exact .inl ⟨opening, receiver, method, calls, asserts⟩
    · exact .inr ⟨source, source_mem, front, receiver, method, passed, spoken, is_passed, in_arguments⟩

/-- An assertion in the arguments of another call. -/
example : (Case.ofBody "t" [] ["home.check(Assert.assertTrue(ok))"]).statements
    = [⟨.methodCall, "await home.check(Assert.assertTrue(ok));"⟩] := by
  decide +kernel

/-- What becomes of an assertion of which a variable takes the result. -/
def thrownStatement : Output.Statement :=
  ⟨.methodCall, "const e = await Assertions.assertThrows(X.class, f);"⟩

private theorem thrownStatement_mem : thrownStatement
    ∈ (Case.ofBody "t" [] ["Exception e = Assertions.assertThrows(X.class, f)"]).statements := by
  decide +kernel

private theorem thrownStatement_awaits :
    AwaitsCall thrownStatement.text.toList (.declares "e".toList) "Assertions".toList
      "assertThrows".toList := by
  have is_word : IsWord "e".toList := by decide
  exact ⟨by decide, by decide, is_word, "X.class, f);".toList, by decide⟩

theorem ofBody_assertions_thrown :
    ∃ source ∈ ["Exception e = Assertions.assertThrows(X.class, f)"],
      ¬AssertionLed source.toList ∧ ∃ call : Call, call.Spells source.toList ∧
        call.receiver = "Assertions".toList ∧ call.method = "assertThrows".toList ∧
        (call.type?.isSome = true ∨ call.bound?.isSome = true) :=
  (ofBody_assertions "t" [] ["Exception e = Assertions.assertThrows(X.class, f)"]).2.2.1
    thrownStatement thrownStatement_mem _ _ _ thrownStatement_awaits (.inl (by decide))

/-- A script may await an assertion. -/
theorem ofBody_assertions_not_none :
    ¬ ∀ (caseName : String) (pages body : List String),
      ∀ statement ∈ (Case.ofBody caseName pages body).statements, ∀ opening receiver method,
        AwaitsCall statement.text.toList opening receiver method →
        ¬IsAssertion receiver method := by
  intro never
  exact never "t" [] _ _ thrownStatement_mem _ _ _ thrownStatement_awaits (.inl (by decide))

end SuiteMigration.Test
