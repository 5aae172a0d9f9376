import SuiteMigration.Proofs.Test.ArgumentList

/-!
# Unwrapping constructor calls

Constructor calls are unwrapped from the left, one search after another over a text that changes.
What stands in front of the place reached is done with: no search stops in it again. So each call
gives way to its arguments, and the search goes on with those.
-/
namespace SuiteMigration.Test

open Pattern Text
open Locator (LiteralBody)

section Closing

variable {depth : Nat} {front rest : List Char}

/-- The parenthesis taken away is the first one that nothing in front of it opened. -/
theorem dropClose_append (closes : ClosesAll depth front) :
    dropClose depth (front ++ ')' :: rest) = front ++ rest := by
  induction front generalizing depth with
  | nil =>
    obtain rfl := closesAll_nil.mp closes
    simp [dropClose]
  | cons c front ih =>
    by_cases opening : c = '('
    · subst opening
      simp [dropClose, ih (closesAll_opening.mp closes)]
    by_cases closing : c = ')'
    · subst closing
      cases depth with
      | zero => exact absurd closes not_closesAll_closing
      | succ depth => simp [dropClose, ih (closesAll_closing.mp closes)]
    · have inside := (closesAll_other opening closing).mp closes
      simp [dropClose, opening, closing, ih inside]

end Closing

/-- The head of a constructor call behind the edge of its keyword. -/
def constructorStart : Pattern :=
  .all [Pattern.text "new", someBlanks, word, blanks, mark '(']

private theorem constructorHead_eq : constructorHead = seq .atWordEdge constructorStart :=
  rfl

section Search

variable {front rest gap type trail word body : List Char} {c : Char}

private theorem takes_constructorStart (nonempty : gap ≠ []) (is_gap : AllBlank gap)
    (is_type : IsWord type) (is_trail : AllBlank trail) :
    constructorStart.Takes ("new".toList ++ (gap ++ (type ++ (trail ++ '(' :: rest)))) rest
      [] [] := by
  have type_ends : ∀ c ∈ (trail ++ '(' :: rest).head?, isWordChar c = false :=
    head_append_false (fun c member => isWordChar_of_isBlank (is_trail c member))
      (head_false (by decide))
  exact (takes_literal "new".toList).seq <|
    (takes_oneOrMore nonempty is_gap (head_of_isWord is_type)).seq <|
    (takes_oneOrMore is_type.1 is_type.2 type_ends).seq <|
    (takes_blanks is_trail (head_false (by decide))).seq <| (takes_mark '(').seq takes_empty

/-- A constructor call begins with its keyword and a blank. -/
theorem exists_of_accepts_constructorStart (accepted : constructorStart.Accepts front) :
    ∃ b more, isBlank b = true ∧ front = "new".toList ++ b :: more := by
  obtain ⟨keyword, _, rfl, is_keyword, gap, more, rfl, is_gap, -⟩ := accepted
  obtain rfl := accepts_literal.mp is_keyword
  obtain ⟨nonempty, is_gap⟩ := accepts_someBlanks.mp is_gap
  obtain ⟨b, gap, rfl⟩ := List.exists_cons_of_ne_nil nonempty
  exact ⟨b, gap ++ more, is_gap b List.mem_cons_self, rfl⟩

theorem fails_constructorHead (no_name : NoName rest) : constructorHead.Fails rest := by
  apply fails_of_not_accepts
  rintro _ more rfl ⟨_, _, rfl, rfl, accepted⟩
  obtain ⟨b, others, -, rfl⟩ := exists_of_accepts_constructorStart accepted
  exact absurd (no_name 'n' rfl) (by decide)

/-- A name in front does not go on in what follows. -/
def Apart (front rest : List Char) : Prop :=
  EndsOutside isNameChar front ∨ NoName rest

/-- The search for a constructor call goes on behind the front. -/
def Ready (front : List Char) : Prop :=
  constructorHead.Passes front (Apart front)

private theorem ready_nil : Ready [] :=
  passes_nil

/-- A constructor call behind the front is found there. -/
theorem Ready.findFrom?_eq (ready : Ready front) (apart : EndsOutside isNameChar front)
    (nonempty : gap ≠ []) (is_gap : AllBlank gap) (is_type : IsWord type)
    (is_trail : AllBlank trail) :
    constructorHead.findFrom? none
        (front ++ ("new".toList ++ (gap ++ (type ++ (trail ++ '(' :: rest)))))
      = some ⟨front, "new".toList ++ (gap ++ (type ++ (trail ++ ['(']))), rest, []⟩ := by
  have outside : (front.getLast?.or none).any isWordChar = false := by
    rw [Option.or_none]
    cases last_eq : front.getLast? with
    | none => rfl
    | some c => exact isWordChar_eq_false (apart c last_eq)
  have text_eq : "new".toList ++ (gap ++ (type ++ (trail ++ '(' :: rest)))
      = "new".toList ++ (gap ++ (type ++ (trail ++ ['(']))) ++ rest := by simp
  have found := findFrom?_wordEdge text_eq (takes_constructorStart nonempty is_gap is_type is_trail)
    (by rfl) outside
  rw [ready none _ (.inl apart), constructorHead_eq, found, Option.map_some, List.append_nil]

theorem Ready.mark (ready : Ready front) (no_name : isNameChar c = false) :
    Ready (front ++ [c]) := by
  have passes : constructorHead.Passes [c] (Apart (front ++ [c])) :=
    passes_cons_nil fun _ => fails_constructorHead (noName_cons no_name)
  exact Passes.append ready passes fun rest _ => .inr (noName_cons no_name)

/-- The keyword of a constructor call is no part of a name but behind a dollar sign. -/
theorem run_constructorHead_name {passed left : List Char} {previous : Option Char}
    (all_name : ∀ c ∈ passed ++ left, isNameChar c = true)
    (no_keyword : passed ++ left ≠ "new".toList) (no_dollar : ¬"$new".toList <:+ passed ++ left)
    (ends : NoName rest) :
    constructorHead.run ⟨passed.getLast?.or previous, left ++ rest, []⟩ some = none := by
  rw [run_eq_findSome?, List.findSome?_eq_none_iff]
  intro stop found
  exfalso
  obtain ⟨middle, edge_found, found⟩ := exists_of_mem_ways_seq found
  obtain ⟨is_edge, rfl⟩ := mem_ways_atWordEdge.mp edge_found
  obtain ⟨taken, rest_eq, accepted⟩ := accepts_of_mem_ways found
  obtain ⟨b, more, blank, rfl⟩ := exists_of_accepts_constructorStart accepted
  have split_eq : left ++ rest = "new".toList ++ (b :: (more ++ stop.rest)) := by
    simpa using rest_eq
  obtain ⟨rfl, rfl⟩ := name_append_inj (fun c member => all_name c (List.mem_append_right _ member))
    (List.all_eq_true.mp (by decide)) ends (noName_cons (isNameChar_of_isBlank blank)) split_eq
  -- What is left of the name is the keyword, so it is all of it or stands behind a dollar sign.
  rcases List.eq_nil_or_concat' passed with rfl | ⟨init, c, rfl⟩
  · exact no_keyword rfl
  · have no_word : isWordChar c = false := by
      simpa [Cursor.isWordEdge, (by decide : isWordChar 'n' = true)] using is_edge
    have is_name : isNameChar c = true := all_name c (by simp)
    obtain rfl : c = '$' := by simpa [isNameChar, no_word] using is_name
    exact no_dollar ⟨init, by simp⟩

theorem Ready.name (ready : Ready front) (apart : EndsOutside isNameChar front)
    (is_name : IsName word) (no_keyword : ¬"$new".toList <:+ word) : Ready (front ++ word) := by
  have passes : constructorHead.Passes word (Apart (front ++ word)) := by
    intro previous rest word_apart
    have ends : NoName rest := word_apart.resolve_left fun outside =>
      is_name.nonempty (outside.eq_nil is_name.all_name)
    refine findFrom?_passed fun passed left word_eq _ => ?_
    subst word_eq
    exact run_constructorHead_name is_name.all_name is_name.no_keyword no_keyword ends
  exact Passes.append ready passes fun rest _ => .inl apart

theorem Ready.literal (ready : Ready front) (absent : constructorHead.occursIn body = false) :
    Ready (front ++ '"' :: (body ++ ['"'])) := by
  have passes : constructorHead.Passes ('"' :: (body ++ ['"'])) fun _ => True :=
    passes_quoted (by rfl) (by rfl) (by rfl) (by decide) absent
  exact Passes.append ready (passes.mono fun _ _ => trivial) fun rest _ =>
    .inr (noName_cons (by decide))

end Search

section Unwrapping

variable {arguments : Arguments} {front more text : List Char} {c : Char}

theorem unwrapConstructors_none (found_eq : constructorHead.findFrom? none text = none) :
    unwrapConstructors text = text := by
  rw [unwrapConstructors.eq_def]
  split
  · rfl
  · next some_eq =>
    rw [found_eq] at some_eq
    cases some_eq

private theorem unwrapConstructors_some {found : Match}
    (found_eq : constructorHead.findFrom? none text = some found) :
    unwrapConstructors text = unwrapConstructors (found.before ++ dropClose 0 found.after) := by
  rw [unwrapConstructors.eq_def]
  split
  · next none_eq =>
    rw [found_eq] at none_eq
    cases none_eq
  · next other some_eq =>
    rw [found_eq] at some_eq
    cases some_eq
    rfl

theorem apart_mark (no_name : isNameChar c = false) (front more : List Char) :
    Apart (front ++ [c]) more :=
  .inl (endsOutside_append (List.cons_ne_nil c []) (List.forall_mem_singleton.mpr no_name) front)

theorem Apart.ends (apart : Apart front (c :: more)) (is_name : isNameChar c = true) :
    EndsOutside isNameChar front :=
  apart.resolve_right fun no_name => by
    have refuted := no_name c rfl
    rw [is_name] at refuted
    cases refuted

/-- Behind a front that is done with, the list can be unwrapped first, and then it is done with. -/
theorem unwrapConstructors_append (well_formed : arguments.WellFormed)
    (harmless : arguments.Harmless) (ready : Ready front)
    (apart : Apart front (arguments.text ++ more)) (ends : NoName more) :
    Ready (front ++ arguments.unwrapped) ∧
      unwrapConstructors (front ++ (arguments.text ++ more))
        = unwrapConstructors (front ++ (arguments.unwrapped ++ more)) := by
  -- The front grows by each part that is done with, so the induction is over all fronts.
  induction well_formed generalizing front more with
  | nil => exact ⟨by rwa [Arguments.unwrapped, List.append_nil], rfl⟩
  | @name word list is_name list_ends _ _ ih =>
    have front_ends : EndsOutside isNameChar front := by
      obtain ⟨c, word, rfl⟩ := List.exists_cons_of_ne_nil is_name.nonempty
      exact apart.ends (is_name.all_name c List.mem_cons_self)
    have word_ready := ready.name front_ends is_name harmless.1
    obtain ⟨list_ready, same⟩ := ih harmless.2 word_ready (.inr (list_ends.append ends)) ends
    simpa [Arguments.text, Arguments.unwrapped] using And.intro list_ready same
  | @sign c list no_name _ _ ih =>
    obtain ⟨list_ready, same⟩ := ih harmless (ready.mark no_name) (apart_mark no_name front _) ends
    simpa [Arguments.text, Arguments.unwrapped] using And.intro list_ready same
  | @literal body list _ _ ih =>
    have body_apart := apart_mark (by decide : isNameChar '"' = false) (front ++ '"' :: body)
      (list.text ++ more)
    have body_ready := ready.literal harmless.1
    obtain ⟨list_ready, same⟩ := ih harmless.2.2 body_ready (by simpa using body_apart) ends
    simpa [Arguments.text, Arguments.unwrapped] using And.intro list_ready same
  | @group inner list _ _ inner_ih ih =>
    have opening : isNameChar '(' = false := by decide
    have closing : isNameChar ')' = false := by decide
    obtain ⟨inner_ready, inner_same⟩ := inner_ih harmless.1 (ready.mark opening)
      (apart_mark opening front _) (noName_cons closing : NoName (')' :: (list.text ++ more)))
    obtain ⟨list_ready, same⟩ := ih harmless.2 (inner_ready.mark closing)
      (apart_mark closing _ _) ends
    refine ⟨by simpa [Arguments.unwrapped] using list_ready, ?_⟩
    simp only [Arguments.text, Arguments.unwrapped, List.append_assoc, List.cons_append,
      List.nil_append] at inner_same same ⊢
    rw [inner_same, same]
  | @construction gap type trail inner list nonempty is_gap is_type is_trail list_ends _ _ inner_ih
      ih =>
    -- One search takes the head and the parenthesis away; the arguments come next, then the rest.
    obtain ⟨is_word, balanced, inner_harmless, harmless⟩ := harmless
    have front_ends : EndsOutside isNameChar front := apart.ends (by decide : isNameChar 'n' = true)
    have taken : unwrapConstructors (front ++ ("new".toList ++ (gap ++ (type ++ (trail ++
          '(' :: (inner.text ++ ')' :: (list.text ++ more)))))))
        = unwrapConstructors (front ++ (inner.text ++ (list.text ++ more))) := by
      rw [unwrapConstructors_some (ready.findFrom?_eq front_ends nonempty is_gap is_word is_trail),
        dropClose_append balanced]
    obtain ⟨inner_ready, inner_same⟩ :=
      inner_ih inner_harmless ready (.inl front_ends) (list_ends.append ends)
    obtain ⟨list_ready, same⟩ := ih harmless inner_ready (.inr (list_ends.append ends)) ends
    refine ⟨by simpa [Arguments.unwrapped] using list_ready, ?_⟩
    simp only [Arguments.text, Arguments.unwrapped, List.append_assoc, List.cons_append]
      at inner_same same ⊢
    rw [taken, inner_same, same]

/-- Rewriting a list that misleads no rule unwraps its constructor calls, and keeps its literals. -/
theorem convertArguments_text (well_formed : arguments.WellFormed)
    (harmless : arguments.Harmless) : convertArguments arguments.text = arguments.unwrapped := by
  have apart : Apart [] (arguments.text ++ []) := .inl (by simp [EndsOutside])
  have ends : NoName [] := by simp [NoName]
  obtain ⟨ready, same⟩ := unwrapConstructors_append well_formed harmless ready_nil apart ends
  have not_found : constructorHead.findFrom? none arguments.unwrapped = none :=
    Passes.findFrom?_eq_none ready (.inr ends) (fails_constructorHead ends) none
  rw [convertArguments, replaceAll_propertyLookup well_formed harmless]
  simpa [unwrapConstructors_none not_found] using same

/-- The list `new User("f(x)", new Name(a + "b")), g(1)`. -/
def userArguments : Arguments :=
  .construction [' '] "User".toList []
    (.literal "f(x)".toList <| .sign ',' <| .sign ' ' <|
      .construction [' '] "Name".toList []
        (.name ['a'] <| .sign ' ' <| .sign '+' <| .sign ' ' <| .literal ['b'] .nil) .nil)
    (.sign ',' <| .sign ' ' <| .name ['g'] <| .group (.name ['1'] .nil) .nil)

theorem convertArguments_text_user :
    userArguments.WellFormed ∧ userArguments.Harmless ∧
    userArguments.text = "new User(\"f(x)\", new Name(a + \"b\")), g(1)".toList ∧
    convertArguments userArguments.text = "\"f(x)\", a + \"b\", g(1)".toList := by
  have plain : ∀ text ∈ ["f(x)".toList, ['b']], LiteralBody text := by
    simp only [List.forall_mem_cons]
    exact ⟨.of_plain (by simp), .of_plain (by simp), by simp⟩
  have well_formed : userArguments.WellFormed :=
    .construction (by decide) (by simp [AllBlank]; decide) (by decide) (by simp [AllBlank])
      (noName_cons (by decide))
      (.literal (plain _ (by decide)) <| .sign (by decide) (by decide) <|
        .sign (by decide) (by decide) <|
        .construction (by decide) (by simp [AllBlank]; decide) (by decide) (by simp [AllBlank])
          (by simp [NoName, Arguments.text])
          (.name (by decide) (noName_cons (by decide)) (by decide) <|
            .sign (by decide) (by decide) <| .sign (by decide) (by decide) <|
            .sign (by decide) (by decide) <| .literal (plain _ (by decide)) .nil) .nil)
      (.sign (by decide) (by decide) <| .sign (by decide) (by decide) <|
        .name (by decide) (noName_cons (by decide)) (by decide) <|
        .group (.name (by decide) (by simp [NoName, Arguments.text]) (by decide) .nil) .nil)
  have no_call : ∀ text : List Char, 'g' ∉ text → ¬EndsInCall text :=
    fun text missing ends => missing ends.mem
  have harmless : userArguments.Harmless := by
    refine ⟨by decide, by decide, ⟨by decide +kernel, no_call _ (by decide), ?_⟩, ?_⟩
    · exact ⟨by decide, by decide,
        ⟨by decide, by decide +kernel, no_call _ (by decide), trivial⟩, trivial⟩
    · exact ⟨by decide, ⟨by decide, trivial⟩, trivial⟩
  refine ⟨well_formed, harmless, by decide, ?_⟩
  rw [convertArguments_text well_formed harmless]
  decide

/-- A literal that holds parentheses or reads like a constructor call misleads the rule, and so does
a dollar sign in the name of a type. -/
theorem convertArguments_text_not_of_literals :
    (¬ ∀ arguments : Arguments, arguments.WellFormed →
      convertArguments arguments.text = arguments.unwrapped) ∧
    ∀ list ∈ [("new Note(\"a)b\")", "\"ab\")"), ("\"new User(1)\"", "\"1\""),
        ("new A$B(1)", "new A$B(1)")],
      convertArguments list.1.toList = list.2.toList := by
  refine ⟨fun unwraps => ?_, by decide +kernel⟩
  have well_formed : (Arguments.construction [' '] "Note".toList []
      (.literal "a)b".toList .nil) .nil).WellFormed :=
    .construction (by decide) (by simp [AllBlank]; decide) (by decide) (by simp [AllBlank])
      (by simp [NoName, Arguments.text])
      (.literal (.of_plain (by simp)) .nil) .nil
  have unwrapped := unwraps _ well_formed
  revert unwrapped
  decide +kernel

end Unwrapping

end SuiteMigration.Test
