import SuiteMigration.Proofs.Test.Emitting
import SuiteMigration.Test.Script

/-!
# Scopes of test cases

The statements of a case share one block, so no name may be declared in it twice, nor be assigned
behind its declaration. A case has that if the source binds no name with a type that it binds again
later: blocks of the source are flattened, and names are taken over as they are.
-/
namespace SuiteMigration.Test

open Pattern Text Output

/-- Does the statement declare the name? -/
def Declares (statement : Output.Statement) (name : List Char) : Prop :=
  IsWord name ∧ ∃ rest, statement.text.toList = "const ".toList ++ name ++ " = ".toList ++ rest

/-- Is the statement a plain assignment to the name? -/
def Sets (statement : Output.Statement) (name : List Char) : Prop :=
  IsWord name ∧ ∃ rest, statement.text.toList = name ++ " = await ".toList ++ rest

/-- No declared name is declared again or assigned later. -/
def WellScoped (statements : List Output.Statement) : Prop :=
  statements.Pairwise fun earlier later =>
    ∀ name, Declares earlier name → ¬Declares later name ∧ ¬Sets later name

/-- Does the statement of the source bind the name to the result of a call, with a type or without?
Instances of pages take no results but titles, and a statement on the driver itself is not
converted. -/
inductive Binds (pages : List String) (source : List Char) : Bool → List Char → Prop where
  | title {call : Call} {name : List Char} (spells : call.Spells source)
      (typed : call.type?.isSome = true) (bound : call.bound? = some name)
      (on_driver : call.receiver = "driver".toList) (is_title : call.method = "getTitle".toList) :
      Binds pages source true name
  | call {call : Call} {name : List Char} (spells : call.Spells source)
      (bound : call.bound? = some name) (no_page : String.ofList name ∉ pages)
      (balanced : isBalanced call.arguments = true) (not_led : ¬DriverLed source) :
      Binds pages source call.type?.isSome name

theorem Binds.equals_mem {pages : List String} {source name : List Char} {typed : Bool}
    (binds : Binds pages source typed name) : '=' ∈ source := by
  obtain ⟨call, spells, bound⟩ : ∃ call : Call, call.Spells source ∧ call.bound? = some name := by
    cases binds with
    | title spells _ bound => exact ⟨_, spells, bound⟩
    | call spells bound => exact ⟨_, spells, bound⟩
  obtain ⟨lead, binder, _, _, _, -, is_binder, -, -, -, rfl⟩ := spells.spelled
  rw [bound] at is_binder
  cases is_binder
  simp

section Emits

variable {pages : List String} {source name : List Char} {statement : Output.Statement}
  {call : Call}

theorem Call.opening_eq_declares (opening_eq : call.opening pages = .declares name) :
    call.bound? = some name ∧ String.ofList name ∉ pages ∧ call.type?.isSome = true := by
  unfold Call.opening at opening_eq
  split at opening_eq
  · cases opening_eq
  · next other bound =>
    split at opening_eq
    · cases opening_eq
    · next no_page =>
      split at opening_eq
      · next typed =>
        obtain rfl := Opening.declares.inj opening_eq
        exact ⟨bound, by simpa using no_page, typed⟩
      · cases opening_eq

theorem Call.opening_eq_assigns (opening_eq : call.opening pages = .assigns name) :
    call.bound? = some name ∧ String.ofList name ∉ pages ∧ call.type?.isSome = false := by
  unfold Call.opening at opening_eq
  split at opening_eq
  · cases opening_eq
  · next other bound =>
    split at opening_eq
    · cases opening_eq
    · next no_page =>
      split at opening_eq
      · cases opening_eq
      · next untyped =>
        obtain rfl := Opening.assigns.inj opening_eq
        exact ⟨bound, by simpa using no_page, by simpa using untyped⟩

/-- A name is declared for a typed binding. -/
theorem Emits.binds_of_declares (emits : Emits pages source statement)
    (declares : Declares statement name) : Binds pages source true name := by
  obtain ⟨is_word, rest, text_eq⟩ := declares
  cases emits with
  | review =>
    obtain ⟨more, review_eq⟩ := review_text "Driver call not converted" source
    simp [review_eq] at text_eq
  | console prints =>
    have split_eq : _ = "const".toList ++ ' ' :: (name ++ " = ".toList ++ rest) :=
      text_eq.trans (by simp)
    have first_eq := word_append_inj (by decide) (by decide) (by decide) (by decide)
      (prints.symm.trans split_eq)
    exact absurd first_eq.1 (by decide)
  | page _ calls => cases calls.awaits.declares is_word text_eq
  | title spells typed bound on_driver is_title calls =>
    obtain rfl := Opening.declares.inj (calls.awaits.declares is_word text_eq)
    exact .title spells typed bound on_driver is_title
  | call spells balanced not_led calls =>
    have declared := calls.awaits.declares is_word text_eq
    obtain ⟨bound, no_page, typed⟩ := Call.opening_eq_declares declared
    exact typed ▸ .call spells bound no_page balanced not_led

/-- A name is assigned for a binding without a type. -/
theorem Emits.binds_of_sets (emits : Emits pages source statement)
    (sets : Sets statement name) : Binds pages source false name := by
  obtain ⟨is_word, rest, text_eq⟩ := sets
  cases emits with
  | review =>
    obtain ⟨more, review_eq⟩ := review_text "Driver call not converted" source
    rw [review_eq, List.append_assoc] at text_eq
    exact absurd text_eq.symm (is_word.append_ne_cons (by decide))
  | console prints =>
    have split_eq : _ = name ++ ' ' :: ("= await ".toList ++ rest) := text_eq.trans (by simp)
    have first_eq := word_append_inj (by decide) is_word.all (by decide) (by decide)
      (prints.symm.trans split_eq)
    exact absurd first_eq.2.1 (by decide)
  | page _ calls => cases calls.awaits.assigns is_word text_eq
  | title _ _ _ _ _ calls => cases calls.awaits.assigns is_word text_eq
  | call spells balanced not_led calls =>
    have assigned := calls.awaits.assigns is_word text_eq
    obtain ⟨bound, no_page, untyped⟩ := Call.opening_eq_assigns assigned
    exact untyped ▸ .call spells bound no_page balanced not_led

end Emits

/-- A case is well scoped if no name that its source binds with a type is bound again later. -/
theorem ofBody_wellScoped (caseName : String) (pages : List String) {body : List String}
    (apart : body.Pairwise fun earlier later => ∀ name typed,
      Binds pages earlier.toList true name → ¬Binds pages later.toList typed name) :
    WellScoped (Case.ofBody caseName pages body).statements := by
  rw [statements_ofBody, WellScoped, List.pairwise_filterMap]
  refine apart.imp fun {earlier later} separate first first_eq second second_eq name declared => ?_
  have bound := (emits_of_bind first_eq).binds_of_declares declared
  have later_emits := emits_of_bind second_eq
  exact ⟨fun declares => separate name true bound (later_emits.binds_of_declares declares),
    fun sets => separate name false bound (later_emits.binds_of_sets sets)⟩

theorem ofBody_wellScoped_result :
    (["String s = p.a()", "p.b(s)"].Pairwise fun earlier later => ∀ name typed,
      Binds [] earlier.toList true name → ¬Binds [] later.toList typed name) ∧
    WellScoped (Case.ofBody "t" [] ["String s = p.a()", "p.b(s)"]).statements := by
  have apart : ["String s = p.a()", "p.b(s)"].Pairwise fun earlier later => ∀ name typed,
      Binds [] earlier.toList true name → ¬Binds [] later.toList typed name := by
    refine List.pairwise_pair.mpr fun name typed _ binds => ?_
    exact absurd binds.equals_mem (by decide)
  exact ⟨apart, ofBody_wellScoped "t" [] apart⟩

/-- A test with a variable in each branch. -/
def branches : String :=
  "class T \x7b @Test void t() \x7b if (p.a()) \x7b String s = p.b(); \x7d"
    ++ " else \x7b String s = p.c(); \x7d \x7d \x7d"

/-- The branches of a condition may each have a variable of one name. -/
theorem ofBody_wellScoped_not_of_branches :
    ¬ ∀ (source : String) (unit : Outline.SourceUnit), Outline.SourceUnit.parse source = .ok unit →
      ∀ test ∈ testMethods unit, ∀ pages, WellScoped (Case.ofBody test.name pages
        (test.statements.map Outline.Statement.text)).statements := by
  intro all_scoped
  have bodies_eq : (Outline.SourceUnit.parse branches).toOption.map (fun unit =>
      (testMethods unit).map fun test => test.statements.map Outline.Statement.text)
        = some [["if (p.a())", "String s = p.b()", "String s = p.c()"]] := by
    decide +kernel
  obtain ⟨unit, unit_eq, bodies_eq⟩ := Option.map_eq_some_iff.mp bodies_eq
  have parse_eq : Outline.SourceUnit.parse branches = .ok unit := by
    cases parsed : Outline.SourceUnit.parse branches with
    | error cause =>
      rw [parsed] at unit_eq
      cases unit_eq
    | ok other =>
      rw [parsed] at unit_eq
      rw [Option.some.inj unit_eq]
  obtain ⟨test, test_mem, body_eq⟩ := List.mem_map.mp
    (bodies_eq ▸ List.mem_singleton_self _ :
      ["if (p.a())", "String s = p.b()", "String s = p.c()"] ∈ _)
  have one_scope := all_scoped branches unit parse_eq test test_mem []
  have statements_eq :
      (["if (p.a())", "String s = p.b()", "String s = p.c()"].filterMap fun source =>
        (convertStatement? [] source).bind Outcome.statement?)
        = [⟨.methodCall, "const s = await p.b();"⟩, ⟨.methodCall, "const s = await p.c();"⟩] := by
    decide +kernel
  rw [statements_ofBody, body_eq, statements_eq] at one_scope
  have declared := (List.pairwise_pair.mp one_scope ['s']
    ⟨by decide, "await p.b();".toList, by decide⟩).1
  exact declared ⟨by decide, "await p.c();".toList, by decide⟩

end SuiteMigration.Test
