import SuiteMigration.Proofs.Page.Queries

/-!
# Statements behind a return

A query is returned, so what stands behind it in a method is never run. A body that returns only at
its end has a query in front of its last statement only where a statement in front of the last one
asks for the visibility of an element.
-/
namespace SuiteMigration.Page

open Locator Text

/-- The text begins with the keyword. -/
def BeginsReturn (text : List Char) : Prop :=
  "return".toList <+: text ∧ ∀ c ∈ (text.drop "return".length).head?, Outline.isIdentPart c = false

instance (text : List Char) : Decidable (BeginsReturn text) :=
  inferInstanceAs (Decidable (_ ∧ _))

section Statement

variable {table : Table} {statement : List Char} {text : String} {query : Output.Statement}

/-- The title query is for a statement that begins with the keyword too. -/
theorem BeginsWithTitle.beginsReturn (title : BeginsWithTitle statement) :
    BeginsReturn statement := by
  obtain ⟨gap, this, driver, call, back, rfl, nonempty, is_gap, -⟩ := title
  refine ⟨?_, fun c member => ?_⟩
  · simp only [List.append_assoc]
    exact List.prefix_append _ _
  · cases gap with
    | nil => exact absurd rfl nonempty
    | cons blank gap =>
      obtain rfl : blank = c := Option.some.inj member
      exact isIdentPart_of_isBlank (is_gap blank List.mem_cons_self)

/-- A visibility query is always returned. -/
theorem beginsReturn_visibilityStatement (selector : Locator.Selector) :
    BeginsReturn (visibilityStatement selector).text.toList := by
  simp only [visibilityStatement, String.toList_append]
  refine ⟨⟨" await this.page.isVisible(".toList ++ selector.literal.toList ++ ");".toList, rfl⟩, ?_⟩
  rintro c ⟨⟩
  decide

theorem not_beginsReturn (first : Char) (head_eq : statement.head? = some first)
    (other : first ≠ 'r') : ¬ BeginsReturn statement := by
  rintro ⟨⟨rest, rfl⟩, -⟩
  exact other (Option.some.inj head_eq).symm

private theorem not_beginsReturn_review (reason : String) (source : List Char) :
    ¬ BeginsReturn (Output.Statement.review reason source).text.toList :=
  not_beginsReturn '/' (by simp [Output.Statement.review]) (by decide)

/-- A target without a selector is left for review, and a comment is no return. -/
theorem emit_of_beginsReturn {target : List Char} {emit : Selector → Output.Statement}
    (begins : BeginsReturn (onTarget table statement target emit).text.toList) :
    ∃ selector, onTarget table statement target emit = emit selector := by
  unfold onTarget at begins ⊢
  split at begins
  · split at begins
    · next lookup resolve_eq => exact ⟨lookup.selector, rfl⟩
    · exact absurd begins (not_beginsReturn_review _ _)
  · split at begins
    · next selector selector_eq => exact ⟨selector, rfl⟩
    · exact absurd begins (not_beginsReturn_review _ _)

/-- Only queries are returned. -/
theorem kind_of_beginsReturn (query_eq : convertStatement? table text = some query)
    (begins : BeginsReturn query.text.toList) :
    query.kind = .visibilityQuery ∨ query.kind = .titleQuery := by
  obtain ⟨rule, rule_eq, -⟩ := rule_of_convertStatement? query_eq
  -- Fills and clicks begin with an await, transitions and scripts with a comment.
  cases rule with
  | fill =>
    obtain ⟨found, -, rfl⟩ := Option.map_eq_some_iff.mp rule_eq
    obtain ⟨selector, fill_eq⟩ := emit_of_beginsReturn begins
    rw [fill_eq] at begins
    exact absurd begins (not_beginsReturn 'a' (by simp [fillStatement]) (by decide))
  | click =>
    obtain ⟨found, -, rfl⟩ := Option.map_eq_some_iff.mp rule_eq
    obtain ⟨selector, click_eq⟩ := emit_of_beginsReturn begins
    rw [click_eq] at begins
    exact absurd begins (not_beginsReturn 'a' (by simp [clickStatement]) (by decide))
  | visibility =>
    obtain ⟨found, -, rfl⟩ := Option.map_eq_some_iff.mp rule_eq
    obtain ⟨selector, visibility_eq⟩ := emit_of_beginsReturn begins
    exact .inl (congrArg Output.Statement.kind visibility_eq)
  | title =>
    obtain ⟨-, some_eq⟩ := Option.ite_none_right_eq_some.mp rule_eq
    exact .inr (Option.some.inj some_eq ▸ rfl)
  | transition =>
    obtain ⟨found, -, rfl⟩ := Option.map_eq_some_iff.mp rule_eq
    exact absurd begins (not_beginsReturn '/' (by simp [transitionStatement]) (by decide))
  | scriptEscape =>
    obtain ⟨-, some_eq⟩ := Option.ite_none_right_eq_some.mp rule_eq
    obtain rfl := Option.some.inj some_eq
    exact absurd begins (by decide)

end Statement

/-- What is converted in front of the last statement stands in front of the last one in the body. -/
theorem source_of_mem_dropLast {table : Table} {body : List String} {statement : Output.Statement}
    (member : statement ∈ (convertBody table body).dropLast) :
    ∃ text ∈ body.dropLast, convertStatement? table text = some statement := by
  simp only [convertBody] at member
  split at member
  · simp at member
  · rcases List.eq_nil_or_concat body with rfl | ⟨init, last, rfl⟩
    · simp at member
    · rw [List.concat_eq_append, List.dropLast_concat]
      rw [List.concat_eq_append, List.filterMap_append] at member
      -- The last statement of the body gives the last one converted, or none at all.
      have converted : statement ∈ init.filterMap (convertStatement? table) := by
        cases last_eq : convertStatement? table last with
        | none =>
          rw [List.filterMap_cons_none last_eq, List.filterMap_nil, List.append_nil] at member
          exact List.dropLast_subset _ member
        | some converted =>
          rwa [List.filterMap_cons_some last_eq, List.filterMap_nil, List.dropLast_concat] at member
      exact List.mem_filterMap.mp converted

/-- A body that returns only in its last statement returns earlier, once converted, only where an
earlier statement asks for the visibility of an element. -/
theorem convertBody_reachable (table : Table) (body : List String)
    (last_only : ∀ text ∈ body.dropLast, ¬ BeginsReturn text.toList) :
    ∀ statement ∈ (convertBody table body).dropLast, BeginsReturn statement.text.toList →
      ∃ text ∈ body.dropLast, ∃ selector, CallsOn table "isDisplayed" text.toList selector ∧
        statement = visibilityStatement selector := by
  intro statement member begins
  obtain ⟨text, text_mem, text_eq⟩ := source_of_mem_dropLast member
  rcases kind_of_beginsReturn text_eq begins with kind_eq | kind_eq
  · exact ⟨text, text_mem, callsOn_of_visibilityQuery text_eq kind_eq⟩
  · -- The title is returned only by a statement that returns it in the source.
    have title := (beginsWithTitle_of_titleQuery text_eq kind_eq).1
    exact absurd title.beginsReturn (last_only text text_mem)

/-- The body of a method that checks a button before it clicks on it. -/
def checkedClick : List String :=
  ["if (loginBtn.isDisplayed())", "loginBtn.click()"]

theorem not_beginsReturn_checkedClick :
    ∀ text ∈ checkedClick.dropLast, ¬ BeginsReturn text.toList := by decide

private theorem convertBody_checkedClick : convertBody loginTable checkedClick =
    [visibilityStatement (Strategy.id.selector "login"),
      clickStatement (Strategy.id.selector "login")] := by
  have condition_eq : convertStatement? loginTable "if (loginBtn.isDisplayed())"
      = some (visibilityStatement (Strategy.id.selector "login")) := by decide +kernel
  have click_eq : convertStatement? loginTable "loginBtn.click()"
      = some (clickStatement (Strategy.id.selector "login")) := by decide +kernel
  simp [convertBody, checkedClick, condition_eq, click_eq]

theorem convertBody_reachable_checkedClick :
    (∀ text ∈ checkedClick.dropLast, ¬ BeginsReturn text.toList) ∧
      visibilityStatement (Strategy.id.selector "login")
        ∈ (convertBody loginTable checkedClick).dropLast ∧
      ∃ text ∈ checkedClick.dropLast, ∃ selector,
        CallsOn loginTable "isDisplayed" text.toList selector ∧
        visibilityStatement (Strategy.id.selector "login") = visibilityStatement selector := by
  have emitted : visibilityStatement (Strategy.id.selector "login")
      ∈ (convertBody loginTable checkedClick).dropLast := by simp [convertBody_checkedClick]
  exact ⟨not_beginsReturn_checkedClick, emitted,
    convertBody_reachable loginTable checkedClick not_beginsReturn_checkedClick _ emitted
      (beginsReturn_visibilityStatement _)⟩

/-- The query of a condition stands in front of what the condition guards, which is never run. -/
theorem convertBody_reachable_not_of_conditions :
    ¬ ∀ (table : Table) (body : List String),
      (∀ text ∈ body.dropLast, ¬ BeginsReturn text.toList) →
      ∀ statement ∈ (convertBody table body).dropLast, ¬ BeginsReturn statement.text.toList := by
  intro reachable
  have emitted : visibilityStatement (Strategy.id.selector "login")
      ∈ (convertBody loginTable checkedClick).dropLast := by simp [convertBody_checkedClick]
  exact reachable loginTable checkedClick not_beginsReturn_checkedClick _ emitted
    (beginsReturn_visibilityStatement _)

end SuiteMigration.Page
