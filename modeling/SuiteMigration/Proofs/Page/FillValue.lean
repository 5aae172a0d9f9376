import SuiteMigration.Proofs.Page.Queries
import SuiteMigration.Proofs.Pattern.Line
import SuiteMigration.Proofs.Text.Parentheses

/-!
# Values that are filled in

The value of a fill reaches from its call to the last closing parenthesis of the line. In a statement
of balanced parentheses it takes one closing parenthesis too many for every group that is open around
the call, so a call that is nested in another one is filled in with an unbalanced value.
-/
namespace SuiteMigration.Page

open Pattern Locator Text

section Parts

variable {table : Table} {statement target : List Char} {text : String} {found : Match}
  {query : Output.Statement}

/-- The value is what stands between the call and the last closing parenthesis of its line. -/
theorem parts_of_find?_fillCall (found_eq : fillCall.find? statement = some found) :
    ∃ front call back, statement = front ++ call ++ found.group "value" ++ ')' :: back ∧
      (callStart "sendKeys").Accepts call ∧ (∀ c ∈ found.group "value", c ≠ '\n') ∧
      ')' ∉ back.takeWhile (· != '\n') := by
  obtain ⟨rest, stop, text_eq, run_eq, -, groups_eq, -⟩ := run_of_findFrom? found_eq
  obtain ⟨at_value, call_found, value_run⟩ := exists_of_run_all
    [target, blanks, mark '.', blanks, Pattern.text "sendKeys", blanks, mark '('] run_eq
  obtain ⟨at_call, target_found, call_found⟩ := exists_of_mem_ways_seq call_found
  obtain ⟨taken, rest_eq, -⟩ := accepts_of_mem_ways target_found
  obtain ⟨call, call_eq, is_call⟩ := accepts_of_mem_ways call_found
  obtain ⟨value, value_eq, is_line, value_groups, last⟩ := parts_of_run_line (by decide) value_run
  have group_eq : found.group "value" = value := by
    rw [Match.group, Match.group?, groups_eq, value_groups]
    rfl
  rw [group_eq]
  refine ⟨found.before ++ taken, call, stop.rest, ?_, is_call, is_line, last⟩
  rw [text_eq, show rest = _ from rest_eq, call_eq, value_eq]
  simp

private theorem emit_of_onTarget {emit : Selector → Output.Statement}
    (query_eq : onTarget table statement target emit = query)
    (converted : query.kind ≠ .reviewComment) : ∃ selector, query = emit selector := by
  subst query_eq
  unfold onTarget at converted ⊢
  split at converted
  · split at converted
    · next lookup resolve_eq => exact ⟨lookup.selector, rfl⟩
    · exact absurd rfl converted
  · split at converted
    · next selector selector_eq => exact ⟨selector, rfl⟩
    · exact absurd rfl converted

private theorem fill_of_convertStatement? (query_eq : convertStatement? table text = some query)
    (kind_eq : query.kind = .fill) :
    ∃ found selector, fillCall.find? text.toList = some found ∧
      query = fillStatement (trim (found.group "value")) selector := by
  obtain ⟨rule, rule_eq, rule_kind⟩ := rule_of_convertStatement? query_eq
  rw [kind_eq] at rule_kind
  cases rule with
  | fill =>
    obtain ⟨found, found_eq, onTarget_eq⟩ := Option.map_eq_some_iff.mp rule_eq
    have converted : query.kind ≠ .reviewComment := by
      rw [kind_eq]
      decide
    obtain ⟨selector, query_eq⟩ := emit_of_onTarget onTarget_eq converted
    exact ⟨found, selector, found_eq, query_eq⟩
  | _ => simp [Rule.kind] at rule_kind

end Parts

section Depth

variable {front call value back code frontCode valueCode : List Char}

private theorem counts_of_callStart (is_call : (callStart "sendKeys").Accepts call) :
    HasCode call call ∧ call.count '(' = 1 ∧ call.count ')' = 0 := by
  obtain ⟨init, rfl, no_opening⟩ := opening_of_callStart is_call (by decide)
  refine ⟨hasCode_self (not_mem_of_accepts (by rfl) is_call), ?_, ?_⟩
  · simp [List.count_eq_zero.mpr no_opening]
  · exact List.count_eq_zero.mpr (not_mem_of_accepts (by rfl) is_call)

/-- Besides its own groups the value closes those that are open around the call. -/
theorem exists_depth (is_call : (callStart "sendKeys").Accepts call) (no_closing : ')' ∉ back)
    (whole : HasCode (front ++ call ++ value ++ ')' :: back) code) (balanced : Balanced code)
    (front_code : HasCode front frontCode) (value_code : HasCode value valueCode) :
    ∃ depth, frontCode.count '(' = frontCode.count ')' + depth ∧
      valueCode.count ')' = valueCode.count '(' + depth := by
  obtain ⟨call_code, opens_one, closes_none⟩ := counts_of_callStart is_call
  rw [← List.singleton_append, ← List.append_assoc] at whole
  have closing_code : HasCode [')'] [')'] := hasCode_self (by decide)
  obtain ⟨backCode, has_back, rfl⟩ :=
    whole.of_append (((front_code.append call_code).append value_code).append closing_code)
  have no_closing_code : backCode.count ')' = 0 :=
    List.count_eq_zero.mpr fun member => no_closing (has_back.subset member)
  have even := balanced.closed
  have opened := balanced.within frontCode (by simp)
  -- Behind the value nothing is closed any more, so nothing is opened there either.
  have closed := balanced.within _ (List.prefix_append _ backCode)
  simp [opens_one, closes_none, no_closing_code] at even closed opened
  exact ⟨frontCode.count '(' - frontCode.count ')', by omega, by omega⟩

end Depth

/-- A fill is made of a call and of the value behind it, up to the last closing parenthesis of its
line. Where the statement has balanced parentheses, the value has as many closing ones too many as
groups are open around the call. So it is balanced only if the call is nested in none, and then if it
never closes more than it opens. -/
theorem convertStatement?_fill_value (table : Table) (text : String) (query : Output.Statement)
    (query_eq : convertStatement? table text = some query) (kind_eq : query.kind = .fill) :
    ∃ front call value back selector,
      text.toList = front ++ call ++ value ++ ')' :: back ∧
      (callStart "sendKeys").Accepts call ∧ (∀ c ∈ value, c ≠ '\n') ∧
      ')' ∉ back.takeWhile (· != '\n') ∧ query = fillStatement (trim value) selector ∧
      ∀ code frontCode valueCode, HasCode text.toList code → Balanced code → '\n' ∉ back →
        HasCode front frontCode → HasCode value valueCode →
        ∃ depth trimmed, HasCode (trim value) trimmed ∧
          frontCode.count '(' = frontCode.count ')' + depth ∧
          trimmed.count ')' = trimmed.count '(' + depth ∧
          (Balanced trimmed ↔
            depth = 0 ∧ ∀ part, part <+: trimmed → part.count ')' ≤ part.count '(') := by
  obtain ⟨found, selector, found_eq, rfl⟩ := fill_of_convertStatement? query_eq kind_eq
  obtain ⟨front, call, back, text_eq, is_call, is_line, last⟩ := parts_of_find?_fillCall found_eq
  refine ⟨front, call, found.group "value", back, selector, text_eq, is_call, is_line, last, rfl, ?_⟩
  intro code frontCode valueCode has_code balanced one_line front_code value_code
  -- What is left is one line, so it has no closing parenthesis at all.
  have no_closing : ')' ∉ back := by
    have all_line : back.takeWhile (· != '\n') = back :=
      List.takeWhile_eq_self_iff.mpr fun c member => by
        rw [bne_iff_ne]
        rintro rfl
        exact one_line member
    rwa [all_line] at last
  rw [text_eq] at has_code
  obtain ⟨depth, front_depth, value_depth⟩ :=
    exists_depth is_call no_closing has_code balanced front_code value_code
  -- Trimming takes blanks only, so the parentheses are those of the value.
  obtain ⟨trimmed, has_trimmed, opened_eq, closed_eq⟩ := value_code.trim
  refine ⟨depth, trimmed, has_trimmed, front_depth, by omega, ?_⟩
  constructor
  · intro is_balanced
    have even := is_balanced.closed
    exact ⟨by omega, is_balanced.within⟩
  · rintro ⟨rfl, within⟩
    exact ⟨within, by omega⟩

/-- The call of a lambda is nested in another call, and its value has a parenthesis too many. -/
theorem convertStatement?_fill_value_nested :
    convertStatement? loginTable "run(() -> loginBtn.sendKeys(un))"
        = some ⟨.fill, "await this.page.fill('#login', un));"⟩ ∧
      ∃ front call value back selector,
        "run(() -> loginBtn.sendKeys(un))".toList = front ++ call ++ value ++ ')' :: back ∧
        ⟨.fill, "await this.page.fill('#login', un));"⟩ = fillStatement (trim value) selector ∧
        ∃ depth trimmed, HasCode (trim value) trimmed ∧
          front.count '(' = front.count ')' + depth ∧
          trimmed.count ')' = trimmed.count '(' + depth := by
  have query_eq : convertStatement? loginTable "run(() -> loginBtn.sendKeys(un))"
      = some ⟨.fill, "await this.page.fill('#login', un));"⟩ := by decide +kernel
  have plain : '"' ∉ "run(() -> loginBtn.sendKeys(un))".toList := by decide
  have balanced := (isBalanced_iff (hasCode_self plain)).mp (by decide)
  have one_line : '\n' ∉ "run(() -> loginBtn.sendKeys(un))".toList := by decide
  refine ⟨query_eq, ?_⟩
  obtain ⟨front, call, value, back, selector, text_eq, -, -, -, fill_eq, value_balance⟩ :=
    convertStatement?_fill_value loginTable _ _ query_eq rfl
  have has_code := hasCode_self plain
  rw [text_eq] at plain one_line
  simp only [List.mem_append, List.mem_cons, not_or] at plain one_line
  obtain ⟨depth, trimmed, has_trimmed, front_depth, value_depth, -⟩ :=
    value_balance _ _ _ has_code balanced one_line.2.2 (hasCode_self plain.1.1.1)
      (hasCode_self plain.1.2)
  exact ⟨front, call, value, back, selector, text_eq, fill_eq, depth, trimmed, has_trimmed,
    front_depth, value_depth⟩

/-- A fill may be out of balance where the statement is not. -/
theorem convertStatement?_fill_not_balanced :
    ¬ ∀ (table : Table) (text : String) (query : Output.Statement),
      convertStatement? table text = some query → query.kind = .fill →
      (∃ code, HasCode text.toList code ∧ Balanced code) →
      ∃ code, HasCode query.text.toList code ∧ Balanced code := by
  intro always
  have query_eq : convertStatement? loginTable "run(() -> loginBtn.sendKeys(un))"
      = some ⟨.fill, "await this.page.fill('#login', un));"⟩ := by decide +kernel
  have plain : HasCode "run(() -> loginBtn.sendKeys(un))".toList _ := hasCode_self (by decide)
  have balanced := (isBalanced_iff plain).mp (by decide)
  obtain ⟨code, has_code, is_balanced⟩ := always loginTable _ _ query_eq rfl ⟨_, plain, balanced⟩
  have read := (isBalanced_iff has_code).mpr is_balanced
  revert read
  decide

end SuiteMigration.Page
