import SuiteMigration.Proofs.Page.TargetCall

/-!
# Queries

A query asks for the visibility of an element or for the title. The rules search the statement for
the call, so a query tells that the statement has the call and which element it is made on, and
nothing about what stands around it. A statement that returns one call alone becomes its query.
-/
namespace SuiteMigration.Page

open Pattern Locator Text
open Test (AllBlank IsWord accepts_blanks accepts_someBlanks accepts_word endsOutside_blanks
  not_mem_of_isWord not_mem_of_allBlank)

/-! ## Where queries come from -/

section Sound

variable {table : Table} {statement : List Char} {text : String} {query : Output.Statement}

private theorem callsOn_of_visibility
    (query_eq : Rule.visibility.convert? table statement = some query)
    (converted : query.kind ≠ .reviewComment) :
    ∃ selector, CallsOn table "isDisplayed" statement selector ∧
      query = visibilityStatement selector := by
  obtain ⟨found, found_eq, onTarget_eq⟩ := Option.map_eq_some_iff.mp query_eq
  obtain ⟨front, this, call, back, text_eq, front_ends, is_this, is_target, is_call⟩ :=
    call_of_find? (by rfl) found_eq
  obtain ⟨selector, is_element, query_eq⟩ := element_of_onTarget is_target onTarget_eq converted
  exact ⟨selector, ⟨front, this, _, call, back, text_eq, front_ends, is_this, is_element, is_call⟩,
    query_eq⟩

/-- The statement begins with the return of the title of the page. -/
def BeginsWithTitle (statement : List Char) : Prop :=
  ∃ gap this driver call back,
    statement = "return".toList ++ gap ++ this ++ driver ++ call ++ back ∧
    gap ≠ [] ∧ AllBlank gap ∧ thisDot.Accepts this ∧ IsWord driver ∧
    (callTail "getTitle" blanks).Accepts call

private theorem beginsWithTitle_of_occursIn (occurs : titleReturn.occursIn statement = true) :
    BeginsWithTitle statement := by
  obtain ⟨found, found_eq⟩ := Option.isSome_iff_exists.mp occurs
  obtain ⟨stop, stop_found, -⟩ := mem_ways_of_find?_anchored found_eq
  obtain ⟨taken, text_eq, word, _, rfl, is_return, gap, _, rfl, is_gap, this, _, rfl, is_this,
    driver, call, rfl, is_driver, is_call⟩ := accepts_of_mem_ways stop_found
  obtain ⟨nonempty, is_gap⟩ := accepts_someBlanks.mp is_gap
  refine ⟨gap, this, driver, call, stop.rest, ?_, nonempty, is_gap, is_this,
    accepts_word.mp is_driver, is_call⟩
  rw [show statement = _ from text_eq, accepts_literal.mp is_return]
  simp

/-- The kind of what a rule makes of a statement, unless that is left for review. -/
def Rule.kind : Rule → Output.Kind
  | fill => .fill
  | click => .click
  | visibility => .visibilityQuery
  | title => .titleQuery
  | transition => .transitionComment
  | scriptEscape => .reviewComment

private theorem kind_of_convert? {rule : Rule}
    (query_eq : rule.convert? table statement = some query) :
    query.kind = rule.kind ∨ query.kind = .reviewComment := by
  have on_target : ∀ {emit : Selector → Output.Statement} {target : List Char} {kind : Output.Kind},
      (∀ selector, (emit selector).kind = kind) → onTarget table statement target emit = query →
      query.kind = kind ∨ query.kind = .reviewComment := by
    intro emit target kind kind_eq onTarget_eq
    rw [← onTarget_eq, kind_onTarget kind_eq]
    split
    · exact .inl rfl
    · exact .inr rfl
  cases rule with
  | fill | click | visibility =>
    obtain ⟨found, -, onTarget_eq⟩ := Option.map_eq_some_iff.mp query_eq
    exact on_target (fun _ => rfl) onTarget_eq
  | title =>
    obtain ⟨-, some_eq⟩ := Option.ite_none_right_eq_some.mp query_eq
    exact .inl (Option.some.inj some_eq ▸ rfl)
  | transition =>
    obtain ⟨found, -, rfl⟩ := Option.map_eq_some_iff.mp query_eq
    exact .inl rfl
  | scriptEscape =>
    obtain ⟨-, some_eq⟩ := Option.ite_none_right_eq_some.mp query_eq
    exact .inl (Option.some.inj some_eq ▸ rfl)

theorem rule_of_convertStatement? (query_eq : convertStatement? table text = some query) :
    ∃ rule : Rule, rule.convert? table text.toList = some query ∧
      (query.kind = rule.kind ∨ query.kind = .reviewComment) := by
  obtain ⟨rule, -, rule_eq⟩ := List.exists_of_findSome?_eq_some query_eq
  exact ⟨rule, rule_eq, kind_of_convert? rule_eq⟩

/-- A visibility query is about an element on which the statement calls the method. -/
theorem callsOn_of_visibilityQuery (query_eq : convertStatement? table text = some query)
    (kind_eq : query.kind = .visibilityQuery) :
    ∃ selector, CallsOn table "isDisplayed" text.toList selector ∧
      query = visibilityStatement selector := by
  obtain ⟨rule, rule_eq, rule_kind⟩ := rule_of_convertStatement? query_eq
  rw [kind_eq] at rule_kind
  cases rule with
  | visibility =>
    apply callsOn_of_visibility rule_eq
    rw [kind_eq]
    decide
  | _ => simp [Rule.kind] at rule_kind

theorem beginsWithTitle_of_titleQuery (query_eq : convertStatement? table text = some query)
    (kind_eq : query.kind = .titleQuery) :
    BeginsWithTitle text.toList ∧ query = titleStatement := by
  obtain ⟨rule, rule_eq, rule_kind⟩ := rule_of_convertStatement? query_eq
  rw [kind_eq] at rule_kind
  cases rule with
  | title =>
    obtain ⟨occurs, some_eq⟩ := Option.ite_none_right_eq_some.mp rule_eq
    exact ⟨beginsWithTitle_of_occursIn occurs, (Option.some.inj some_eq).symm⟩
  | _ => simp [Rule.kind] at rule_kind

end Sound

/-! ## Statements that return one call -/

/-- The statement returns a call on a name and does nothing else. -/
def ReturnsCall (method : String) (statement name : List Char) : Prop :=
  ∃ gap this call behind, statement = "return".toList ++ gap ++ this ++ name ++ call ++ behind ∧
    gap ≠ [] ∧ AllBlank gap ∧ thisDot.Accepts this ∧ IsWord name ∧
    (callTail method blanks).Accepts call ∧ AllBlank behind

section Returned

variable {table : Table} {method other : String} {arguments : Pattern}
  {statement name : List Char} {found : Match}

/-- Behind `this.` or a gap, a name begins. -/
theorem endsOutside_this {front this : List Char} (is_this : thisDot.Accepts this)
    (ends : EndsOutside isWordChar front) : EndsOutside isWordChar (front ++ this) := by
  rcases is_this with ⟨word, _, rfl, -, before, _, rfl, -, dot, _, rfl, is_dot, after, _, rfl,
    is_after, rfl⟩ | rfl
  · have is_after := accepts_blanks.mp is_after
    obtain rfl := accepts_mark.mp is_dot
    have text_eq : front ++ (word ++ (before ++ (['.'] ++ (after ++ []))))
        = (front ++ word ++ before) ++ ('.' :: after) := by simp
    rw [text_eq]
    refine endsOutside_append (List.cons_ne_nil '.' after) ?_ _
    refine List.forall_mem_cons.mpr ⟨by decide, fun c member => ?_⟩
    exact isWordChar_of_isBlank (is_after c member)
  · rwa [List.append_nil]

private theorem mem_of_lookupHead {head : List Char} (accepted : lookupHead.Accepts head) :
    '(' ∈ head := by
  obtain ⟨_, _, rfl, -, _, _, rfl, -, _, _, rfl, -, _, _, rfl, -, _, _, rfl, -, _, _, rfl, -, _, _,
    rfl, is_opening, rfl⟩ := accepted
  rw [accepts_mark.mp is_opening]
  simp

private theorem not_mem_return {gap this : List Char} (is_gap : AllBlank gap)
    (is_this : thisDot.Accepts this) (is_name : IsWord name) :
    '(' ∉ "return".toList ++ gap ++ this ++ name := by
  have no_gap := not_mem_of_allBlank is_gap (by decide : isBlank '(' = false)
  have no_this := not_mem_of_accepts (by decide : thisDot.avoids '(' = true) is_this
  have no_name := not_mem_of_isWord is_name (by decide : isWordChar '(' = false)
  simp [no_gap, no_this, no_name]

/-- The call that is returned is the only one. -/
theorem ReturnsCall.unique (returns : ReturnsCall method statement name)
    (method_word : IsWord method.toList) (other_word : IsWord other.toList)
    {front this target call rest : List Char}
    (text_eq : statement = front ++ this ++ target ++ call ++ rest)
    (front_ends : ∀ c ∈ front.getLast?, endsName c = true) (is_this : thisDot.Accepts this)
    (is_target : targetText.Accepts target) (is_call : (callStart other).Accepts call) :
    method = other ∧ target = name := by
  obtain ⟨gap, own, tail, behind, rfl, nonempty, is_gap, is_own, is_name, is_tail, is_behind⟩ :=
    returns
  obtain ⟨head, space, is_head, is_space, rfl⟩ := parts_of_callTail is_tail
  have no_space := not_mem_of_allBlank is_space (by decide : isBlank '(' = false)
  have no_behind := not_mem_of_allBlank is_behind (by decide : isBlank '(' = false)
  have split_eq : "return".toList ++ gap ++ own ++ name ++ head ++ (space ++ ')' :: behind)
      = front ++ this ++ target ++ call ++ rest := by simpa using text_eq
  obtain ⟨heads_eq, no_opening⟩ := append_eq_of_one_opening split_eq is_head is_call method_word
    other_word (not_mem_return is_gap is_own is_name) (by simp [no_space, no_behind])
  -- So the target is no lookup, which would have a parenthesis of its own.
  have is_word : IsWord target := by
    rcases lookup_or_word is_target with ⟨lookup, locator, is_lookup, -, rfl⟩ | is_word
    · simp [mem_of_lookupHead is_lookup] at no_opening
    · exact is_word
  obtain ⟨fronts_eq, method_eq⟩ := callStart_inj heads_eq is_head is_call method_word other_word
    (endsOutside_blanks is_name _) (endsOutside_blanks is_word _)
  -- Both names begin where no word goes on, so they are the same last word of one text.
  have gap_ends : EndsOutside isWordChar ("return".toList ++ gap) :=
    endsOutside_append nonempty (fun c member => isWordChar_of_isBlank (is_gap c member)) _
  have front_outside : EndsOutside isWordChar front := fun c member => by
    have ends := front_ends c member
    simp only [endsName, Bool.and_eq_true, Bool.not_eq_true'] at ends
    exact ends.1
  obtain ⟨-, name_eq⟩ := append_inj_of_ends fronts_eq is_name.2 is_word.2
    (endsOutside_this is_own gap_ends) (endsOutside_this is_this front_outside)
  exact ⟨method_eq, name_eq.symm⟩

/-- No other method is called on an element. -/
theorem ReturnsCall.find?_eq_none (returns : ReturnsCall method statement name)
    (method_word : IsWord method.toList) (other_word : IsWord other.toList)
    (plain : (callStart other).isPlain = true) (distinct : method ≠ other) :
    (elementCall other arguments).find? statement = none := by
  by_contra some_found
  obtain ⟨found, found_eq⟩ := Option.ne_none_iff_exists'.mp some_found
  obtain ⟨front, this, target, middle, text_eq, front_ends, is_this, is_target, -, stop, stop_found,
    -⟩ := target_of_find? found_eq
  obtain ⟨call, behind, rest_eq, is_call, -⟩ := plain_of_mem_ways
    [blanks, mark '.', blanks, text other, blanks, mark '('] plain stop_found
  rw [rest_eq, ← List.append_assoc] at text_eq
  exact distinct (returns.unique method_word other_word text_eq front_ends is_this is_target
    is_call).1

/-- The call that is returned is found, on its name. -/
theorem ReturnsCall.find?_isSome (returns : ReturnsCall method statement name)
    (free : (qualified (callTail method blanks)).isFree = true) :
    ((elementCall method blanks).find? statement).isSome = true := by
  obtain ⟨gap, this, call, behind, rfl, nonempty, is_gap, is_this, is_name, is_call, -⟩ := returns
  -- The last character of the gap stands in front of the target, so the search can begin there.
  obtain ⟨init, last, rfl⟩ : ∃ init last, gap = init ++ [last] :=
    ⟨gap.dropLast, gap.getLast nonempty, (List.dropLast_append_getLast nonempty).symm⟩
  have last_blank : isBlank last = true := is_gap last (by simp)
  have ends : endsName last = true := by
    have no_dot : last ≠ '.' := by
      rintro rfl
      exact absurd last_blank (by decide)
    simp [endsName, isWordChar_of_isBlank last_blank, no_dot]
  have accepted : (qualified (callTail method blanks)).Accepts (this ++ (name ++ []) ++ call) :=
    ⟨this ++ (name ++ []), call, rfl, ⟨this, name ++ [], rfl, is_this, name, [], rfl,
      .inr (accepts_word.mpr is_name), rfl⟩, is_call⟩
  have text_eq : "return".toList ++ (init ++ [last]) ++ this ++ name ++ call ++ behind
      = ("return".toList ++ init) ++ last :: ((this ++ (name ++ []) ++ call) ++ behind) := by simp
  exact findFrom?_isSome text_eq (run_elementCall_isSome ends free accepted) none

theorem find?_inlineLookup_word (is_word : IsWord name) : inlineLookup.find? name = none := by
  by_contra some_found
  obtain ⟨found, found_eq⟩ := Option.ne_none_iff_exists'.mp some_found
  obtain ⟨head, -, -, name_eq⟩ := parts_of_find?_inlineLookup found_eq
  have no_closing := not_mem_of_isWord is_word (by decide : isWordChar ')' = false)
  rw [name_eq] at no_closing
  simp at no_closing

theorem ReturnsCall.isWord_name (returns : ReturnsCall method statement name) : IsWord name := by
  obtain ⟨_, _, _, _, -, -, -, -, is_name, -⟩ := returns
  exact is_name

/-- Fills and clicks are sought first, and there are none. -/
theorem ReturnsCall.convertStatement?_eq {text : String}
    (returns : ReturnsCall method text.toList name) (method_word : IsWord method.toList)
    (no_fill : method ≠ "sendKeys") (no_click : method ≠ "click") :
    convertStatement? table text
      = [Rule.visibility, .title, .transition, .scriptEscape].findSome?
          (·.convert? table text.toList) := by
  have fill_none : Rule.fill.convert? table text.toList = none := by
    rw [Rule.convert?, fillCall,
      returns.find?_eq_none method_word (by decide) (by rfl) no_fill]
    rfl
  have click_none : Rule.click.convert? table text.toList = none := by
    rw [Rule.convert?, clickCall,
      returns.find?_eq_none method_word (by decide) (by rfl) no_click]
    rfl
  simp only [convertStatement?, Rule.all, List.findSome?_cons, fill_none, click_none]

/-- A returned visibility becomes the query of its element. -/
theorem convertStatement?_of_returned_visibility {text : String}
    (returns : ReturnsCall "isDisplayed" text.toList name) {selector : Selector}
    (known : table.selector? (String.ofList name) = some selector) :
    convertStatement? table text = some (visibilityStatement selector) := by
  have method_word : IsWord "isDisplayed".toList := by decide
  obtain ⟨found, found_eq⟩ := Option.isSome_iff_exists.mp (returns.find?_isSome (by rfl))
  have target_eq : found.group "target" = name := by
    obtain ⟨front, this, call, back, text_eq, front_ends, is_this, is_target, is_call⟩ :=
      call_of_find? (by rfl) found_eq
    obtain ⟨head, gap, is_head, -, rfl⟩ := parts_of_callTail is_call
    have split_eq : text.toList
        = front ++ this ++ found.group "target" ++ head ++ (gap ++ ')' :: back) := by
      simpa using text_eq
    exact (returns.unique method_word method_word split_eq front_ends is_this is_target is_head).2
  have query_eq : Rule.visibility.convert? table text.toList
      = some (visibilityStatement selector) := by
    rw [Rule.convert?, visibilityCall, found_eq, Option.map_some, target_eq, onTarget,
      find?_inlineLookup_word returns.isWord_name]
    simp only [known]
  rw [returns.convertStatement?_eq method_word (by decide) (by decide), List.findSome?_cons,
    query_eq]

theorem ReturnsCall.occursIn_titleReturn (returns : ReturnsCall "getTitle" statement name) :
    titleReturn.occursIn statement = true := by
  obtain ⟨gap, this, call, behind, rfl, nonempty, is_gap, is_this, is_name, is_call, -⟩ := returns
  have accepted : (Pattern.all [text "return", someBlanks, thisDot, word, blanks, mark '.', blanks,
      text "getTitle", blanks, mark '(', blanks, mark ')']).Accepts
      ("return".toList ++ (gap ++ (this ++ (name ++ call)))) :=
    ⟨"return".toList, _, rfl, accepts_literal.mpr rfl, gap, _, rfl,
      accepts_someBlanks.mpr ⟨nonempty, is_gap⟩, this, _, rfl, is_this, name, call, rfl,
      accepts_word.mpr is_name, is_call⟩
  have text_eq : (Cursor.mk none ("return".toList ++ gap ++ this ++ name ++ call ++ behind) []).rest
      = "return".toList ++ (gap ++ (this ++ (name ++ call))) ++ behind := by simp
  obtain ⟨stop, stop_found, -⟩ := mem_ways_of_accepts (by rfl) accepted text_eq
  have found := run_isSome_of_mem_ways stop_found
  rw [occursIn, ← Option.isSome_map, titleReturn, Pattern.all, List.foldr_cons,
    groups_find?_anchored, Option.isSome_map]
  exact found

private theorem convertStatement?_of_returned_title {text : String}
    (returns : ReturnsCall "getTitle" text.toList name) :
    convertStatement? table text = some titleStatement := by
  have method_word : IsWord "getTitle".toList := by decide
  have no_visibility : Rule.visibility.convert? table text.toList = none := by
    rw [Rule.convert?, visibilityCall,
      returns.find?_eq_none method_word (by decide) (by rfl) (by decide)]
    rfl
  have query_eq : Rule.title.convert? table text.toList = some titleStatement := by
    rw [Rule.convert?, if_pos returns.occursIn_titleReturn]
  rw [returns.convertStatement?_eq method_word (by decide) (by decide), List.findSome?_cons,
    no_visibility, List.findSome?_cons, query_eq]

end Returned

private theorem accepts_callTail (method : String) :
    (callTail method blanks).Accepts ('.' :: (method.toList ++ ['(', ')'])) := by
  have no_blanks : blanks.Accepts [] := accepts_blanks.mpr (by simp [AllBlank])
  exact ⟨[], _, rfl, no_blanks, ['.'], _, rfl, accepts_mark.mpr rfl, [], _, rfl, no_blanks,
    method.toList, _, rfl, accepts_literal.mpr rfl, [], _, rfl, no_blanks, ['('], _, rfl,
    accepts_mark.mpr rfl, [], _, rfl, no_blanks, [')'], [], rfl, accepts_mark.mpr rfl, rfl⟩

/-- A visibility query asks about an element on which the statement calls `isDisplayed`, and a title
query stands for a statement that begins by returning the title. A statement that returns one of
these calls on a name, and nothing more, becomes its query. -/
theorem convertStatement?_queries (table : Table) (text : String) :
    (∀ query, convertStatement? table text = some query → query.kind = .visibilityQuery →
      ∃ selector, CallsOn table "isDisplayed" text.toList selector ∧
        query = visibilityStatement selector) ∧
    (∀ query, convertStatement? table text = some query → query.kind = .titleQuery →
      BeginsWithTitle text.toList ∧ query = titleStatement) ∧
    (∀ name selector, ReturnsCall "isDisplayed" text.toList name →
      table.selector? (String.ofList name) = some selector →
      convertStatement? table text = some (visibilityStatement selector)) ∧
    ∀ name, ReturnsCall "getTitle" text.toList name →
      convertStatement? table text = some titleStatement := by
  refine ⟨?_, ?_, ?_, ?_⟩
  · intro query query_eq kind_eq
    exact callsOn_of_visibilityQuery query_eq kind_eq
  · intro query query_eq kind_eq
    exact beginsWithTitle_of_titleQuery query_eq kind_eq
  · intro name selector returns known
    exact convertStatement?_of_returned_visibility returns known
  · intro name returns
    exact convertStatement?_of_returned_title returns

/-- The visibility of the login button, negated and returned, and the title. -/
theorem convertStatement?_queries_login :
    (∃ query, convertStatement? loginTable "return !loginBtn.isDisplayed()" = some query ∧
      query.kind = .visibilityQuery ∧ ∃ selector,
        CallsOn loginTable "isDisplayed" "return !loginBtn.isDisplayed()".toList selector ∧
        query = visibilityStatement selector) ∧
    (∃ query, convertStatement? loginTable "return driver.getTitle()" = some query ∧
      query.kind = .titleQuery ∧ BeginsWithTitle "return driver.getTitle()".toList ∧
      query = titleStatement) ∧
    (ReturnsCall "isDisplayed" "return loginBtn.isDisplayed()".toList "loginBtn".toList ∧
      convertStatement? loginTable "return loginBtn.isDisplayed()"
        = some (visibilityStatement (Strategy.id.selector "login"))) ∧
    (ReturnsCall "getTitle" "return driver.getTitle()".toList "driver".toList ∧
      convertStatement? loginTable "return driver.getTitle()" = some titleStatement) := by
  have is_gap : AllBlank [' '] := List.forall_mem_singleton.mpr rfl
  have no_rest : AllBlank [] := List.forall_mem_nil _
  have visibility : ReturnsCall "isDisplayed" "return loginBtn.isDisplayed()".toList
      "loginBtn".toList :=
    ⟨[' '], [], _, [], rfl, by simp, is_gap, .inr rfl, by decide, accepts_callTail _, no_rest⟩
  have title : ReturnsCall "getTitle" "return driver.getTitle()".toList "driver".toList :=
    ⟨[' '], [], _, [], rfl, by simp, is_gap, .inr rfl, by decide, accepts_callTail _, no_rest⟩
  have negated_eq : convertStatement? loginTable "return !loginBtn.isDisplayed()"
      = some (visibilityStatement (Strategy.id.selector "login")) := by decide +kernel
  have title_eq : convertStatement? loginTable "return driver.getTitle()"
      = some titleStatement := by decide +kernel
  refine ⟨⟨_, negated_eq, rfl, ?_⟩, ⟨_, title_eq, rfl, ?_⟩, ⟨visibility, ?_⟩, ⟨title, ?_⟩⟩
  · exact (convertStatement?_queries loginTable _).1 _ negated_eq rfl
  · exact (convertStatement?_queries loginTable _).2.1 _ title_eq rfl
  · exact (convertStatement?_queries loginTable _).2.2.1 _ _ visibility (by decide +kernel)
  · exact (convertStatement?_queries loginTable _).2.2.2 _ title

/-- The text returns one call that a query stands for, and nothing else. -/
def loneQuery : Pattern :=
  .all [.atStart, text "return", blanks, thisDot,
    .either (.seq targetText (callTail "isDisplayed" blanks))
      (.seq word (callTail "getTitle" blanks)), blanks, .atEnd]

/-- What stands around the call is not looked at: neither what negates or combines a visibility, nor
what a title is handed on to. -/
theorem convertStatement?_queries_not_alone :
    (¬ ∀ (table : Table) (text : String) (query : Output.Statement),
      "return".toList <+: text.toList → convertStatement? table text = some query →
      query.kind = .visibilityQuery ∨ query.kind = .titleQuery →
      loneQuery.occursIn text.toList = true) ∧
    ∀ text ∈ ["return !loginBtn.isDisplayed()", "return loginBtn.isDisplayed() && admin",
        "return loginBtn.isDisplayed() == shown", "return driver.getTitle().contains(x)"],
      (kind? loginTable text = some .visibilityQuery ∨ kind? loginTable text = some .titleQuery) ∧
        loneQuery.occursIn text.toList = false := by
  refine ⟨fun alone => ?_, by decide +kernel⟩
  have negated_eq : convertStatement? loginTable "return !loginBtn.isDisplayed()"
      = some (visibilityStatement (Strategy.id.selector "login")) := by decide +kernel
  have is_lone := alone loginTable _ _ (by decide) negated_eq (.inl rfl)
  revert is_lone
  decide +kernel

end SuiteMigration.Page
