import SuiteMigration.Proofs.Page.ElementCall

/-!
# Contents of string literals

What a page statement becomes does not depend on the bodies of its string literals, as long as none
of them reads like a call of the page rules. A body that does is taken for code.
-/
namespace SuiteMigration.Page

open Pattern Locator

section Lookups

variable {head argument : List Char}

/-- A lookup with its argument on one line is one from its start to its end. -/
theorem isSome_find?_inlineLookup (accepted : lookupHead.Accepts head)
    (is_line : ∀ c ∈ argument, c ≠ '\n') :
    (inlineLookup.find? (head ++ (argument ++ [')']))).isSome = true := by
  have call_accepted : (Pattern.all [lookupHead, .group "locator" line, mark ')']).Accepts
      (head ++ (argument ++ [')'])) :=
    ⟨head, _, rfl, accepted, argument, _, rfl, accepts_line.mpr is_line, [')'], [], rfl,
      accepts_mark.mpr rfl, rfl⟩
  exact isSome_find?_whole (by rfl) call_accepted

/-- The locator of a lookup goes from the parenthesis behind its head to the last one. -/
theorem parts_of_find?_inlineLookup {target : List Char} {found : Match}
    (found_eq : inlineLookup.find? target = some found) :
    ∃ head, lookupHead.Accepts head ∧ (∀ c ∈ found.group "locator", c ≠ '\n') ∧
      target = head ++ found.group "locator" ++ [')'] := by
  obtain ⟨stop, stop_found, groups_eq⟩ := mem_ways_of_find?_anchored found_eq
  obtain ⟨_, at_locator, text_eq, ⟨head, _, rfl, head_accepted, rfl⟩, -, stop_found⟩ :=
    plain_of_mem_ways [lookupHead] (by rfl) stop_found
  obtain ⟨locator, closing, locator_eq, is_line, locator_groups, stop_found⟩ :=
    group_of_mem_ways (by rfl) stop_found
  obtain ⟨_, ending, closing_eq, ⟨_, _, rfl, is_mark, rfl⟩, mark_groups, stop_found⟩ :=
    plain_of_mem_ways [mark ')'] (by rfl) stop_found
  obtain ⟨ending_eq, stop_groups⟩ := rest_of_mem_ways_atEnd stop_found
  have group_eq : found.group "locator" = locator := by
    rw [Match.group, Match.group?, groups_eq, stop_groups, mark_groups, locator_groups]
    rfl
  obtain rfl := accepts_mark.mp is_mark
  rw [group_eq]
  refine ⟨head, head_accepted, accepts_line.mp is_line, ?_⟩
  simpa [locator_eq, closing_eq, ending_eq] using text_eq

/-- So it holds every literal of the lookup. -/
theorem locator_of_find?_inlineLookup {front rest : List Char} {last : Char} {found : Match}
    (found_eq : inlineLookup.find? (front ++ '"' :: (rest ++ [last])) = some found) :
    ∃ before, found.group "locator" = before ++ '"' :: rest := by
  obtain ⟨head, head_accepted, -, text_eq⟩ := parts_of_find?_inlineLookup found_eq
  have parts_eq : front ++ '"' :: rest ++ [last] = head ++ found.group "locator" ++ [')'] := by
    simpa using text_eq
  have no_quote : '"' ∉ head := not_mem_of_accepts (by decide) head_accepted
  rcases List.append_eq_append_iff.mp (List.append_inj_left' parts_eq rfl) with
    ⟨before, head_eq, quote_eq⟩ | ⟨before, -, locator_eq⟩
  · cases before with
    | nil => exact ⟨[], quote_eq.symm⟩
    | cons c before =>
      obtain ⟨rfl, -⟩ := List.cons.inj quote_eq
      simp [head_eq] at no_quote
  · exact ⟨before, locator_eq⟩

end Lookups

section Targets

variable {table : Table} {pieces target : List Piece}

/-- Has a target of a call a selector? -/
def hasSelector (table : Table) (target : List Char) : Bool :=
  match inlineLookup.find? target with
  | some found => (resolve? (found.group "locator")).isSome
  | none => (table.selector? (String.ofList target)).isSome

/-- A call on a target without a selector is left for review. -/
theorem kind_onTarget {emit : Selector → Output.Statement} {kind : Output.Kind}
    (kind_eq : ∀ selector, (emit selector).kind = kind) (statement target : List Char) :
    (onTarget table statement target emit).kind
      = if hasSelector table target then kind else .reviewComment := by
  unfold onTarget hasSelector
  cases inlineLookup.find? target with
  | some found =>
    cases resolve_eq : resolve? (found.group "locator") with
    | some lookup => simp [resolve_eq, kind_eq]
    | none => simp [resolve_eq, Output.Statement.review]
  | none =>
    cases selector_eq : table.selector? (String.ofList target) with
    | some selector => simp [kind_eq]
    | none => simp [Output.Statement.review]

/-- A lookup with a literal in it has a selector, whatever the body of the literal. -/
theorem hasSelector_lookup {head : List Char} {argument : List Piece} {body : Side → List Char}
    (accepted : lookupHead.Accepts head) (is_line : OneLine argument)
    (member : .literal body ∈ argument) (side : Side) (inert : Inert (body side)) :
    hasSelector table (spelled side (head.map .code ++ argument ++ [.code ')'])) = true := by
  have text_eq : spelled side (head.map .code ++ argument ++ [.code ')'])
      = head ++ (spelled side argument ++ [')']) := by simp
  have is_some := isSome_find?_inlineLookup accepted (is_line side)
  obtain ⟨found, found_eq⟩ := Option.isSome_iff_exists.mp is_some
  obtain ⟨before, after, rfl⟩ := List.append_of_mem member
  have split_eq : head ++ (spelled side (before ++ .literal body :: after) ++ [')'])
      = (head ++ spelled side before)
        ++ '"' :: (body side ++ '"' :: spelled side after ++ [')']) := by simp
  rw [text_eq, hasSelector, found_eq]
  rw [split_eq] at found_eq
  obtain ⟨front, locator_eq⟩ := locator_of_find?_inlineLookup found_eq
  apply isSome_resolve?
  rw [locator_eq]
  exact occursIn_bareString inert.literal inert.nonempty front _

/-- Without a literal both texts are the same. -/
theorem spelled_eq_of_code (only_code : ∀ body, .literal body ∉ pieces) :
    spelled .old pieces = spelled .new pieces := by
  apply List.flatMap_congr
  intro piece member
  cases piece with
  | code c => rfl
  | literal body => exact absurd member (only_code body)

private theorem hasSelector_eq (is_target : TargetPieces target) (inert : AllInert target) :
    hasSelector table (spelled .old target) = hasSelector table (spelled .new target) := by
  by_cases only_code : ∀ body, .literal body ∉ target
  · rw [spelled_eq_of_code only_code]
  · obtain ⟨body, member⟩ := not_forall_not.mp only_code
    cases is_target with
    | name accepted => simp at member
    | @lookup head argument accepted is_line =>
      have inside : .literal body ∈ argument := by simpa using member
      rw [hasSelector_lookup accepted is_line inside .old (inert body member .old),
        hasSelector_lookup accepted is_line inside .new (inert body member .new)]

end Targets

section Rules

variable {table : Table} {pieces : List Piece}

/-- Do the statements agree in their kinds? -/
def SameKind (old new : Output.Statement) : Prop :=
  old.kind = new.kind

theorem alike_onTarget {method : String} {arguments : Pattern} (inert : AllInert pieces)
    (steps : TailSteps pieces (callTail method arguments))
    {emit : Match → Selector → Output.Statement} {kind : Output.Kind}
    (kind_eq : ∀ found selector, (emit found selector).kind = kind) :
    Alike SameKind fun side => ((elementCall method arguments).find? (spelled side pieces)).map
      fun found => onTarget table (spelled side pieces) (found.group "target") (emit found) := by
  rcases (alike_elementCall inert steps).of_map.cases with none_eq | ⟨found, same, found_eq⟩
  · exact .none fun side => by rw [none_eq side, Option.map_none]
  · refine .some _ ?_ fun side => by rw [found_eq side, Option.map_some]
    obtain ⟨target, is_target, within, old_lookup, new_lookup⟩ := same
    have target_inert : AllInert target := fun body member => inert body (within member)
    have old_eq : (found .old).group "target" = spelled .old target := by
      rw [Match.group, Match.group?, old_lookup, Option.getD_some]
    have new_eq : (found .new).group "target" = spelled .new target := by
      rw [Match.group, Match.group?, new_lookup, Option.getD_some]
    rw [SameKind, kind_onTarget (kind_eq _), kind_onTarget (kind_eq _), old_eq, new_eq,
      hasSelector_eq is_target target_inert]

private theorem alike_ite {condition : Side → Bool} {statement : Output.Statement}
    (same : condition .old = condition .new) :
    Alike SameKind fun side => if condition side then some statement else none := by
  have condition_eq : ∀ side, condition side = condition .old := by
    intro side
    cases side with
    | old => rfl
    | new => exact same.symm
  by_cases holds : condition .old = true
  · exact .some (fun _ => statement) rfl fun side => by rw [condition_eq side, if_pos holds]
  · exact .none fun side => by rw [condition_eq side, if_neg holds]

/-- Each rule converts both statements, to the same kind, or neither. -/
theorem alike_convert? (inert : AllInert pieces) (closed : ClosedCalls "sendKeys" pieces)
    (rule : Rule) : Alike SameKind fun side => rule.convert? table (spelled side pieces) := by
  cases rule with
  | fill => exact alike_onTarget inert (tailSteps_fill inert closed) fun _ _ => rfl
  | click =>
    have steps := tailSteps_empty (by rfl) (by rfl) (by rfl) fun body member side =>
      (inert body member side).no_click
    exact alike_onTarget inert steps fun _ _ => rfl
  | visibility =>
    have steps := tailSteps_empty (by rfl) (by rfl) (by rfl) fun body member side =>
      (inert body member side).no_visibility
    exact alike_onTarget inert steps fun _ _ => rfl
  | title =>
    have same : titleReturn.occursIn (spelled .old pieces)
        = titleReturn.occursIn (spelled .new pieces) := isSome_find?_anchored_eq (by rfl) (by rfl)
    exact alike_ite same
  | transition =>
    let statement (found : Match) : Output.Statement := transitionStatement (found.group "page")
    have same : Alike (fun old new => SameKind (statement old) (statement new)) fun side =>
        pageReturn.find? (spelled side pieces) :=
      .of_isSome_eq (isSome_find?_anchored_eq (by rfl) (by rfl)) fun _ _ => rfl
    exact same.map
  | scriptEscape =>
    have no_script := occursIn_spelled_eq (by rfl) (by rfl) fun body member side =>
      (inert body member side).no_script
    have no_async_script := occursIn_spelled_eq (by rfl) (by rfl) fun body member side =>
      (inert body member side).no_async_script
    refine alike_ite ?_
    rw [no_script, no_async_script]

end Rules

/-- The kind of the statement that a text becomes, if it becomes one. -/
def kind? (table : Table) (statement : String) : Option Output.Kind :=
  (convertStatement? table statement).map Output.Statement.kind

private theorem kind?_spelled_eq {pieces : List Piece} (inert : AllInert pieces)
    (closed : ClosedCalls "sendKeys" pieces) (table : Table) :
    kind? table (String.ofList (spelled .old pieces))
      = kind? table (String.ofList (spelled .new pieces)) := by
  have converted : Alike SameKind fun side =>
      convertStatement? table (String.ofList (spelled side pieces)) := by
    simp only [convertStatement?, String.toList_ofList]
    exact Alike.findSome? fun rule _ => alike_convert? inert closed rule
  unfold kind?
  rcases converted.cases with none_eq | ⟨statement, same, some_eq⟩
  · rw [none_eq .old, none_eq .new]
  · rw [some_eq .old, some_eq .new, Option.map_some, Option.map_some, same]

/-- A body between its quotes. -/
def quoted (body : List Char) : String :=
  String.ofList ('"' :: (body ++ ['"']))

section Around

variable {front back : String} {body : List Char}

/-- A text with one literal in it, whose body is `x` in the new text. -/
def around (front back : String) (body : List Char) : List Piece :=
  front.toList.map .code ++
    .literal (fun | .old => body | .new => ['x']) :: back.toList.map .code

private theorem inert_x : Inert ['x'] where
  literal := .plain (by decide) (by decide) (by decide) .empty
  nonempty := List.cons_ne_nil 'x' []
  no_fill := by decide +kernel
  no_click := by decide +kernel
  no_visibility := by decide +kernel
  no_lookup := by decide +kernel
  no_script := by decide +kernel
  no_async_script := by decide +kernel

private theorem allInert_around (inert : Inert body) : AllInert (around front back body) := by
  intro other member side
  obtain rfl : other = fun | .old => body | .new => ['x'] := by simpa [around] using member
  cases side with
  | old => exact inert
  | new => exact inert_x

theorem spelled_around_old : String.ofList (spelled .old (around front back body))
    = front ++ quoted body ++ back :=
  String.toList_inj.mp (by simp [around, quoted])

theorem spelled_around_new : String.ofList (spelled .new (around front back body))
    = front ++ quoted ['x'] ++ back :=
  String.toList_inj.mp (by simp [around, quoted])

/-- A call ends with its opening parenthesis. -/
theorem exists_of_accepts_callHead {method : String} {call : List Char}
    (accepted : (callHead method).Accepts call) : ∃ init, call = init ++ ['('] := by
  obtain ⟨dot, _, rfl, -, gap, _, rfl, -, word, _, rfl, -, space, _, rfl, -, _, _, rfl, is_mark,
    rfl⟩ := accepted
  obtain rfl := accepts_mark.mp is_mark
  exact ⟨dot ++ (gap ++ (word ++ space)), by simp⟩

/-- Code without a letter of the method does not call it. -/
theorem closedCalls_of_not_mem {pieces : List Piece} {method : String} {c : Char}
    (letter : c ∈ method.toList) (missing : .code c ∉ pieces) : ClosedCalls method pieces := by
  rintro before _ rest rfl ⟨_, _, rfl, -, _, _, rfl, -, word, _, rfl, is_method, -⟩
  rw [accepts_literal.mp is_method] at missing
  simp [letter] at missing

/-- A text whose code sends no keys becomes what it becomes with `x` in its literal. -/
theorem kind?_around (inert : Inert body) (no_front : 'K' ∉ front.toList)
    (no_back : 'K' ∉ back.toList) (table : Table) :
    kind? table (front ++ quoted body ++ back) = kind? table (front ++ quoted ['x'] ++ back) := by
  have is_letter : 'K' ∈ "sendKeys".toList := by decide
  have missing : .code 'K' ∉ around front back body := by simp [around, no_front, no_back]
  have closed := closedCalls_of_not_mem is_letter missing
  have kind_eq := kind?_spelled_eq (allInert_around inert) closed table
  rwa [spelled_around_old, spelled_around_new] at kind_eq

end Around

/-- Bodies of string literals that read like no call of the page rules are data. Whether a
statement is converted does not depend on them, nor the kind of what it becomes, where every
`sendKeys` in its code is closed on its line. In particular a logged text is left out, and a click
on an element looked up by its path is a click. -/
theorem kind?_of_contents (table : Table) :
    (∀ pieces, AllInert pieces → ClosedCalls "sendKeys" pieces →
      kind? table (String.ofList (spelled .old pieces))
        = kind? table (String.ofList (spelled .new pieces))) ∧
    (∀ body, Inert body → kind? table ("log.info(" ++ quoted body ++ ")") = none) ∧
    ∀ body, Inert body →
      kind? table ("driver.findElement(By.xpath(" ++ quoted body ++ ")).click()")
        = some .click := by
  refine ⟨fun pieces inert closed => kind?_spelled_eq inert closed table, ?_, ?_⟩
  · intro body inert
    rw [kind?_around inert (by decide) (by decide)]
    rfl
  · intro body inert
    rw [kind?_around inert (by decide) (by decide)]
    rfl

/-- The table of a page with a login button. -/
def loginTable : Table :=
  Table.empty.insert
    ⟨"loginBtn", .id, "login", Strategy.id.selector "login", ⟨.annotatedField, 1⟩⟩

/-- The body of the literal in `loginBtn.sendKeys("ada")` is data. -/
theorem kind?_of_contents_login :
    Inert "ada".toList ∧
    kind? loginTable ("loginBtn.sendKeys(" ++ quoted "ada".toList ++ ")")
      = kind? loginTable ("loginBtn.sendKeys(" ++ quoted ['x'] ++ ")") ∧
    kind? loginTable ("log.info(" ++ quoted "ada".toList ++ ")") = none ∧
    kind? loginTable ("driver.findElement(By.xpath(" ++ quoted "ada".toList ++ ")).click()")
      = some .click := by
  have inert : Inert "ada".toList :=
    { literal := .plain (by decide) (by decide) (by decide) <|
        .plain (by decide) (by decide) (by decide) <|
        .plain (by decide) (by decide) (by decide) .empty
      nonempty := by decide
      no_fill := by decide +kernel
      no_click := by decide +kernel
      no_visibility := by decide +kernel
      no_lookup := by decide +kernel
      no_script := by decide +kernel
      no_async_script := by decide +kernel }
  have closed : ClosedCalls "sendKeys" (around "loginBtn.sendKeys(" ")" "ada".toList) := by
    intro before call rest pieces_eq accepted
    obtain ⟨init, rfl⟩ := exists_of_accepts_callHead accepted
    -- The statement has one opening parenthesis, and behind it the literal and the closing one.
    have split_eq : "loginBtn.sendKeys".toList.map .code ++ .code '(' ::
        [.literal (fun | .old => "ada".toList | .new => ['x']), .code ')']
          = before ++ init.map .code ++ .code '(' :: rest := by
      simpa [around] using pieces_eq
    have parts_eq := (List.append_cons_inj_of_notMem (by simp) (by simp)).mp split_eq
    exact ⟨[.literal fun | .old => "ada".toList | .new => ['x']], [], parts_eq.2.2.symm, by simp⟩
  obtain ⟨data, logged, clicked⟩ := kind?_of_contents loginTable
  refine ⟨inert, ?_, logged _ inert, clicked _ inert⟩
  have same := data _ (allInert_around inert) closed
  rwa [spelled_around_old, spelled_around_new] at same

/-- A body that reads like a call of the rules is taken for one. Likewise an empty body is no
locator, and a parenthesis in a body ends a call that is not closed on its line. -/
theorem kind?_of_contents_not_of_calls :
    (¬ ∀ (table : Table) (pieces : List Piece), (∀ c, .code c ∈ pieces → c ≠ '"') →
      (∀ body, .literal body ∈ pieces → ∀ side, body side ≠ [] ∧
        ∀ c ∈ body side, c ≠ '"' ∧ c ≠ '\\' ∧ c ≠ '\n') →
      kind? table (String.ofList (spelled .old pieces))
        = kind? table (String.ofList (spelled .new pieces))) ∧
    ∀ statement ∈ [("log.info(", "loginBtn.click()", ")"),
        ("log.info(", "loginBtn.sendKeys(a)", ")"), ("log.info(", "loginBtn.isDisplayed()", ")"),
        ("log.info(", "executeScript", ")"), ("log.info(", "executeAsyncScript", ")"),
        ("log.info(", "d.findElement(", ").click()"), ("d.findElement(", ").click()", ")"),
        ("d.findElement(", "", ").click()"), ("loginBtn.sendKeys(", "a)", " +\nb)")],
      kind? loginTable (statement.1 ++ quoted statement.2.1.toList ++ statement.2.2)
        ≠ kind? loginTable (statement.1 ++ quoted ['x'] ++ statement.2.2) := by
  refine ⟨?_, by decide +kernel⟩
  intro same
  have bodies : ∀ body, .literal body ∈ around "log.info(" ")" "loginBtn.click()".toList →
      ∀ side, body side ≠ [] ∧ ∀ c ∈ body side, c ≠ '"' ∧ c ≠ '\\' ∧ c ≠ '\n' := by
    intro body member side
    obtain rfl : body = fun | .old => "loginBtn.click()".toList | .new => ['x'] := by
      simpa [around] using member
    cases side <;> simp
  have kind_eq := same loginTable _ (by simp [around]) bodies
  rw [spelled_around_old, spelled_around_new] at kind_eq
  revert kind_eq
  decide +kernel

end SuiteMigration.Page
