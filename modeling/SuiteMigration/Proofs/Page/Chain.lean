import SuiteMigration.Proofs.Page.LinkedLookup
import SuiteMigration.Proofs.Pattern.Line

/-!
# Chains of lookups

An action at the end of a chain of lookups is found with the whole chain for its target, and the
target is read as one lookup: its locator reaches from the first argument to the last. So the action
is on the link that is chosen among all of them, which need not be the last one.
-/
namespace SuiteMigration.Page

open Pattern Locator Text
open Test (IsWord accepts_blanks accepts_word dotted_word_inj not_mem_of_isWord)

/-- What is done with the element at the end of a chain. -/
inductive ChainAction where
  | fill (value : List Char)
  | click
  | visibility

namespace ChainAction

def rule : ChainAction → Rule
  | fill _ => .fill
  | click => .click
  | visibility => .visibility

def method : ChainAction → String
  | fill _ => "sendKeys"
  | click => "click"
  | visibility => "isDisplayed"

def arguments : ChainAction → List Char
  | fill value => value
  | click | visibility => []

/-- The call of the action, behind its target. -/
def text (action : ChainAction) : List Char :=
  '.' :: (action.method.toList ++ '(' :: (action.arguments ++ [')']))

def statement (action : ChainAction) (selector : Selector) : Output.Statement :=
  match action with
  | fill value => fillStatement (trim value) selector
  | click => clickStatement selector
  | visibility => visibilityStatement selector

end ChainAction

/-- A link as it is called on what stands in front of it. -/
def Link.text (link : Link) : List Char :=
  '.' :: ("findElement".toList ++ '(' :: (link.argument ++ [')']))

/-- The links one behind the other on a receiver, and the action at the end. -/
def chainText (receiver : List Char) (links : List Link) (action : ChainAction) : List Char :=
  receiver ++ (links.flatMap Link.text ++ action.text)

/-- The links of a chain are one lookup of their joined arguments. -/
theorem flatMap_text (link : Link) (rest : List Link) :
    (link :: rest).flatMap Link.text
      = '.' :: ("findElement".toList ++ '(' :: (joined link rest ++ [')'])) := by
  induction rest generalizing link with
  | nil => simp [Link.text, joined]
  | cons next rest ih => rw [List.flatMap_cons, ih next, Link.text, joined]; simp

section Opens

/-- Does a dot and one of the names stand in front of every opening parenthesis? -/
def OpensAfter (names : List String) (text : List Char) : Prop :=
  ∀ left right, text = left ++ '(' :: right →
    ∃ front, ∃ name ∈ names, left = front ++ '.' :: name.toList

variable {names : List String} {name other : String} {text first second : List Char}

theorem opensAfter_of_notMem (no_opening : '(' ∉ text) : OpensAfter names text := by
  rintro left right rfl
  exact absurd (by simp) no_opening

theorem OpensAfter.append (opens : OpensAfter names first) (others : OpensAfter names second) :
    OpensAfter names (first ++ second) := by
  intro left right text_eq
  rcases List.append_eq_append_iff.mp text_eq with ⟨more, rfl, second_eq⟩ | ⟨more, first_eq, more_eq⟩
  · obtain ⟨front, name, member, rfl⟩ := others more right second_eq
    exact ⟨first ++ front, name, member, by simp⟩
  · cases more with
    | nil =>
      obtain ⟨front, name, member, left_eq⟩ := others [] right more_eq.symm
      cases front <;> cases left_eq
    | cons c more =>
      obtain ⟨rfl, -⟩ := List.cons.inj more_eq
      exact opens left more first_eq

theorem opensAfter_call (member : name ∈ names) (is_name : IsWord name.toList) :
    OpensAfter names ('.' :: (name.toList ++ ['('])) := by
  intro left right text_eq
  have no_opening : '(' ∉ '.' :: name.toList := by
    simp [not_mem_of_isWord is_name (by decide : isWordChar '(' = false)]
  have split_eq : ('.' :: name.toList) ++ '(' :: [] = left ++ '(' :: right := text_eq
  obtain ⟨rfl, -, -⟩ := (List.append_cons_inj_of_notMem no_opening List.not_mem_nil).mp split_eq
  exact ⟨[], name, member, rfl⟩

/-- A method that opens no parenthesis is not called on an element. -/
theorem find?_elementCall_eq_none {arguments : Pattern} (opens : OpensAfter names text)
    (words : ∀ name ∈ names, IsWord name.toList) (is_other : IsWord other.toList)
    (plain : (callStart other).isPlain = true) (absent : other ∉ names) :
    (elementCall other arguments).find? text = none := by
  by_contra some_found
  obtain ⟨found, found_eq⟩ := Option.ne_none_iff_exists'.mp some_found
  obtain ⟨front, this, target, middle, text_eq, -, -, -, -, stop, stop_found, -⟩ :=
    target_of_find? found_eq
  obtain ⟨call, _, rest_eq, is_call, -, -⟩ := plain_of_mem_ways
    [blanks, mark '.', blanks, Pattern.text other, blanks, mark '('] plain stop_found
  obtain ⟨before, after, behind, -, is_after, is_behind, rfl⟩ := parts_of_callStart is_call
  rw [rest_eq] at text_eq
  obtain ⟨left, name, member, left_eq⟩ := opens
    ((front ++ this ++ target ++ before) ++ '.' :: (after ++ (other.toList ++ behind))) _
    (by simpa using text_eq)
  have dotted_eq : (front ++ this ++ target ++ before) ++ '.' :: (after ++ (other.toList ++ behind))
      = left ++ '.' :: ([] ++ (name.toList ++ [])) := by simpa using left_eq
  have same := (dotted_word_inj is_other (words name member) is_after is_behind
    (List.forall_mem_nil _) (List.forall_mem_nil _) dotted_eq).2
  exact absent (String.toList_inj.mp same ▸ member)

end Opens

section Target

variable {link : Link} {rest : List Link} {action : ChainAction} {method : String}
  {arguments tail : Pattern} {receiver head locator more left text : List Char}

theorem cons_suffix_of_append {c : Char} {front : List Char} (absent : c ∉ front)
    (suffix : c :: left <:+ front ++ more) : c :: left <:+ more := by
  obtain ⟨before, before_eq⟩ := suffix
  rcases List.append_eq_append_iff.mp before_eq with ⟨middle, front_eq, rest_eq⟩ | ⟨middle, -, rest_eq⟩
  · cases middle with
    | nil => exact ⟨[], rest_eq⟩
    | cons d middle =>
      obtain ⟨rfl, -⟩ := List.cons.inj rest_eq
      exact absurd (front_eq ▸ by simp) absent
  · exact ⟨middle, rest_eq.symm⟩

theorem Link.argument_closing (link : Link) :
    ∃ init, link.argument = init ++ [')'] ∧ ')' ∉ init := by
  refine ⟨"By".toList ++ '.' :: (link.strategy.factory.toList ++ '(' :: '"' :: (link.body ++ ['"'])),
    by simp [Link.argument, callText], ?_⟩
  have no_factory : ')' ∉ link.strategy.factory.toList := by
    cases link.strategy <;> decide
  simp [no_factory, link.no_closing]

/-- Behind a closing parenthesis in the joined arguments stands another one, the next lookup or
nothing. -/
theorem behind_closing (link : Link) (rest : List Link) (suffix : ')' :: left <:+ joined link rest) :
    left = [] ∨ (∃ behind, left = ')' :: behind) ∨
      ∃ behind, left = '.' :: ("findElement".toList ++ '(' :: behind) := by
  induction rest generalizing link with
  | nil =>
    obtain ⟨init, argument_eq, no_closing⟩ := link.argument_closing
    rw [joined, argument_eq] at suffix
    have last := (cons_suffix_of_append no_closing suffix).length_le
    exact .inl (by simpa using last)
  | cons next rest ih =>
    obtain ⟨init, argument_eq, no_closing⟩ := link.argument_closing
    rw [joined, argument_eq, List.append_assoc] at suffix
    have behind_init := cons_suffix_of_append no_closing suffix
    rcases List.suffix_cons_iff.mp behind_init with first_eq | behind_first
    · exact .inr (.inl ⟨_, (List.cons.inj first_eq).2⟩)
    rcases List.suffix_cons_iff.mp behind_first with second_eq | behind_second
    · exact .inr (.inr ⟨_, (List.cons.inj second_eq).2⟩)
    have lookup_eq : '.' :: ("findElement".toList ++ '(' :: joined next rest)
        = ('.' :: ("findElement".toList ++ ['('])) ++ joined next rest := by simp
    rw [lookup_eq] at behind_second
    exact ih next (cons_suffix_of_append (by decide) behind_second)

/-- The call of the action is not taken for one behind an earlier parenthesis. -/
theorem fails_callTail (is_method : IsWord method.toList) (other : method ≠ "findElement")
    (suffix : ')' :: left <:+ joined link rest) :
    (callTail method arguments).Fails (left ++ ')' :: more) := by
  apply fails_of_not_accepts
  intro taken behind text_eq is_tail
  obtain ⟨call, arguments, rfl, is_call, -⟩ :=
    exists_of_accepts_all [blanks, mark '.', blanks, Pattern.text method, blanks, mark '('] is_tail
  rw [List.append_assoc] at text_eq
  rcases behind_closing link rest suffix with rfl | ⟨behind, rfl⟩ | ⟨behind, rfl⟩
  · exact callStart_ne_cons is_call (by decide) (by decide) text_eq.symm
  · exact callStart_ne_cons is_call (by decide) (by decide) text_eq.symm
  · rw [List.cons_append, List.append_assoc, List.cons_append] at text_eq
    have same := (method_of_callStart isWord_findElement is_method is_call text_eq.symm).1
    exact other (String.toList_inj.mp same)

theorem close_eq {name : String} {start stop : Cursor} {taken : List Char}
    (rest_eq : start.rest = taken ++ stop.rest) :
    start.close name stop = ⟨stop.previous, stop.rest, (name, taken) :: stop.groups⟩ := by
  simp [Cursor.close, rest_eq]

/-- A lookup is taken for the target up to the first parenthesis behind which the call follows. -/
theorem takes_lookupTarget {groups : List (String × List Char)} (no_feed : ∀ c ∈ locator, c ≠ '\n')
    (head_takes : lookupHead.Takes (head ++ (locator ++ ')' :: more)) (locator ++ ')' :: more) [] [])
    (refused : ∀ left, ')' :: left <:+ locator → tail.Fails (left ++ ')' :: more))
    (tail_takes : tail.Takes more [] [("target", head ++ (locator ++ [')']))] groups) :
    (targetPart.seq tail).Takes (head ++ (locator ++ ')' :: more)) [] [] groups := by
  intro α previous accept result accept_eq
  let start : Cursor := ⟨previous, head ++ (locator ++ ')' :: more), []⟩
  let closes (stop : Cursor) : Option α :=
    (all [mark ')']).run stop fun last => tail.run (start.close "target" last) accept
  -- Inside the locator every parenthesis is tried, and the rest refuses what is behind it.
  have passed : ∀ left previous, left <:+ locator → left ≠ [] →
      closes ⟨previous, left ++ ')' :: more, []⟩ = none := by
    intro left previous suffix nonempty
    obtain ⟨c, left, rfl⟩ := List.exists_cons_of_ne_nil nonempty
    by_cases closing : c = ')'
    · subst closing
      exact (refused left suffix).run_eq_none _ _ accept
    · have no_mark : (all [mark ')']).Fails (c :: left ++ ')' :: more) :=
        (fails_one (head_false (by simpa using closing))).seq
      exact no_mark.run_eq_none _ _ _
  -- The parenthesis behind the locator is the first one that is not refused.
  have reached : ∀ previous, closes ⟨previous, ')' :: more, []⟩ = some result := by
    intro previous
    have closed_eq : start.close "target" ⟨some ')', more, []⟩
        = ⟨some ')', more, [("target", head ++ (locator ++ [')']))]⟩ := close_eq (by simp [start])
    have step_eq : closes ⟨previous, ')' :: more, []⟩
        = tail.run (start.close "target" ⟨some ')', more, []⟩) accept := rfl
    rw [step_eq, closed_eq]
    exact tail_takes α (some ')') accept result accept_eq
  have looked_up : lookupHead.run start (fun stop => shortLine.run stop closes) = some result :=
    head_takes α previous _ result (run_shortLine_front no_feed passed reached)
  have run_eq : (targetPart.seq tail).run start accept
      = (lookupHead.run start (fun stop => shortLine.run stop closes)
        <|> word.run start fun stop => tail.run (start.close "target" stop) accept) := rfl
  rw [run_eq, looked_up]
  rfl

private theorem takes_lookupHead (is_receiver : IsWord receiver) (rest : List Char) :
    lookupHead.Takes ((receiver ++ '.' :: ("findElement".toList ++ ['('])) ++ rest) rest [] [] := by
  simp only [List.append_assoc, List.cons_append, List.nil_append]
  refine (takes_oneOrMore is_receiver.1 is_receiver.2 (head_false (by decide))).seq ?_
  refine (takes_blanks_none (head_false (by decide))).seq ?_
  refine (takes_mark '.').seq ?_
  refine (takes_blanks_none (head_false (by decide))).seq ?_
  refine (takes_literal "findElement".toList).seq ?_
  refine (takes_blanks_none (head_false (by decide))).seq ?_
  exact (takes_mark '(').seq takes_empty

end Target

section Chain

variable {table : Table} {link : Link} {rest links before after : List Link} {chosen : Link}
  {action : ChainAction} {receiver statement : List Char} {arguments : Pattern}

/-- The part of a chain that is taken for the target. -/
def chainTarget (receiver : List Char) (link : Link) (rest : List Link) : List Char :=
  (receiver ++ '.' :: ("findElement".toList ++ ['('])) ++ (joined link rest ++ [')'])

private theorem chainText_eq (receiver : List Char) (link : Link) (rest : List Link)
    (action : ChainAction) : chainText receiver (link :: rest) action
      = (receiver ++ '.' :: ("findElement".toList ++ ['(']))
        ++ (joined link rest ++ ')' :: action.text) := by
  rw [chainText, flatMap_text]
  simp

private theorem joined_no_feed (link : Link) (rest : List Link) :
    ∀ c ∈ joined link rest, c ≠ '\n' := by
  induction rest generalizing link with
  | nil => exact callText_no_feed link.strategy link.literal
  | cons next rest ih =>
    intro c member
    simp only [joined, List.mem_append, List.mem_cons] at member
    rcases member with first | rfl | rfl | find | rfl | behind
    · exact callText_no_feed link.strategy link.literal c first
    · decide
    · decide
    · exact List.all_eq_true.mp
        (by decide : ("findElement".toList.all (· != '\n')) = true) c find |> bne_iff_ne.mp
    · decide
    · exact ih next c behind

/-- The methods of the actions. -/
def actionMethods : List String :=
  ["sendKeys", "click", "isDisplayed"]

private theorem isWord_actionMethods : ∀ method ∈ actionMethods, IsWord method.toList := by
  decide

theorem ChainAction.method_mem (action : ChainAction) : action.method ∈ actionMethods := by
  cases action <;> simp [method, actionMethods]

theorem ChainAction.isWord_method (action : ChainAction) : IsWord action.method.toList :=
  isWord_actionMethods _ action.method_mem

theorem ChainAction.method_ne_findElement (action : ChainAction) :
    action.method ≠ "findElement" := by
  cases action <;> simp [method]

/-- The call at the end of a chain is found with the chain for its target. -/
theorem find?_chain {groups : List (String × List Char)} (is_receiver : IsWord receiver)
    (takes : (Pattern.all [arguments, mark ')']).Takes (action.arguments ++ [')']) []
      [("target", chainTarget receiver link rest)] groups) :
    (elementCall action.method arguments).find? (chainText receiver (link :: rest) action)
      = some ⟨[], chainText receiver (link :: rest) action, [], groups⟩ := by
  have tail_takes : (callTail action.method arguments).Takes action.text []
      [("target", chainTarget receiver link rest)] groups :=
    takes_callTail action.isWord_method takes
  have target_takes : (targetPart.seq (callTail action.method arguments)).Takes
      (chainText receiver (link :: rest) action) [] [] groups := by
    rw [chainText_eq]
    refine takes_lookupTarget (joined_no_feed link rest) (takes_lookupHead is_receiver _) ?_
      tail_takes
    intro left suffix
    exact fails_callTail action.isWord_method action.method_ne_findElement suffix
  have text_eq : chainText receiver (link :: rest) action = receiver ++ '.' ::
      ("findElement".toList ++ '(' :: (joined link rest ++ ')' :: action.text)) := by
    simp [chainText_eq]
  have nothing : [] ∈ [[], "this.".toList] := List.mem_cons_self
  have found : (elementCall action.method arguments).find?
      ([] ++ chainText receiver (link :: rest) action) = _ :=
    find?_elementCall nothing is_receiver isWord_findElement text_eq target_takes
  exact found

/-- The whole chain is read as one lookup, of the joined arguments. -/
theorem onTarget_chain (is_receiver : IsWord receiver)
    (is_chosen : Chosen (link :: rest) before chosen after) (emit : Selector → Output.Statement) :
    onTarget table statement (chainTarget receiver link rest) emit = emit chosen.selector := by
  have no_receiver := not_mem_of_isWord is_receiver (by decide : isWordChar '(' = false)
  have is_head : lookupHead.Accepts (receiver ++ '.' :: ("findElement".toList ++ ['('])) := by
    have no_blanks : blanks.Accepts [] := accepts_blanks.mpr (List.forall_mem_nil _)
    exact ⟨receiver, _, rfl, accepts_word.mpr is_receiver, [], _, rfl, no_blanks, ['.'], _, rfl,
      accepts_mark.mpr rfl, [], _, rfl, no_blanks, "findElement".toList, ['('], rfl,
      accepts_literal.mpr rfl, [], _, rfl, no_blanks, ['('], [], rfl, accepts_mark.mpr rfl, rfl⟩
  have is_some := isSome_find?_inlineLookup is_head (joined_no_feed link rest)
  obtain ⟨found, found_eq⟩ := Option.isSome_iff_exists.mp is_some
  obtain ⟨_, ⟨name, call, rfl, is_name, is_call⟩, -, target_eq⟩ := parts_of_find?_inlineLookup found_eq
  -- Both heads end with the first parenthesis of the target.
  have locator_eq : found.group "locator" = joined link rest := by
    obtain ⟨init, rfl, no_init⟩ := opening_of_callStart is_call isWord_findElement
    have no_name := not_mem_of_isWord (accepts_word.mp is_name) (by decide : isWordChar '(' = false)
    have split_eq : (receiver ++ '.' :: "findElement".toList) ++ '(' :: (joined link rest ++ [')'])
        = (name ++ init) ++ '(' :: (found.group "locator" ++ [')']) := by
      simpa using target_eq
    obtain ⟨-, closed_eq⟩ := before_mark_inj (by simp [no_receiver]) (by simp [no_name, no_init])
      split_eq
    exact (List.append_inj_left' closed_eq rfl).symm
  rw [chainTarget, onTarget, found_eq]
  simp only [locator_eq, is_chosen.resolve?_joined]
  rfl

/-- The rule of the action is about the target. -/
theorem convert?_chain (is_receiver : IsWord receiver)
    (one_line : ∀ c ∈ action.arguments, c ≠ '\n') :
    action.rule.convert? table (chainText receiver (link :: rest) action)
      = some (onTarget table (chainText receiver (link :: rest) action)
          (chainTarget receiver link rest) action.statement) := by
  have takes_nothing : (Pattern.all [blanks, mark ')']).Takes ([] ++ [')']) []
      [("target", chainTarget receiver link rest)] [("target", chainTarget receiver link rest)] :=
    (takes_blanks_none (head_false (by decide))).seq ((takes_mark ')').seq takes_empty)
  cases action with
  | fill value =>
    have found := @find?_chain link rest (.fill value) receiver _ _ is_receiver (takes_value one_line)
    rw [ChainAction.rule, Rule.convert?, show fillCall.find? _ = _ from found]
    rfl
  | click =>
    have found := @find?_chain link rest .click receiver _ _ is_receiver takes_nothing
    rw [ChainAction.rule, Rule.convert?, show clickCall.find? _ = _ from found]
    rfl
  | visibility =>
    have found := @find?_chain link rest .visibility receiver _ _ is_receiver takes_nothing
    rw [ChainAction.rule, Rule.convert?, show visibilityCall.find? _ = _ from found]
    rfl

/-- The methods that a chain calls, its action apart. -/
def chainMethods : List String :=
  "findElement" :: [Strategy.id, .name, .className, .css, .xPath].map Strategy.factory

private theorem isWord_chainMethods : ∀ method ∈ chainMethods, IsWord method.toList := by
  rw [chainMethods, List.forall_mem_cons, List.forall_mem_map]
  refine ⟨isWord_findElement, fun strategy member => isWord_factory ?_⟩
  rintro rfl
  simp at member

private theorem opensAfter_links (names : List String) (links : List Link) :
    OpensAfter (chainMethods ++ names) (links.flatMap Link.text) := by
  induction links with
  | nil => exact opensAfter_of_notMem List.not_mem_nil
  | cons link links ih =>
    have factory_mem : link.strategy.factory ∈ chainMethods ++ names := by
      have named := link.named
      cases strategy_eq : link.strategy <;> simp_all [chainMethods]
    have find_opens : OpensAfter (chainMethods ++ names) ('.' :: ("findElement".toList ++ ['('])) :=
      opensAfter_call (by simp [chainMethods]) isWord_findElement
    have class_opens : OpensAfter (chainMethods ++ names) "By".toList :=
      opensAfter_of_notMem (by decide)
    have inner_opens : OpensAfter (chainMethods ++ names) (link.inner ++ [')']) :=
      opensAfter_of_notMem (by simp [link.not_mem_inner])
    have link_opens := ((find_opens.append class_opens).append
      (opensAfter_call factory_mem (isWord_factory link.named))).append inner_opens
    rw [List.flatMap_cons]
    refine OpensAfter.append ?_ ih
    rw [Link.text, link.argument_eq]
    simpa using link_opens

/-- A chain calls no other method than its links and its action do. -/
theorem find?_chain_other {other : String} (is_receiver : IsWord receiver)
    (no_opening : '(' ∉ action.arguments) (is_other : other ∈ actionMethods)
    (different : other ≠ action.method) (plain : (callStart other).isPlain = true) :
    (elementCall other arguments).find? (chainText receiver links action) = none := by
  have opens : OpensAfter (chainMethods ++ [action.method]) (chainText receiver links action) := by
    have no_receiver := not_mem_of_isWord is_receiver (by decide : isWordChar '(' = false)
    have method_mem : action.method ∈ chainMethods ++ [action.method] := by simp
    have action_opens := (opensAfter_call method_mem action.isWord_method).append
      (opensAfter_of_notMem (by simp [no_opening] : '(' ∉ action.arguments ++ [')']))
    refine (opensAfter_of_notMem no_receiver).append
      ((opensAfter_links [action.method] links).append ?_)
    simpa [ChainAction.text] using action_opens
  have words : ∀ name ∈ chainMethods ++ [action.method], IsWord name.toList := by
    rw [List.forall_mem_append]
    exact ⟨isWord_chainMethods, List.forall_mem_singleton.mpr action.isWord_method⟩
  have absent : other ∉ chainMethods ++ [action.method] := by
    have no_link : ∀ method ∈ actionMethods, method ∉ chainMethods := by decide
    simp [no_link other is_other, different]
  exact find?_elementCall_eq_none opens words (isWord_actionMethods other is_other) plain absent

/-- The action is on the chosen link. -/
theorem convertStatement?_of_chosen (table : Table) (is_receiver : IsWord receiver)
    (one_line : ∀ c ∈ action.arguments, c ≠ '\n') (is_chosen : Chosen links before chosen after) :
    convertStatement? table (String.ofList (chainText receiver links action))
      = some (action.statement chosen.selector) := by
  cases links with
  | nil => exact absurd is_chosen.links_eq (by simp)
  | cons link rest =>
    have rule_eq : action.rule.convert? table (chainText receiver (link :: rest) action)
        = some (action.statement chosen.selector) := by
      rw [convert?_chain is_receiver one_line, onTarget_chain is_receiver is_chosen]
    rw [convertStatement?, String.toList_ofList, Rule.all]
    -- The rules in front of that of the action find no call of theirs.
    cases action with
    | fill value => rw [List.findSome?_cons, show Rule.fill.convert? _ _ = _ from rule_eq]
    | click =>
      have no_fill : Rule.fill.convert? table (chainText receiver (link :: rest) .click) = none := by
        rw [Rule.convert?, fillCall, find?_chain_other is_receiver List.not_mem_nil
          (by simp [actionMethods]) (by decide) (by rfl)]
        rfl
      rw [List.findSome?_cons, no_fill, List.findSome?_cons,
        show Rule.click.convert? _ _ = _ from rule_eq]
    | visibility =>
      have no_fill : Rule.fill.convert? table (chainText receiver (link :: rest) .visibility)
          = none := by
        rw [Rule.convert?, fillCall, find?_chain_other is_receiver List.not_mem_nil
          (by simp [actionMethods]) (by decide) (by rfl)]
        rfl
      have no_click : Rule.click.convert? table (chainText receiver (link :: rest) .visibility)
          = none := by
        rw [Rule.convert?, clickCall, find?_chain_other is_receiver List.not_mem_nil
          (by simp [actionMethods]) (by decide) (by rfl)]
        rfl
      rw [List.findSome?_cons, no_fill, List.findSome?_cons, no_click, List.findSome?_cons,
        show Rule.visibility.convert? _ _ = _ from rule_eq]

end Chain

/-- The action at the end of a chain is on the first link of the strategy that comes first among the
factories. So it is on the last link where the strategies in front of it all come later. -/
theorem convertStatement?_chain (table : Table) (receiver : List Char) (links : List Link)
    (action : ChainAction) (is_receiver : IsWord receiver) (nonempty : links ≠ [])
    (one_line : ∀ c ∈ action.arguments, c ≠ '\n') :
    (∃ before chosen after, Chosen links before chosen after ∧
      convertStatement? table (String.ofList (chainText receiver links action))
        = some (action.statement chosen.selector)) ∧
    ∀ init last, links = init ++ [last] →
      (∀ other ∈ init, rank last.strategy < rank other.strategy) →
      convertStatement? table (String.ofList (chainText receiver links action))
        = some (action.statement last.selector) := by
  constructor
  · obtain ⟨before, chosen, after, is_chosen⟩ := exists_chosen nonempty
    exact ⟨before, chosen, after, is_chosen,
      convertStatement?_of_chosen table is_receiver one_line is_chosen⟩
  · intro init last links_eq later
    have is_chosen : Chosen links init last [] := ⟨links_eq, later, List.forall_mem_nil _⟩
    exact convertStatement?_of_chosen table is_receiver one_line is_chosen

/-- A menu by its identifier. -/
def menuLink : Link where
  strategy := .id
  body := "menu".toList
  named := by decide
  literal := .of_plain (by simp)
  no_opening := by decide
  no_closing := by decide

/-- An entry of a menu by its class. -/
def entryLink : Link where
  strategy := .className
  body := "entry".toList
  named := by decide
  literal := .of_plain (by simp)
  no_opening := by decide
  no_closing := by decide

private theorem chainText_menu :
    String.ofList (chainText "driver".toList [menuLink, entryLink] .click)
    = "driver.findElement(By.id(\"menu\")).findElement(By.className(\"entry\")).click()" := by
  decide

/-- The entry is the last link, and its menu is clicked. -/
theorem convertStatement?_chain_menu :
    (∃ before chosen after, Chosen [menuLink, entryLink] before chosen after ∧
      convertStatement? Table.empty
          "driver.findElement(By.id(\"menu\")).findElement(By.className(\"entry\")).click()"
        = some (clickStatement chosen.selector)) ∧
    (rank menuLink.strategy < rank entryLink.strategy ∧
      convertStatement? Table.empty
          "driver.findElement(By.className(\"entry\")).findElement(By.id(\"menu\")).click()"
        = some ⟨.click, "await this.page.click('#menu');"⟩) := by
  have click_line : ∀ c ∈ ChainAction.click.arguments, c ≠ '\n' := List.forall_mem_nil _
  refine ⟨?_, by decide, ?_⟩
  · rw [← chainText_menu]
    exact (convertStatement?_chain Table.empty "driver".toList [menuLink, entryLink] .click
      (by decide) (by simp) click_line).1
  · exact (convertStatement?_chain Table.empty "driver".toList [entryLink, menuLink] .click
      (by decide) (by simp) click_line).2 [entryLink] menuLink rfl (by decide)

/-- What is done at the end of a chain may be done on a link in front of the last one. -/
theorem convertStatement?_chain_not_last :
    ¬ ∀ (table : Table) (receiver : List Char) (init : List Link) (last : Link)
      (action : ChainAction), IsWord receiver → (∀ c ∈ action.arguments, c ≠ '\n') →
      ∀ result,
        convertStatement? table (String.ofList (chainText receiver (init ++ [last]) action))
          = some result →
        result = action.statement last.selector ∨ result.kind = .reviewComment := by
  intro always
  have click_line : ∀ c ∈ ChainAction.click.arguments, c ≠ '\n' := List.forall_mem_nil _
  have is_chosen : Chosen ([menuLink] ++ [entryLink]) [] menuLink [entryLink] :=
    ⟨rfl, List.forall_mem_nil _, List.forall_mem_singleton.mpr (by decide)⟩
  have is_driver : IsWord "driver".toList := by decide
  have clicked := @convertStatement?_of_chosen _ _ _ _ .click _ Table.empty is_driver click_line
    is_chosen
  have refuted := always Table.empty "driver".toList [menuLink] entryLink .click is_driver
    click_line _ clicked
  revert refuted
  decide

end SuiteMigration.Page
