import SuiteMigration.Proofs.Page.LiteralContents
import SuiteMigration.Proofs.Test.Words

/-!
# Calls on targets

What a match of an element call takes: a front that ends outside names and chains, `this.` or
nothing, a target and the call. A call and what stands in front of it are settled by the text up to
its opening parenthesis.
-/
namespace SuiteMigration.Page

open Pattern Locator Text
open Test (AllBlank IsWord accepts_blanks accepts_someBlanks accepts_word endsOutside_blanks
  not_mem_of_isWord not_mem_of_allBlank)

/-- A text that stands for an element, with the selector of the element. -/
inductive Element (table : Table) : List Char → Selector → Prop where
  | named {name : List Char} {selector : Selector} (is_word : IsWord name)
      (known : table.selector? (String.ofList name) = some selector) : Element table name selector
  | lookedUp {head locator : List Char} {lookup : Lookup} (is_head : lookupHead.Accepts head)
      (is_line : ∀ c ∈ locator, c ≠ '\n') (resolved : resolve? locator = some lookup) :
      Element table (head ++ locator ++ [')']) lookup.selector

/-- The statement calls the method on an element, at its start or behind a character that neither
goes on a name nor a chain of calls. -/
def CallsOn (table : Table) (method : String) (statement : List Char) (selector : Selector) :
    Prop :=
  ∃ front this element call back, statement = front ++ this ++ element ++ call ++ back ∧
    (∀ c ∈ front.getLast?, endsName c = true) ∧ thisDot.Accepts this ∧
    Element table element selector ∧ (callTail method blanks).Accepts call

/-- What the rules for element calls take for a target. -/
def targetText : Pattern :=
  .either (.all [lookupHead, shortLine, mark ')']) word

section Found

variable {table : Table} {method : String} {arguments : Pattern} {statement target : List Char}
  {found : Match}

theorem lookup_or_word (accepted : targetText.Accepts target) :
    (∃ head locator, lookupHead.Accepts head ∧ (∀ c ∈ locator, c ≠ '\n') ∧
      target = head ++ (locator ++ [')'])) ∨ IsWord target := by
  rcases accepted with ⟨head, _, rfl, is_head, locator, _, rfl, is_line, _, _, rfl, is_mark, rfl⟩ |
    is_word
  · obtain rfl := accepts_mark.mp is_mark
    exact .inl ⟨head, locator, is_head, accepts_shortLine.mp is_line, rfl⟩
  · exact .inr (accepts_word.mp is_word)

/-- What is not left for review is about the element that the target stands for. -/
theorem element_of_onTarget {emit : Selector → Output.Statement} {result : Output.Statement}
    (accepted : targetText.Accepts target)
    (result_eq : onTarget table statement target emit = result)
    (converted : result.kind ≠ .reviewComment) :
    ∃ selector, Element table target selector ∧ result = emit selector := by
  subst result_eq
  unfold onTarget at converted ⊢
  cases found_eq : inlineLookup.find? target with
  | some found =>
    obtain ⟨head, is_head, is_line, target_eq⟩ := parts_of_find?_inlineLookup found_eq
    cases resolve_eq : resolve? (found.group "locator") with
    | some lookup =>
      refine ⟨lookup.selector, ?_, by simp [resolve_eq]⟩
      rw [target_eq]
      exact .lookedUp is_head is_line resolve_eq
    | none => simp [found_eq, resolve_eq, Output.Statement.review] at converted
  | none =>
    cases selector_eq : table.selector? (String.ofList target) with
    | some selector =>
      refine ⟨selector, .named ?_ selector_eq, by simp⟩
      -- A target that is no lookup is a name.
      rcases lookup_or_word accepted with ⟨head, locator, is_head, is_line, rfl⟩ | is_word
      · have is_some := isSome_find?_inlineLookup is_head is_line
        rw [found_eq] at is_some
        cases is_some
      · exact is_word
    | none => simp [found_eq, selector_eq, Output.Statement.review] at converted

/-- A target begins with the statement, or behind a character that is no part of it. -/
theorem front_of_mem_ways {front rest : List Char} {cursor : Cursor}
    (found : cursor ∈ (Pattern.either .atStart (.one endsName)).ways ⟨front.getLast?, rest, []⟩) :
    ∃ before, front ++ rest = before ++ cursor.rest ∧ (∀ c ∈ before.getLast?, endsName c = true) ∧
      cursor.groups = [] := by
  have groups_eq := groups_of_mem_ways rfl found
  rcases mem_ways_either found with start_found | char_found
  · unfold ways at start_found
    split at start_found
    · next at_start =>
      obtain rfl := List.mem_singleton.mp start_found
      obtain rfl : front = [] := by simpa using at_start
      exact ⟨[], rfl, by simp, rfl⟩
    · cases start_found
  · obtain ⟨c, ends, rest_eq⟩ := rest_of_one char_found
    have rest_eq : rest = c :: cursor.rest := rest_eq
    refine ⟨front ++ [c], ?_, fun other member => ?_, groups_eq⟩
    · rw [rest_eq, List.append_assoc]
      rfl
    · rw [List.getLast?_concat] at member
      exact Option.some.inj member ▸ ends

/-- A match of an element call, up to the end of its target. -/
theorem target_of_find? (found_eq : (elementCall method arguments).find? statement = some found) :
    ∃ front this target middle, statement = front ++ this ++ target ++ middle.rest ∧
      (∀ c ∈ front.getLast?, endsName c = true) ∧ thisDot.Accepts this ∧
      targetText.Accepts target ∧ middle.groups = [("target", target)] ∧
      ∃ stop ∈ (callTail method arguments).ways middle, found.groups = stop.groups := by
  obtain ⟨before, rest, rfl, stop, stop_found, groups_eq⟩ := mem_ways_of_findFrom? found_eq
  rw [Option.or_none] at stop_found
  -- The way of the match goes through the front, `this.`, the target and the call, in turn.
  obtain ⟨middle, target_found, stop_found⟩ := exists_of_mem_ways_seq stop_found
  obtain ⟨first, front_found, target_found⟩ := exists_of_mem_ways_seq target_found
  obtain ⟨front, front_eq, front_ends, first_groups⟩ := front_of_mem_ways front_found
  obtain ⟨_, at_target, first_eq, ⟨this, _, rfl, is_this, rfl⟩, this_groups, target_found⟩ :=
    plain_of_mem_ways [thisDot] (by rfl) target_found
  obtain ⟨target, _, target_eq, is_target, target_groups, end_found⟩ :=
    group_of_mem_ways (by rfl) target_found
  obtain rfl := eq_of_mem_ways_empty end_found
  refine ⟨front, this, target, middle, ?_, front_ends, is_this, is_target, ?_, stop, stop_found,
    groups_eq⟩
  · rw [front_eq, first_eq, target_eq]
    simp
  · rw [target_groups, this_groups, first_groups]

/-- A match of a call without arguments. -/
theorem call_of_find? (plain : (callTail method blanks).isPlain = true)
    (found_eq : (elementCall method blanks).find? statement = some found) :
    ∃ front this call back, statement = front ++ this ++ found.group "target" ++ call ++ back ∧
      (∀ c ∈ front.getLast?, endsName c = true) ∧ thisDot.Accepts this ∧
      targetText.Accepts (found.group "target") ∧ (callTail method blanks).Accepts call := by
  obtain ⟨front, this, target, middle, text_eq, front_ends, is_this, is_target, middle_groups, stop,
    stop_found, groups_eq⟩ := target_of_find? found_eq
  obtain ⟨call, call_eq, is_call⟩ := accepts_of_mem_ways stop_found
  have target_eq : found.group "target" = target := by
    rw [Match.group, Match.group?, groups_eq, groups_of_mem_ways plain stop_found, middle_groups]
    rfl
  rw [target_eq]
  refine ⟨front, this, call, stop.rest, ?_, front_ends, is_this, is_target, is_call⟩
  rw [text_eq, call_eq, List.append_assoc _ call]

/-- A target behind a character that ends a name, with its call behind it, is matched. -/
theorem run_elementCall_isSome {c : Char} {taken rest : List Char} (ends : endsName c = true)
    (free : (qualified (callTail method arguments)).isFree = true)
    (accepted : (qualified (callTail method arguments)).Accepts taken) (previous : Option Char) :
    ((elementCall method arguments).run ⟨previous, c :: (taken ++ rest), []⟩ some).isSome
      = true := by
  have rest_eq : (Cursor.mk (some c) (taken ++ rest) []).rest = taken ++ rest := rfl
  obtain ⟨stop, stop_found, -⟩ := mem_ways_of_accepts free accepted rest_eq
  have found := run_isSome_of_mem_ways stop_found
  rw [run_elementCall, run_one_cons rfl, if_pos ends]
  -- At the start of a statement the target may also begin at once.
  generalize (if Option.isNone _ = true then _ else none) = at_once
  cases at_once with
  | none => exact found
  | some stop => rfl

end Found

/-! ## Parts of a call -/

section Parts

variable {method other : String} {front left head call : List Char}

/-- A call of a method behind its target, up to the opening parenthesis. -/
def callStart (method : String) : Pattern :=
  .all [blanks, mark '.', blanks, text method, blanks, mark '(']

theorem parts_of_callStart (accepted : (callStart method).Accepts call) :
    ∃ before after behind, AllBlank before ∧ AllBlank after ∧ AllBlank behind ∧
      call = before ++ ['.'] ++ after ++ method.toList ++ behind ++ ['('] := by
  obtain ⟨before, _, rfl, is_before, dot, _, rfl, is_dot, after, _, rfl, is_after, name, _, rfl,
    is_name, behind, _, rfl, is_behind, opening, _, rfl, is_opening, rfl⟩ := accepted
  refine ⟨before, after, behind, accepts_blanks.mp is_before, accepts_blanks.mp is_after,
    accepts_blanks.mp is_behind, ?_⟩
  rw [accepts_mark.mp is_dot, accepts_literal.mp is_name, accepts_mark.mp is_opening]
  simp

theorem parts_of_callTail (accepted : (callTail method blanks).Accepts call) :
    ∃ head gap, (callStart method).Accepts head ∧ AllBlank gap ∧ call = head ++ gap ++ [')'] := by
  obtain ⟨head, _, rfl, is_head, gap, _, rfl, is_gap, closing, _, rfl, is_closing, rfl⟩ :=
    exists_of_accepts_all [blanks, mark '.', blanks, text method, blanks, mark '('] accepted
  refine ⟨head, gap, is_head, accepts_blanks.mp is_gap, ?_⟩
  rw [accepts_mark.mp is_closing]
  simp

/-- The opening parenthesis of a call is its last character and no other. -/
theorem opening_of_callStart (accepted : (callStart method).Accepts call)
    (is_word : IsWord method.toList) : ∃ init, call = init ++ ['('] ∧ '(' ∉ init := by
  obtain ⟨before, after, behind, is_before, is_after, is_behind, rfl⟩ := parts_of_callStart accepted
  refine ⟨_, rfl, ?_⟩
  have no_blank : ∀ {gap : List Char}, AllBlank gap → '(' ∉ gap := fun is_gap =>
    not_mem_of_allBlank is_gap (by decide)
  simp [no_blank is_before, no_blank is_after, no_blank is_behind,
    not_mem_of_isWord is_word (by decide : isWordChar '(' = false)]

/-- A call at the end of a text and what is in front of it are settled by the text. -/
theorem callStart_inj (text_eq : front ++ head = left ++ call)
    (is_head : (callStart method).Accepts head) (is_call : (callStart other).Accepts call)
    (method_word : IsWord method.toList) (other_word : IsWord other.toList)
    (front_ends : EndsOutside isBlank front) (left_ends : EndsOutside isBlank left) :
    front = left ∧ method = other := by
  obtain ⟨before, after, behind, is_before, is_after, is_behind, rfl⟩ := parts_of_callStart is_head
  obtain ⟨before', after', behind', is_before', is_after', is_behind', rfl⟩ :=
    parts_of_callStart is_call
  have dot_ends : ∀ front : List Char, EndsOutside isBlank (front ++ ['.']) := fun front =>
    endsOutside_append (List.cons_ne_nil '.' []) (List.forall_mem_singleton.mpr rfl) front
  have name_ends : ∀ {front blank : List Char}, AllBlank blank →
      EndsOutside isWordChar (front ++ ['.'] ++ blank) := fun is_blank =>
    (endsOutside_append (List.cons_ne_nil '.' []) (List.forall_mem_singleton.mpr rfl) _).append
      fun c member => isWordChar_of_isBlank (is_blank c member)
  simp only [← List.append_assoc] at text_eq
  -- From the end: the blanks, the name, the blanks behind the dot, and those in front of it.
  obtain ⟨text_eq, -⟩ := append_inj_of_ends (List.append_inj_left' text_eq rfl) is_behind is_behind'
    (endsOutside_blanks method_word _) (endsOutside_blanks other_word _)
  obtain ⟨text_eq, name_eq⟩ := append_inj_of_ends text_eq method_word.2 other_word.2
    (name_ends is_after) (name_ends is_after')
  obtain ⟨text_eq, -⟩ := append_inj_of_ends text_eq is_after is_after' (dot_ends _) (dot_ends _)
  obtain ⟨text_eq, -⟩ := append_inj_of_ends (List.append_inj_left' text_eq rfl) is_before is_before'
    front_ends left_ends
  exact ⟨text_eq, String.toList_inj.mp name_eq⟩

/-- Where a text has one opening parenthesis, two calls in it open there. -/
theorem append_eq_of_one_opening {back rest : List Char}
    (text_eq : front ++ head ++ back = left ++ call ++ rest)
    (is_head : (callStart method).Accepts head) (is_call : (callStart other).Accepts call)
    (method_word : IsWord method.toList) (other_word : IsWord other.toList)
    (no_front : '(' ∉ front) (no_back : '(' ∉ back) :
    front ++ head = left ++ call ∧ '(' ∉ left := by
  obtain ⟨init, rfl, no_init⟩ := opening_of_callStart is_head method_word
  obtain ⟨other_init, rfl, -⟩ := opening_of_callStart is_call other_word
  have split_eq : (front ++ init) ++ '(' :: back = (left ++ other_init) ++ '(' :: rest := by
    simpa using text_eq
  have no_opening : '(' ∉ front ++ init := by simp [no_front, no_init]
  obtain ⟨fronts_eq, -, -⟩ := (List.append_cons_inj_of_notMem no_opening no_back).mp split_eq
  constructor
  · rw [← List.append_assoc, ← List.append_assoc, fronts_eq]
  · rw [fronts_eq] at no_opening
    exact fun member => no_opening (List.mem_append_left other_init member)

end Parts

end SuiteMigration.Page
