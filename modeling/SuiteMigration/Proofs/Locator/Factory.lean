import SuiteMigration.Proofs.Locator.Literal

/-!
# Resolving factory calls

A factory call on a string literal is resolved to its own strategy and the body of the literal. The
body may hold text that looks like a call: a match needs a quote behind a parenthesis and another one
behind that, and inside a body every quote stands behind a backslash.
-/
namespace SuiteMigration.Locator

open Pattern Text

/-- The factory method of a strategy. -/
def Strategy.factory : Strategy → String
  | id => "id"
  | name => "name"
  | className => "className"
  | css => "cssSelector"
  | xPath => "xpath"
  | literal => ""

/-- The class of the factory methods. -/
def byName : PlainName := ⟨"By".toList, by decide, by decide⟩

theorem Strategy.factory_plain (strategy : Strategy) :
    ∀ c ∈ strategy.factory.toList, isPlainChar c = true :=
  List.all_eq_true.mp (by cases strategy <;> decide)

/-- Every strategy that has a factory method has a name for it. -/
def Strategy.factoryName {strategy : Strategy} (named : strategy ≠ .literal) : PlainName where
  text := strategy.factory.toList
  starts := by cases strategy <;> first | exact absurd rfl named | decide
  all_plain := List.all_eq_true.mpr strategy.factory_plain

theorem Strategy.factory_inj {first second : Strategy} (same : first.factory = second.factory) :
    first = second := by
  cases first <;> cases second <;> first | rfl | exact absurd same (by decide)

/-- The factories in their order, by strategy. -/
theorem factories_eq : factories
    = [Strategy.id, .name, .className, .css, .xPath].map fun strategy => (strategy, strategy.factory) :=
  rfl

/-- A call of the strategy's factory method on an argument. -/
def factoryText (strategy : Strategy) (argument : List Char) : List Char :=
  "By".toList ++ '.' :: (strategy.factory.toList ++ '(' :: (argument ++ [')']))

/-- A call of the strategy's factory method up to a place in its argument. -/
def callHead (strategy : Strategy) (front : List Char) : List Char :=
  "By".toList ++ '.' :: (strategy.factory.toList ++ '(' :: front)

theorem factoryText_append (strategy : Strategy) (front back : List Char) :
    factoryText strategy (front ++ back) = callHead strategy front ++ (back ++ [')']) := by
  simp [factoryText, callHead]

theorem quote_not_mem_callHead {front : List Char} (strategy : Strategy) (no_quote : '"' ∉ front) :
    '"' ∉ callHead strategy front := by
  cases strategy <;> simpa [callHead, Strategy.factory] using no_quote

/-- A call of the strategy's factory method on a literal with the given body. -/
def callText (strategy : Strategy) (body : List Char) : List Char :=
  "By".toList ++ '.' :: (strategy.factory.toList ++ '(' :: '"' :: (body ++ ['"', ')']))

theorem callText_eq_factoryText (strategy : Strategy) (body : List Char) :
    callText strategy body = factoryText strategy ('"' :: (body ++ ['"'])) := by
  simp [callText, factoryText]

/-- A text is split at a mark in one way only, if there is none in front. -/
theorem before_mark_inj {mark : Char} {front other rest more : List Char} (absent : mark ∉ front)
    (other_absent : mark ∉ other) (same : front ++ mark :: rest = other ++ mark :: more) :
    front = other ∧ rest = more := by
  induction front generalizing other with
  | nil =>
    cases other with
    | nil => exact ⟨rfl, (List.cons.inj same).2⟩
    | cons c other => exact absurd ((List.cons.inj same).1 ▸ List.mem_cons_self) other_absent
  | cons first front ih =>
    cases other with
    | nil => exact absurd ((List.cons.inj same).1 ▸ List.mem_cons_self) absent
    | cons c other =>
      obtain ⟨rfl, same_tail⟩ := List.cons.inj same
      rw [List.mem_cons, not_or] at absent other_absent
      obtain ⟨rfl, rest_eq⟩ := ih absent.2 other_absent.2 same_tail
      exact ⟨rfl, rest_eq⟩

/-- Does the text use the class of the factory methods? -/
def UsesBy (text : List Char) : Prop :=
  ∃ gap, (∀ c ∈ gap, isBlank c = true) ∧ "By".toList ++ (gap ++ ['.']) <:+: text

section Matching

variable {first second third before after rest method : List Char} {strategy : Strategy}

/-- What a match of a factory call takes: a call on a literal, with blanks between its parts. -/
theorem accepts_factoryCall {method : String} {taken : List Char}
    (accepted : (factoryCall method).Accepts taken) :
    ∃ first second third fourth body last,
      (∀ c ∈ first ++ (second ++ (third ++ (fourth ++ last))), isBlank c = true) ∧
      (Pattern.many true stringChar).Accepts body ∧
      taken = "By".toList ++ (first ++ '.' :: (second ++ (method.toList
        ++ (third ++ '(' :: (fourth ++ '"' :: (body ++ '"' :: (last ++ [')']))))))) := by
  simp only [factoryCall, stringLiteral, all, List.foldr_cons, List.foldr_nil] at accepted
  obtain ⟨_, _, rfl, rfl, _, _, rfl, is_by, first, _, rfl, first_blank, _, _, rfl, is_dot, second, _, rfl,
    second_blank, _, _, rfl, is_method, third, _, rfl, third_blank, _, _, rfl, is_round, fourth, _, rfl,
    fourth_blank, _, _, rfl, ⟨_, _, rfl, is_open, body, _, rfl, is_body, _, _, rfl, is_close, rfl⟩, last,
    _, rfl, last_blank, _, _, rfl, is_end, rfl⟩ := accepted
  rw [accepts_literal.mp is_by, accepts_mark.mp is_dot, accepts_literal.mp is_method,
    accepts_mark.mp is_round, accepts_mark.mp is_open, accepts_mark.mp is_close,
    accepts_mark.mp is_end]
  refine ⟨first, second, third, fourth, body, last, ?_, is_body, by simp⟩
  simp only [List.forall_mem_append]
  exact ⟨accepts_many_one.mp first_blank, accepts_many_one.mp second_blank,
    accepts_many_one.mp third_blank, accepts_many_one.mp fourth_blank,
    accepts_many_one.mp last_blank⟩

/-- A match anywhere in a text, with all that stands around its parts. -/
theorem parts_of_factoryCall {method : String} {text part : List Char} (suffix : part <:+ text)
    {previous : Option Char} {groups : List (String × List Char)} {stop : Cursor}
    (found : stop ∈ (factoryCall method).ways ⟨previous, part, groups⟩) :
    ∃ before first second third fourth body last,
      (∀ c ∈ first ++ (second ++ third), isBlank c = true) ∧
      (∀ c ∈ fourth, isBlank c = true) ∧ (∀ c ∈ last, isBlank c = true) ∧
      (Pattern.many true stringChar).Accepts body ∧
      text = before ++ ("By".toList ++ (first ++ '.' :: (second ++ (method.toList
        ++ (third ++ '(' :: (fourth ++ '"' :: (body ++ '"' :: (last ++ ')' :: stop.rest)))))))) := by
  obtain ⟨taken, part_eq, accepted⟩ := accepts_of_mem_ways found
  obtain ⟨first, second, third, fourth, body, last, all_blank, is_body, rfl⟩ :=
    accepts_factoryCall accepted
  obtain ⟨before, rfl⟩ := suffix
  simp only [List.forall_mem_append] at all_blank
  obtain ⟨first_blank, second_blank, third_blank, fourth_blank, last_blank⟩ := all_blank
  refine ⟨before, first, second, third, fourth, body, last, ?_, fourth_blank, last_blank, is_body, ?_⟩
  · simp only [List.forall_mem_append]
    exact ⟨first_blank, second_blank, third_blank⟩
  · rw [show part = _ from part_eq]
    simp

/-- Where the argument does not use the class of the factories, a match begins with the call. -/
theorem before_eq_nil (first_blank : ∀ c ∈ first, isBlank c = true) (unused : ¬UsesBy rest)
    (same : before ++ ("By".toList ++ (first ++ '.' :: after))
      = "By".toList ++ '.' :: (strategy.factory.toList ++ '(' :: rest)) : before = [] := by
  cases before with
  | nil => rfl
  | cons c before =>
    exfalso
    have by_eq : "By".toList = ['B', 'y'] := by decide
    let front := 'y' :: '.' :: (strategy.factory.toList ++ ['('])
    have no_capital : 'B' ∉ front := by
      cases strategy <;> decide
    have text_eq : "By".toList ++ '.' :: (strategy.factory.toList ++ '(' :: rest)
        = 'B' :: (front ++ rest) := by
      simp [front, by_eq]
    have behind : before ++ ("By".toList ++ (first ++ '.' :: after)) = front ++ rest :=
      (List.cons.inj (same.trans text_eq)).2
    -- Between the class and the argument stands no other capital.
    rcases List.append_eq_append_iff.mp behind with ⟨more, front_eq, more_eq⟩ | ⟨more, -, rest_eq⟩
    · cases more with
      | nil => exact unused ⟨first, first_blank, [], after, by simpa using more_eq⟩
      | cons d more =>
        rw [by_eq] at more_eq
        obtain ⟨rfl, -⟩ := List.cons.inj more_eq
        exact no_capital (front_eq ▸ by simp)
    · exact unused ⟨first, first_blank, more, after, by simp [rest_eq]⟩

/-- A match at the start of a call names the method of the call. -/
theorem call_parts (blank : ∀ c ∈ first ++ (second ++ third), isBlank c = true)
    (plain : ∀ c ∈ method, isPlainChar c = true)
    (same : first ++ '.' :: (second ++ (method ++ (third ++ '(' :: after)))
      = '.' :: (strategy.factory.toList ++ '(' :: rest)) :
    method = strategy.factory.toList ∧ after = rest := by
  simp only [List.forall_mem_append] at blank
  obtain ⟨first_blank, second_blank, third_blank⟩ := blank
  have not_mem {blanks : List Char} {mark : Char} (all_blank : ∀ c ∈ blanks, isBlank c = true)
      (is_mark : isBlank mark = false) : mark ∉ blanks := by
    intro member
    rw [all_blank mark member] at is_mark
    cases is_mark
  have no_round {name : List Char} (name_plain : ∀ c ∈ name, isPlainChar c = true) : '(' ∉ name :=
    fun member => ne_of_isPlainChar (name_plain '(' member) rfl rfl
  obtain ⟨rfl, same⟩ := before_mark_inj (not_mem first_blank (by decide)) (by simp)
    (same.trans (List.nil_append _).symm)
  have head_eq : (second ++ (method ++ third)) ++ '(' :: after
      = strategy.factory.toList ++ '(' :: rest := by simpa using same
  have absent : '(' ∉ second ++ (method ++ third) := by
    simp only [List.mem_append, not_or]
    exact ⟨not_mem second_blank (by decide), no_round plain, not_mem third_blank (by decide)⟩
  obtain ⟨factory_eq, rfl⟩ := before_mark_inj absent (no_round strategy.factory_plain) head_eq
  -- The factory holds no blanks, so there are none around the method.
  have no_blanks {blanks : List Char} (all_blank : ∀ c ∈ blanks, isBlank c = true)
      (inside : blanks ⊆ strategy.factory.toList) : blanks = [] := by
    rw [List.eq_nil_iff_forall_not_mem]
    intro c member
    have not_blank := isBlank_of_isPlainChar (strategy.factory_plain c (inside member))
    rw [all_blank c member] at not_blank
    cases not_blank
  obtain rfl := no_blanks second_blank (factory_eq ▸ List.subset_append_left _ _)
  obtain rfl := no_blanks third_blank (factory_eq ▸ by simp)
  exact ⟨by simpa using factory_eq, rfl⟩

end Matching

/-- Only the first quote of a literal stands behind no backslash and has another quote behind it. -/
theorem LiteralBody.opening_quote {body : List Char} (literal : LiteralBody body)
    {head front after tail : List Char} (no_quote : '"' ∉ head) (no_quote_behind : '"' ∉ tail)
    (no_backslash : front.getLast? ≠ some '\\') (closed : '"' ∈ after)
    (split_eq : front ++ '"' :: after = head ++ '"' :: (body ++ '"' :: tail)) : front = head := by
  rcases List.append_eq_append_iff.mp split_eq with
    ⟨more, head_eq, more_eq⟩ | ⟨more, front_eq, more_eq⟩
  · -- The head would hold the quote at hand.
    cases more with
    | nil => rw [head_eq, List.append_nil]
    | cons c more =>
      obtain ⟨rfl, -⟩ := List.cons.inj more_eq
      exact absurd (by rw [head_eq]; simp) no_quote
  · cases more with
    | nil => rw [front_eq, List.append_nil]
    | cons c inner =>
      -- The quote at hand is one of the body, the closing one, or one behind the literal.
      obtain ⟨rfl, inner_eq⟩ := List.cons.inj more_eq
      exfalso
      rcases List.append_eq_append_iff.mp inner_eq with
        ⟨past, -, past_eq⟩ | ⟨left, body_eq, left_eq⟩
      · -- Behind the closing quote there is no other one to close the match.
        have after_eq : '"' :: after <:+ '"' :: tail := by
          rw [past_eq]
          exact List.suffix_append past _
        have after_suffix := (List.suffix_cons_iff.mp after_eq).elim
          (fun equal => (List.cons.inj equal).2 ▸ List.suffix_rfl)
          ((List.suffix_cons _ _).trans ·)
        exact no_quote_behind (after_suffix.subset closed)
      · -- The closing quote has none behind it, and one of the body stands behind a backslash.
        cases left with
        | nil =>
          obtain ⟨-, rfl⟩ := List.cons.inj left_eq
          exact no_quote_behind closed
        | cons c left =>
          obtain ⟨rfl, -⟩ := List.cons.inj left_eq
          apply no_backslash
          rw [front_eq, List.getLast?_append, List.getLast?_cons, literal.getLast?_of_quote body_eq]
          rfl

section Resolve

variable {strategy : Strategy} {lead body trail : List Char} (literal : LiteralBody body)
  (lead_blank : ∀ c ∈ lead, isBlank c = true) (trail_blank : ∀ c ∈ trail, isBlank c = true)
include literal lead_blank trail_blank

theorem takes_factoryCall (named : strategy ≠ .literal) (more : List Char) :
    (all [text "By", blanks, mark '.', blanks, text strategy.factory, blanks, mark '(', blanks,
      stringLiteral, blanks, mark ')']).Takes
        (factoryText strategy (lead ++ '"' :: (body ++ '"' :: trail)) ++ more) more []
        [("value", body)] := by
  have factory_first := (Strategy.factoryName named).head_not_blank
    ('(' :: (lead ++ '"' :: (body ++ '"' :: (trail ++ ')' :: more))))
  simp only [factoryText, List.append_assoc, List.cons_append, List.nil_append]
  refine (takes_literal "By".toList).seq ?_
  refine (takes_blanks_none (head_false (by decide))).seq ?_
  refine (takes_mark '.').seq ?_
  refine (takes_blanks_none factory_first).seq ?_
  refine (takes_literal strategy.factory.toList).seq ?_
  refine (takes_blanks_none (head_false (by decide))).seq ?_
  refine (takes_mark '(').seq ?_
  refine (takes_blanks lead_blank (head_false (by decide))).seq ?_
  refine (literal.takes_stringLiteral (trail ++ ')' :: more) []).seq ?_
  refine (takes_blanks trail_blank (head_false (by decide))).seq ?_
  exact (takes_mark ')').seq takes_empty

/-- A call is no match of another factory's pattern, wherever that is sought. -/
theorem fails_factoryCall_other {other : Strategy} (different : other ≠ strategy) {part : List Char}
    (suffix : part <:+ factoryText strategy (lead ++ '"' :: (body ++ '"' :: trail))) :
    (factoryCall other.factory).Fails part := by
  intro previous groups
  rw [List.eq_nil_iff_forall_not_mem]
  intro stop found
  obtain ⟨before, first, second, third, fourth, inner, last, blank, fourth_blank, -, -, text_eq⟩ :=
    parts_of_factoryCall suffix found
  have first_blank : ∀ c ∈ first, isBlank c = true := (List.forall_mem_append.mp blank).1
  let front := before ++ ("By".toList ++ (first ++ '.' :: (second ++ (other.factory.toList
    ++ (third ++ '(' :: fourth)))))
  -- Between the parenthesis and the quote of a match there are only blanks.
  have no_backslash : front.getLast? ≠ some '\\' := by
    have last_eq : front.getLast? = some (fourth.getLast?.getD '(') := by
      simp [front, List.getLast?_append, List.getLast?_cons]
    rw [last_eq]
    intro equal
    cases fourth_last : fourth.getLast? with
    | none => simp [fourth_last] at equal
    | some c =>
      have is_blank := fourth_blank c (List.mem_of_getLast? fourth_last)
      have c_eq : c = '\\' := by simpa [fourth_last] using equal
      rw [c_eq] at is_blank
      exact absurd is_blank (by decide)
  have split_eq : front ++ '"' :: (inner ++ '"' :: (last ++ ')' :: stop.rest))
      = callHead strategy lead ++ '"' :: (body ++ '"' :: (trail ++ [')'])) := by
    simpa [front, callHead, factoryText] using text_eq.symm
  have no_quote_behind : '"' ∉ trail ++ [')'] := by
    simp only [List.mem_append, List.mem_singleton, not_or]
    exact ⟨fun member => absurd (trail_blank '"' member) (by decide), by decide⟩
  -- So the match opens the very literal of the call, and what is in front of it must agree.
  have no_quote : '"' ∉ lead := fun member => absurd (lead_blank '"' member) (by decide)
  have front_eq : front = callHead strategy lead :=
    literal.opening_quote (quote_not_mem_callHead strategy no_quote) no_quote_behind no_backslash
      (by simp) split_eq
  have unused : ¬UsesBy lead := fun ⟨_, _, inside⟩ =>
    absurd (lead_blank 'B' (inside.subset (by simp))) (by decide)
  obtain rfl := before_eq_nil first_blank unused front_eq
  have parts_eq := List.append_cancel_left ((List.nil_append _).symm.trans front_eq)
  have method_eq := (call_parts blank other.factory_plain parts_eq).1
  exact different (Strategy.factory_inj (String.toList_inj.mp method_eq))

theorem find?_factoryCall (named : strategy ≠ .literal) (other : Strategy) :
    ((factoryCall other.factory).find?
      (factoryText strategy (lead ++ '"' :: (body ++ '"' :: trail)))).map (·.group "value")
      = if other = strategy then some body else none := by
  split
  · next same =>
    subst same
    have takes := takes_factoryCall literal lead_blank trail_blank named []
    rw [List.append_nil] at takes
    have found := find?_wordEdge (List.append_nil _).symm takes rfl
    rw [show (factoryCall other.factory).find? _ = _ from found]
    rfl
  · next different =>
    have missed := findFrom?_eq_none (fun _ suffix => fails_factoryCall_other literal lead_blank
      trail_blank different suffix) none
    rw [find?, missed]
    rfl

/-- A factory call on a literal with blanks around it is resolved to its own strategy and the body of
the literal. -/
theorem resolve?_factoryText (named : strategy ≠ .literal) :
    resolve? (factoryText strategy (lead ++ '"' :: (body ++ '"' :: trail)))
      = some ⟨strategy, String.ofList body⟩ := by
  have called (other : Strategy) :
      ((factoryCall other.factory).find?
        (factoryText strategy (lead ++ '"' :: (body ++ '"' :: trail)))).map
          (fun found => (⟨other, String.ofList (found.group "value")⟩ : Lookup))
        = if other = strategy then some ⟨other, String.ofList body⟩ else none := by
    have value_eq := congrArg
      (Option.map fun value => (⟨other, String.ofList value⟩ : Lookup))
      (find?_factoryCall literal lead_blank trail_blank named other)
    rw [Option.map_map] at value_eq
    refine value_eq.trans ?_
    by_cases same : other = strategy <;> simp [same]
  simp only [resolve?, factories_eq, List.findSome?_map, Function.comp_def, called]
  -- Of all factories only the one of the strategy is left.
  cases strategy <;> first | exact absurd rfl named | rfl

end Resolve

/-- A factory call on a literal is resolved to its own strategy and the body of the literal. -/
theorem resolve?_callText {strategy : Strategy} {body : List Char} (literal : LiteralBody body)
    (named : strategy ≠ .literal) :
    resolve? (callText strategy body) = some ⟨strategy, String.ofList body⟩ := by
  rw [callText_eq_factoryText]
  exact @resolve?_factoryText _ [] _ [] literal (by simp) (by simp) named

end SuiteMigration.Locator
