import SuiteMigration.Proofs.Locator.Factory

/-!
# Resolving the arguments of factory calls

An argument that is one literal gives the strategy of the factory. An argument without a literal
gives nothing. What is computed from literals is resolved to the literals themselves: the pattern of
a factory takes no part of an argument, so the first literal is found as a bare one.
-/
namespace SuiteMigration.Locator

open Pattern Text

/-- The argument is one literal, up to the blanks around it. -/
def IsLiteral (argument body : List Char) : Prop :=
  ∃ lead trail, (∀ c ∈ lead, isBlank c = true) ∧ (∀ c ∈ trail, isBlank c = true) ∧
    argument = lead ++ '"' :: (body ++ '"' :: trail)

/-- An argument that is not one literal alone, and in which no factory is called again. -/
structure Composite (argument : List Char) : Prop where
  not_literal : ∀ body, (Pattern.many true stringChar).Accepts body → ¬IsLiteral argument body
  /-- No parenthesis closes the call behind a literal at its start. -/
  balanced : ∀ body literal rest, (Pattern.many true stringChar).Accepts body →
    IsLiteral literal body → argument ≠ literal ++ ')' :: rest
  unused : ¬UsesBy argument

section Quotes

variable {argument taken : List Char} {strategy : Strategy}

private theorem two_le_count_factoryCall {method : String}
    (accepted : (factoryCall method).Accepts taken) :
    2 ≤ taken.count '"' := by
  obtain ⟨first, second, third, fourth, body, last, -, -, rfl⟩ := accepts_factoryCall accepted
  simp only [List.count_append, List.count_cons, beq_self_eq_true, ↓reduceIte]
  omega

private theorem two_le_count_bareString (accepted : bareString.Accepts taken) :
    2 ≤ taken.count '"' := by
  obtain ⟨inner, -, rfl⟩ := accepts_bareString accepted
  simp only [List.count_append, List.count_cons, beq_self_eq_true, ↓reduceIte]
  omega

/-- The quotes of a call are those of its argument. -/
theorem count_quote_factoryText (strategy : Strategy) (argument : List Char) :
    (factoryText strategy argument).count '"' = argument.count '"' := by
  have factory_count : strategy.factory.toList.count '"' = 0 := by cases strategy <;> decide
  simp [factoryText, List.count_append, factory_count]

private theorem find?_eq_none_of_count {pattern : Pattern}
    (needs : ∀ taken, pattern.Accepts taken → 2 ≤ taken.count '"') (few : argument.count '"' < 2) :
    pattern.find? argument = none :=
  findFrom?_eq_none (fun _ suffix =>
    fails_of_count needs (Nat.lt_of_le_of_lt (suffix.sublist.count_le '"') few)) none

end Quotes

/-- Where no factory's pattern is found, a bare literal is sought. -/
theorem resolve?_eq_bareString {expression : List Char}
    (no_call : ∀ other : Strategy, (factoryCall other.factory).find? expression = none) :
    resolve? expression = (bareString.find? expression).map fun found =>
      ⟨.literal, String.ofList (found.group "value")⟩ := by
  simp only [resolve?, factories_eq, List.findSome?_map, Function.comp_def, no_call,
    Option.map_none]
  rfl

/-- A call without a literal in its argument is not resolved. -/
theorem resolve?_eq_none_of_count {strategy : Strategy} {argument : List Char}
    (few : argument.count '"' < 2) : resolve? (factoryText strategy argument) = none := by
  rw [← count_quote_factoryText strategy argument] at few
  have no_literal := find?_eq_none_of_count (fun _ => two_le_count_bareString) few
  rw [resolve?_eq_bareString fun _ =>
    find?_eq_none_of_count (fun _ => two_le_count_factoryCall) few, no_literal]
  rfl

section Composite

variable {strategy : Strategy} {argument front body back : List Char}

theorem UsesBy.of_concat {c : Char} (not_dot : c ≠ '.') (uses : UsesBy (argument ++ [c])) :
    UsesBy argument := by
  obtain ⟨gap, gap_blank, inside⟩ := uses
  rcases List.infix_concat_iff.mp inside with ⟨before, same⟩ | inside
  · have last_eq := congrArg List.getLast? same
    simp only [← List.append_assoc, List.getLast?_concat, Option.some.injEq] at last_eq
    exact absurd last_eq.symm not_dot
  · exact ⟨gap, gap_blank, inside⟩

/-- A match of a factory's pattern is the call itself, and its argument begins with a literal, unless
the argument uses the factories again. -/
theorem argument_of_mem_ways (unused : ¬UsesBy argument) {other : Strategy} {part : List Char}
    (suffix : part <:+ factoryText strategy argument) {previous : Option Char}
    {groups : List (String × List Char)} {stop : Cursor}
    (found : stop ∈ (factoryCall other.factory).ways ⟨previous, part, groups⟩) :
    ∃ literal inner, (Pattern.many true stringChar).Accepts inner ∧ IsLiteral literal inner ∧
      argument ++ [')'] = literal ++ ')' :: stop.rest := by
  obtain ⟨before, first, second, third, fourth, inner, last, blank, fourth_blank, last_blank, is_inner,
    text_eq⟩ := parts_of_factoryCall suffix found
  have first_blank : ∀ c ∈ first, isBlank c = true := (List.forall_mem_append.mp blank).1
  have unused_behind : ¬UsesBy (argument ++ [')']) := fun uses => unused (uses.of_concat (by decide))
  obtain rfl := before_eq_nil first_blank unused_behind text_eq.symm
  have parts_eq := List.append_cancel_left ((List.nil_append _).symm.trans text_eq.symm)
  have argument_eq := (call_parts blank other.factory_plain parts_eq).2
  refine ⟨fourth ++ '"' :: (inner ++ '"' :: last), inner, is_inner,
    ⟨fourth, last, fourth_blank, last_blank, rfl⟩, ?_⟩
  rw [← argument_eq]
  simp

theorem Composite.find?_factoryCall (composite : Composite argument) (other : Strategy) :
    (factoryCall other.factory).find? (factoryText strategy argument) = none := by
  refine findFrom?_eq_none (fun part suffix previous groups => ?_) none
  rw [List.eq_nil_iff_forall_not_mem]
  intro stop found
  obtain ⟨literal, inner, is_inner, is_literal, same⟩ :=
    argument_of_mem_ways composite.unused suffix found
  rcases List.eq_nil_or_concat stop.rest with rest_eq | ⟨rest, c, rest_eq⟩
  · rw [rest_eq] at same
    obtain rfl := List.append_inj_left' same rfl
    exact composite.not_literal inner is_inner is_literal
  · have split_eq : argument ++ [')'] = (literal ++ ')' :: rest) ++ [c] := by
      rw [same, rest_eq]
      simp
    exact composite.balanced inner literal rest is_inner is_literal
      (List.append_inj_left' split_eq rfl)

/-- Of a composite argument no factory's pattern takes a part, so only a bare literal is found. -/
theorem Composite.resolve?_eq_bareString (composite : Composite argument) :
    resolve? (factoryText strategy argument)
      = (bareString.find? (factoryText strategy argument)).map fun found =>
          ⟨.literal, String.ofList (found.group "value")⟩ :=
  Locator.resolve?_eq_bareString composite.find?_factoryCall

theorem Composite.strategy_eq (composite : Composite argument) {lookup : Lookup}
    (resolved : resolve? (factoryText strategy argument) = some lookup) :
    lookup.strategy = .literal := by
  rw [composite.resolve?_eq_bareString] at resolved
  obtain ⟨found, -, rfl⟩ := Option.map_eq_some_iff.mp resolved
  rfl

/-- A composite argument is resolved to its first literal. -/
theorem Composite.resolve?_eq (composite : Composite argument) (literal : LiteralBody body)
    (nonempty : body ≠ []) (no_quote : '"' ∉ front)
    (argument_eq : argument = front ++ '"' :: (body ++ '"' :: back)) :
    resolve? (factoryText strategy argument) = some ⟨.literal, String.ofList body⟩ := by
  have found := find?_bareString literal nonempty (quote_not_mem_callHead strategy no_quote)
    (back ++ [')'])
  rw [composite.resolve?_eq_bareString, argument_eq, factoryText_append]
  rw [List.cons_append, List.append_assoc, List.cons_append]
  obtain ⟨literal, find_eq, value_eq⟩ := Option.map_eq_some_iff.mp found
  rw [find_eq, Option.map_some, value_eq]

/-- An empty literal is passed over, so where it is the only one nothing is found. -/
theorem Composite.resolve?_eq_none (composite : Composite argument) (no_quote : '"' ∉ front)
    (no_other : '"' ∉ back) (argument_eq : argument = front ++ '"' :: '"' :: back) :
    resolve? (factoryText strategy argument) = none := by
  have head_quote := quote_not_mem_callHead strategy no_quote
  have no_literal : bareString.find? (factoryText strategy argument) = none := by
    refine findFrom?_eq_none (fun part suffix previous groups => ?_) none
    rw [List.eq_nil_iff_forall_not_mem]
    intro stop found
    obtain ⟨taken, part_eq, accepted⟩ := accepts_of_mem_ways found
    obtain ⟨inner, inner_ne, rfl⟩ := accepts_bareString accepted
    obtain ⟨before, text_eq⟩ := suffix
    have same : before ++ '"' :: (inner ++ '"' :: stop.rest)
        = callHead strategy front ++ '"' :: ('"' :: (back ++ [')'])) := by
      rw [argument_eq, factoryText_append, show part = _ from part_eq] at text_eq
      simpa using text_eq
    -- There are two quotes in all, and the match takes both.
    have count_eq := congrArg (List.count '"') same
    simp only [List.count_append, List.count_cons, List.count_nil, beq_self_eq_true, ↓reduceIte,
      show (')' == '"') = false from rfl, Bool.false_eq_true, List.count_eq_zero_of_not_mem head_quote,
      List.count_eq_zero_of_not_mem no_other] at count_eq
    obtain ⟨-, inner_eq⟩ := before_mark_inj (List.count_eq_zero.mp (by omega)) head_quote same
    exact inner_ne (before_mark_inj (List.count_eq_zero.mp (by omega)) List.not_mem_nil inner_eq).1
  rw [composite.resolve?_eq_bareString, no_literal]
  rfl

/-- An argument is composite, if its first literal is not all of it. -/
theorem Composite.of_first (literal : LiteralBody body) (no_quote : '"' ∉ front)
    (compound : ¬∀ c ∈ front ++ back, isBlank c = true)
    (balanced : ∀ gap rest, (∀ c ∈ gap, isBlank c = true) → back ≠ gap ++ ')' :: rest)
    (unused : ¬UsesBy (front ++ '"' :: (body ++ '"' :: back))) :
    Composite (front ++ '"' :: (body ++ '"' :: back)) where
  not_literal := by
    rintro other is_other ⟨lead, trail, lead_blank, trail_blank, same⟩
    have lead_quote : '"' ∉ lead := fun member => absurd (lead_blank '"' member) (by decide)
    obtain ⟨rfl, body_eq⟩ := before_mark_inj no_quote lead_quote same
    obtain ⟨-, rfl⟩ := literal.eq_of_closed is_other body_eq
    exact compound (List.forall_mem_append.mpr ⟨lead_blank, trail_blank⟩)
  balanced := by
    rintro other _ rest is_other ⟨lead, trail, lead_blank, trail_blank, rfl⟩ same
    have lead_quote : '"' ∉ lead := fun member => absurd (lead_blank '"' member) (by decide)
    rw [List.append_assoc, List.cons_append, List.append_assoc, List.cons_append] at same
    obtain ⟨-, body_eq⟩ := before_mark_inj no_quote lead_quote same
    obtain ⟨-, back_eq⟩ := literal.eq_of_closed is_other body_eq
    exact balanced trail rest trail_blank back_eq.symm
  unused := unused

end Composite

/-- A factory call is resolved by its strategy where its argument is one literal, and not at all where
that holds no literal. A composite argument is never resolved by the strategy: its first literal is
taken as it stands, and an empty one is nothing. -/
theorem argument_resolved {strategy : Strategy} (named : strategy ≠ .literal)
    (argument : List Char) :
    (∀ body, LiteralBody body → IsLiteral argument body →
      (resolve? (factoryText strategy argument)).map
          (fun lookup => (lookup.strategy, lookup.value, lookup.selector))
        = some (strategy, String.ofList body, strategy.selector (String.ofList body))) ∧
    (argument.count '"' < 2 → resolve? (factoryText strategy argument) = none) ∧
    (∀ front body back, LiteralBody body → body ≠ [] →
      argument = front ++ '"' :: (body ++ '"' :: back) →
      (resolve? (factoryText strategy argument)).isSome = true) ∧
    (Composite argument →
      (∀ lookup, resolve? (factoryText strategy argument) = some lookup →
        lookup.strategy = .literal) ∧
      (∀ front body back, LiteralBody body → body ≠ [] → '"' ∉ front →
        argument = front ++ '"' :: (body ++ '"' :: back) →
        resolve? (factoryText strategy argument) = some ⟨.literal, String.ofList body⟩) ∧
      ∀ front back, '"' ∉ front → '"' ∉ back → argument = front ++ '"' :: '"' :: back →
        resolve? (factoryText strategy argument) = none) := by
  refine ⟨?_, resolve?_eq_none_of_count, ?_, fun composite => ⟨?_, ?_, ?_⟩⟩
  · rintro body literal ⟨lead, trail, lead_blank, trail_blank, rfl⟩
    rw [resolve?_factoryText literal lead_blank trail_blank named]
    rfl
  · rintro front body back literal nonempty rfl
    rw [factoryText_append, List.cons_append, List.append_assoc, List.cons_append]
    exact isSome_resolve? (occursIn_bareString literal nonempty _ _)
  · exact fun lookup => composite.strategy_eq
  · exact fun front body back literal nonempty => composite.resolve?_eq literal nonempty
  · exact fun front back => composite.resolve?_eq_none

/-- A path put together from two literals and a variable. -/
def joinedPath : List Char :=
  '"' :: ("//tr[".toList ++ '"' :: " + i + \"]\"".toList)

theorem literalBody_joinedPath : LiteralBody "//tr[".toList :=
  .of_plain (by simp)

theorem composite_joinedPath : Composite joinedPath := by
  refine @Composite.of_first [] _ _ literalBody_joinedPath (by decide) ?_ ?_ ?_
  · exact fun blank => absurd (blank '+' (by simp)) (by decide)
  · intro gap rest _ same
    exact absurd (same ▸ by simp : ')' ∈ " + i + \"]\"".toList) (by decide)
  · rintro ⟨gap, -, inside⟩
    exact absurd (inside.subset (by simp : 'B' ∈ _)) (by decide)

/-- A literal, a joined path and a constant. -/
theorem argument_resolved_joinedPath :
    (resolve? (factoryText .id " \"go\" ".toList)).map (·.selector) = some ⟨"#go"⟩ ∧
      resolve? (factoryText .xPath joinedPath) = some ⟨.literal, "//tr["⟩ ∧
      resolve? (factoryText .xPath "PATH".toList) = none := by
  have go_literal : LiteralBody "go".toList := .of_plain (by simp)
  have space_blank : ∀ c ∈ [' '], isBlank c = true := List.forall_mem_singleton.mpr rfl
  have go_argument : IsLiteral " \"go\" ".toList "go".toList :=
    ⟨[' '], [' '], space_blank, space_blank, rfl⟩
  have go_resolved := (@argument_resolved .id (by decide) " \"go\" ".toList).1 _ go_literal go_argument
  refine ⟨?_, ?_, (@argument_resolved .xPath (by decide) "PATH".toList).2.1 (by decide)⟩
  · have selector_eq := congrArg (Option.map fun parts => parts.2.2) go_resolved
    rw [Option.map_map] at selector_eq
    exact selector_eq
  · exact ((@argument_resolved .xPath (by decide) joinedPath).2.2.2 composite_joinedPath).2.1 [] _ _
      literalBody_joinedPath (by decide) (by decide) rfl

/-- Not only a literal is resolved. -/
theorem joinedPath_resolved :
    resolve? (factoryText .xPath joinedPath) = some ⟨.literal, "//tr["⟩ ∧
      ¬∃ body, LiteralBody body ∧ IsLiteral joinedPath body := by
  constructor
  · exact composite_joinedPath.resolve?_eq literalBody_joinedPath (by decide) List.not_mem_nil rfl
  · rintro ⟨body, literal, is_literal⟩
    exact composite_joinedPath.not_literal body (accepts_stringChars literal) is_literal

end SuiteMigration.Locator
