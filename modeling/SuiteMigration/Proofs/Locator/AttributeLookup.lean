import Mathlib.Data.List.Induction
import SuiteMigration.Proofs.Locator.AttributeReading

/-!
# What annotation arguments look up

Of the attributes that name a strategy the first one counts, and else the last constant with the last
value. Arguments that are written as a list of whole values are read as that list.
-/
namespace SuiteMigration.Locator

open Pattern Text

/-- What the attributes of a list say, one after the other. -/
def Attributes.ofPairs (pairs : List AttributePair) : Attributes :=
  pairs.foldl (fun read pair => read.add pair.name pair.content) .empty

/-- The first attribute that names a strategy. -/
def named? (pairs : List AttributePair) : Option Lookup :=
  pairs.findSome? fun pair => (Strategy.ofAttribute? pair.name).map (⟨·, pair.content⟩)

/-- The value of the last attribute with a name. -/
def last? (name : String) (pairs : List AttributePair) : Option String :=
  (pairs.reverse.find? (·.name = name)).map AttributePair.content

/-- What a list of attributes looks up. -/
def located? (pairs : List AttributePair) : Option Lookup :=
  named? pairs <|> do
    let strategy ← (last? "how" pairs).bind Strategy.ofConstant?
    let value ← last? "using" pairs
    some ⟨strategy, value⟩

section Pairs

variable {pairs others : List AttributePair} {pair : AttributePair}

private theorem named?_concat (pairs : List AttributePair) (pair : AttributePair) :
    named? (pairs ++ [pair])
      = (named? pairs <|> (Strategy.ofAttribute? pair.name).map (⟨·, pair.content⟩)) := by
  simp [named?]

private theorem last?_concat (name : String) (pairs : List AttributePair) (pair : AttributePair) :
    last? name (pairs ++ [pair])
      = if pair.name = name then some pair.content else last? name pairs := by
  by_cases same : pair.name = name <;> simp [last?, same]

theorem Attributes.ofPairs_eq (pairs : List AttributePair) :
    Attributes.ofPairs pairs
      = ⟨(last? "how" pairs).bind Strategy.ofConstant?, last? "using" pairs, named? pairs⟩ := by
  induction pairs using List.reverseRecOn with
  | nil => rfl
  | append_singleton pairs pair ih =>
    rw [Attributes.ofPairs, List.foldl_append, List.foldl_cons, List.foldl_nil,
      ← Attributes.ofPairs, ih, named?_concat, last?_concat, last?_concat, Attributes.add]
    split
    · next is_how =>
      have no_strategy : Strategy.ofAttribute? "how" = none := rfl
      simp [is_how, no_strategy]
    · split
      · next is_using =>
        have no_strategy : Strategy.ofAttribute? "using" = none := rfl
        simp [is_using, no_strategy]
      · cases named? pairs <;> cases Strategy.ofAttribute? pair.name <;> rfl

private theorem lookup?_ofPairs (pairs : List AttributePair) :
    (Attributes.ofPairs pairs).lookup? = located? pairs := by
  rw [Attributes.ofPairs_eq, Attributes.lookup?, located?]
  congr 1
  cases (last? "how" pairs).bind Strategy.ofConstant? <;> cases last? "using" pairs <;> rfl

private theorem addMatch_of_groups {found : Match} (groups_eq : found.groups = pair.groups)
    (read : Attributes) : read.addMatch found = read.add pair.name pair.content := by
  rw [Attributes.addMatch, Match.group?, Match.group, Match.group?, Match.group, Match.group?,
    groups_eq, AttributePair.groups, AttributePair.content]
  cases pair.value <;> rfl

private theorem foldl_addMatch {hits : List Match}
    (groups_eq : hits.map Match.groups = pairs.map AttributePair.groups) (read : Attributes) :
    hits.foldl Attributes.addMatch read
      = pairs.foldl (fun read pair => read.add pair.name pair.content) read := by
  induction hits generalizing pairs read with
  | nil =>
    obtain rfl := List.map_eq_nil_iff.mp groups_eq.symm
    rfl
  | cons found hits ih =>
    obtain ⟨pair, pairs, rfl, first_eq, rest_eq⟩ := List.map_eq_cons_iff.mp groups_eq.symm
    rw [List.foldl_cons, List.foldl_cons, addMatch_of_groups first_eq.symm, ih rest_eq.symm]

theorem lookup?_ofText {arguments : String}
    (groups_eq : (attributePair.findAll arguments.toList).map Match.groups
      = pairs.map AttributePair.groups) :
    (Attributes.ofText arguments).lookup? = located? pairs := by
  rw [Attributes.ofText, foldl_addMatch groups_eq, ← Attributes.ofPairs, lookup?_ofPairs]

/-- Any arguments are read as attributes that stand in them. -/
theorem exists_pairs (arguments : String) :
    ∃ pairs, (Attributes.ofText arguments).lookup? = located? pairs ∧
      ∀ pair ∈ pairs, pair.StandsIn arguments.toList := by
  obtain ⟨pairs, groups_eq, stand⟩ :=
    exists_pairs_of_findAllFrom none arguments.toList [] (.inl (by rintro c ⟨⟩))
  exact ⟨pairs, lookup?_ofText groups_eq, stand⟩

end Pairs

/-! ## Attributes that decide -/

/-- The attribute holds the value that is looked up, by its own strategy or by one that a constant
next to it names. -/
def AttributePair.Decides (held : AttributePair → Prop) (pair : AttributePair) (lookup : Lookup) :
    Prop :=
  held pair ∧ lookup.value = pair.content ∧
    (Strategy.ofAttribute? pair.name = some lookup.strategy ∨
      pair.name = "using" ∧ ∃ how, held how ∧ how.name = "how" ∧
        Strategy.ofConstant? how.content = some lookup.strategy)

section Decides

variable {pairs : List AttributePair} {pair : AttributePair} {lookup : Lookup}

theorem AttributePair.Decides.mono {held other : AttributePair → Prop}
    (decides : pair.Decides held lookup) (weaker : ∀ pair, held pair → other pair) :
    pair.Decides other lookup := by
  obtain ⟨is_held, value_eq, named | ⟨is_using, how, how_held, how_named⟩⟩ := decides
  · exact ⟨weaker pair is_held, value_eq, .inl named⟩
  · exact ⟨weaker pair is_held, value_eq, .inr ⟨is_using, how, weaker how how_held, how_named⟩⟩

private theorem exists_of_last? {name value : String} (last_eq : last? name pairs = some value) :
    ∃ pair ∈ pairs, pair.name = name ∧ pair.content = value := by
  obtain ⟨pair, found, value_eq⟩ := Option.map_eq_some_iff.mp last_eq
  have named := List.find?_some found
  exact ⟨pair, List.mem_reverse.mp (List.mem_of_find?_eq_some found), of_decide_eq_true named,
    value_eq⟩

theorem exists_of_located? (located : located? pairs = some lookup) :
    ∃ pair : AttributePair, pair.Decides (· ∈ pairs) lookup := by
  rw [located?, Option.orElse_eq_orElse, Option.orElse_eq_or] at located
  rcases Option.or_eq_some_iff.mp located with named | ⟨-, paired⟩
  · obtain ⟨pair, member, lookup_eq⟩ := List.exists_of_findSome?_eq_some named
    obtain ⟨strategy, strategy_eq, rfl⟩ := Option.map_eq_some_iff.mp lookup_eq
    exact ⟨pair, member, rfl, .inl strategy_eq⟩
  · obtain ⟨strategy, strategy_eq, paired⟩ := Option.bind_eq_some_iff.mp paired
    obtain ⟨value, value_eq, lookup_eq⟩ := Option.bind_eq_some_iff.mp paired
    obtain rfl := Option.some.inj lookup_eq
    obtain ⟨constant, constant_eq, strategy_eq⟩ := Option.bind_eq_some_iff.mp strategy_eq
    obtain ⟨how, how_mem, how_named, rfl⟩ := exists_of_last? constant_eq
    obtain ⟨pair, member, pair_named, rfl⟩ := exists_of_last? value_eq
    exact ⟨pair, member, rfl, .inr ⟨pair_named, how, how_mem, how_named, strategy_eq⟩⟩

end Decides

/-! ## Lists of whole values -/

/-- The text is a list of the attributes: separated by commas, their values are nothing but literals
and names. -/
inductive Lists : List AttributePair → List Char → Prop where
  | last {lead trail : List Char} {pair : AttributePair} (lead_blank : ∀ c ∈ lead, isBlank c = true)
      (trail_blank : ∀ c ∈ trail, isBlank c = true) : Lists [pair] (lead ++ (pair.text ++ trail))
  | more {lead trail rest : List Char} {pair : AttributePair} {pairs : List AttributePair}
      (lead_blank : ∀ c ∈ lead, isBlank c = true) (trail_blank : ∀ c ∈ trail, isBlank c = true)
      (others : Lists pairs rest) :
      Lists (pair :: pairs) (lead ++ (pair.text ++ (trail ++ ',' :: rest)))

section Lists

variable {pairs : List AttributePair} {text front behind : List Char}

theorem AttributeValue.ends_of_head (value : AttributeValue)
    (apart : ∀ c ∈ behind.head?, isDotted c = false) : value.Ends behind := by
  cases value with
  | literal => trivial
  | constant => exact apart

theorem Lists.map_groups (lists : Lists pairs text) (previous : Option Char) :
    (attributePair.findAllFrom previous text).map Match.groups
      = pairs.map AttributePair.groups := by
  have no_word {blanks : List Char} (all_blank : ∀ c ∈ blanks, isBlank c = true) :
      ∀ c ∈ blanks, isWordChar c = false :=
    fun c member => isWordChar_of_isBlank (all_blank c member)
  have not_dotted {blanks : List Char} (all_blank : ∀ c ∈ blanks, isBlank c = true) :
      ∀ c ∈ blanks, isDotted c = false :=
    fun c member => isDotted_of_isBlank (all_blank c member)
  induction lists generalizing previous with
  | @last lead trail pair lead_blank trail_blank =>
    have ends := pair.value.ends_of_head fun c member =>
      not_dotted trail_blank c (List.mem_of_mem_head? member)
    obtain ⟨last, pair_eq⟩ := map_groups_pair pair ends (lead.getLast?.or previous)
    have trail_eq := map_groups_front (no_word trail_blank) [] last
    rw [List.append_nil, findAllFrom_attributePair_nil] at trail_eq
    rw [map_groups_front (no_word lead_blank), pair_eq, trail_eq]
    rfl
  | @more lead trail rest pair pairs lead_blank trail_blank others ih =>
    have comma : ∀ c ∈ (',' :: rest).head?, isDotted c = false := head_false (by decide)
    have ends := pair.value.ends_of_head (head_append_false (not_dotted trail_blank) comma)
    obtain ⟨last, pair_eq⟩ := map_groups_pair pair ends (lead.getLast?.or previous)
    have comma_outside : ∀ c ∈ trail ++ [','], isWordChar c = false :=
      List.forall_mem_append.mpr ⟨no_word trail_blank, List.forall_mem_singleton.mpr (by decide)⟩
    have rest_eq := map_groups_front comma_outside rest last
    rw [List.append_assoc, List.singleton_append] at rest_eq
    rw [map_groups_front (no_word lead_blank), pair_eq, rest_eq, ih, List.map_cons]

/-- A list of attributes is read as it is written. -/
theorem Lists.lookup?_eq {arguments : String} (lists : Lists pairs arguments.toList) :
    (Attributes.ofText arguments).lookup? = located? pairs :=
  lookup?_ofText (lists.map_groups none)

/-- Of the attribute in front, the value counts as far as it is read, whatever follows. -/
theorem lookup?_first {arguments : String} {pair : AttributePair} {strategy : Strategy}
    (outside : ∀ c ∈ front, isWordChar c = false) (ends : pair.value.Ends behind)
    (arguments_eq : arguments.toList = front ++ (pair.text ++ behind))
    (named : Strategy.ofAttribute? pair.name = some strategy) :
    (Attributes.ofText arguments).lookup? = some ⟨strategy, pair.content⟩ := by
  obtain ⟨last, pair_eq⟩ := map_groups_pair pair ends (front.getLast?.or none)
  obtain ⟨pairs, pairs_eq, -⟩ := exists_pairs_of_findAllFrom last behind (front ++ pair.text)
    (pair.edge ends front)
  have groups_eq : (attributePair.findAll arguments.toList).map Match.groups
      = (pair :: pairs).map AttributePair.groups := by
    rw [findAll, arguments_eq, map_groups_front outside, pair_eq, pairs_eq, List.map_cons]
  rw [lookup?_ofText groups_eq]
  simp [located?, named?, named]

end Lists

end SuiteMigration.Locator
