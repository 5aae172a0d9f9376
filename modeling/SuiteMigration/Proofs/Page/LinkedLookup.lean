import SuiteMigration.Proofs.Locator.Factory
import SuiteMigration.Proofs.Page.NamedCall

/-!
# Linked lookups

The arguments of lookups that are chained stand in one text, with the calls between them. A search
for a factory goes from argument to argument, and the factories are sought in their own order: what
the text is resolved to is the first argument of the strategy that comes first.
-/
namespace SuiteMigration.Page

open Pattern Locator Text
open Test (IsWord dotted_word_inj not_mem_of_isWord not_mem_of_allBlank)

/-- The place of the strategy among the factories. -/
def rank (strategy : Strategy) : Nat :=
  (factories.map Prod.fst).idxOf strategy

/-- A lookup in a chain: a factory call on a string literal without parentheses. -/
structure Link where
  strategy : Strategy
  body : List Char
  named : strategy ≠ .literal
  literal : LiteralBody body
  no_opening : '(' ∉ body
  no_closing : ')' ∉ body

namespace Link

def argument (link : Link) : List Char :=
  callText link.strategy link.body

def selector (link : Link) : Selector :=
  link.strategy.selector (String.ofList link.body)

end Link

/-- The arguments of the links with what stands between them. -/
def joined (link : Link) : List Link → List Char
  | [] => link.argument
  | next :: rest =>
    link.argument ++ ')' :: '.' :: ("findElement".toList ++ '(' :: joined next rest)

theorem joined_eq (link : Link) (rest : List Link) :
    ∃ more, joined link rest = link.argument ++ more := by
  cases rest with
  | nil => exact ⟨[], (List.append_nil _).symm⟩
  | cons next rest => exact ⟨_, rfl⟩

theorem isWord_factory {strategy : Strategy} (named : strategy ≠ .literal) :
    IsWord strategy.factory.toList := by
  cases strategy <;> first | exact absurd rfl named | decide

private theorem factory_ne_findElement (strategy : Strategy) :
    strategy.factory ≠ "findElement" := by
  cases strategy <;> decide

section Search

variable {method name : String} {front more part : List Char}

/-- In front of the parenthesis of another call no factory call begins. -/
theorem fails_factoryCall_front (is_method : IsWord method.toList) (is_name : IsWord name.toList)
    (other : method ≠ name) (no_opening : '(' ∉ front)
    (suffix : part <:+ front ++ '.' :: name.toList) :
    (factoryCall method).Fails (part ++ '(' :: more) := by
  apply fails_of_not_accepts
  rintro taken rest text_eq accepted
  obtain ⟨first, second, third, fourth, body, last, all_blank, -, rfl⟩ :=
    accepts_factoryCall accepted
  simp only [List.forall_mem_append] at all_blank
  obtain ⟨first_blank, second_blank, third_blank, -⟩ := all_blank
  have no_blank : ∀ {gap : List Char}, (∀ c ∈ gap, isBlank c = true) → '(' ∉ gap := fun is_gap =>
    not_mem_of_allBlank is_gap (by decide)
  have no_word : ∀ {word : List Char}, IsWord word → '(' ∉ word := fun is_word =>
    not_mem_of_isWord is_word (by decide)
  -- The parenthesis of the match is the one behind the part, so the part ends with the method.
  have part_eq : part = "By".toList ++ (first ++ '.' :: (second ++ (method.toList ++ third))) := by
    have no_part : '(' ∉ part := fun member => by
      simpa [no_opening, no_word is_name] using suffix.subset member
    have no_head : '(' ∉ "By".toList ++ (first ++ '.' :: (second ++ (method.toList ++ third))) := by
      simp [no_blank first_blank, no_blank second_blank, no_blank third_blank, no_word is_method]
    exact (before_mark_inj no_part no_head (by simpa using text_eq)).1
  obtain ⟨before, before_eq⟩ := suffix
  have ends_eq : (before ++ ("By".toList ++ first)) ++ '.' :: (second ++ (method.toList ++ third))
      = front ++ '.' :: ([] ++ (name.toList ++ [])) := by
    rw [part_eq] at before_eq
    simpa using before_eq
  exact other (String.toList_inj.mp (dotted_word_inj is_method is_name second_blank third_blank
    (List.forall_mem_nil _) (List.forall_mem_nil _) ends_eq).2)

/-- The search for a factory passes a call of another method. -/
theorem groups_past_call (is_method : IsWord method.toList) (is_name : IsWord name.toList)
    (other : method ≠ name) (no_opening : '(' ∉ front) (more : List Char)
    (previous : Option Char) :
    ((factoryCall method).findFrom? previous (front ++ '.' :: (name.toList ++ '(' :: more))).map
        Match.groups
      = ((factoryCall method).findFrom? (some '(') more).map Match.groups := by
  have fails : ∀ left, left <:+ (front ++ '.' :: name.toList) ++ ['('] → left ≠ [] →
      (factoryCall method).Fails (left ++ more) := by
    intro left suffix nonempty
    rcases List.suffix_concat_iff.mp suffix with rfl | ⟨part, rfl, part_suffix⟩
    · exact absurd rfl nonempty
    · rw [List.append_assoc, List.singleton_append]
      exact fails_factoryCall_front is_method is_name other no_opening part_suffix
  have passed := findFrom?_front fails previous
  rw [List.getLast?_concat, Option.some_or] at passed
  rw [show front ++ '.' :: (name.toList ++ '(' :: more)
    = (front ++ '.' :: name.toList) ++ ['('] ++ more by simp, passed, Option.map_map]
  rfl

private theorem groups_without_call (no_opening : '(' ∉ more) (previous : Option Char) :
    ((factoryCall method).findFrom? previous more).map Match.groups = none := by
  have fails : ∀ part, part <:+ more → (factoryCall method).Fails part := by
    intro part suffix
    apply fails_of_not_accepts
    intro taken rest text_eq accepted
    obtain ⟨_, _, _, _, _, _, -, -, rfl⟩ := accepts_factoryCall accepted
    exact no_opening (suffix.subset (by simp [text_eq]))
  rw [findFrom?_eq_none fails previous]
  rfl

/-- What follows the parenthesis of the factory call. -/
def Link.inner (link : Link) : List Char :=
  '"' :: (link.body ++ ['"', ')'])

theorem Link.not_mem_inner (link : Link) : '(' ∉ link.inner := by
  simp [Link.inner, link.no_opening]

theorem Link.argument_eq (link : Link) :
    link.argument = "By".toList ++ '.' :: (link.strategy.factory.toList ++ '(' :: link.inner) :=
  rfl

/-- The call of its strategy is found where a link begins. -/
theorem groups_link (link : Link) (rest : List Link) (previous : Option Char)
    (outside : previous.any isWordChar = false) :
    ((factoryCall link.strategy.factory).findFrom? previous (joined link rest)).map Match.groups
      = some [("value", link.body)] := by
  obtain ⟨more, text_eq⟩ := joined_eq link rest
  have takes := takes_factoryCall link.literal (List.forall_mem_nil _) (List.forall_mem_nil _)
    link.named more
  rw [List.nil_append, ← callText_eq_factoryText] at takes
  have found := findFrom?_wordEdge rfl takes rfl outside
  rw [text_eq, Link.argument, show (factoryCall _).findFrom? previous _ = _ from found]
  rfl

/-- What is found is the first link of the strategy. -/
theorem groups_joined {strategy : Strategy} (named : strategy ≠ .literal) (link : Link)
    (rest : List Link) (previous : Option Char) (outside : previous.any isWordChar = false) :
    ((factoryCall strategy.factory).findFrom? previous (joined link rest)).map Match.groups
      = ((link :: rest).find? (·.strategy = strategy)).map fun found => [("value", found.body)] := by
  induction rest generalizing link previous with
  | nil =>
    by_cases same : link.strategy = strategy
    · subst same
      rw [groups_link link [] previous outside]
      simp
    · have different : strategy.factory ≠ link.strategy.factory :=
        fun equal => same (Strategy.factory_inj equal).symm
      rw [joined, link.argument_eq, groups_past_call (isWord_factory named)
        (isWord_factory link.named) different (by decide), groups_without_call link.not_mem_inner]
      simp [same]
  | cons next rest ih =>
    by_cases same : link.strategy = strategy
    · subst same
      rw [groups_link link (next :: rest) previous outside]
      simp
    · have different : strategy.factory ≠ link.strategy.factory :=
        fun equal => same (Strategy.factory_inj equal).symm
      have no_opening : '(' ∉ link.inner ++ [')'] := by simp [link.not_mem_inner]
      -- Past the call of the link and the lookup behind it, the next link begins.
      have text_eq : joined link (next :: rest) = "By".toList ++ '.' ::
          (link.strategy.factory.toList ++ '(' :: ((link.inner ++ [')']) ++ '.' ::
            ("findElement".toList ++ '(' :: joined next rest))) := by
        simp [joined, link.argument_eq]
      rw [text_eq, groups_past_call (isWord_factory named) (isWord_factory link.named) different
        (by decide), groups_past_call (isWord_factory named) isWord_findElement
        (factory_ne_findElement strategy) no_opening, ih next (some '(') (by decide)]
      simp [same]

end Search

section Resolve

variable {links before after : List Link} {link chosen : Link} {rest : List Link}

/-- Of the strategies that come first, the first link with it is chosen. -/
structure Chosen (links before : List Link) (chosen : Link) (after : List Link) : Prop where
  links_eq : links = before ++ chosen :: after
  before_later : ∀ other ∈ before, rank chosen.strategy < rank other.strategy
  after_no_earlier : ∀ other ∈ after, rank chosen.strategy ≤ rank other.strategy

/-- Some link is always chosen. -/
theorem exists_chosen (nonempty : links ≠ []) :
    ∃ before chosen after, Chosen links before chosen after := by
  induction links with
  | nil => exact absurd rfl nonempty
  | cons link links ih =>
    by_cases last : links = []
    · exact ⟨[], link, [], by rw [last, List.nil_append], by simp, by simp⟩
    · obtain ⟨before, chosen, after, rfl, before_later, after_no_earlier⟩ := ih last
      by_cases earlier : rank chosen.strategy < rank link.strategy
      · exact ⟨link :: before, chosen, after, rfl,
          List.forall_mem_cons.mpr ⟨earlier, before_later⟩, after_no_earlier⟩
      · refine ⟨[], link, before ++ chosen :: after, rfl, by simp, ?_⟩
        simp only [List.forall_mem_append, List.forall_mem_cons]
        refine ⟨fun other member => ?_, by omega, fun other member => ?_⟩
        · have later := before_later other member
          omega
        · have no_earlier := after_no_earlier other member
          omega

theorem Chosen.find?_eq (is_chosen : Chosen links before chosen after) :
    links.find? (·.strategy = chosen.strategy) = some chosen := by
  rw [is_chosen.links_eq, List.find?_append, List.find?_eq_none.mpr, Option.none_or,
    List.find?_cons_of_pos (by simp)]
  intro other member same
  have later := is_chosen.before_later other member
  rw [of_decide_eq_true same] at later
  omega

theorem Chosen.find?_eq_none (is_chosen : Chosen links before chosen after) {strategy : Strategy}
    (earlier : rank strategy < rank chosen.strategy) :
    links.find? (·.strategy = strategy) = none := by
  rw [List.find?_eq_none, is_chosen.links_eq]
  intro other member same
  rw [← of_decide_eq_true same] at earlier
  rcases List.mem_append.mp member with in_front | behind
  · have later := is_chosen.before_later other in_front
    omega
  · rcases List.mem_cons.mp behind with rfl | behind
    · omega
    · have no_earlier := is_chosen.after_no_earlier other behind
      omega

/-- The factories in front of that of a strategy are sought first. -/
theorem strategies_split {strategy : Strategy} (named : strategy ≠ .literal) :
    ∃ front back, [Strategy.id, .name, .className, .css, .xPath] = front ++ strategy :: back ∧
      ∀ other ∈ front, other ≠ .literal ∧ rank other < rank strategy := by
  cases strategy with
  | id => exact ⟨[], _, rfl, by decide⟩
  | name => exact ⟨[.id], _, rfl, by decide⟩
  | className => exact ⟨[.id, .name], _, rfl, by decide⟩
  | css => exact ⟨[.id, .name, .className], _, rfl, by decide⟩
  | xPath => exact ⟨[.id, .name, .className, .css], _, rfl, by decide⟩
  | literal => exact absurd rfl named

/-- Linked lookups are resolved to the chosen link. -/
theorem Chosen.resolve?_joined (is_chosen : Chosen (link :: rest) before chosen after) :
    resolve? (joined link rest) = some ⟨chosen.strategy, String.ofList chosen.body⟩ := by
  have sought : ∀ {strategy : Strategy}, strategy ≠ .literal →
      ((factoryCall strategy.factory).find? (joined link rest)).map
          (fun found => (⟨strategy, String.ofList (found.group "value")⟩ : Lookup))
        = ((link :: rest).find? (·.strategy = strategy)).map
          fun found => ⟨strategy, String.ofList found.body⟩ := by
    intro strategy named
    have groups_eq := congrArg (Option.map fun groups : List (String × List Char) =>
      (⟨strategy, String.ofList ((groups.lookup "value").getD [])⟩ : Lookup))
      (groups_joined named link rest none rfl)
    rw [Option.map_map, Option.map_map] at groups_eq
    exact groups_eq
  -- The strategies are tried in order, and none in front of the chosen one is in a link.
  obtain ⟨front, back, split_eq, front_earlier⟩ := strategies_split chosen.named
  have front_none : front.findSome? (fun strategy =>
      ((factoryCall strategy.factory).find? (joined link rest)).map
        fun found => (⟨strategy, String.ofList (found.group "value")⟩ : Lookup)) = none := by
    rw [List.findSome?_eq_none_iff]
    intro other member
    obtain ⟨named, earlier⟩ := front_earlier other member
    rw [sought named, is_chosen.find?_eq_none earlier]
    rfl
  simp only [resolve?, factories_eq, List.findSome?_map, Function.comp_def]
  rw [split_eq, List.findSome?_append, front_none, List.findSome?_cons, sought chosen.named,
    is_chosen.find?_eq]
  rfl

end Resolve

end SuiteMigration.Page
