import SuiteMigration.Proofs.Pattern.Passing
import SuiteMigration.Proofs.Test.Words
import SuiteMigration.Proofs.Text.Parentheses

/-!
# Argument lists

The arguments of a call as their parts: names and numbers, signs, string literals, groups and
constructor calls. A part may be followed by any other, so operators, calls and commas need no form
of their own. What a list is without its constructor calls is said on the parts.
-/
namespace SuiteMigration.Test

open Pattern Text
open Locator (LiteralBody)

/-- A character of a name or of a number. -/
def isNameChar (c : Char) : Bool :=
  isWordChar c || c == '$'

/-- A name that is not the keyword of a constructor call, or a number. -/
structure IsName (text : List Char) : Prop where
  nonempty : text ≠ []
  all_name : ∀ c ∈ text, isNameChar c = true
  no_keyword : text ≠ "new".toList

instance (text : List Char) : Decidable (IsName text) :=
  decidable_of_iff (text ≠ [] ∧ text.all isNameChar = true ∧ text ≠ "new".toList)
    ⟨fun ⟨nonempty, all, no_keyword⟩ => ⟨nonempty, List.all_eq_true.mp all, no_keyword⟩,
      fun is_name =>
        ⟨is_name.nonempty, List.all_eq_true.mpr is_name.all_name, is_name.no_keyword⟩⟩

inductive Arguments where
  | nil
  | name (text : List Char) (rest : Arguments)
  /-- A blank, or a character of an operator or a separator. -/
  | sign (c : Char) (rest : Arguments)
  | literal (body : List Char) (rest : Arguments)
  | group (inner rest : Arguments)
  /-- The call of the constructor of a type, with the blanks in front of the type and behind it. -/
  | construction (gap type trail : List Char) (inner rest : Arguments)

namespace Arguments

def text : Arguments → List Char
  | .nil => []
  | .name text rest => text ++ rest.text
  | .sign c rest => c :: rest.text
  | .literal body rest => '"' :: (body ++ '"' :: rest.text)
  | .group inner rest => '(' :: (inner.text ++ ')' :: rest.text)
  | .construction gap type trail inner rest =>
    "new".toList ++ (gap ++ (type ++ (trail ++ '(' :: (inner.text ++ ')' :: rest.text))))

/-- The list with every constructor call replaced by its arguments, and those by theirs. -/
def unwrapped : Arguments → List Char
  | .nil => []
  | .name text rest => text ++ rest.unwrapped
  | .sign c rest => c :: rest.unwrapped
  | .literal body rest => '"' :: (body ++ '"' :: rest.unwrapped)
  | .group inner rest => '(' :: (inner.unwrapped ++ ')' :: rest.unwrapped)
  | .construction _ _ _ inner rest => inner.unwrapped ++ rest.unwrapped

/-- Does a group come first, blanks apart? -/
def beginsWithGroup : Arguments → Bool
  | .group _ _ => true
  | .sign c rest => isBlank c && rest.beginsWithGroup
  | _ => false

end Arguments

/-- No name goes on here. -/
def NoName (text : List Char) : Prop :=
  ∀ c ∈ text.head?, isNameChar c = false

/-- An argument list as a test has it, without calls of `getProperty`. -/
inductive Arguments.WellFormed : Arguments → Prop where
  | nil : WellFormed .nil
  | name {text : List Char} {rest : Arguments} (is_name : IsName text) (ends : NoName rest.text)
      (no_lookup : text = "getProperty".toList → rest.beginsWithGroup = false)
      (tail : WellFormed rest) : WellFormed (.name text rest)
  | sign {c : Char} {rest : Arguments} (no_name : isNameChar c = false)
      (no_mark : c ∉ ['"', '(', ')']) (tail : WellFormed rest) : WellFormed (.sign c rest)
  | literal {body : List Char} {rest : Arguments} (is_body : LiteralBody body)
      (tail : WellFormed rest) : WellFormed (.literal body rest)
  | group {inner rest : Arguments} (inside : WellFormed inner) (tail : WellFormed rest) :
      WellFormed (.group inner rest)
  | construction {gap type trail : List Char} {inner rest : Arguments} (nonempty : gap ≠ [])
      (is_gap : AllBlank gap) (is_type : IsName type) (is_trail : AllBlank trail)
      (ends : NoName rest.text) (inside : WellFormed inner) (tail : WellFormed rest) :
      WellFormed (.construction gap type trail inner rest)

/-- A call of `getProperty` whose literal is yet to come. -/
def EndsInCall (text : List Char) : Prop :=
  ∃ front gap inner, AllBlank gap ∧ AllBlank inner ∧
    text = front ++ ("getProperty".toList ++ (gap ++ '(' :: inner))

theorem EndsInCall.mem {text : List Char} (ends : EndsInCall text) : 'g' ∈ text := by
  obtain ⟨front, gap, inner, -, -, rfl⟩ := ends
  simp

/-- The rules for constructor calls and lookups do not tell literals from code, and they do not know
the dollar sign as a part of a name. Nothing of the list misleads them: no literal reads like the
head of a constructor call or ends in a call of `getProperty`, and to a reader that looks into the
literals the arguments of each constructor call are closed by its own parenthesis. -/
def Arguments.Harmless : Arguments → Prop
  | .nil => True
  | .name text rest => ¬"$new".toList <:+ text ∧ rest.Harmless
  | .sign _ rest => rest.Harmless
  | .literal body rest =>
    constructorHead.occursIn body = false ∧ ¬EndsInCall body ∧ rest.Harmless
  | .group inner rest => inner.Harmless ∧ rest.Harmless
  | .construction _ type _ inner rest =>
    IsWord type ∧ Balanced inner.text ∧ inner.Harmless ∧ rest.Harmless

section Names

variable {c : Char} {front back text : List Char}

theorem isWordChar_eq_false (no_name : isNameChar c = false) : isWordChar c = false :=
  (Bool.or_eq_false_iff.mp no_name).1

theorem isNameChar_of_isBlank (blank : isBlank c = true) : isNameChar c = false := by
  have no_dollar : (c == '$') = false := false_of_isBlank (· == '$') (by decide) blank
  rw [isNameChar, isWordChar_of_isBlank blank, no_dollar, Bool.or_false]

theorem NoName.append (first : NoName front) (second : NoName back) : NoName (front ++ back) := by
  cases front with
  | nil => exact second
  | cons c front => exact first

theorem noName_cons (no_name : isNameChar c = false) : NoName (c :: text) :=
  head_false no_name

end Names

/-! ## Lookups -/

/-- A call of `getProperty` on a literal, from its name on. -/
def BeginsLookup (text : List Char) : Prop :=
  ∃ gap inner back, AllBlank gap ∧ AllBlank inner ∧
    text = "getProperty".toList ++ (gap ++ '(' :: (inner ++ '"' :: back))

/-- A name or a number stands last, blanks apart. -/
def EndsWithName (text : List Char) : Prop :=
  ∃ front c gap, isNameChar c = true ∧ AllBlank gap ∧ text = front ++ c :: gap

section Lookup

variable {text front back rest more part body gap : List Char} {c : Char}

private theorem not_endsWithName_dot (is_gap : AllBlank gap) (front : List Char) :
    ¬EndsWithName (front ++ '.' :: gap) := by
  rintro ⟨init, c, blank, is_name, is_blank, front_eq⟩
  have no_blank : isBlank c = false := by
    refine Bool.eq_false_iff.mpr fun blank => ?_
    rw [isNameChar_of_isBlank blank] at is_name
    cases is_name
  have ends : ∀ init c, isBlank c = false → EndsOutside isBlank (init ++ [c]) :=
    fun init c no_blank =>
      endsOutside_append (List.cons_ne_nil c []) (List.forall_mem_singleton.mpr no_blank) init
  have split_eq : front ++ ['.'] ++ gap = init ++ [c] ++ blank := by simpa using front_eq
  obtain ⟨marks_eq, -⟩ := append_inj_of_ends split_eq is_gap is_blank
    (ends front '.' (by decide)) (ends init c no_blank)
  obtain rfl := List.singleton_inj.mp (List.append_inj' marks_eq rfl).2
  exact absurd is_name (by decide)

/-- A lookup is a call behind a dot. -/
theorem beginsLookup_of_accepts (accepted : propertyLookup.Accepts text) (back : List Char) :
    ∃ front gap rest, AllBlank gap ∧ BeginsLookup rest ∧
      text ++ back = front ++ '.' :: gap ++ rest := by
  obtain ⟨receiver, _, rfl, -, before, _, rfl, -, _, _, rfl, is_dot, after, _, rfl, is_after, _, _,
    rfl, is_name, gap, _, rfl, is_gap, _, _, rfl, is_opening, inner, _, rfl, is_inner, _, key, rfl,
    is_quote, -⟩ := accepted
  obtain rfl := accepts_mark.mp is_dot
  obtain rfl := accepts_literal.mp is_name
  obtain rfl := accepts_mark.mp is_opening
  obtain rfl := accepts_mark.mp is_quote
  exact ⟨receiver ++ before, after, _, accepts_blanks.mp is_after, ⟨gap, inner, key ++ back,
    accepts_blanks.mp is_gap, accepts_blanks.mp is_inner, rfl⟩, by simp⟩

theorem EndsWithName.append (ends : EndsWithName part) (front : List Char) :
    EndsWithName (front ++ part) := by
  obtain ⟨init, c, gap, is_name, is_gap, rfl⟩ := ends
  exact ⟨front ++ init, c, gap, is_name, is_gap, (List.append_assoc ..).symm⟩

private theorem endsWithName_of_nameChars (nonempty : part ≠ [])
    (all_name : ∀ c ∈ part, isNameChar c = true) (front : List Char) :
    EndsWithName (front ++ part) := by
  obtain ⟨init, c, rfl⟩ := (List.eq_nil_or_concat' part).resolve_left nonempty
  exact ⟨front ++ init, c, [], all_name c (by simp), by simp [AllBlank], by simp⟩

/-- A lookup that does not stand right behind a name begins behind the front, if more follows it. -/
def NoLookupIn (front more : List Char) : Prop :=
  ∀ part rest, BeginsLookup rest → ¬EndsWithName part → front ++ more = part ++ rest →
    ∃ beyond, part = front ++ beyond ∧ more = beyond ++ rest

theorem NoLookupIn.append (first : NoLookupIn front (back ++ more))
    (second : NoLookupIn back more) : NoLookupIn (front ++ back) more := by
  intro part rest begins outside text_eq
  rw [List.append_assoc] at text_eq
  obtain ⟨middle, rfl, back_eq⟩ := first part rest begins outside text_eq
  obtain ⟨beyond, rfl, more_eq⟩ :=
    second middle rest begins (fun ends => outside (ends.append front)) back_eq
  exact ⟨beyond, (List.append_assoc ..).symm, more_eq⟩

/-- No lookup begins in a front each of whose `g` stands behind a name. -/
theorem noLookupIn_of_names
    (names : ∀ passed left, front = passed ++ 'g' :: left → EndsWithName passed) :
    NoLookupIn front more := by
  intro part rest begins outside text_eq
  rcases List.append_eq_append_iff.mp text_eq with split | ⟨inside, rfl, rest_eq⟩
  · exact split
  · cases inside with
    | nil => exact ⟨[], by simp, rest_eq.symm⟩
    | cons c inside =>
      obtain ⟨gap, inner, back, -, -, rfl⟩ := begins
      obtain ⟨rfl, -⟩ := List.cons.inj rest_eq
      exact absurd (names part inside rfl) outside

private theorem noLookupIn_of_not_mem (missing : 'g' ∉ front) : NoLookupIn front more :=
  noLookupIn_of_names fun passed left front_eq => absurd (by simp [front_eq]) missing

private theorem noLookupIn_mark (no_name : isNameChar c = false) : NoLookupIn [c] more := by
  apply noLookupIn_of_not_mem
  rw [List.mem_singleton]
  rintro rfl
  exact absurd no_name (by decide)

theorem NoLookupIn.cons (no_name : isNameChar c = false) (second : NoLookupIn back more) :
    NoLookupIn (c :: back) more :=
  (noLookupIn_mark no_name).append second

/-- A quote in a body stands behind a backslash, and a lookup has none in front of its quote. -/
theorem endsInCall_of_beginsLookup (is_body : LiteralBody (front ++ part))
    (begins : BeginsLookup (part ++ '"' :: back)) : EndsInCall (front ++ part) := by
  obtain ⟨gap, inner, key, is_gap, is_inner, text_eq⟩ := begins
  have no_quote : '"' ∉ "getProperty".toList ++ (gap ++ '(' :: inner) := by
    simp [not_mem_of_allBlank is_gap (by decide : isBlank '"' = false),
      not_mem_of_allBlank is_inner (by decide : isBlank '"' = false)]
  have split_eq : part ++ '"' :: back
      = "getProperty".toList ++ (gap ++ '(' :: inner) ++ '"' :: key := by simpa using text_eq
  obtain ⟨beyond, rfl⟩ := exists_rest_of_mark no_quote split_eq
  -- Either the body ends where the literal of the lookup begins, or that quote is in the body.
  cases beyond with
  | nil => exact ⟨front, gap, inner, is_gap, is_inner, by simp⟩
  | cons c beyond =>
    obtain rfl : c = '"' := by
      rw [List.append_assoc, List.append_cancel_left_eq] at split_eq
      exact (List.cons.inj split_eq).1
    have body_eq : front ++ ("getProperty".toList ++ (gap ++ '(' :: inner) ++ '"' :: beyond)
        = front ++ "getProperty".toList ++ gap ++ '(' :: inner ++ '"' :: beyond := by simp
    have last_eq := is_body.getLast?_of_quote body_eq
    have plain : ∀ c ∈ '(' :: inner, (c == '\\') = false := by
      refine List.forall_mem_cons.mpr ⟨by decide, fun c member => ?_⟩
      exact false_of_isBlank (· == '\\') (by decide) (is_inner c member)
    have ends := endsOutside_append (List.cons_ne_nil '(' inner) plain _ '\\' last_eq
    cases ends

private theorem noLookupIn_body (is_body : LiteralBody body) (no_call : ¬EndsInCall body) :
    NoLookupIn body ('"' :: more) := by
  intro part rest begins outside text_eq
  rcases List.append_eq_append_iff.mp text_eq with split | ⟨inside, rfl, rfl⟩
  · exact split
  · exact absurd (endsInCall_of_beginsLookup is_body begins) no_call

theorem NoName.eq_nil (no_name : NoName (front ++ back))
    (all_name : ∀ c ∈ front, isNameChar c = true) : front = [] := by
  cases front with
  | nil => rfl
  | cons c front =>
    have refuted := no_name c rfl
    rw [all_name c List.mem_cons_self] at refuted
    cases refuted

/-- A text begins with one name only. -/
theorem name_append_inj {left right : List Char} (left_name : ∀ c ∈ left, isNameChar c = true)
    (right_name : ∀ c ∈ right, isNameChar c = true) (left_ends : NoName front)
    (right_ends : NoName back) (text_eq : left ++ front = right ++ back) :
    left = right ∧ front = back := by
  rcases List.append_eq_append_iff.mp text_eq with ⟨middle, rfl, rfl⟩ | ⟨middle, rfl, rfl⟩
  · obtain rfl := left_ends.eq_nil fun c member => right_name c (List.mem_append_right left member)
    exact ⟨(List.append_nil left).symm, rfl⟩
  · obtain rfl := right_ends.eq_nil fun c member => left_name c (List.mem_append_right right member)
    exact ⟨List.append_nil right, rfl⟩

theorem head_of_gap (is_gap : AllBlank gap) (text_eq : c :: text = gap ++ '(' :: rest) :
    isBlank c = true ∨ c = '(' := by
  cases gap with
  | nil => exact .inr (List.cons.inj text_eq).1
  | cons first gap =>
    obtain ⟨rfl, -⟩ := List.cons.inj text_eq
    exact .inl (is_gap c List.mem_cons_self)

/-- A parenthesis behind blanks opens a group of the list, if the list ends or is closed behind. -/
theorem beginsWithGroup_of_text {arguments : Arguments} (well_formed : arguments.WellFormed)
    (closed : ∀ c ∈ more.head?, c = ')') (is_gap : AllBlank gap)
    (text_eq : arguments.text ++ more = gap ++ '(' :: rest) : arguments.beginsWithGroup = true := by
  -- Blanks are signs of the list, and what stands behind them must be the group.
  induction well_formed generalizing gap with
  | nil =>
    cases more with
    | nil => simp [Arguments.text] at text_eq
    | cons c more =>
      obtain rfl := closed c rfl
      exact absurd (head_of_gap is_gap text_eq) (by decide)
  | @name text _ is_name =>
    obtain ⟨c, text, rfl⟩ := List.exists_cons_of_ne_nil is_name.nonempty
    have name_char := is_name.all_name c List.mem_cons_self
    obtain blank | rfl := head_of_gap is_gap text_eq
    · rw [isNameChar_of_isBlank blank] at name_char
      cases name_char
    · exact absurd name_char (by decide)
  | @sign c list no_name no_mark _ ih =>
    cases gap with
    | nil =>
      obtain ⟨rfl, -⟩ := List.cons.inj text_eq
      simp at no_mark
    | cons first gap =>
      obtain ⟨rfl, list_eq⟩ := List.cons.inj text_eq
      have split := List.forall_mem_cons.mp is_gap
      rw [Arguments.beginsWithGroup, split.1, Bool.true_and]
      exact ih split.2 list_eq
  | literal => exact absurd (head_of_gap is_gap text_eq) (by decide)
  | group => rfl
  | construction => exact absurd (head_of_gap is_gap text_eq) (by decide)

private theorem noLookupIn_name {name : List Char} {list : Arguments} (is_name : IsName name)
    (ends : NoName list.text) (well_formed : list.WellFormed)
    (no_lookup : name = "getProperty".toList → list.beginsWithGroup = false)
    (closed : ∀ c ∈ more.head?, c = ')') : NoLookupIn name (list.text ++ more) := by
  intro part rest begins outside text_eq
  rcases List.append_eq_append_iff.mp text_eq with split | ⟨inside, rfl, rfl⟩
  · exact split
  · -- The lookup would begin inside the name. It stands behind no name, so it begins with the name.
    have part_name : ∀ c ∈ part, isNameChar c = true :=
      fun c member => is_name.all_name c (List.mem_append_left inside member)
    obtain rfl : part = [] :=
      Classical.not_not.mp fun nonempty => outside (endsWithName_of_nameChars nonempty part_name [])
    obtain ⟨gap, inner, key, is_gap, is_inner, begins_eq⟩ := begins
    have more_ends : NoName more := fun c member => closed c member ▸ by decide
    have gap_ends : NoName (gap ++ '(' :: (inner ++ '"' :: key)) :=
      head_append_false (fun c member => isNameChar_of_isBlank (is_gap c member))
        (head_false (by decide))
    obtain ⟨inside_eq, list_eq⟩ := name_append_inj is_name.all_name
      (List.all_eq_true.mp (by decide)) (ends.append more_ends) gap_ends begins_eq
    have group := beginsWithGroup_of_text well_formed closed is_gap list_eq
    rw [no_lookup inside_eq] at group
    cases group

/-- The keyword of a constructor call and its type are no lookup. -/
theorem noLookupIn_head {type : List Char} (is_gap : AllBlank gap)
    (all_name : ∀ c ∈ type, isNameChar c = true) :
    NoLookupIn ("new".toList ++ (gap ++ type)) more := by
  apply noLookupIn_of_names
  intro passed left head_eq
  have keyword_ends : EndsWithName ("new".toList ++ gap) :=
    ⟨['n', 'e'], 'w', gap, by decide, is_gap, rfl⟩
  rw [← List.append_assoc] at head_eq
  rcases List.append_eq_append_iff.mp head_eq with ⟨inside, rfl, rfl⟩ | ⟨inside, passed_eq, type_eq⟩
  · by_cases nonempty : inside = []
    · rwa [nonempty, List.append_nil]
    · exact endsWithName_of_nameChars nonempty
        (fun c member => all_name c (List.mem_append_left _ member)) _
  · cases inside with
    | nil => rwa [passed_eq, List.append_nil] at keyword_ends
    | cons c inside =>
      obtain ⟨rfl, -⟩ := List.cons.inj type_eq
      have member : 'g' ∈ "new".toList ++ gap := by
        rw [passed_eq]
        simp
      simp [not_mem_of_allBlank is_gap (by decide : isBlank 'g' = false)] at member

/-- No lookup begins in the list. -/
theorem noLookupIn_text {arguments : Arguments} (well_formed : arguments.WellFormed)
    (harmless : arguments.Harmless) (closed : ∀ c ∈ more.head?, c = ')') :
    NoLookupIn arguments.text more := by
  have closing : ∀ {text : List Char}, ∀ c ∈ (')' :: text).head?, c = ')' := by
    rintro text c ⟨⟩
    rfl
  -- Every part passes the lookup on to what follows it, and each quote or parenthesis does.
  induction well_formed generalizing more with
  | nil => exact fun part rest _ _ text_eq => ⟨part, rfl, text_eq⟩
  | name is_name ends no_lookup well_formed ih =>
    exact (noLookupIn_name is_name ends well_formed no_lookup closed).append (ih harmless.2 closed)
  | sign no_name _ _ ih => exact (ih harmless closed).cons no_name
  | literal is_body _ ih =>
    have rest := (ih harmless.2.2 closed).cons (by decide : isNameChar '"' = false)
    exact ((noLookupIn_body is_body harmless.2.1).append rest).cons (by decide)
  | group _ _ inner_ih ih =>
    have rest := (ih harmless.2 closed).cons (by decide : isNameChar ')' = false)
    exact ((inner_ih harmless.1 closing).append rest).cons (by decide)
  | @construction gap type trail inner list _ is_gap is_type is_trail _ _ _ inner_ih ih =>
    obtain ⟨-, -, inner_harmless, harmless⟩ := harmless
    have rest := (ih harmless closed).cons (by decide : isNameChar ')' = false)
    have group :=
      ((inner_ih inner_harmless closing).append rest).cons (by decide : isNameChar '(' = false)
    have no_g : 'g' ∉ trail := not_mem_of_allBlank is_trail (by decide)
    have whole := (noLookupIn_head is_gap is_type.all_name).append
      ((noLookupIn_of_not_mem no_g).append group)
    simpa [Arguments.text] using whole

/-- No lookup is found in the list. -/
theorem replaceAll_propertyLookup {arguments : Arguments} (well_formed : arguments.WellFormed)
    (harmless : arguments.Harmless) (replacement : Match → List Char) :
    propertyLookup.replaceAll replacement arguments.text = arguments.text := by
  have not_found : propertyLookup.findFrom? none arguments.text = none := by
    refine Option.eq_none_iff_forall_not_mem.mpr fun found found_eq => ?_
    obtain ⟨passed, left, text_eq, stop, stop_mem, -⟩ := mem_ways_of_findFrom? found_eq
    obtain ⟨taken, left_eq, accepted⟩ := accepts_of_mem_ways stop_mem
    obtain ⟨front, gap, rest, is_gap, begins, split_eq⟩ :=
      beginsLookup_of_accepts accepted stop.rest
    have left_eq : left = front ++ '.' :: gap ++ rest := left_eq.trans split_eq
    have no_lookup : NoLookupIn arguments.text [] := noLookupIn_text well_formed harmless (by simp)
    have lookup_eq : arguments.text ++ [] = (passed ++ front) ++ '.' :: gap ++ rest := by
      simp [text_eq, left_eq]
    obtain ⟨beyond, -, nil_eq⟩ :=
      no_lookup _ rest begins (not_endsWithName_dot is_gap (passed ++ front)) lookup_eq
    obtain ⟨-, rfl⟩ := List.append_eq_nil_iff.mp nil_eq.symm
    obtain ⟨gap, inner, back, -, -, rest_eq⟩ := begins
    cases rest_eq
  rw [replaceAll, findAll, findAllFrom_none not_found]
  rfl

end Lookup

end SuiteMigration.Test
