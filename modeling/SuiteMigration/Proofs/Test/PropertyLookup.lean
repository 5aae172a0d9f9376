import SuiteMigration.Proofs.Locator.Denotation
import SuiteMigration.Proofs.Locator.Factory
import SuiteMigration.Proofs.Pattern.Replacing
import SuiteMigration.Proofs.Test.Constructors

/-!
# Lookups of properties

An argument list of names, numbers and lookups of properties. A lookup gives way to its key in
single quotes, but of a path of names in front of it only the last word goes. The key is taken as it
is spelled, so the literal denotes the spelling.
-/
namespace SuiteMigration.Test

open Pattern Text
open Locator (LiteralBody Spells before_mark_inj)
open Output (escapeQuoted_cons literalValue? toList_singleQuoted)

/-- The lookup of a property by a literal key, on a receiver behind the front of its path. -/
structure PropertyCall where
  front : List Char
  receiver : List Char
  key : List Char

namespace PropertyCall

def text (call : PropertyCall) : List Char :=
  call.front ++ (call.receiver ++ (".getProperty(\"".toList ++ (call.key ++ "\")".toList)))

/-- The literal that the rule puts in the place of a lookup. -/
def literal (call : PropertyCall) : List Char :=
  (Output.singleQuoted (String.ofList call.key)).toList

/-- The receiver is the last word of its path, and no quote in the key ends it. -/
structure WellFormed (call : PropertyCall) : Prop where
  is_path : ∀ c ∈ call.front, isNameChar c = true ∨ c = '.'
  apart : EndsOutside isWordChar call.front
  is_receiver : IsWord call.receiver
  is_key : LiteralBody call.key
  no_quote : '"' ∉ call.key
  no_return : '\r' ∉ call.key

end PropertyCall

/-- An argument: a name or a number, or a lookup between blanks. -/
inductive Item where
  | plain (text : List Char)
  | property (lead : List Char) (call : PropertyCall) (trail : List Char)

namespace Item

def text : Item → List Char
  | .plain text => text
  | .property lead call trail => lead ++ (call.text ++ trail)

/-- What the rules make of the argument. -/
def rewritten : Item → List Char
  | .plain text => text
  | .property lead call trail => lead ++ (call.front ++ (call.literal ++ trail))

inductive WellFormed : Item → Prop where
  | plain {text : List Char} (no_call : '(' ∉ text) : WellFormed (.plain text)
  | property {lead trail : List Char} {call : PropertyCall} (is_lead : AllBlank lead)
      (well_formed : call.WellFormed) (is_trail : AllBlank trail) :
      WellFormed (.property lead call trail)

/-- No key reads like the head of a constructor call. -/
def Harmless : Item → Prop
  | .plain _ => True
  | .property _ call _ => constructorHead.occursIn call.key = false

end Item

/-- The argument list of the arguments' texts. -/
def commaList (texts : List (List Char)) : List Char :=
  [','].intercalate texts

/-- The literal in the place of a lookup. -/
def keyLiteral (found : Match) : List Char :=
  (Output.singleQuoted (String.ofList (found.group "key"))).toList

theorem convertArguments_eq (text : List Char) :
    convertArguments text
      = unwrapConstructors (propertyLookup.replaceFrom keyLiteral none text) := by
  rw [convertArguments, replaceAll_eq_replaceFrom]
  rfl

section Replace

variable {text rest front receiver key : List Char}

/-- Nothing follows but the next argument. -/
def AtComma (rest : List Char) : Prop :=
  ∀ c ∈ rest.head?, c = ','

private theorem exists_call_of_accepts (accepted : propertyLookup.Accepts text) :
    ∃ receiver before after gap more, IsWord receiver ∧ AllBlank before ∧ AllBlank after ∧
      AllBlank gap ∧ text
        = receiver ++ before ++ '.' :: (after ++ ("getProperty".toList ++ gap)) ++ '(' :: more := by
  obtain ⟨receiver, _, rfl, is_receiver, before, _, rfl, is_before, _, _, rfl, is_dot, after, _,
    rfl, is_after, _, _, rfl, is_name, gap, _, rfl, is_gap, _, more, rfl, is_opening, -⟩ := accepted
  obtain rfl := accepts_mark.mp is_dot
  obtain rfl := accepts_literal.mp is_name
  obtain rfl := accepts_mark.mp is_opening
  exact ⟨receiver, before, after, gap, more, accepts_word.mp is_receiver,
    accepts_blanks.mp is_before, accepts_blanks.mp is_after, accepts_blanks.mp is_gap, by simp⟩

/-- In front of the parenthesis of a call there is no other, and no comma. -/
theorem not_mem_call {c : Char} {before after gap : List Char} (is_mark : c ∈ ['(', ','])
    (is_receiver : IsWord receiver) (is_before : AllBlank before) (is_after : AllBlank after)
    (is_gap : AllBlank gap) :
    c ∉ receiver ++ before ++ '.' :: (after ++ ("getProperty".toList ++ gap)) := by
  have free : isWordChar c = false ∧ isBlank c = false ∧ c ∉ '.' :: "getProperty".toList := by
    obtain rfl | rfl : c = '(' ∨ c = ',' := by simpa using is_mark
    · decide
    · decide
  obtain ⟨no_word, no_blank, no_letter⟩ := free
  rw [List.mem_cons, not_or] at no_letter
  simp only [List.mem_append, List.mem_cons, not_or]
  exact ⟨⟨not_mem_of_isWord is_receiver no_word, not_mem_of_allBlank is_before no_blank⟩,
    no_letter.1, not_mem_of_allBlank is_after no_blank, no_letter.2,
    not_mem_of_allBlank is_gap no_blank⟩

/-- No lookup begins in a text without parentheses, in front of the next argument. -/
theorem passes_plain (no_call : '(' ∉ text) : propertyLookup.Passes text AtComma := by
  apply passes_without no_call
  intro taken accepted
  obtain ⟨receiver, before, after, gap, more, is_receiver, is_before, is_after, is_gap, rfl⟩ :=
    exists_call_of_accepts accepted
  have absent := not_mem_call (by decide : ',' ∈ ['(', ',']) is_receiver is_before is_after is_gap
  exact ⟨_, more, rfl, by simpa using absent⟩

/-- No lookup begins in front of the last word of a path. -/
theorem passes_path (no_call : '(' ∉ front) (apart : EndsOutside isWordChar front)
    (is_receiver : IsWord receiver) :
    propertyLookup.Passes front fun rest =>
      ∃ more, rest = receiver ++ ".getProperty(".toList ++ more := by
  refine passes_of_fails fun rest at_call left suffix nonempty => fails_of_not_accepts ?_
  obtain ⟨key, rfl⟩ := at_call
  intro taken more text_eq accepted
  obtain ⟨other, before, after, gap, others, is_other, is_before, is_after, is_gap, rfl⟩ :=
    exists_call_of_accepts accepted
  have absent := not_mem_call (by decide : '(' ∈ ['(', ',']) is_other is_before is_after is_gap
  have left_absent : '(' ∉ left ++ receiver ++ '.' :: ([] ++ ("getProperty".toList ++ [])) := by
    have no_left : '(' ∉ left := fun member => no_call (suffix.subset member)
    have no_receiver : '(' ∉ receiver := not_mem_of_isWord is_receiver (by decide)
    simp [no_left, no_receiver]
  have split_eq : left ++ receiver ++ '.' :: ([] ++ ("getProperty".toList ++ [])) ++ '(' :: key
      = other ++ before ++ '.' :: (after ++ ("getProperty".toList ++ gap)) ++ '(' ::
        (others ++ more) := by
    simpa using text_eq
  obtain ⟨call_eq, -⟩ := before_mark_inj left_absent absent split_eq
  -- Both calls have their dot at the same place, so the same words stand in front of it.
  have no_blank : AllBlank [] := by simp [AllBlank]
  have is_name : IsWord "getProperty".toList := by decide
  obtain ⟨words_eq, -⟩ := dotted_word_inj is_name is_name no_blank no_blank is_after is_gap call_eq
  have words_eq : left ++ receiver ++ [] = [] ++ other ++ before := by simpa using words_eq
  obtain ⟨receivers_eq, -⟩ := append_inj_of_ends words_eq no_blank is_before
    (endsOutside_blanks is_receiver left) (endsOutside_blanks is_other [])
  have left_word : ∀ c ∈ left, isWordChar c = true := by
    intro c member
    have inside : c ∈ [] ++ other := receivers_eq ▸ List.mem_append_left receiver member
    exact is_other.2 c inside
  obtain ⟨init, rfl⟩ := suffix
  exact nonempty (apart.eq_nil left_word)

private theorem takes_propertyLookup (is_receiver : IsWord receiver) (no_quote : '"' ∉ key) :
    propertyLookup.Takes (receiver ++ (".getProperty(\"".toList ++ (key ++ "\")".toList)) ++ rest)
      rest [] [("key", key)] := by
  have text_eq : receiver ++ (".getProperty(\"".toList ++ (key ++ "\")".toList)) ++ rest
      = receiver ++ '.' :: ("getProperty".toList ++ '(' :: '"' :: (key ++ '"' :: ')' :: rest)) := by
    simp
  have no_blanks : ∀ {c : Char} {rest : List Char} {groups : List (String × List Char)},
      isBlank c = false → blanks.Takes (c :: rest) (c :: rest) groups groups :=
    fun no_blank => takes_blanks_none (head_false no_blank)
  have key_taken : (Pattern.many true (.one (· != '"'))).Takes (key ++ '"' :: ')' :: rest)
      ('"' :: ')' :: rest) [] [] := by
    have plain : ∀ c ∈ key, (c != '"') = true := by
      intro c member
      rw [bne_iff_ne]
      rintro rfl
      exact no_quote member
    exact (repeats_one plain (head_false (by decide))).takes
  rw [text_eq]
  exact (takes_oneOrMore is_receiver.1 is_receiver.2 (head_false (by decide))).seq <|
    (no_blanks (by decide)).seq <| (takes_mark '.').seq <| (no_blanks (by decide)).seq <|
    (takes_literal "getProperty".toList).seq <| (no_blanks (by decide)).seq <|
    (takes_mark '(').seq <| (no_blanks (by decide)).seq <| (takes_mark '"').seq <|
    (key_taken.group "key").seq <| (takes_mark '"').seq <| (no_blanks (by decide)).seq <|
    (takes_mark ')').seq takes_empty

private theorem endsOutside_lead {lead : List Char} (is_lead : AllBlank lead)
    (apart : EndsOutside isWordChar front) : EndsOutside isWordChar (lead ++ front) := by
  intro c member
  rw [List.getLast?_append] at member
  cases last_eq : front.getLast? with
  | some last =>
    rw [last_eq, Option.some_or] at member
    exact apart c (last_eq.trans member)
  | none =>
    rw [last_eq, Option.none_or] at member
    exact isWordChar_of_isBlank (is_lead c (List.mem_of_getLast? member))

theorem PropertyCall.WellFormed.no_call {call : PropertyCall} (well_formed : call.WellFormed)
    {lead : List Char} (is_lead : AllBlank lead) : '(' ∉ lead ++ call.front := by
  rw [List.mem_append, not_or]
  refine ⟨not_mem_of_allBlank is_lead (by decide), fun member => ?_⟩
  exact absurd (well_formed.is_path _ member) (by decide)

/-- An argument gives way to what the rule makes of it, and the replacing goes on behind it. -/
theorem replaceFrom_item {item : Item} (well_formed : item.WellFormed) (at_comma : AtComma rest)
    (previous : Option Char) :
    ∃ last, propertyLookup.replaceFrom keyLiteral previous (item.text ++ rest)
      = item.rewritten ++ propertyLookup.replaceFrom keyLiteral last rest := by
  cases well_formed with
  | plain no_call =>
    exact ⟨_, (passes_plain no_call).replaceFrom_append at_comma rfl fun _ _ => rfl⟩
  | @property lead trail call is_lead well_formed is_trail =>
    have no_call : '(' ∉ trail := not_mem_of_allBlank is_trail (by decide)
    have path := passes_path (well_formed.no_call is_lead)
      (endsOutside_lead is_lead well_formed.apart) well_formed.is_receiver
    have text_eq : (Item.property lead call trail).text ++ rest = (lead ++ call.front)
        ++ (call.receiver ++ (".getProperty(\"".toList ++ (call.key ++ "\")".toList))
          ++ (trail ++ rest)) := by
      simp [Item.text, PropertyCall.text]
    obtain ⟨last, taken_eq⟩ := replaceFrom_of_takes rfl
      (takes_propertyLookup well_formed.is_receiver well_formed.no_quote) _
    rw [text_eq, path.replaceFrom_append ⟨_, by simp; rfl⟩ rfl fun _ _ => rfl, taken_eq,
      (passes_plain no_call).replaceFrom_append at_comma rfl fun _ _ => rfl]
    exact ⟨_, by simp [Item.rewritten, PropertyCall.literal]; rfl⟩

private theorem commaList_cons_cons (first second : List Char) (others : List (List Char)) :
    commaList (first :: second :: others) = first ++ ',' :: commaList (second :: others) := by
  rw [commaList, List.intercalate_cons_cons, List.append_assoc]
  rfl

private theorem fails_propertyLookup (no_word : ∀ c ∈ rest.head?, isWordChar c = false) :
    propertyLookup.Fails rest :=
  (fails_one no_word).seq.seq

private theorem replaceFrom_nil (previous : Option Char) :
    propertyLookup.replaceFrom keyLiteral previous [] = [] :=
  replaceFrom_none (findFrom?_nil (fails_propertyLookup (by simp)) previous)

private theorem replaceFrom_comma (previous : Option Char) :
    propertyLookup.replaceFrom keyLiteral previous (',' :: rest)
      = ',' :: propertyLookup.replaceFrom keyLiteral (some ',') rest := by
  have comma : propertyLookup.Passes [','] fun _ => True :=
    passes_cons_nil fun _ => fails_propertyLookup (head_false (by decide))
  exact comma.replaceFrom_append trivial rfl fun _ _ => rfl

/-- Every lookup of the list is replaced, and nothing else. -/
theorem replaceFrom_items {items : List Item} (well_formed : ∀ item ∈ items, item.WellFormed)
    (previous : Option Char) :
    propertyLookup.replaceFrom keyLiteral previous (commaList (items.map Item.text))
      = commaList (items.map Item.rewritten) := by
  induction items generalizing previous with
  | nil => exact replaceFrom_nil previous
  | cons item items ih =>
    obtain ⟨item_well_formed, others_well_formed⟩ := List.forall_mem_cons.mp well_formed
    cases items with
    | nil =>
      obtain ⟨last, item_eq⟩ :=
        replaceFrom_item item_well_formed (by simp [AtComma] : AtComma []) previous
      rw [replaceFrom_nil] at item_eq
      simpa [commaList] using item_eq
    | cons next items =>
      obtain ⟨last, item_eq⟩ := replaceFrom_item item_well_formed
        (by simp [AtComma] : AtComma (',' :: commaList ((next :: items).map Item.text))) previous
      rw [replaceFrom_comma, ih others_well_formed] at item_eq
      simpa only [List.map_cons, commaList_cons_cons] using item_eq

end Replace

/-! ## Literals of keys -/

section Escape

variable {key passed taken more value : List Char}

/-- A stretch without backslashes and quotes is not touched by the escaping. -/
theorem prefix_of_escaped (no_backslash : '\\' ∉ taken) (no_quote : '\'' ∉ taken)
    (escaped_eq : key.flatMap Output.escapeQuoted = taken ++ more) :
    ∃ back, key = taken ++ back := by
  induction taken generalizing key with
  | nil => exact ⟨key, rfl⟩
  | cons t taken ih =>
    rw [List.mem_cons, not_or] at no_backslash no_quote
    cases key with
    | nil => cases escaped_eq
    | cons c key =>
      rw [escapeQuoted_cons] at escaped_eq
      split at escaped_eq
      · exact absurd (List.cons.inj escaped_eq).1 no_backslash.1
      · obtain ⟨rfl, key_eq⟩ := List.cons.inj escaped_eq
        obtain ⟨back, rfl⟩ := ih no_backslash.2 no_quote.2 key_eq
        exact ⟨back, rfl⟩

/-- Such a stretch stands in the key behind the same character as in the escaped key. -/
theorem exists_of_escaped (nonempty : taken ≠ []) (no_backslash : '\\' ∉ taken)
    (no_quote : '\'' ∉ taken)
    (escaped_eq : key.flatMap Output.escapeQuoted = passed ++ (taken ++ more)) :
    ∃ front back, key = front ++ (taken ++ back) ∧ front.getLast? = passed.getLast? := by
  obtain ⟨t, taken, rfl⟩ := List.exists_cons_of_ne_nil nonempty
  induction key generalizing passed with
  | nil => simp at escaped_eq
  | cons c key ih =>
    -- The stretch begins with this character or behind it, and an escape may stand in front of it.
    by_cases begins : passed = []
    · subst begins
      obtain ⟨back, key_eq⟩ := prefix_of_escaped no_backslash no_quote escaped_eq
      exact ⟨[], back, key_eq, rfl⟩
    rw [escapeQuoted_cons] at escaped_eq
    have behind : ∀ {others}, key.flatMap Output.escapeQuoted = others ++ (t :: taken ++ more) →
        ∃ front back, c :: key = front ++ (t :: taken ++ back) ∧
          front.getLast? = (c :: others).getLast? := by
      intro others others_eq
      obtain ⟨front, back, rfl, last_eq⟩ := ih others_eq
      exact ⟨c :: front, back, rfl, by rw [List.getLast?_cons, List.getLast?_cons, last_eq]⟩
    obtain ⟨first, passed, rfl⟩ := List.exists_cons_of_ne_nil begins
    split at escaped_eq
    · next marked =>
      obtain ⟨rfl, marked_eq⟩ := List.cons.inj escaped_eq
      cases passed with
      | nil =>
        obtain ⟨rfl, -⟩ := List.cons.inj marked_eq
        rcases marked with rfl | rfl
        · exact absurd List.mem_cons_self no_backslash
        · exact absurd List.mem_cons_self no_quote
      | cons second passed =>
        obtain ⟨rfl, key_eq⟩ := List.cons.inj marked_eq
        simpa [List.getLast?_cons] using behind key_eq
    · obtain ⟨rfl, key_eq⟩ := List.cons.inj escaped_eq
      exact behind key_eq

/-- Escaping makes no head of a constructor call. -/
theorem occursIn_escaped (absent : constructorHead.occursIn key = false) :
    constructorHead.occursIn (key.flatMap Output.escapeQuoted) = false := by
  rw [occursIn, Option.isSome_eq_false_iff, Option.isNone_iff_eq_none, find?,
    findFrom?_eq_none_iff]
  intro passed left escaped_eq
  rw [run_eq_findSome?, List.findSome?_eq_none_iff]
  intro stop found
  exfalso
  obtain ⟨middle, edge_found, found⟩ := exists_of_mem_ways_seq found
  obtain ⟨is_edge, rfl⟩ := mem_ways_atWordEdge.mp edge_found
  obtain ⟨taken, left_eq, accepted⟩ := accepts_of_mem_ways found
  obtain rfl : left = taken ++ stop.rest := left_eq
  have nonempty := ne_nil_of_accepts (by rfl) accepted
  obtain ⟨front, back, rfl, last_eq⟩ := exists_of_escaped nonempty
    (not_mem_of_accepts (by rfl) accepted) (not_mem_of_accepts (by rfl) accepted) escaped_eq
  have no_edge := isWordEdge_eq_false (by rfl) absent rfl accepted
  obtain ⟨t, taken, rfl⟩ := List.exists_cons_of_ne_nil nonempty
  rw [Option.or_none, ← last_eq] at is_edge
  exact Bool.false_ne_true (no_edge.symm.trans is_edge)

/-- The literal denotes the key as it is spelled. -/
theorem contents?_escaped (no_feed : '\n' ∉ key) (no_return : '\r' ∉ key) :
    Output.contents? '\'' (key.flatMap Output.escapeQuoted ++ ['\'']) = some key := by
  induction key with
  | nil => rfl
  | cons c key ih =>
    rw [List.mem_cons, not_or] at no_feed no_return
    have tail := ih no_feed.2 no_return.2
    rw [escapeQuoted_cons]
    split
    · next marked =>
      have escape_eq : Output.escapeValue? c = some c := by
        rcases marked with rfl | rfl <;> decide
      rw [List.cons_append, List.cons_append, Output.contents?_escape _ escape_eq, tail]
      rfl
    · next plain =>
      rw [not_or] at plain
      have plain_eq : ∀ rest, Output.plainValue? '\'' c rest = some [c] := by
        intro rest
        simp [Output.plainValue?, Output.backquote, Ne.symm no_feed.1, Ne.symm no_return.1]
      rw [List.cons_append, Output.contents?_plain plain.1 plain.2, plain_eq, tail]
      rfl

private theorem literalValue?_literal {call : PropertyCall} (well_formed : call.WellFormed) :
    literalValue? call.literal = some call.key := by
  have no_feed : '\n' ∉ call.key := fun member => well_formed.is_key.no_feed _ member rfl
  rw [PropertyCall.literal, toList_singleQuoted, String.toList_ofList, literalValue?,
    if_pos (by decide)]
  exact contents?_escaped no_feed well_formed.no_return

private theorem length_le_of_spells (spells : Spells key value) : value.length ≤ key.length := by
  induction spells with
  | empty => exact Nat.le_refl 0
  | plain => simpa
  | escape _ _ ih =>
    simp only [List.length_cons]
    omega

/-- A literal denotes its spelling exactly when it has no escapes. -/
theorem eq_iff_of_spells (spells : Spells key value) : key = value ↔ '\\' ∉ key := by
  induction spells with
  | empty => simp
  | @plain c key value no_backslash _ _ ih => simp [ih, Ne.symm no_backslash]
  | @escape c d key value _ tail =>
    have shorter := length_le_of_spells tail
    simp only [List.mem_cons, true_or, not_true_eq_false, iff_false]
    -- An escape is two characters for one, so the value is shorter.
    intro same
    have lengths := congrArg List.length same
    simp only [List.length_cons] at lengths
    omega

end Escape

/-! ## The whole list -/

section Whole

variable {text rest : List Char} {item : Item} {items : List Item}

/-- A constructor call has no mark in front of its parenthesis. -/
theorem exists_of_accepts_constructorHead {mark : Char} (is_mark : mark ∈ [',', '\''])
    (accepted : constructorHead.Accepts text) :
    ∃ before more, text = before ++ '(' :: more ∧ mark ∉ before ++ ['('] := by
  have avoided : constructorHead.avoids mark = true := by
    obtain rfl | rfl : mark = ',' ∨ mark = '\'' := by simpa using is_mark
    · decide
    · decide
  have absent := not_mem_of_accepts avoided accepted
  obtain ⟨before, _, rfl, is_before, _, _, rfl, is_opening, rfl⟩ :=
    exists_of_accepts_all [.atWordEdge, Pattern.text "new", someBlanks, word, blanks] accepted
  obtain rfl := accepts_mark.mp is_opening
  exact ⟨before, [], rfl, absent⟩

/-- No constructor call begins in what the rule makes of an argument. -/
theorem passes_rewritten (well_formed : item.WellFormed) (harmless : item.Harmless) :
    constructorHead.Passes item.rewritten AtComma := by
  have passes : ∀ {text : List Char} {mark : Char}, mark ∈ [',', '\''] → '(' ∉ text →
      constructorHead.Passes text fun rest => ∀ c ∈ rest.head?, c = mark :=
    fun is_mark no_call => passes_without no_call fun taken accepted =>
      exists_of_accepts_constructorHead is_mark accepted
  cases well_formed with
  | plain no_call => exact passes (by decide) no_call
  | @property lead trail call is_lead well_formed is_trail =>
    have front := passes (by decide : '\'' ∈ [',', '\'']) (well_formed.no_call is_lead)
    have back : constructorHead.Passes trail AtComma :=
      passes (by decide) (not_mem_of_allBlank is_trail (by decide))
    have literal : constructorHead.Passes call.literal fun _ => True := by
      rw [PropertyCall.literal, toList_singleQuoted, String.toList_ofList]
      exact passes_quoted (by rfl) (by rfl) (by rfl) (by decide) (occursIn_escaped harmless)
    have whole := front.append (literal.append back fun _ _ => trivial) fun rest _ => by
      rw [PropertyCall.literal, toList_singleQuoted]
      rintro c ⟨⟩
      rfl
    simpa only [Item.rewritten, List.append_assoc] using whole

private theorem passes_commaList (well_formed : ∀ item ∈ items, item.WellFormed)
    (harmless : ∀ item ∈ items, item.Harmless) :
    constructorHead.Passes (commaList (items.map Item.rewritten)) AtComma := by
  induction items with
  | nil => exact passes_nil
  | cons item items ih =>
    obtain ⟨item_well_formed, others_well_formed⟩ := List.forall_mem_cons.mp well_formed
    obtain ⟨item_harmless, others_harmless⟩ := List.forall_mem_cons.mp harmless
    have first := passes_rewritten item_well_formed item_harmless
    have others := ih others_well_formed others_harmless
    cases items with
    | nil => simpa [commaList] using first
    | cons next items =>
      have comma : constructorHead.Passes [','] fun _ => True :=
        passes_cons_nil fun _ => fails_constructorHead (noName_cons (by decide))
      have whole := first.append (comma.append others fun _ _ => trivial) fun rest _ => by
        rintro c ⟨⟩
        rfl
      simpa only [List.map_cons, commaList_cons_cons, List.singleton_append] using whole

/-- A list of names, numbers and lookups keeps all but its lookups. Of each lookup the last word of
the path, the call and its key give way to a literal that denotes the key as it is spelled. So a
lookup is replaced as a whole if its path is one word, and by what its key means if that has no
escapes. -/
theorem convertArguments_commaList (well_formed : ∀ item ∈ items, item.WellFormed)
    (harmless : ∀ item ∈ items, item.Harmless) :
    convertArguments (commaList (items.map Item.text)) = commaList (items.map Item.rewritten) ∧
    ∀ lead call trail, .property lead call trail ∈ items →
      literalValue? call.literal = some call.key ∧
      (∀ value, Spells call.key value →
        (literalValue? call.literal = some value ↔ '\\' ∉ call.key)) ∧
      (Item.rewritten (.property lead call trail) = lead ++ (call.literal ++ trail)
        ↔ call.front = []) := by
  have not_found := (passes_commaList well_formed harmless).findFrom?_eq_none
    (by simp [AtComma]) (fails_constructorHead (by simp [NoName])) none
  refine ⟨?_, fun lead call trail member => ?_⟩
  · rw [convertArguments_eq, replaceFrom_items well_formed, unwrapConstructors_none not_found]
  · have is_call : call.WellFormed := by
      cases well_formed _ member with
      | property _ is_call _ => exact is_call
    have denotes := literalValue?_literal is_call
    refine ⟨denotes, fun value spells => ?_, ?_⟩
    · rw [denotes, Option.some_inj, eq_iff_of_spells spells]
    · simp [Item.rewritten]

/-- The arguments `env.getProperty("it's"), 1, a.b.getProperty("x\ty")`. -/
def pathItems : List Item :=
  [.property [] ⟨[], "env".toList, "it's".toList⟩ [], .plain " 1".toList,
    .property [' '] ⟨"a.".toList, ['b'], "x\\ty".toList⟩ []]

theorem convertArguments_commaList_path :
    (∀ item ∈ pathItems, item.WellFormed) ∧ (∀ item ∈ pathItems, item.Harmless) ∧
    commaList (pathItems.map Item.text)
      = "env.getProperty(\"it's\"), 1, a.b.getProperty(\"x\\ty\")".toList ∧
    convertArguments (commaList (pathItems.map Item.text))
      = "'it\\'s', 1, a.'x\\\\ty'".toList := by
  have no_blank : AllBlank [] := by simp [AllBlank]
  have env : PropertyCall.WellFormed ⟨[], "env".toList, "it's".toList⟩ :=
    { is_path := by simp
      apart := by simp [EndsOutside]
      is_receiver := by decide
      is_key := .of_plain (by simp)
      no_quote := by decide
      no_return := by decide }
  have path : PropertyCall.WellFormed ⟨"a.".toList, ['b'], "x\\ty".toList⟩ :=
    { is_path := by simp [isNameChar]; decide
      apart := endsOutside_append (List.cons_ne_nil '.' []) (by simp; decide) ['a']
      is_receiver := by decide
      is_key := .plain (by decide) (by decide) (by decide) <| .escape (by decide) <|
        .plain (by decide) (by decide) (by decide) .empty
      no_quote := by decide
      no_return := by decide }
  have well_formed : ∀ item ∈ pathItems, item.WellFormed := by
    simp only [pathItems, List.forall_mem_cons]
    exact ⟨.property no_blank env no_blank, .plain (by decide),
      .property (by simp [AllBlank]; decide) path no_blank, by simp⟩
  have harmless : ∀ item ∈ pathItems, item.Harmless := by
    simp only [pathItems, List.forall_mem_cons, Item.Harmless]
    exact ⟨by decide +kernel, trivial, by decide +kernel, by simp⟩
  refine ⟨well_formed, harmless, by decide, ?_⟩
  rw [(convertArguments_commaList well_formed harmless).1]
  decide

/-- A path of two names keeps the first one, an escape of the key is escaped again, and a key that
reads like a constructor call is unwrapped. -/
theorem convertArguments_commaList_not_of_paths :
    (¬ ∀ (call : PropertyCall) (value : List Char), call.WellFormed → Spells call.key value →
      literalValue? (convertArguments call.text) = some value) ∧
    ∀ list ∈ [("config.app.getProperty(\"url\")", "config.'url'"),
        ("env.getProperty(\"a\\tb\")", "'a\\\\tb'"),
        ("env.getProperty(\"new User(1)\")", "'1'")],
      convertArguments list.1.toList = list.2.toList := by
  refine ⟨fun denotes => ?_, by decide +kernel⟩
  have config : PropertyCall.WellFormed ⟨"config.".toList, "app".toList, "url".toList⟩ :=
    { is_path := by simp [isNameChar]; decide
      apart := endsOutside_append (List.cons_ne_nil '.' []) (by simp; decide) "config".toList
      is_receiver := by decide
      is_key := .of_plain (by simp)
      no_quote := by decide
      no_return := by decide }
  have denoted := denotes _ _ config (Locator.spells_self (by decide) (by decide))
  revert denoted
  decide +kernel

end Whole

end SuiteMigration.Test
