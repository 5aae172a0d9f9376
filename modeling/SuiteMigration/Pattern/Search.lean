import SuiteMigration.Pattern.Basic

/-!
# Searching for a pattern

The first match of a pattern in a text, all matches that do not overlap, and replacement. A match
splits the text into what stands before it, the matched stretch and what follows.
-/
namespace SuiteMigration.Pattern

structure Match where
  before : List Char
  text : List Char
  after : List Char
  groups : List (String × List Char)

namespace Match

def group? (found : Match) (name : String) : Option (List Char) :=
  found.groups.lookup name

/-- The text of a group; a group that took no part in the match has none. -/
def group (found : Match) (name : String) : List Char :=
  (found.group? name).getD []

/-- The last character of the match, or else the one in front of it. -/
def lastChar? (found : Match) : Option Char :=
  found.text.getLast? <|> found.before.getLast?

end Match

/-- The match that begins leftmost, `previous` being the character in front of the text. -/
def findFrom? (pattern : Pattern) (previous : Option Char) (text : List Char) : Option Match :=
  match pattern.run ⟨previous, text, []⟩ some with
  | some stop => some ⟨[], text.take (text.length - stop.rest.length), stop.rest, stop.groups⟩
  | none =>
    match text with
    | [] => none
    | c :: rest =>
      (findFrom? pattern (some c) rest).map fun found => { found with before := c :: found.before }

def find? (pattern : Pattern) (text : List Char) : Option Match :=
  findFrom? pattern none text

def occursIn (pattern : Pattern) (text : List Char) : Bool :=
  (pattern.find? text).isSome

theorem mem_ways_of_run {pattern : Pattern} {cursor stop : Cursor}
    (run_eq : pattern.run cursor some = some stop) : stop ∈ pattern.ways cursor := by
  rw [run_eq_findSome?] at run_eq
  obtain ⟨way, way_mem, way_eq⟩ := List.exists_of_findSome?_eq_some run_eq
  exact Option.some.inj way_eq ▸ way_mem

/-- A match loses nothing of the text. -/
theorem findFrom?_append {pattern : Pattern} {previous : Option Char} {text : List Char}
    {found : Match} (found_eq : pattern.findFrom? previous text = some found) :
    found.before ++ found.text ++ found.after = text := by
  induction text generalizing previous found with
  | nil =>
    unfold findFrom? at found_eq
    split at found_eq
    · next stop run_eq =>
      obtain rfl := Option.some.inj found_eq
      exact List.suffix_iff_eq_append.mp (suffix_of_mem_ways (mem_ways_of_run run_eq))
    · simp at found_eq
  | cons c rest ih =>
    unfold findFrom? at found_eq
    split at found_eq
    · next stop run_eq =>
      obtain rfl := Option.some.inj found_eq
      exact List.suffix_iff_eq_append.mp (suffix_of_mem_ways (mem_ways_of_run run_eq))
    · obtain ⟨inner, inner_eq, rfl⟩ := Option.map_eq_some_iff.mp found_eq
      simp only [List.cons_append, ih inner_eq]

theorem findFrom?_text_ne_nil {pattern : Pattern} (takes : pattern.takesText = true)
    {previous : Option Char} {text : List Char} {found : Match}
    (found_eq : pattern.findFrom? previous text = some found) : found.text ≠ [] := by
  induction text generalizing previous found with
  | nil =>
    unfold findFrom? at found_eq
    split at found_eq
    · next stop run_eq =>
      have shorter := length_lt_of_mem_ways takes (mem_ways_of_run run_eq)
      simp at shorter
    · simp at found_eq
  | cons c rest ih =>
    unfold findFrom? at found_eq
    split at found_eq
    · next stop run_eq =>
      obtain rfl := Option.some.inj found_eq
      have shorter := length_lt_of_mem_ways takes (mem_ways_of_run run_eq)
      simp only [ne_eq, List.take_eq_nil_iff, not_or]
      simp only at shorter
      exact ⟨by omega, by simp⟩
    · obtain ⟨inner, inner_eq, rfl⟩ := Option.map_eq_some_iff.mp found_eq
      exact (ih inner_eq : inner.text ≠ [])

theorem length_after_lt {pattern : Pattern} (takes : pattern.takesText = true)
    {previous : Option Char} {text : List Char} {found : Match}
    (found_eq : pattern.findFrom? previous text = some found) :
    found.before.length + found.after.length < text.length := by
  have text_pos := List.length_pos_iff.mpr (findFrom?_text_ne_nil takes found_eq)
  rw [← findFrom?_append found_eq]
  simp only [List.length_append]
  omega

/-- The matches from left to right, each sought behind the one before. The `before` of a match
reaches back to the match before it. A pattern that takes no text is not sought again. -/
def findAllFrom (pattern : Pattern) (previous : Option Char) (text : List Char) : List Match :=
  match found_eq : pattern.findFrom? previous text with
  | none => []
  | some found =>
    if takes : pattern.takesText then
      -- Text was taken, so the rest is shorter.
      have := length_after_lt takes found_eq
      found :: findAllFrom pattern found.lastChar? found.after
    else [found]
termination_by text.length

def findAll (pattern : Pattern) (text : List Char) : List Match :=
  findAllFrom pattern none text

/-- The text with every match replaced. -/
def replaceAll (pattern : Pattern) (replacement : Match → List Char) (text : List Char) :
    List Char :=
  let found := pattern.findAll text
  match found.getLast? with
  | none => text
  -- Only the last match still has its rest: the others hand theirs on.
  | some last => (found.flatMap fun one => one.before ++ replacement one) ++ last.after

end SuiteMigration.Pattern
