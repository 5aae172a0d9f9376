import SuiteMigration.Page.Rule
import SuiteMigration.Proofs.Locator.Variable

/-!
# Clicks on named elements

A click on a name that the table knows becomes the click on its selector, whatever the name is: even
where it reads like `this`, the rule finds no element behind it and takes it for the target.
-/
namespace SuiteMigration.Page

open Pattern Text Locator

def clickTail : List Char :=
  "click".toList ++ ['(', ')']

/-- The statement that clicks on a name. -/
def clickText (name : PlainName) : List Char :=
  name.text ++ '.' :: clickTail

section Name

variable {name : PlainName} {part : List Char}

theorem no_dot (name : PlainName) : '.' ∉ name.text :=
  fun member => ne_of_isPlainChar (name.plain _ member) rfl rfl

/-- There is one dot in the statement, and the call is behind it. -/
theorem behind_dot {rest : List Char} (suffix : '.' :: rest <:+ clickText name) :
    rest = clickTail := by
  obtain ⟨front, text_eq⟩ := suffix
  have parts_eq := (List.append_cons_inj_of_notMem (no_dot name) (by decide)).mp text_eq.symm
  exact parts_eq.2.2.symm

/-- No other method is called. -/
theorem fails_call_other {first more : Pattern} {method : List Char}
    (other : ∀ c ∈ method.head?, c ≠ 'c') (nonempty : method ≠ [])
    (suffix : part <:+ clickText name) :
    (first.seq (blanks.seq ((mark '.').seq (blanks.seq ((literal method).seq more))))).Fails
      part := by
  intro previous groups
  rw [List.eq_nil_iff_forall_not_mem]
  intro stop found
  obtain ⟨_, first_found, found⟩ := exists_of_mem_ways_seq found
  obtain ⟨at_dot, before_found, found⟩ := exists_of_mem_ways_seq found
  obtain ⟨_, dot_found, found⟩ := exists_of_mem_ways_seq found
  obtain ⟨_, blank_found, found⟩ := exists_of_mem_ways_seq found
  obtain ⟨_, method_found, -⟩ := exists_of_mem_ways_seq found
  -- The dot of the match is the one of the statement, and behind it stands another method.
  have dot_suffix : at_dot.rest <:+ clickText name :=
    (suffix_of_mem_ways before_found).trans ((suffix_of_mem_ways first_found).trans suffix)
  rw [rest_of_mark dot_found] at dot_suffix
  have call_eq := behind_dot dot_suffix
  obtain ⟨taken, all_blank, blank_eq⟩ := rest_of_many blank_found
  rw [blank_eq, rest_of_literal method_found] at call_eq
  cases taken with
  | nil =>
    cases method with
    | nil => exact nonempty rfl
    | cons c method => exact other c rfl (List.cons.inj call_eq).1
  | cons c taken =>
    have is_blank := all_blank c List.mem_cons_self
    rw [(List.cons.inj call_eq).1] at is_blank
    exact absurd is_blank (by decide)

/-- What needs a dot does not follow `this`. -/
theorem fails_thisDot {pattern : Pattern} (needs : pattern.Needs '.') :
    ((Pattern.all [text "this", blanks, mark '.', blanks]).seq pattern).Fails
      (clickText name) := by
  intro previous groups
  rw [List.eq_nil_iff_forall_not_mem]
  intro stop found
  obtain ⟨behind, this_found, found⟩ := exists_of_mem_ways_seq found
  obtain ⟨_, word_found, this_found⟩ := exists_of_mem_ways_seq this_found
  obtain ⟨at_dot, before_found, this_found⟩ := exists_of_mem_ways_seq this_found
  obtain ⟨after_dot, dot_found, this_found⟩ := exists_of_mem_ways_seq this_found
  have dot_suffix : at_dot.rest <:+ clickText name :=
    (suffix_of_mem_ways before_found).trans (suffix_of_mem_ways word_found)
  rw [rest_of_mark dot_found] at dot_suffix
  -- The match needs another dot behind the first one.
  have dot_later : '.' ∈ after_dot.rest :=
    (suffix_of_mem_ways this_found).subset (needs behind stop found)
  rw [behind_dot dot_suffix] at dot_later
  exact absurd dot_later (by decide)

private theorem find?_fillCall : fillCall.find? (clickText name) = none :=
  findFrom?_eq_none (fun _ suffix => fails_call_other (by simp) (by decide) suffix) none

private theorem find?_inlineLookup : inlineLookup.find? name.text = none := by
  refine find?_anchored_eq_none (Needs.fails ?_ (no_dot name))
  exact Needs.seq_left (Needs.seq_right (Needs.seq_right (needs_mark '.').seq_left))

def targetPart : Pattern :=
  .all [.group "target" (.either (.all [lookupHead, shortLine, mark ')']) word)]

def callPart : Pattern :=
  .all [blanks, mark '.', blanks, text "click", blanks, mark '(', blanks, mark ')']

private theorem takes_targetPart :
    targetPart.Takes (clickText name) ('.' :: clickTail) [] [("target", name.text)] := by
  have no_lookup : (Pattern.all [lookupHead, shortLine, mark ')']).Fails (clickText name) :=
    (fails_call_other (by simp) (by decide) List.suffix_rfl).seq
  have named : (Pattern.either (.all [lookupHead, shortLine, mark ')']) word).Takes (clickText name)
      ('.' :: clickTail) [] [] :=
    .either_right no_lookup (takes_word name (head_false (by decide)))
  exact (named.group "target").seq takes_empty

private theorem takes_callPart {groups : List (String × List Char)} :
    callPart.Takes ('.' :: clickTail) [] groups groups := by
  refine (takes_blanks_none (head_false (by decide))).seq ?_
  refine (takes_mark '.').seq ?_
  refine (takes_blanks_none (head_false (by decide))).seq ?_
  refine (takes_literal "click".toList).seq ?_
  refine (takes_blanks_none (head_false (by decide))).seq ?_
  refine (takes_mark '(').seq ?_
  refine (takes_blanks_none (head_false (by decide))).seq ?_
  exact (takes_mark ')').seq takes_empty

/-- The pattern may take `this.` first, but then nothing is left for the dot of the call. -/
theorem takes_clickCall : ((thisDot.seq targetPart).seq callPart).Takes (clickText name) [] []
    [("target", name.text)] := by
  have needs : (targetPart.seq callPart).Needs '.' :=
    Needs.seq_right (Needs.seq_right (needs_mark '.').seq_left)
  rw [takes_assoc]
  exact takes_optional_seq (fails_thisDot needs) (takes_targetPart.seq takes_callPart)

private theorem find?_clickCall : clickCall.find? (clickText name)
    = some ⟨[], clickText name, [], [("target", name.text)]⟩ :=
  find?_atStart_either (List.append_nil _).symm
    (.one fun c => !Text.isWordChar c && c != '.') takes_clickCall

end Name

/-- A click on a name of the table is the only statement. -/
theorem convertBody_click {table : Table} {name : PlainName} {selector : Selector}
    (known : table.selector? (String.ofList name.text) = some selector) :
    convertBody table [String.ofList (clickText name)] = [clickStatement selector] := by
  -- The rule for filling comes first and fails on a click.
  have no_fill : Rule.fill.convert? table (clickText name) = none := by
    simp [Rule.convert?, find?_fillCall]
  have click_eq : Rule.click.convert? table (clickText name) = some (clickStatement selector) := by
    simp [Rule.convert?, find?_clickCall, onTarget, Match.group, Match.group?, find?_inlineLookup,
      known]
  have statement_eq : convertStatement? table (String.ofList (clickText name))
      = some (clickStatement selector) := by
    simp only [convertStatement?, String.toList_ofList, Rule.all, List.findSome?_cons, no_fill,
      click_eq]
  simp [convertBody, statement_eq]

end SuiteMigration.Page
