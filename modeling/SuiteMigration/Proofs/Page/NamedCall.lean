import SuiteMigration.Proofs.Page.Click
import SuiteMigration.Proofs.Page.Queries

/-!
# Calls on names

A statement that begins with a name and a dot has its first call behind that dot, and nothing behind
the call is taken for its target. So a statement that fills in a named element is found as a whole:
the value reaches to the end, whatever calls it contains.
-/
namespace SuiteMigration.Page

open Pattern Locator Text
open Test (IsWord accepts_blanks accepts_word gap_eq_nil head_of_isWord not_mem_of_allBlank
  word_inj_of_gap)

section Calls

variable {name other word rest more call target method taken : List Char}
  {called : String} {c : Char}

/-- A call behind a name begins where the name ends. -/
theorem behind_name (is_name : IsWord name) (is_word : IsWord word)
    (is_call : (callStart called).Accepts call) (is_end : isWordChar c = false)
    (text_eq : name ++ (call ++ more) = word ++ c :: rest) :
    name = word ∧ call ++ more = c :: rest := by
  obtain ⟨before, after, behind, is_before, -, -, rfl⟩ := parts_of_callStart is_call
  simp only [List.append_assoc, List.cons_append, List.nil_append] at text_eq ⊢
  exact word_inj_of_gap is_word is_name is_before (by decide) is_end text_eq

/-- The method of a call stands between the dot and the parenthesis. -/
theorem method_of_callStart (is_method : IsWord method) (is_called : IsWord called.toList)
    (is_call : (callStart called).Accepts call)
    (text_eq : call ++ more = '.' :: (method ++ '(' :: rest)) :
    called.toList = method ∧ more = rest := by
  obtain ⟨before, after, behind, is_before, is_after, is_behind, rfl⟩ := parts_of_callStart is_call
  simp only [List.append_assoc, List.cons_append, List.nil_append] at text_eq
  have no_dot := not_mem_of_allBlank is_before (by decide : isBlank '.' = false)
  obtain ⟨-, name_eq⟩ := before_mark_inj no_dot List.not_mem_nil text_eq
  obtain rfl := gap_eq_nil is_after is_method name_eq
  obtain ⟨called_eq, opening_eq⟩ :=
    word_inj_of_gap is_method is_called is_behind (by decide) (by decide) name_eq
  have no_opening := not_mem_of_allBlank is_behind (by decide : isBlank '(' = false)
  obtain ⟨-, more_eq⟩ := before_mark_inj no_opening List.not_mem_nil opening_eq
  exact ⟨called_eq, more_eq⟩

theorem callStart_ne_cons (is_call : (callStart called).Accepts call) (no_blank : isBlank c = false)
    (no_dot : c ≠ '.') : call ++ more ≠ c :: rest := by
  obtain ⟨before, after, behind, is_before, -, -, rfl⟩ := parts_of_callStart is_call
  intro text_eq
  cases before with
  | nil => exact no_dot (List.cons.inj text_eq).1.symm
  | cons b before =>
    obtain ⟨rfl, -⟩ := List.cons.inj text_eq
    rw [is_before b List.mem_cons_self] at no_blank
    cases no_blank

/-- A target with its call behind it begins with a name and a call: its own, or a lookup. -/
theorem name_of_target (is_target : targetText.Accepts target)
    (is_call : (callStart called).Accepts call) : ∃ name other start behind,
    IsWord name ∧ (callStart other).Accepts start ∧ target ++ call = name ++ (start ++ behind) := by
  rcases lookup_or_word is_target with ⟨_, locator, ⟨name, start, rfl, is_name, is_start⟩, -, rfl⟩ |
    is_word
  · exact ⟨name, "findElement", start, locator ++ [')'] ++ call, accepts_word.mp is_name, is_start,
      by simp⟩
  · exact ⟨target, called, call, [], is_word, is_call, by simp⟩

/-- Where a name is followed by a call, nothing is left of it for a target behind `this.`. -/
theorem fails_this_target {arguments : Pattern} (is_name : IsWord name) (is_method : IsWord method) :
    ((Pattern.all [text "this", blanks, mark '.', blanks]).seq
      (targetPart.seq (callTail called arguments))).Fails
        (name ++ '.' :: (method ++ '(' :: rest)) := by
  apply fails_of_not_accepts
  rintro _ behind text_eq ⟨_, _, rfl, ⟨this, _, rfl, is_this, before, _, rfl, is_before, dot, _, rfl,
    is_dot, after, _, rfl, is_after, rfl⟩, _, tail, rfl, ⟨target, _, rfl, is_target, rfl⟩, is_tail⟩
  obtain ⟨call, arguments, rfl, is_call, -⟩ :=
    exists_of_accepts_all [blanks, mark '.', blanks, text called, blanks, mark '('] is_tail
  obtain rfl := accepts_literal.mp is_this
  obtain rfl := accepts_mark.mp is_dot
  obtain ⟨first, other, start, more, is_first, is_start, target_eq⟩ :=
    name_of_target is_target is_call
  have split_eq : "this".toList ++ (before ++ '.' :: (after ++ (first ++ (start ++ (more ++
      (arguments ++ behind)))))) = name ++ '.' :: (method ++ '(' :: rest) := by
    have regroup := congrArg (· ++ (arguments ++ behind)) target_eq
    simp only [List.append_assoc] at regroup
    simp [text_eq, ← regroup]
  -- The dot is the one behind the name, so the target would begin with the method.
  obtain ⟨-, dot_eq⟩ := word_inj_of_gap is_name (by decide) (accepts_blanks.mp is_before) (by decide)
    (by decide) split_eq
  have no_dot := not_mem_of_allBlank (accepts_blanks.mp is_before) (by decide : isBlank '.' = false)
  obtain ⟨-, method_eq⟩ := before_mark_inj no_dot List.not_mem_nil dot_eq
  obtain rfl := gap_eq_nil (accepts_blanks.mp is_after) is_method method_eq
  obtain ⟨-, start_eq⟩ := behind_name is_first is_method is_start (by decide) method_eq
  exact callStart_ne_cons is_start (by decide) (by decide) start_eq

theorem isWord_findElement : IsWord "findElement".toList := by
  decide

private theorem fails_lookupHead (is_name : IsWord name) (is_method : IsWord method)
    (other : method ≠ "findElement".toList) :
    lookupHead.Fails (name ++ '.' :: (method ++ '(' :: rest)) := by
  apply fails_of_not_accepts
  rintro _ behind text_eq ⟨first, start, rfl, is_first, is_start⟩
  rw [List.append_assoc] at text_eq
  obtain ⟨-, start_eq⟩ :=
    behind_name (accepts_word.mp is_first) is_name is_start (by decide) text_eq.symm
  exact other (method_of_callStart is_method isWord_findElement is_start start_eq).1.symm

/-- A name with a call behind it is taken for the target. -/
theorem takes_namedTarget (is_name : IsWord name) (is_method : IsWord method)
    (other : method ≠ "findElement".toList) :
    targetPart.Takes (name ++ '.' :: (method ++ '(' :: rest)) ('.' :: (method ++ '(' :: rest)) []
      [("target", name)] := by
  have no_lookup : (Pattern.all [lookupHead, shortLine, mark ')']).Fails
      (name ++ '.' :: (method ++ '(' :: rest)) := (fails_lookupHead is_name is_method other).seq
  have takes_name : word.Takes (name ++ '.' :: (method ++ '(' :: rest))
      ('.' :: (method ++ '(' :: rest)) [] [] :=
    takes_oneOrMore is_name.1 is_name.2 (head_false (by decide))
  exact ((Takes.either_right no_lookup takes_name).group "target").seq takes_empty

theorem takes_callTail {arguments : Pattern} {groups after : List (String × List Char)}
    (is_called : IsWord called.toList)
    (takes : (Pattern.all [arguments, mark ')']).Takes more rest groups after) :
    (callTail called arguments).Takes ('.' :: (called.toList ++ '(' :: more)) rest groups after := by
  refine (takes_blanks_none (head_false (by decide))).seq ?_
  refine (takes_mark '.').seq ?_
  refine (takes_blanks_none (head_of_isWord is_called)).seq ?_
  refine (takes_literal called.toList).seq ?_
  refine (takes_blanks_none (head_false (by decide))).seq ?_
  exact (takes_mark '(').seq takes

/-- A call on a name at the start of a statement is found, with `this.` in front or without. -/
theorem find?_elementCall {arguments : Pattern} {groups : List (String × List Char)}
    {this text : List Char} (this_mem : this ∈ [[], "this.".toList])
    (is_name : IsWord name) (is_method : IsWord method)
    (text_eq : text = name ++ '.' :: (method ++ '(' :: more))
    (takes : (targetPart.seq (callTail called arguments)).Takes text [] [] groups) :
    (elementCall called arguments).find? (this ++ text) = some ⟨[], this ++ text, [], groups⟩ := by
  have takes_this : ((thisDot.seq targetPart).seq (callTail called arguments)).Takes (this ++ text)
      [] [] groups := by
    rw [takes_assoc]
    simp only [List.mem_cons, List.not_mem_nil, or_false] at this_mem
    rcases this_mem with rfl | rfl
    · rw [List.nil_append]
      refine takes_optional_seq ?_ takes
      rw [text_eq]
      exact fails_this_target is_name is_method
    · have name_first : ∀ c ∈ text.head?, isBlank c = false := by
        rw [text_eq]
        exact head_of_isWord is_name
      refine Takes.seq (Takes.either_left ?_) takes
      refine (takes_literal "this".toList).seq ?_
      refine (takes_blanks_none (head_false (by decide))).seq ?_
      refine (takes_mark '.').seq ?_
      exact (takes_blanks_none name_first).seq takes_empty
  exact find?_atStart_either (List.append_nil _).symm (.one fun c => !isWordChar c && c != '.')
    takes_this

end Calls

/-! ## Filling in a named element -/

section Fill

variable {table : Table} {name value this : List Char}

theorem takes_value {groups : List (String × List Char)} (no_feed : ∀ c ∈ value, c ≠ '\n') :
    (Pattern.all [.group "value" line, mark ')']).Takes (value ++ [')']) [] groups
      (("value", value) :: groups) := by
  have no_feed_all : ∀ c ∈ value ++ [')'], c ≠ '\n' := by
    rw [List.forall_mem_append]
    exact ⟨no_feed, by simp⟩
  have too_far : (Pattern.all [mark ')']).Fails [] := (fails_one (by simp)).seq
  exact takes_line_group_back no_feed_all too_far ((takes_mark ')').seq takes_empty)

/-- The statement that fills a value in. -/
def fillText (name value : List Char) : List Char :=
  name ++ '.' :: ("sendKeys".toList ++ '(' :: (value ++ [')']))

private theorem find?_fillText (this_mem : this ∈ [[], "this.".toList]) (is_name : IsWord name)
    (no_feed : ∀ c ∈ value, c ≠ '\n') :
    fillCall.find? (this ++ fillText name value)
      = some ⟨[], this ++ fillText name value, [], [("value", value), ("target", name)]⟩ := by
  have is_method : IsWord "sendKeys".toList := by decide
  have takes_fill : (targetPart.seq (callTail "sendKeys" (.group "value" line))).Takes
      (fillText name value) [] [] [("value", value), ("target", name)] := by
    apply Takes.seq
    · exact takes_namedTarget is_name is_method (by decide)
    · exact takes_callTail is_method (takes_value no_feed)
  exact find?_elementCall this_mem is_name is_method rfl takes_fill

/-- A statement that fills a value into a named element passes the value on as it is, without the
blanks around it. Whatever the value contains, no other call and no other rule takes over. -/
theorem convertStatement?_fillText (table : Table) (name value this : List Char)
    (is_name : IsWord name) (no_feed : ∀ c ∈ value, c ≠ '\n')
    (this_mem : this ∈ [[], "this.".toList]) :
    convertStatement? table (String.ofList (this ++ fillText name value))
      = some (match table.selector? (String.ofList name) with
        | some selector => fillStatement (trim value) selector
        | none => .review ("Unknown locator '" ++ String.ofList name ++ "'")
            (this ++ fillText name value)) := by
  have target_eq : Match.group ⟨[], this ++ fillText name value, [],
      [("value", value), ("target", name)]⟩ "target" = name := rfl
  rw [convertStatement?, String.toList_ofList, Rule.all, List.findSome?_cons, Rule.convert?,
    find?_fillText this_mem is_name no_feed, Option.map_some, target_eq, onTarget,
    find?_inlineLookup_word is_name]
  rfl

/-- The value of a field of the page holds calls of its own. -/
theorem convertStatement?_fillText_login :
    convertStatement? loginTable "this.loginBtn.sendKeys(a.click() + \"b.sendKeys(c)\" )"
      = some ⟨.fill, "await this.page.fill('#login', a.click() + \"b.sendKeys(c)\");"⟩ :=
  convertStatement?_fillText loginTable "loginBtn".toList "a.click() + \"b.sendKeys(c)\" ".toList
    "this.".toList (by decide) (by simp) (by decide)

end Fill

end SuiteMigration.Page
