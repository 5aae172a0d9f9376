import SuiteMigration.Page.Rule
import SuiteMigration.Proofs.Locator.Literal
import SuiteMigration.Proofs.Pattern.LiteralSearch

/-!
# Element calls and string literals

The rules for element calls search a whole statement, its string literals with it. Where no literal
reads like a call of theirs, they find the same call in two statements that differ in the bodies of
their literals only, on a target of the same pieces.
-/
namespace SuiteMigration.Page

open Pattern Locator

/-- A call of a method without arguments. -/
def emptyCall (method : String) : Pattern :=
  .all [mark '.', blanks, text method, blanks, mark '(', blanks, mark ')']

/-- A call of a method up to its opening parenthesis. -/
def callHead (method : String) : Pattern :=
  .all [mark '.', blanks, text method, blanks, mark '(']

/-- A body of a string literal that reads like none of the calls of the page rules. -/
structure Inert (body : List Char) : Prop where
  literal : LiteralBody body
  nonempty : body ≠ []
  no_fill : (callHead "sendKeys").occursIn body = false
  no_click : (emptyCall "click").occursIn body = false
  no_visibility : (emptyCall "isDisplayed").occursIn body = false
  no_lookup : (callHead "findElement").occursIn body = false
  no_script : (text "executeScript").occursIn body = false
  no_async_script : (text "executeAsyncScript").occursIn body = false

def AllInert (pieces : List Piece) : Prop :=
  ∀ body, .literal body ∈ pieces → ∀ side, Inert (body side)

/-- The pieces of a target: a name, or a lookup with its argument on one line. -/
inductive TargetPieces : List Piece → Prop where
  | name {word : List Char} (accepted : Pattern.word.Accepts word) : TargetPieces (word.map .code)
  | lookup {head : List Char} {argument : List Piece} (accepted : lookupHead.Accepts head)
      (line : OneLine argument) : TargetPieces (head.map .code ++ argument ++ [.code ')'])

/-- Both sides have recorded a target of the same pieces. -/
def SameTarget (pieces : List Piece) (old new : List (String × List Char)) : Prop :=
  ∃ target, TargetPieces target ∧ target ⊆ pieces ∧
    old.lookup "target" = some (spelled .old target) ∧
    new.lookup "target" = some (spelled .new target)

theorem suffix_of_append {α : Type} {whole left taken rest : List α} (suffix : left <:+ whole)
    (left_eq : left = taken ++ rest) : rest <:+ whole :=
  (left_eq ▸ List.suffix_append taken rest).trans suffix

section Inside

variable {body left : List Char} {cursor : Cursor} {parts : List Pattern}

/-- What does not occur in the body of a literal does not begin inside it. -/
theorem fails_inside (free : (all parts).isFree = true) (avoided : (all parts).avoids '"' = true)
    (absent : (all parts).occursIn body = false) (suffix : left <:+ body)
    (inside : Inside left cursor) (others : List Pattern) :
    (all (blanks :: parts ++ others)).ways cursor = [] := by
  rw [List.eq_nil_iff_forall_not_mem]
  intro stop found
  obtain ⟨middle, blanks_found, found⟩ := exists_of_mem_ways_seq found
  obtain ⟨gap, rest, left_eq, -, middle_inside⟩ := inside.of_mem_ways (by rfl) blanks_found
  obtain ⟨next, parts_found, -⟩ := exists_of_mem_ways_all found
  obtain ⟨call, more, rest_eq, accepted, -⟩ := middle_inside.of_mem_ways avoided parts_found
  obtain ⟨front, body_eq⟩ := suffix_of_append suffix left_eq
  have occurs := occursIn_of_accepts free accepted (body_eq.symm.trans (by rw [rest_eq]))
  rw [absent] at occurs
  cases occurs

theorem run_eq_none_of_ways {pattern : Pattern} {α : Type} {accept : Cursor → Option α}
    (ways_eq : pattern.ways cursor = []) : pattern.run cursor accept = none := by
  rw [run_eq_findSome?, ways_eq]
  rfl

end Inside

/-- What follows the target of an element call. -/
def callTail (method : String) (arguments : Pattern) : Pattern :=
  .all [blanks, mark '.', blanks, text method, blanks, mark '(', arguments, mark ')']

/-- Both cursors have recorded a target of the same pieces. -/
def SameStop (pieces : List Piece) (old new : Cursor) : Prop :=
  SameTarget pieces old.groups new.groups

/-- What the search for an element call needs of the part behind the target. -/
structure TailSteps (pieces : List Piece) (tail : Pattern) : Prop where
  inside : ∀ body, .literal body ∈ pieces → ∀ side left cursor, left <:+ body side →
    Inside left cursor → tail.run cursor some = none
  alike : ∀ rest (cursor : Side → Cursor), rest <:+ pieces → Aligned rest cursor →
    SameStop pieces (cursor .old) (cursor .new) →
    Alike (SameStop pieces) fun side => tail.run (cursor side) some

section Tails

variable {pieces : List Piece} {method : String}

theorem tailSteps_empty (free : (emptyCall method).isFree = true)
    (avoided : (emptyCall method).avoids '"' = true) (plain : (emptyCall method).isPlain = true)
    (absent : ∀ body, .literal body ∈ pieces → ∀ side,
      (emptyCall method).occursIn (body side) = false) :
    TailSteps pieces (callTail method blanks) where
  inside body member side left cursor suffix inside :=
    run_eq_none_of_ways (fails_inside free avoided (absent body member side) suffix inside [])
  alike rest cursor suffix aligned same := by
    refine alike_run free avoided aligned fun taken after stop _ _ _ groups_eq => ?_
    refine .some stop ?_ fun _ => rfl
    rw [SameStop, groups_eq plain, groups_eq plain]
    exact same

/-- Is there, for every call of the method in the code, a parenthesis in the code of its line that
may close it? -/
def ClosedCalls (method : String) (pieces : List Piece) : Prop :=
  ∀ front call rest, pieces = front ++ call.map .code ++ rest → (callHead method).Accepts call →
    ∃ arguments more, rest = arguments ++ .code ')' :: more ∧ .code '\n' ∉ arguments

private theorem oneLine_of_inert {arguments : List Piece} (inert : AllInert arguments)
    (no_feed : .code '\n' ∉ arguments) : OneLine arguments := by
  intro side c member
  obtain ⟨piece, piece_mem, member⟩ := List.mem_flatMap.mp member
  cases piece with
  | code other =>
    obtain rfl := List.mem_singleton.mp member
    rintro rfl
    exact no_feed piece_mem
  | literal body =>
    simp only [Piece.text, List.mem_cons, List.mem_append, List.not_mem_nil, or_false] at member
    rcases member with rfl | member | rfl
    · decide
    · exact (inert body piece_mem side).literal.no_feed c member
    · decide

private theorem exists_run_value {cursor : Cursor} {arguments more : List Char}
    (rest_eq : cursor.rest = arguments ++ ')' :: more) (is_line : ∀ c ∈ arguments, c ≠ '\n') :
    ∃ stop, (all [.group "value" line, mark ')']).run cursor some = some stop ∧
      stop.groups.lookup "target" = cursor.groups.lookup "target" := by
  have accepted : (all [.group "value" line, mark ')']).Accepts (arguments ++ [')']) :=
    ⟨arguments, [')'], rfl, accepts_line.mpr is_line, [')'], [], rfl, accepts_mark.mpr rfl, rfl⟩
  have split_eq : cursor.rest = (arguments ++ [')']) ++ more := by simp [rest_eq]
  obtain ⟨way, way_mem, -⟩ := mem_ways_of_accepts (by rfl) accepted split_eq
  obtain ⟨stop, stop_eq⟩ := Option.isSome_iff_exists.mp (run_isSome_of_mem_ways way_mem)
  refine ⟨stop, stop_eq, ?_⟩
  -- Whichever stop is the first, the value is the only group it records.
  obtain ⟨value, middle, -, -, value_groups, found⟩ :=
    group_of_mem_ways rfl (mem_ways_of_run stop_eq)
  obtain ⟨_, _, -, -, closing_groups, found⟩ := plain_of_mem_ways [mark ')'] rfl found
  rw [eq_of_mem_ways_empty found, closing_groups, value_groups]
  rfl

theorem tailSteps_fill (inert : AllInert pieces) (closed : ClosedCalls "sendKeys" pieces) :
    TailSteps pieces (callTail "sendKeys" (.group "value" line)) where
  inside body member side left cursor suffix inside :=
    run_eq_none_of_ways (fails_inside (by rfl) (by rfl) (inert body member side).no_fill suffix
      inside [.group "value" line, mark ')'])
  alike rest cursor suffix aligned same := by
    have head_alike : Alike (SameStop pieces) fun side =>
        (all (blanks :: [mark '.', blanks, text "sendKeys", blanks, mark '('])).run (cursor side)
          fun stop => (all [.group "value" line, mark ')']).run stop some := by
      refine alike_run (by rfl) (by rfl) aligned ?_
      rintro _ after stop rest_eq ⟨gap, call, rfl, -, call_accepted⟩ stop_aligned groups_eq
      obtain ⟨front, rfl⟩ := suffix
      obtain ⟨arguments, more, rfl, no_feed⟩ := closed (front ++ gap.map .code) call after
        (by simp [rest_eq]) call_accepted
      have arguments_inert : AllInert arguments := fun body member =>
        inert body (by simp [rest_eq, member])
      have is_line := oneLine_of_inert arguments_inert no_feed
      have value_eq := fun side =>
        exists_run_value (by simpa using stop_aligned side) (is_line side)
      obtain ⟨old, old_eq, old_target⟩ := value_eq .old
      obtain ⟨new, new_eq, new_target⟩ := value_eq .new
      refine .of_some old_eq new_eq ?_
      obtain ⟨target, is_target, within, old_lookup, new_lookup⟩ := same
      refine ⟨target, is_target, within, ?_, ?_⟩
      · rw [old_target, groups_eq rfl, old_lookup]
      · rw [new_target, groups_eq rfl, new_lookup]
    exact head_alike

end Tails

section Target

variable {pieces : List Piece} {tail : Pattern}

/-- What a target is taken of, behind what may stand in front of it. -/
def targetGroup : Pattern :=
  .group "target" (.either (.all [lookupHead, shortLine, mark ')']) word)

/-- The part of an element call behind the character that it needs in front of its target. -/
def qualified (tail : Pattern) : Pattern :=
  .seq (.all [thisDot, targetGroup]) tail

/-- Neither a name nor a lookup with a call behind it stands inside a literal. -/
theorem run_targetGroup_inside (inert : AllInert pieces) (steps : TailSteps pieces tail)
    {body : Side → List Char} (member : .literal body ∈ pieces) (side : Side) {left : List Char}
    {cursor : Cursor} (suffix : left <:+ body side) (inside : Inside left cursor) :
    targetGroup.run cursor (fun stop => tail.run stop some) = none := by
  have no_lookup : (Pattern.all [lookupHead, shortLine, mark ')']).ways cursor = [] := by
    rw [List.eq_nil_iff_forall_not_mem]
    intro stop found
    obtain ⟨_, head_found, -⟩ := exists_of_mem_ways_seq found
    obtain ⟨middle, word_found, head_found⟩ := exists_of_mem_ways_seq head_found
    obtain ⟨name, rest, left_eq, -, middle_inside⟩ := inside.of_mem_ways (by decide) word_found
    have none_eq := fails_inside (by rfl) (by rfl) (inert body member side).no_lookup
      (suffix_of_append suffix left_eq) middle_inside []
    rw [List.append_nil] at none_eq
    exact List.not_mem_nil (none_eq ▸ head_found)
  have no_name : word.run cursor
      (fun stop => tail.run (cursor.close "target" stop) some) = none := by
    refine inside.run_eq_none (by decide) fun taken rest stop left_eq _ stop_inside => ?_
    exact steps.inside body member side rest _ (suffix_of_append suffix left_eq) stop_inside
  have either_eq : targetGroup.run cursor (fun stop => tail.run stop some)
      = ((Pattern.all [lookupHead, shortLine, mark ')']).run cursor
          (fun stop => tail.run (cursor.close "target" stop) some)
        <|> word.run cursor fun stop => tail.run (cursor.close "target" stop) some) := rfl
  rw [either_eq, run_eq_none_of_ways no_lookup, no_name]
  rfl

private theorem run_qualified_inside (inert : AllInert pieces) (steps : TailSteps pieces tail)
    {body : Side → List Char} (member : .literal body ∈ pieces) (side : Side) {left : List Char}
    {cursor : Cursor} (suffix : left <:+ body side) (inside : Inside left cursor) :
    (qualified tail).run cursor some = none := by
  have this_none : thisDot.run cursor
      (fun stop => targetGroup.run stop fun last => tail.run last some) = none := by
    refine inside.run_eq_none (by decide) fun _ _ _ left_eq _ stop_inside => ?_
    exact run_targetGroup_inside inert steps member side (suffix_of_append suffix left_eq)
      stop_inside
  exact this_none

private theorem close_groups {target rest : List Piece} {side : Side} {start stop : Cursor}
    (start_eq : start.rest = spelled side (target ++ rest))
    (stop_eq : stop.rest = spelled side rest) (name : String) :
    (start.close name stop).groups = (name, spelled side target) :: stop.groups := by
  have taken_eq : start.rest.take (start.rest.length - stop.rest.length) = spelled side target := by
    rw [start_eq, stop_eq, spelled_append, List.length_append, Nat.add_sub_cancel, List.take_left]
  rw [Cursor.close, taken_eq]

section Aligned

variable {rest : List Piece} {cursor : Side → Cursor}

/-- The target is recorded, and the part behind it is run in step. -/
theorem TailSteps.alike_close (steps : TailSteps pieces tail) (suffix : rest <:+ pieces)
    (aligned : Aligned rest cursor) {target after : List Piece} (rest_eq : rest = target ++ after)
    (is_target : TargetPieces target) {stop : Side → Cursor} (stop_aligned : Aligned after stop) :
    Alike (SameStop pieces) fun side =>
      tail.run ((cursor side).close "target" (stop side)) some := by
  have recorded : ∀ side, ((cursor side).close "target" (stop side)).groups.lookup "target"
      = some (spelled side target) := by
    intro side
    have start_eq := aligned side
    rw [rest_eq] at start_eq
    rw [close_groups start_eq (stop_aligned side)]
    rfl
  have after_suffix : after <:+ pieces := suffix_of_append suffix rest_eq
  have within : target ⊆ pieces := fun piece member =>
    suffix.subset (rest_eq ▸ List.mem_append_left after member)
  exact steps.alike after (fun side => (cursor side).close "target" (stop side)) after_suffix
    stop_aligned ⟨target, is_target, within, recorded .old, recorded .new⟩

private theorem alike_targetGroup (inert : AllInert pieces) (steps : TailSteps pieces tail)
    (suffix : rest <:+ pieces) (aligned : Aligned rest cursor) :
    Alike (SameStop pieces) fun side =>
      targetGroup.run (cursor side) fun stop => tail.run stop some := by
  let recorded (side : Side) (stop : Cursor) : Option Cursor :=
    tail.run ((cursor side).close "target" stop) some
  -- The target is a name, or a lookup up to one of its parentheses.
  have named : Alike (SameStop pieces) fun side => word.run (cursor side) (recorded side) := by
    refine alike_run (by rfl) (by decide) aligned ?_
    intro name after stop rest_eq accepted stop_aligned _
    exact steps.alike_close suffix aligned rest_eq (.name accepted) stop_aligned
  have looked_up : Alike (SameStop pieces) fun side =>
      (Pattern.all [lookupHead, shortLine, mark ')']).run (cursor side) (recorded side) := by
    have after_head : Goes lookupHead rest cursor (SameStop pieces) fun side stop =>
        shortLine.run stop fun closing => (all [mark ')']).run closing (recorded side) := by
      intro head middle at_argument rest_eq head_accepted argument_aligned _
      have within : ∀ body, .literal body ∈ middle → .literal body ∈ pieces := fun body member =>
        suffix.subset (rest_eq ▸ List.mem_append_right _ member)
      -- A parenthesis inside a literal has no call behind it.
      have doomed : Doomed middle fun side closing =>
          (all [mark ')']).run closing (recorded side) := by
        intro body member side
        refine ⟨(inert body (within body member) side).literal.no_feed, ?_⟩
        intro left closing left_suffix inside
        refine inside.run_eq_none (by decide) fun _ more stop left_eq _ stop_inside => ?_
        exact steps.inside body (within body member) side more _
          (suffix_of_append left_suffix left_eq) stop_inside
      refine alike_run_shortLine argument_aligned doomed ?_
      intro argument closing_pieces closing middle_eq is_line closing_aligned _
      refine alike_run (by rfl) (by decide) closing_aligned ?_
      rintro _ after stop closing_eq ⟨_, _, rfl, is_mark, rfl⟩ stop_aligned _
      obtain rfl := accepts_mark.mp is_mark
      refine steps.alike_close suffix aligned ?_ (.lookup head_accepted is_line) stop_aligned
      rw [rest_eq, middle_eq, closing_eq]
      simp
    have head_alike : Alike (SameStop pieces) fun side => lookupHead.run (cursor side) fun stop =>
        shortLine.run stop fun closing => (all [mark ')']).run closing (recorded side) :=
      alike_run (by rfl) (by decide) aligned after_head
    exact head_alike
  exact looked_up.orElse named

theorem alike_qualified (inert : AllInert pieces) (steps : TailSteps pieces tail)
    (suffix : rest <:+ pieces) (aligned : Aligned rest cursor) :
    Alike (SameStop pieces) fun side => (qualified tail).run (cursor side) some := by
  have this_alike : Alike (SameStop pieces) fun side => thisDot.run (cursor side) fun stop =>
      targetGroup.run stop fun last => tail.run last some := by
    refine alike_run (by rfl) (by decide) aligned ?_
    intro taken after stop rest_eq _ stop_aligned _
    have after_suffix : after <:+ pieces := suffix_of_append suffix rest_eq
    exact alike_targetGroup inert steps after_suffix stop_aligned
  exact this_alike

end Aligned

def endsName (c : Char) : Bool :=
  !Text.isWordChar c && c != '.'

theorem run_elementCall (method : String) (arguments : Pattern) (cursor : Cursor) :
    (elementCall method arguments).run cursor some
      = ((if cursor.previous.isNone then
            (qualified (callTail method arguments)).run cursor some else none) <|>
          (one endsName).run cursor fun stop =>
            (qualified (callTail method arguments)).run stop some) := rfl

section Front

variable {method : String} {arguments : Pattern} (inert : AllInert pieces)
  (steps : TailSteps pieces (callTail method arguments)) {rest : List Piece}
  {cursor : Side → Cursor}

include inert steps

/-- The opening quote of a literal ends a name too, but no target follows it. -/
theorem alike_endsName (suffix : rest <:+ pieces) (aligned : Aligned rest cursor) :
    Alike (SameStop pieces) fun side => (one endsName).run (cursor side) fun stop =>
      (qualified (callTail method arguments)).run stop some := by
  cases rest with
  | nil => exact .none fun side => run_one_nil (aligned side)
  | cons piece rest =>
    have rest_suffix : rest <:+ pieces := (List.suffix_cons piece rest).trans suffix
    cases piece with
    | code c =>
      let call : Pattern := qualified (callTail method arguments)
      have step_eq : ∀ side, (one endsName).run (cursor side) (fun stop => call.run stop some)
          = if endsName c then call.run ((cursor side).step c (spelled side rest)) some
            else none :=
        fun side => run_one_cons (aligned side)
      by_cases ends : endsName c = true
      · have step_aligned : Aligned rest fun side => (cursor side).step c (spelled side rest) :=
          fun _ => rfl
        have same : Alike (SameStop pieces) _ :=
          alike_qualified inert steps rest_suffix step_aligned
        exact same.congr fun side => by rw [step_eq, if_pos ends]
      · exact .none fun side => by rw [step_eq, if_neg ends]
    | literal body =>
      refine .none fun side => ?_
      have rest_eq := aligned side
      rw [spelled_literal] at rest_eq
      rw [run_one_cons rest_eq, if_pos (by decide)]
      exact run_qualified_inside inert steps (suffix.subset List.mem_cons_self) side List.suffix_rfl
        ⟨spelled side rest, rfl⟩

private theorem alike_run_elementCall (suffix : rest <:+ pieces) (aligned : Aligned rest cursor)
    (same_start : (cursor .old).previous.isSome = (cursor .new).previous.isSome) :
    Alike (SameStop pieces) fun side => (elementCall method arguments).run (cursor side) some := by
  have at_start : Alike (SameStop pieces) fun side => if (cursor side).previous.isNone then
      (qualified (callTail method arguments)).run (cursor side) some else none := by
    have same_none : ∀ side, (cursor side).previous.isNone = (cursor .old).previous.isNone := by
      intro side
      cases side with
      | old => rfl
      | new => rw [← Option.not_isSome, ← Option.not_isSome, same_start]
    simp only [same_none]
    split
    · exact alike_qualified inert steps suffix aligned
    · exact .none fun _ => rfl
  exact (at_start.orElse (alike_endsName inert steps suffix aligned)).congr fun side =>
    run_elementCall method arguments (cursor side)

/-- Two statements that differ in inert literals only have the same element calls. -/
theorem alike_elementCall : Alike (SameTarget pieces) fun side =>
    ((elementCall method arguments).find? (spelled side pieces)).map Match.groups := by
  refine alike_findFrom? ?_ ?_ ?_ rfl
  · intro rest cursor suffix aligned _ same_start
    exact alike_run_elementCall inert steps suffix aligned same_start
  · intro rest cursor suffix rest_eq _ has_previous
    -- The closing quote ends a name, and behind it both texts go on in code.
    have step_aligned : Aligned rest fun side => (cursor side).step '"' (spelled side rest) :=
      fun _ => rfl
    have same : Alike (SameStop pieces) _ := alike_qualified inert steps suffix step_aligned
    refine same.congr fun side => ?_
    have not_start : (cursor side).previous.isNone = false :=
      Option.isNone_eq_false_iff.mpr (has_previous side)
    rw [run_elementCall, not_start, run_one_cons (rest_eq side)]
    rfl
  · intro body member side left cursor suffix nonempty has_previous inside
    cases left with
    | nil => exact absurd rfl nonempty
    | cons c left =>
      obtain ⟨more, rest_eq⟩ := inside
      have step_inside : Inside left (cursor.step c (left ++ '"' :: more)) := ⟨more, rfl⟩
      have qualified_none := run_qualified_inside inert steps member side
        ((List.suffix_cons c left).trans suffix) step_inside
      have not_start : cursor.previous.isNone = false :=
        Option.isNone_eq_false_iff.mpr has_previous
      rw [List.cons_append] at rest_eq
      rw [run_elementCall, not_start, run_one_cons rest_eq, qualified_none, ite_self]
      rfl

end Front

end Target

end SuiteMigration.Page
