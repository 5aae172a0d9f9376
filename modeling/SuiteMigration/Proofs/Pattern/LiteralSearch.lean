import SuiteMigration.Proofs.Pattern.Lockstep

/-!
# Searching texts that differ in their literals

Inside a literal a pattern that takes no quote stays there. Where nothing is found inside the
literals, a search of two texts that differ in their bodies only is in step, and finds the same.
-/
namespace SuiteMigration.Pattern

/-- The cursor stands in a literal, in front of what is left of the body. -/
def Inside (left : List Char) (cursor : Cursor) : Prop :=
  ∃ more, cursor.rest = left ++ '"' :: more

section Inside

variable {pattern : Pattern} {left body more : List Char} {cursor stop : Cursor} {α : Type}
  {accept : Cursor → Option α}

/-- A pattern that takes no quote does not leave a literal. -/
theorem Inside.of_mem_ways (inside : Inside left cursor) (avoided : pattern.avoids '"' = true)
    (found : stop ∈ pattern.ways cursor) :
    ∃ taken rest, left = taken ++ rest ∧ pattern.Accepts taken ∧ Inside rest stop := by
  obtain ⟨more, rest_eq⟩ := inside
  obtain ⟨taken, taken_eq, accepted⟩ := accepts_of_mem_ways found
  have no_quote := not_mem_of_accepts avoided accepted
  rcases List.append_eq_append_iff.mp (rest_eq.symm.trans taken_eq) with
    ⟨beyond, taken_eq, quote_eq⟩ | ⟨rest, left_eq, stop_eq⟩
  · cases beyond with
    | nil => exact ⟨taken, [], by simp [taken_eq], accepted, more, quote_eq.symm⟩
    | cons c beyond =>
      obtain ⟨rfl, -⟩ := List.cons.inj quote_eq
      simp [taken_eq] at no_quote
  · exact ⟨taken, rest, left_eq, accepted, more, stop_eq⟩

/-- Where nothing is accepted inside a literal, a run that takes no quote accepts nothing there. -/
theorem Inside.run_eq_none (inside : Inside left cursor) (avoided : pattern.avoids '"' = true)
    (doomed : ∀ taken rest stop, left = taken ++ rest → pattern.Accepts taken → Inside rest stop →
      accept stop = none) : pattern.run cursor accept = none := by
  rw [run_eq_findSome?, List.findSome?_eq_none_iff]
  intro stop found
  obtain ⟨taken, rest, left_eq, accepted, stop_inside⟩ := inside.of_mem_ways avoided found
  exact doomed taken rest stop left_eq accepted stop_inside

theorem run_shortLine (cursor : Cursor) (accept : Cursor → Option α) :
    shortLine.run cursor accept
      = (accept cursor <|> lineChar.run cursor fun next => shortLine.run next accept) :=
  run_many rfl false cursor accept

theorem run_shortLine_cons {c : Char} (rest_eq : cursor.rest = c :: more) :
    shortLine.run cursor accept
      = (accept cursor
        <|> if c ≠ '\n' then shortLine.run (cursor.step c more) accept else none) := by
  rw [run_shortLine, lineChar, run_one_cons rest_eq]
  simp

/-- A short line takes the whole of a literal inside which nothing is accepted. -/
theorem run_shortLine_inside (no_feed : ∀ c ∈ body, c ≠ '\n')
    (rest_eq : cursor.rest = body ++ '"' :: more)
    (doomed : ∀ left stop, left <:+ body → Inside left stop → accept stop = none) :
    ∃ stop, stop.rest = more ∧ stop.groups = cursor.groups ∧
      shortLine.run cursor accept = shortLine.run stop accept := by
  have here := doomed body cursor List.suffix_rfl ⟨more, rest_eq⟩
  induction body generalizing cursor with
  | nil =>
    refine ⟨cursor.step '"' more, rfl, rfl, ?_⟩
    rw [run_shortLine_cons rest_eq, here]
    rfl
  | cons c body ih =>
    have split := List.forall_mem_cons.mp no_feed
    have later := fun left stop (suffix : left <:+ body) =>
      doomed left stop (suffix.trans (List.suffix_cons c body))
    have step_eq : (cursor.step c (body ++ '"' :: more)).rest = body ++ '"' :: more := rfl
    obtain ⟨stop, stop_eq, groups_eq, run_eq⟩ :=
      ih split.2 step_eq later (later body _ List.suffix_rfl ⟨more, rfl⟩)
    refine ⟨stop, stop_eq, groups_eq, ?_⟩
    rw [run_shortLine_cons rest_eq, here, if_pos split.1, ← run_eq]
    rfl

end Inside

section Lines

variable {pieces : List Piece} {cursor : Side → Cursor} {α : Type} {related : α → α → Prop}
  {accept : Side → Cursor → Option α}

def OneLine (pieces : List Piece) : Prop :=
  ∀ side, ∀ c ∈ spelled side pieces, c ≠ '\n'

/-- Are the bodies of the literals on one line, and nothing accepted inside them? -/
def Doomed (pieces : List Piece) (accept : Side → Cursor → Option α) : Prop :=
  ∀ body, .literal body ∈ pieces → ∀ side, (∀ c ∈ body side, c ≠ '\n') ∧
    ∀ left stop, left <:+ body side → Inside left stop → accept side stop = none

/-- A short line is run in step where it is not left inside a literal. -/
theorem alike_run_shortLine (aligned : Aligned pieces cursor) (doomed : Doomed pieces accept)
    (next : ∀ taken rest (stop : Side → Cursor), pieces = taken ++ rest → OneLine taken →
      Aligned rest stop → (∀ side, (stop side).groups = (cursor side).groups) →
      Alike related fun side => accept side (stop side)) :
    Alike related fun side => shortLine.run (cursor side) (accept side) := by
  have here : Alike related fun side => accept side (cursor side) :=
    next [] pieces cursor rfl (fun _ => by simp) aligned fun _ => rfl
  induction pieces generalizing cursor with
  | nil =>
    refine here.congr fun side => ?_
    rw [run_shortLine, lineChar, run_one_nil (aligned side)]
    cases accept side (cursor side) <;> rfl
  | cons piece pieces ih =>
    have later : Doomed pieces accept := fun body member =>
      doomed body (List.mem_cons_of_mem piece member)
    -- Behind the first piece both texts go on in step.
    have goes_on : ∀ stop : Side → Cursor, OneLine [piece] → Aligned pieces stop →
        (∀ side, (stop side).groups = (cursor side).groups) →
        Alike related fun side => shortLine.run (stop side) (accept side) := by
      intro stop is_line stop_aligned groups_eq
      have next_later : ∀ taken rest (last : Side → Cursor), pieces = taken ++ rest →
          OneLine taken → Aligned rest last → (∀ side, (last side).groups = (stop side).groups) →
          Alike related fun side => accept side (last side) := by
        intro taken rest last pieces_eq taken_line last_aligned last_groups
        refine next (piece :: taken) rest last (by rw [pieces_eq]; rfl) ?_ last_aligned
          fun side => (last_groups side).trans (groups_eq side)
        intro side c member
        rw [← List.singleton_append, spelled_append, List.mem_append] at member
        exact member.elim (is_line side c) (taken_line side c)
      exact ih stop_aligned later next_later
        (next_later [] pieces stop rfl (fun _ => by simp) stop_aligned fun _ => rfl)
    cases piece with
    | code c =>
      have run_eq : ∀ side, shortLine.run (cursor side) (accept side)
          = (accept side (cursor side) <|> if c ≠ '\n' then
            shortLine.run ((cursor side).step c (spelled side pieces)) (accept side) else none) :=
        fun side => run_shortLine_cons (aligned side)
      by_cases no_feed : c ≠ '\n'
      · have rest_alike := goes_on (fun side => (cursor side).step c (spelled side pieces))
          (fun side other member => by simp at member; exact member ▸ no_feed) (fun _ => rfl)
          fun _ => rfl
        refine (here.orElse rest_alike).congr fun side => ?_
        rw [run_eq side, if_pos no_feed]
      · -- A line feed ends the line in both texts.
        refine here.congr fun side => ?_
        rw [run_eq side, if_neg no_feed]
        cases accept side (cursor side) <;> rfl
    | literal body =>
      -- The line passes a literal as a whole, for nothing is accepted inside.
      have passes : ∀ side, ∃ stop, stop.rest = spelled side pieces ∧
          stop.groups = (cursor side).groups ∧
          shortLine.run (cursor side) (accept side)
            = (accept side (cursor side) <|> shortLine.run stop (accept side)) := by
        intro side
        obtain ⟨no_feed, nothing⟩ := doomed body List.mem_cons_self side
        have rest_eq := aligned side
        rw [spelled_literal] at rest_eq
        have step_eq : ((cursor side).step '"' (body side ++ '"' :: spelled side pieces)).rest
            = body side ++ '"' :: spelled side pieces := rfl
        obtain ⟨stop, stop_eq, groups_eq, run_eq⟩ := run_shortLine_inside no_feed step_eq nothing
        refine ⟨stop, stop_eq, groups_eq, ?_⟩
        rw [run_shortLine_cons rest_eq, if_pos (by decide), run_eq]
      let stop (side : Side) : Cursor := (passes side).choose
      have stop_spec := fun side => (passes side).choose_spec
      have is_line : OneLine [.literal body] := by
        intro side c member
        have no_feed := (doomed body List.mem_cons_self side).1
        simp only [spelled_literal, spelled_nil, List.mem_cons, List.mem_append,
          List.not_mem_nil, or_false] at member
        rcases member with rfl | member | rfl
        · decide
        · exact no_feed c member
        · decide
      have rest_alike := goes_on stop is_line (fun side => (stop_spec side).1)
        fun side => (stop_spec side).2.1
      exact (here.orElse rest_alike).congr fun side => (stop_spec side).2.2

end Lines

section Search

variable {pattern : Pattern} {pieces : List Piece} {c : Char} {rest left body more : List Char}

theorem groups_findFrom?_cons (pattern : Pattern) (previous : Option Char) (c : Char)
    (rest : List Char) :
    (pattern.findFrom? previous (c :: rest)).map Match.groups
      = ((pattern.run ⟨previous, c :: rest, []⟩ some).map Cursor.groups
        <|> (pattern.findFrom? (some c) rest).map Match.groups) := by
  rw [findFrom?.eq_def]
  split
  · next stop run_eq =>
    rw [run_eq]
    rfl
  · next run_eq =>
    rw [run_eq]
    simp only [Option.map_map]
    rfl

private theorem groups_findFrom?_nil (pattern : Pattern) (previous : Option Char) :
    (pattern.findFrom? previous []).map Match.groups
      = (pattern.run ⟨previous, [], []⟩ some).map Cursor.groups := by
  rw [findFrom?.eq_def]
  split
  · next stop run_eq =>
    rw [run_eq]
    rfl
  · next run_eq =>
    rw [run_eq]
    rfl

/-- Does no match begin inside the literal, in front of its closing quote? -/
def FailsInside (pattern : Pattern) (body : List Char) : Prop :=
  ∀ left cursor, left <:+ body → left ≠ [] → cursor.previous.isSome = true → Inside left cursor →
    pattern.run cursor some = none

/-- A search that nothing stops inside a literal comes to its closing quote. -/
theorem groups_findFrom?_inside (fails : FailsInside pattern body) (c : Char) :
    ∃ last, (pattern.findFrom? (some c) (body ++ '"' :: more)).map Match.groups
      = (pattern.findFrom? (some last) ('"' :: more)).map Match.groups := by
  induction body generalizing c with
  | nil => exact ⟨c, rfl⟩
  | cons next body ih =>
    have here := fails (next :: body) ⟨some c, next :: body ++ '"' :: more, []⟩ List.suffix_rfl
      (List.cons_ne_nil next body) rfl ⟨more, rfl⟩
    have later : FailsInside pattern body := fun left cursor suffix =>
      fails left cursor (suffix.trans (List.suffix_cons next body))
    obtain ⟨last, last_eq⟩ := ih later next
    refine ⟨last, ?_⟩
    rw [List.cons_append, groups_findFrom?_cons, ← List.cons_append, here, last_eq]
    rfl

/-- Two searches are in step, if the pattern is run in step from every place in the code and from
every closing quote, and no match begins inside a literal. -/
theorem alike_findFrom? {related : List (String × List Char) → List (String × List Char) → Prop}
    (begins : ∀ rest cursor, rest <:+ pieces → Aligned rest cursor →
      (∀ side, (cursor side).groups = []) →
      (cursor .old).previous.isSome = (cursor .new).previous.isSome →
      Alike (fun old new => related old.groups new.groups) fun side =>
        pattern.run (cursor side) some)
    (closes : ∀ rest (cursor : Side → Cursor), rest <:+ pieces →
      (∀ side, (cursor side).rest = '"' :: spelled side rest) →
      (∀ side, (cursor side).groups = []) → (∀ side, (cursor side).previous.isSome = true) →
      Alike (fun old new => related old.groups new.groups) fun side =>
        pattern.run (cursor side) some)
    (fails : ∀ body, .literal body ∈ pieces → ∀ side, FailsInside pattern (body side))
    {previous : Side → Option Char} (same_start : (previous .old).isSome = (previous .new).isSome) :
    Alike related fun side =>
      (pattern.findFrom? (previous side) (spelled side pieces)).map Match.groups := by
  induction pieces generalizing previous with
  | nil =>
    refine (begins [] (fun side => ⟨previous side, [], []⟩) List.suffix_rfl (fun _ => rfl)
      (fun _ => rfl) same_start).map.congr fun side => ?_
    rw [spelled_nil, groups_findFrom?_nil]
  | cons piece pieces ih =>
    have suffix : pieces <:+ piece :: pieces := List.suffix_cons piece pieces
    -- A match begins here, or it is looked for behind the piece.
    have here := begins (piece :: pieces)
      (fun side => ⟨previous side, spelled side (piece :: pieces), []⟩) List.suffix_rfl
      (fun _ => rfl) (fun _ => rfl) same_start
    have later := @ih (fun rest cursor part => begins rest cursor (part.trans suffix))
      (fun rest cursor part => closes rest cursor (part.trans suffix))
      (fun body member => fails body (List.mem_cons_of_mem piece member))
    cases piece with
    | code c =>
      have rest_alike := @later (fun _ => some c) rfl
      refine (here.map.orElse rest_alike).congr fun side => ?_
      rw [spelled_code, groups_findFrom?_cons]
    | literal body =>
      -- Inside a literal nothing begins, so the next place that counts is its closing quote.
      have closing : ∀ side, ∃ last,
          (pattern.findFrom? (some '"') (body side ++ '"' :: spelled side pieces)).map Match.groups
            = (pattern.findFrom? (some last) ('"' :: spelled side pieces)).map Match.groups :=
        fun side => groups_findFrom?_inside (fails body List.mem_cons_self side) '"'
      let last (side : Side) : Char := (closing side).choose
      have quote := closes pieces (fun side => ⟨some (last side), '"' :: spelled side pieces, []⟩)
        suffix (fun _ => rfl) (fun _ => rfl) fun _ => rfl
      have rest_alike := @later (fun _ => some '"') rfl
      refine (here.map.orElse (quote.map.orElse rest_alike)).congr fun side => ?_
      rw [spelled_literal, groups_findFrom?_cons, (closing side).choose_spec,
        groups_findFrom?_cons]

/-- A pattern that takes no quote is found in both texts or in neither, if not inside a literal. -/
theorem occursIn_spelled_eq (free : pattern.isFree = true) (avoided : pattern.avoids '"' = true)
    (absent : ∀ body, .literal body ∈ pieces → ∀ side, pattern.occursIn (body side) = false) :
    pattern.occursIn (spelled .old pieces) = pattern.occursIn (spelled .new pieces) := by
  have any_run : ∀ {rest : List Piece} {cursor : Side → Cursor}, Aligned rest cursor →
      Alike (fun _ _ => True) fun side => pattern.run (cursor side) some := fun aligned =>
    alike_run free avoided aligned fun _ _ stop _ _ _ _ => .some stop trivial fun _ => rfl
  have same : Alike (fun _ _ => True) fun side =>
      (pattern.find? (spelled side pieces)).map Match.groups := by
    refine alike_findFrom? (fun _ _ _ aligned _ _ => any_run aligned) ?_ ?_ rfl
    · intro rest cursor _ rest_eq _ _
      have aligned : Aligned (.code '"' :: rest) cursor := rest_eq
      exact any_run aligned
    · rintro body member side left cursor ⟨front, body_eq⟩ - - inside
      rw [run_eq_findSome?, List.findSome?_eq_none_iff]
      intro stop found
      obtain ⟨taken, rest, left_eq, accepted, -⟩ := inside.of_mem_ways avoided found
      have occurs := occursIn_of_accepts free accepted (body_eq.symm.trans (by rw [left_eq]))
      rw [absent body member side] at occurs
      cases occurs
  have isSome_eq := same.isSome_eq
  rwa [Option.isSome_map, Option.isSome_map] at isSome_eq

theorem groups_find?_anchored (pattern : Pattern) (text : List Char) :
    ((seq .atStart pattern).find? text).map Match.groups
      = (pattern.run ⟨none, text, []⟩ some).map Cursor.groups := by
  have run_eq : (seq .atStart pattern).run ⟨none, text, []⟩ some
      = pattern.run ⟨none, text, []⟩ some := rfl
  cases text with
  | nil => rw [find?, groups_findFrom?_nil, run_eq]
  | cons c text =>
    rw [find?, groups_findFrom?_cons, run_eq, findFrom?_anchored_some, Option.map_none]
    cases (pattern.run ⟨none, c :: text, []⟩ some).map Cursor.groups <;> rfl

/-- A text that the parts accept as a whole is found from its start to its end. -/
theorem isSome_find?_whole {parts : List Pattern} {text : List Char}
    (free : (all parts).isFree = true) (accepted : (all parts).Accepts text) :
    ((all (.atStart :: (parts ++ [.atEnd]))).find? text).isSome = true := by
  let cursor : Cursor := ⟨none, text, []⟩
  have rest_eq : cursor.rest = text ++ [] := (List.append_nil text).symm
  obtain ⟨middle, parts_found, middle_eq⟩ := mem_ways_of_accepts free accepted rest_eq
  have end_found : middle ∈ (all [.atEnd]).ways middle := by simp [all, ways, middle_eq]
  have found := run_isSome_of_mem_ways (mem_ways_all_append parts_found end_found)
  rw [← Option.isSome_map, all, List.foldr_cons, groups_find?_anchored, Option.isSome_map]
  exact found

/-- An anchored match that takes no quote is one of both texts. -/
theorem isSome_find?_anchored_eq (free : pattern.isFree = true)
    (avoided : pattern.avoids '"' = true) :
    ((seq .atStart pattern).find? (spelled .old pieces)).isSome
      = ((seq .atStart pattern).find? (spelled .new pieces)).isSome := by
  have aligned : Aligned pieces fun side => ⟨none, spelled side pieces, []⟩ := fun _ => rfl
  have same : Alike (fun _ _ => True) fun side =>
      pattern.run ⟨none, spelled side pieces, []⟩ some :=
    alike_run free avoided aligned fun _ _ stop _ _ _ _ => .some stop trivial fun _ => rfl
  have found_eq : ∀ side, ((seq .atStart pattern).find? (spelled side pieces)).isSome
      = (pattern.run ⟨none, spelled side pieces, []⟩ some).isSome := by
    intro side
    rw [← Option.isSome_map, groups_find?_anchored, Option.isSome_map]
  rw [found_eq, found_eq]
  exact same.isSome_eq

end Search

end SuiteMigration.Pattern
