import SuiteMigration.Proofs.Outline.Scan.Classes

/-!
# Units by position

A unit is scanned class by class. The scan of a source fails in one way only: it enters a member
that begins with `;` or `=`, and the type of that member ends before it begins. In every other scan
all runs lie in the tokens and each turn of a loop takes a token, and what is found is what the
reader finds.
-/
namespace SuiteMigration.Outline.Scan

def unitFrom (tokens : List Token) (unit : SourceUnit) (pos : Nat) : Outcome SourceUnit :=
  if inside : pos < tokens.length then
    let token := tokens[pos]
    if token.isWord ["package"] then
      let name := nameFrom tokens true false (pos + 1)
      let next := (statementFrom tokens 0 name.2).2
      if taken : pos < next then unitFrom tokens { unit with package := some (String.ofList name.1) } next
      else .fail (.stuck pos)
    else if token.isWord ["import"] then
      let isStatic := tokens[pos + 1]?.any (·.isWord ["static"])
      let name := nameFrom tokens true false (if isStatic then pos + 2 else pos + 1)
      let next := (statementFrom tokens 0 name.2).2
      if taken : pos < next then unitFrom tokens (unit.addImport ⟨String.ofList name.1, isStatic⟩) next
      else .fail (.stuck pos)
    else
      match preambleFrom tokens pos with
      | .error fault => .fail fault
      | .ok (preamble, start) => do
        let (decl, behind) ← typeDeclarationAt tokens preamble start
        match decl with
        | some decl =>
          if taken : pos < behind then unitFrom tokens (unit.addClass decl) behind
          else .fail (.stuck pos)
        | none =>
          if taken : pos < behind + 1 then unitFrom tokens unit (behind + 1) else .fail (.stuck pos)
  else pure unit
termination_by tokens.length - pos
decreasing_by
  all_goals exact Nat.sub_lt_sub_left inside taken

/-- The scan of a whole source. -/
def scan (source : String) : Outcome SourceUnit :=
  unitFrom (tokenize source.toList) .empty 0

variable {tokens : List Token} {pos start : Nat}

/-- A scan finds what the reader makes of the tokens of a unit. -/
def UnitFound (tokens : List Token) (unit : SourceUnit) (run : List Token) :
    Outcome SourceUnit → Prop :=
  Agrees tokens (fun found => readUnit unit [] run = .ok found)
    (readUnit unit [] run = .error .memberWithoutName)

/-- The scan of a unit finds what the reader makes of the rest of the tokens. -/
def UnitAgrees (tokens : List Token) (pos : Nat) : Prop :=
  ∀ unit, UnitFound tokens unit (tokens.drop pos) (unitFrom tokens unit pos)

theorem UnitAgrees.turn {unit changed : SourceUnit} {run : List Token}
    (agrees : UnitAgrees tokens pos)
    (read : readUnit unit [] run = readUnit changed [] (tokens.drop pos)) :
    UnitFound tokens unit run (unitFrom tokens changed pos) := by
  rw [UnitFound, read]
  exact agrees changed

section Turn

variable (inside : pos < tokens.length)
include inside

private theorem readUnit_packageAt (unit : SourceUnit)
    (is_package : tokens[pos].isWord ["package"] = true)
    {name : List Char × Nat} (name_eq : nameFrom tokens true false (pos + 1) = name) :
    pos < (statementFrom tokens 0 name.2).2 ∧ readUnit unit [] (tokens.drop pos)
      = readUnit { unit with package := some (String.ofList name.1) } []
          (tokens.drop (statementFrom tokens 0 name.2).2) := by
  subst name_eq
  obtain ⟨le_name, name_le, split_eq⟩ := nameFrom_spec true false inside
  have ends := statementFrom_ends 0 name_le
  refine ⟨Nat.lt_of_lt_of_le le_name ends.le_next, ?_⟩
  rw [drop_of_lt inside, readUnit_package unit _ is_package]
  simp only [readName, split_eq, ends.split]

private theorem readUnit_importAt (unit : SourceUnit)
    (is_import : tokens[pos].isWord ["import"] = true)
    {isStatic : Bool} (static_eq : tokens[pos + 1]?.any (·.isWord ["static"]) = isStatic)
    {name : List Char × Nat}
    (name_eq : nameFrom tokens true false (if isStatic then pos + 2 else pos + 1) = name) :
    pos < (statementFrom tokens 0 name.2).2 ∧ readUnit unit [] (tokens.drop pos)
      = readUnit (unit.addImport ⟨String.ofList name.1, isStatic⟩) []
          (tokens.drop (statementFrom tokens 0 name.2).2) := by
  subst name_eq
  have path_le : (if isStatic then pos + 2 else pos + 1) ≤ tokens.length := by
    split
    · next is_static =>
      exact (any_getElem?_iff.mp (static_eq.trans is_static)).1
    · exact inside
  have path_eq : (if isStatic then (tokens.drop (pos + 1)).tail else tokens.drop (pos + 1))
      = tokens.drop (if isStatic then pos + 2 else pos + 1) := by
    cases isStatic <;> simp
  obtain ⟨le_name, name_le, split_eq⟩ := nameFrom_spec true false path_le
  have ends := statementFrom_ends 0 name_le
  have lt_path : pos < if isStatic then pos + 2 else pos + 1 := by
    split <;> omega
  refine ⟨Nat.lt_of_lt_of_le lt_path (Nat.le_trans le_name ends.le_next), ?_⟩
  rw [drop_of_lt inside, readUnit_import unit _ is_import]
  simp only [readImport, List.head?_drop, static_eq, path_eq, readName, split_eq, ends.split]

private theorem classTurn_agrees (unit : SourceUnit)
    (no_package : tokens[pos].isWord ["package"] = false)
    (no_import : tokens[pos].isWord ["import"] = false) {preamble : Preamble}
    (le_start : pos ≤ start) (start_le : start ≤ tokens.length)
    (preamble_eq : readPreamble (tokens.drop pos) = (preamble, tokens.drop start))
    (later : ∀ behind, pos < behind → UnitAgrees tokens behind) :
    UnitFound tokens unit (tokens.drop pos) (do
      let (decl, behind) ← typeDeclarationAt tokens preamble start
      match decl with
      | some decl =>
        if _ : pos < behind then unitFrom tokens (unit.addClass decl) behind
        else .fail (.stuck pos)
      | none =>
        if _ : pos < behind + 1 then unitFrom tokens unit (behind + 1)
        else .fail (.stuck pos)) := by
  rw [drop_of_lt inside] at preamble_eq ⊢
  refine (typeDeclarationAt_agrees start_le fun behind lt_behind behind_le =>
    bodyAgrees (Nat.zero_lt_of_lt lt_behind) behind_le).bind ?_ ?_
  · rintro ⟨decl, behind⟩ taken
    cases taken with
    | none le_next next_le head_eq =>
      -- One more token is passed over, which may lie behind all tokens.
      have lt_next : pos < behind + 1 := Nat.lt_succ_of_le (Nat.le_trans le_start le_next)
      simp only [lt_next, ↓reduceDIte]
      refine (later _ lt_next).turn ?_
      rw [readUnit_skip unit _ no_package no_import preamble_eq head_eq, List.drop_drop]
    | @some decl next head body lt_start next_le head_eq read =>
      have lt_next : pos < behind := Nat.lt_of_le_of_lt le_start lt_start
      simp only [lt_next, ↓reduceDIte]
      refine (later _ lt_next).turn ?_
      rw [readUnit_class unit _ no_package no_import preamble_eq head_eq]
      exact read unit []
  · rintro ⟨head, body, head_eq, refused⟩
    rw [readUnit_class unit _ no_package no_import preamble_eq head_eq]
    exact refused unit []

private theorem unitTurn_agrees (later : ∀ behind, pos < behind → UnitAgrees tokens behind) :
    UnitAgrees tokens pos := by
  intro unit
  rw [unitFrom]
  simp only [inside, ↓reduceDIte]
  split
  · next is_package =>
    obtain ⟨lt_next, read⟩ := readUnit_packageAt inside unit is_package rfl
    simp only [lt_next, ↓reduceDIte]
    exact (later _ lt_next).turn read
  · next no_package =>
    split
    · next is_import =>
      obtain ⟨lt_next, read⟩ := readUnit_importAt inside unit is_import rfl rfl
      simp only [lt_next, ↓reduceDIte]
      exact (later _ lt_next).turn read
    · next no_import =>
      obtain ⟨preamble, start, found_eq, le_start, start_le, preamble_eq, -⟩ :=
        preambleFrom_spec (Nat.le_of_lt inside)
      simp only [found_eq]
      exact classTurn_agrees inside unit (by simpa using no_package) (by simpa using no_import)
        le_start start_le preamble_eq later

end Turn

/-- The scan of a unit agrees with the reader from every position on. -/
theorem unitAgrees (pos : Nat) : UnitAgrees tokens pos := by
  induction pos using turns_ind tokens with
  | turn pos ih =>
    by_cases inside : pos < tokens.length
    · exact unitTurn_agrees inside fun behind lt_behind => ih behind lt_behind inside
    · intro unit
      rw [unitFrom, dif_neg inside, drop_of_not_lt inside]
      exact .pure (by rw [readUnit_nil, closeAll])

/-- The scan of a source fails exactly where it enters a member that begins with `;` or `=`, and its
fault is the run in front of that member, which is turned round. No token is looked up outside the
tokens and no turn of a loop stays where it is, and the outline is the one that the scan finds. -/
theorem scan_fails_iff (source : String) :
    (match (scan source).result with
      | .ok unit => SourceUnit.parse source = .ok unit
      | .error (.range start stop) =>
        SourceUnit.parse source = .error .memberWithoutName ∧ start ∈ (scan source).entered ∧
          Nameless (tokenize source.toList) start ∧ stop + 1 = start
      | .error (.index _) => False
      | .error (.stuck _) => False) ∧
    ((scan source).result.isOk = false ↔
      ∃ start ∈ (scan source).entered, Nameless (tokenize source.toList) start) := by
  have agrees := @unitAgrees (tokenize source.toList) 0 .empty
  rw [List.drop_zero] at agrees
  change Agrees _ _ _ (scan source) at agrees
  -- The two ways in which a scan can end are all that the statement asks about.
  generalize scan source = outcome at agrees
  cases agrees with
  | found named finds =>
    refine ⟨finds, nofun, ?_⟩
    rintro ⟨start, member, nameless⟩
    exact absurd nameless (named start member)
  | refused member not_first nameless refuses =>
    exact ⟨⟨refuses, member, nameless, Nat.sub_add_cancel not_first⟩,
      fun _ => ⟨_, member, nameless⟩, fun _ => rfl⟩

end SuiteMigration.Outline.Scan
