import SuiteMigration.Proofs.Outline.Scan.Members
import SuiteMigration.Proofs.Outline.Reading
import SuiteMigration.Proofs.Outline.Step

/-!
# Classes by position

A class is scanned member by member, with a record of where members are entered. The scan stops only
at a member that begins with `;` or `=`, where the reader refuses the source. Else each turn takes a
token, and the reader goes on where the scan does.
-/
namespace SuiteMigration.Outline.Scan

/-- What a scan comes to, and where it entered members. -/
structure Outcome (α : Type) where
  entered : List Nat
  result : Except Fault α

namespace Outcome

variable {α β : Type}

def fail (fault : Fault) : Outcome α :=
  ⟨[], .error fault⟩

def andThen (outcome : Outcome α) (next : α → Outcome β) : Outcome β :=
  match outcome.result with
  | .error fault => ⟨outcome.entered, .error fault⟩
  | .ok value => ⟨outcome.entered ++ (next value).entered, (next value).result⟩

instance : Monad Outcome where
  pure value := ⟨[], .ok value⟩
  bind := andThen

end Outcome

section Definitions

variable (tokens : List Token)

/-- The head of a type declaration, and the position of its opening brace. -/
def typeHeadAt (pos : Nat) : Option TypeHead × Nat :=
  let first := if markAt tokens '@' pos then pos + 1 else pos
  if inside : first < tokens.length then
    if tokens[first].isWord typeWords then
      if named : first + 1 < tokens.length then
        if tokens[first + 1].kind = .ident then
          (some ⟨tokens[first + 1].name, tokens[first].line⟩, braceFrom tokens (first + 2))
        else (none, first + 1)
      else (none, first + 1)
    else (none, first)
  else (none, first)

def enterMember (preamble : Preamble) (start : Nat) : Outcome (Option Member × Nat) :=
  ⟨[start], memberAt tokens preamble start⟩

/-- Puts a type into the class around it, if one was found. -/
def addInner (decl : ClassDecl) : Option ClassDecl → ClassDecl
  | some inner => decl.addNested inner
  | none => decl

private theorem le_preambleFrom {pos start : Nat} {preamble : Preamble}
    (inside : pos < tokens.length)
    (found : preambleFrom tokens pos = .ok (preamble, start)) : pos ≤ start := by
  obtain ⟨_, next, preamble_eq, le_next, -⟩ := preambleFrom_spec (Nat.le_of_lt inside)
  obtain ⟨-, rfl⟩ := Prod.mk.inj (Except.ok.inj (found.symm.trans preamble_eq))
  exact le_next

/-- The head of a type takes its keyword, and ends at a brace or with the tokens. -/
theorem typeHeadAt_some {pos brace : Nat} {head : TypeHead}
    (found : typeHeadAt tokens pos = (some head, brace)) :
    pos < brace ∧ (¬markAt tokens '\x7b' brace → tokens.drop brace = []) := by
  have le_first : pos ≤ if markAt tokens '@' pos then pos + 1 else pos := by
    split <;> omega
  simp only [typeHeadAt] at found
  generalize (if markAt tokens '@' pos then pos + 1 else pos) = first at le_first found
  split at found
  · split at found
    · split at found
      · next named =>
        split at found
        · obtain ⟨-, rfl⟩ := Prod.mk.inj found
          have passed := (braceFrom_spec (Nat.succ_le_of_lt named)).1
          refine ⟨Nat.lt_of_le_of_lt le_first (Nat.lt_of_succ_lt passed), fun no_brace => ?_⟩
          exact drop_of_not_lt fun inside => no_brace (markAt_braceFrom inside)
        · cases found
      · cases found
    · cases found
  · cases found

mutual

/-- A class with its members from `pos` on, and the position behind its closing brace. -/
def classBodyFrom (decl : ClassDecl) (pos : Nat) : Outcome (ClassDecl × Nat) :=
  if inside : pos < tokens.length then
    if tokens[pos].isPunct '\x7d' then pure (decl, pos + 1)
    else if tokens[pos].isPunct ';' then classBodyFrom decl (pos + 1)
    else
      match found : preambleFrom tokens pos with
      | .error fault => .fail fault
      | .ok (preamble, start) =>
        if tokens[start]?.any fun token => token.isPunct '@' || token.isWord typeWords then do
          let (inner, behind) ← typeDeclarationAt preamble start
          -- Where no type is found, at least one token is passed over.
          let next := if inner.isNone && behind = start then behind + 1 else behind
          if taken : pos < next then classBodyFrom (addInner decl inner) next
          else .fail (.stuck pos)
        else if markAt tokens '\x7b' start then
          let next := (closeFrom tokens '\x7b' '\x7d' 0 (start + 1)).2
          if taken : pos < next then classBodyFrom decl next else .fail (.stuck pos)
        else do
          let (member, next) ← enterMember tokens preamble start
          if taken : pos < next then classBodyFrom (decl.addMember member) next
          else .fail (.stuck pos)
  else pure (decl, pos)
termination_by (tokens.length - pos, 1)
decreasing_by
  · simp only [Prod.lex_def]
    omega
  · have le_start := le_preambleFrom tokens inside found
    simp only [Prod.lex_def]
    omega
  all_goals
    simp only [Prod.lex_def]
    exact .inl (Nat.sub_lt_sub_left inside taken)

/-- The type that is declared behind a preamble, and the position behind it. -/
def typeDeclarationAt (preamble : Preamble) (pos : Nat) : Outcome (Option ClassDecl × Nat) :=
  match _ : typeHeadAt tokens pos with
  | (none, next) => pure (none, next)
  | (some head, brace) =>
    if _ : markAt tokens '\x7b' brace then do
      let (decl, next) ← classBodyFrom (openClass preamble head) (brace + 1)
      return (some decl, next)
    else pure (some (openClass preamble head), brace)
termination_by (tokens.length - pos, 0)
decreasing_by
  have lt_brace := (typeHeadAt_some tokens ‹_›).1
  have within := (any_getElem?_iff.mp ‹_›).1
  simp only [Prod.lex_def]
  omega

end

end Definitions

variable {tokens : List Token} {pos start : Nat}

/-- The head of a type behind the sign that an annotation type has. -/
def keywordHead : List Token → Option TypeHead × List Token
  | [] => (none, [])
  | [keyword] => if keyword.isWord typeWords then (none, []) else (none, [keyword])
  | keyword :: name :: rest =>
    if keyword.isWord typeWords then
      if name.kind = .ident then (some ⟨name.name, keyword.line⟩, skipToBrace 0 rest)
      else (none, name :: rest)
    else (none, keyword :: name :: rest)

private theorem readTypeHead_sign {token : Token} (is_sign : token.isPunct '@' = true)
    (rest : List Token) : readTypeHead (token :: rest) = keywordHead rest := by
  rcases rest with _ | ⟨keyword, _ | ⟨name, rest⟩⟩ <;>
    simp only [readTypeHead, is_sign, ↓reduceIte, keywordHead]

private theorem readTypeHead_plain {run : List Token}
    (no_sign : ∀ token ∈ run.head?, ¬token.isPunct '@') :
    readTypeHead run = keywordHead run := by
  cases run with
  | nil => rfl
  | cons keyword behind =>
    have plain := Bool.eq_false_iff.mpr (no_sign keyword rfl)
    cases behind with
    | nil => simp only [readTypeHead, plain, Bool.false_eq_true, ↓reduceIte, keywordHead]
    | cons name rest =>
      simp only [readTypeHead, plain, Bool.false_eq_true, ↓reduceIte, keywordHead]

private theorem typeHeadAt_spec (within : pos ≤ tokens.length) :
    pos ≤ (typeHeadAt tokens pos).2 ∧ (typeHeadAt tokens pos).2 ≤ tokens.length ∧
      readTypeHead (tokens.drop pos)
        = ((typeHeadAt tokens pos).1, tokens.drop (typeHeadAt tokens pos).2) := by
  have head_eq : readTypeHead (tokens.drop pos)
      = keywordHead (tokens.drop (if markAt tokens '@' pos then pos + 1 else pos)) := by
    split
    · next opens =>
      obtain ⟨inside, is_sign⟩ := any_getElem?_iff.mp opens
      rw [drop_of_lt inside, readTypeHead_sign is_sign]
    · next no_sign =>
      refine readTypeHead_plain fun token token_eq is_sign => no_sign ?_
      rw [List.head?_drop] at token_eq
      simp [markAt, Option.mem_def.mp token_eq, is_sign]
  have le_first : pos ≤ if markAt tokens '@' pos then pos + 1 else pos := by
    split <;> omega
  have first_le : (if markAt tokens '@' pos then pos + 1 else pos) ≤ tokens.length := by
    split
    · next opens => exact (any_getElem?_iff.mp opens).1
    · exact within
  rw [head_eq, typeHeadAt]
  -- From here on the sign in front of the keyword has been passed, if there is one.
  generalize (if markAt tokens '@' pos then pos + 1 else pos) = first at le_first first_le
  by_cases inside : first < tokens.length
  · by_cases named : first + 1 < tokens.length
    · simp only [inside, named, ↓reduceDIte, drop_of_lt inside, drop_of_lt named, keywordHead]
      split
      · split
        · obtain ⟨le_brace, brace_le, skip_eq⟩ :=
            braceFrom_spec (show first + 2 ≤ tokens.length from named)
          exact ⟨by omega, brace_le, by rw [skip_eq]⟩
        · exact ⟨Nat.le_succ_of_le le_first, inside, by rw [drop_of_lt named]⟩
      · exact ⟨le_first, first_le, by rw [drop_of_lt inside, drop_of_lt named]⟩
    · simp only [inside, named, ↓reduceDIte, drop_of_lt inside, drop_of_not_lt named, keywordHead]
      split
      · exact ⟨Nat.le_succ_of_le le_first, inside, by rw [drop_of_not_lt named]⟩
      · exact ⟨le_first, first_le, by rw [drop_of_lt inside, drop_of_not_lt named]⟩
  · simp only [inside, ↓reduceDIte, drop_of_not_lt inside, keywordHead, and_true]
    exact ⟨le_first, first_le⟩

/-- Does a member begin at the position with `;` or `=`? -/
def Nameless (tokens : List Token) (start : Nat) : Prop :=
  ∃ inside : start < tokens.length,
    tokens[start].isPunct ';' = true ∨ tokens[start].isPunct '=' = true

/-- A scan finds what the reader finds, and enters no member without a name; or it stops at such a
member, where the reader refuses the source. -/
inductive Agrees {α : Type} (tokens : List Token) (found : α → Prop) (refused : Prop) :
    Outcome α → Prop where
  | found {entered : List Nat} {value : α} (named : ∀ start ∈ entered, ¬Nameless tokens start)
      (finds : found value) : Agrees tokens found refused ⟨entered, .ok value⟩
  | refused {entered : List Nat} {start : Nat} (member : start ∈ entered) (not_first : 0 < start)
      (nameless : Nameless tokens start) (refuses : refused) :
      Agrees tokens found refused ⟨entered, .error (.range start (start - 1))⟩

namespace Agrees

variable {α β : Type} {found : α → Prop} {refused : Prop} {outcome : Outcome α}

theorem pure {value : α} (finds : found value) :
    Agrees tokens found refused (Pure.pure value : Outcome α) :=
  .found (fun _ member => nomatch member) finds

theorem mono {later : Prop} {others : α → Prop} (agrees : Agrees tokens found refused outcome)
    (finds : ∀ value, found value → others value) (refuses : refused → later) :
    Agrees tokens others later outcome := by
  cases agrees with
  | found named is_found => exact .found named (finds _ is_found)
  | refused member not_first nameless is_refused =>
    exact .refused member not_first nameless (refuses is_refused)

theorem bind {later : Prop} {others : β → Prop} {next : α → Outcome β}
    (agrees : Agrees tokens found refused outcome)
    (finds : ∀ value, found value → Agrees tokens others later (next value))
    (refuses : refused → later) : Agrees tokens others later (outcome >>= next) := by
  cases agrees with
  | @found entered value named is_found =>
    have next_agrees := finds value is_found
    show Agrees tokens others later ⟨entered ++ (next value).entered, (next value).result⟩
    generalize next value = following at next_agrees
    cases next_agrees with
    | found next_named next_finds =>
      refine .found (fun start member => ?_) next_finds
      rcases List.mem_append.mp member with before | behind
      · exact named start before
      · exact next_named start behind
    | refused member not_first nameless next_refused =>
      exact .refused (List.mem_append_right _ member) not_first nameless next_refused
  | refused member not_first nameless is_refused =>
    exact .refused member not_first nameless (refuses is_refused)

end Agrees

/-- A class was scanned to its end: the reader goes on there with the class closed. -/
structure BodyClosed (tokens : List Token) (decl : ClassDecl) (pos : Nat)
    (found : ClassDecl × Nat) : Prop where
  le_next : pos ≤ found.2
  next_le : found.2 ≤ tokens.length
  read : ∀ unit outer, readUnit unit (decl :: outer) (tokens.drop pos)
    = readUnit (closeClass unit found.1 outer).1 (closeClass unit found.1 outer).2
        (tokens.drop found.2)

def BodyRefused (tokens : List Token) (decl : ClassDecl) (pos : Nat) : Prop :=
  ∀ unit outer, readUnit unit (decl :: outer) (tokens.drop pos) = .error .memberWithoutName

def BodyAgrees (tokens : List Token) (pos : Nat) : Prop :=
  ∀ decl, Agrees tokens (BodyClosed tokens decl pos) (BodyRefused tokens decl pos)
    (classBodyFrom tokens decl pos)

/-- A type was scanned, or there was none. -/
inductive TypeTaken (tokens : List Token) (preamble : Preamble) (pos : Nat) :
    Option ClassDecl × Nat → Prop where
  | none {next : Nat} (le_next : pos ≤ next) (next_le : next ≤ tokens.length)
      (head_eq : readTypeHead (tokens.drop pos) = (none, tokens.drop next)) :
      TypeTaken tokens preamble pos (none, next)
  | some {decl : ClassDecl} {next : Nat} {head : TypeHead} {body : List Token}
      (lt_next : pos < next) (next_le : next ≤ tokens.length)
      (head_eq : readTypeHead (tokens.drop pos) = (some head, body))
      (read : ∀ unit outer, readUnit unit (openClass preamble head :: outer) (body.drop 1)
        = readUnit (closeClass unit decl outer).1 (closeClass unit decl outer).2
            (tokens.drop next)) :
      TypeTaken tokens preamble pos (some decl, next)

def TypeRefused (tokens : List Token) (preamble : Preamble) (pos : Nat) : Prop :=
  ∃ head body, readTypeHead (tokens.drop pos) = (some head, body) ∧
    ∀ unit outer, readUnit unit (openClass preamble head :: outer) (body.drop 1)
      = .error .memberWithoutName

theorem typeDeclarationAt_agrees {preamble : Preamble} (within : pos ≤ tokens.length)
    (later : ∀ behind, pos < behind → behind ≤ tokens.length → BodyAgrees tokens behind) :
    Agrees tokens (TypeTaken tokens preamble pos) (TypeRefused tokens preamble pos)
      (typeDeclarationAt tokens preamble pos) := by
  obtain ⟨le_next, next_le, head_eq⟩ := typeHeadAt_spec within
  rw [typeDeclarationAt]
  split
  · next next found_eq =>
    rw [found_eq] at le_next next_le head_eq
    exact .pure (.none le_next next_le head_eq)
  · next head brace found_eq =>
    rw [found_eq] at next_le head_eq
    obtain ⟨lt_brace, ends⟩ := typeHeadAt_some tokens found_eq
    have body_eq : (tokens.drop brace).drop 1 = tokens.drop (brace + 1) := by
      rw [List.drop_drop]
    split
    · next opens =>
      obtain ⟨inside, -⟩ := any_getElem?_iff.mp opens
      refine (later (brace + 1) (Nat.lt_succ_of_lt lt_brace) inside _).bind ?_ ?_
      · rintro ⟨decl, next⟩ closed
        refine .pure (.some (Nat.lt_of_lt_of_le (Nat.lt_succ_of_lt lt_brace) closed.le_next)
          closed.next_le head_eq fun unit outer => ?_)
        rw [body_eq, closed.read]
      · intro refused
        exact ⟨head, _, head_eq, fun unit outer => by rw [body_eq, refused]⟩
    · next no_brace =>
      -- The text ends in the head of the type.
      have end_eq := ends no_brace
      refine .pure (.some lt_brace next_le head_eq fun unit outer => ?_)
      rw [end_eq, List.drop_nil, readUnit_nil, readUnit_nil, closeAll_closeClass]

section ClassBody

variable {decl : ClassDecl} {preamble : Preamble} (not_first : 0 < pos)
  (later : ∀ behind, pos < behind → behind ≤ tokens.length → BodyAgrees tokens behind)

/-- A turn of the body of a class goes on behind `pos`, where the reader goes on, too. -/
theorem Agrees.turn {changed : ClassDecl} {next : Nat} (taken : pos < next)
    (next_le : next ≤ tokens.length)
    (read : ∀ unit outer, readUnit unit (decl :: outer) (tokens.drop pos)
      = readUnit unit (changed :: outer) (tokens.drop next))
    (later : ∀ behind, pos < behind → behind ≤ tokens.length → BodyAgrees tokens behind) :
    Agrees tokens (BodyClosed tokens decl pos) (BodyRefused tokens decl pos)
      (classBodyFrom tokens changed next) := by
  refine (later next taken next_le changed).mono (fun found closed => ?_) fun refused => ?_
  · refine ⟨Nat.le_trans (Nat.le_of_lt taken) closed.le_next, closed.next_le, fun unit outer => ?_⟩
    rw [read, closed.read]
  · exact fun unit outer => by rw [read, refused]

section Behind

variable (le_start : pos ≤ start) (inside : start < tokens.length)
  (preamble_eq : readPreamble (tokens.drop pos) = (preamble, tokens.drop start))
include preamble_eq

/-- A type in a class. -/
theorem readUnit_inner
    (begins : (tokens[start].isPunct '@' || tokens[start].isWord typeWords) = true)
    (unit : SourceUnit) (outer : List ClassDecl) :
    readUnit unit (decl :: outer) (tokens.drop pos) =
      match readTypeHead (tokens.drop start) with
      | (some head, body) =>
        readUnit unit (openClass preamble head :: decl :: outer) (body.drop 1)
      | (none, behind) => readUnit unit (decl :: outer) behind := by
  have no_mark (mark : Char) (other : '@' ≠ mark) : tokens[start].isPunct mark = false := by
    rcases Bool.or_eq_true_iff.mp begins with is_sign | is_word
    · exact Token.isPunct_of_ne is_sign other
    · exact Token.isPunct_of_isWord is_word mark
  rw [drop_of_lt inside] at preamble_eq
  rw [readUnit_inClass unit decl outer preamble_eq, drop_of_lt inside]
  rcases readTypeHead (tokens[start] :: tokens.drop (start + 1)) with ⟨_ | head, body⟩ <;>
    simp only [no_mark '\x7d' (by decide), no_mark ';' (by decide), no_mark '=' (by decide), begins,
      Bool.false_eq_true, ↓reduceIte]

include le_start later

private theorem innerTurn_agrees
    (begins : (tokens[start].isPunct '@' || tokens[start].isWord typeWords) = true) :
    Agrees tokens (BodyClosed tokens decl pos) (BodyRefused tokens decl pos) (do
      let (inner, behind) ← typeDeclarationAt tokens preamble start
      let next := if inner.isNone && behind = start then behind + 1 else behind
      if _ : pos < next then classBodyFrom tokens (addInner decl inner) next
      else .fail (.stuck pos)) := by
  have read := @readUnit_inner tokens pos start decl preamble inside preamble_eq begins
  refine (typeDeclarationAt_agrees (Nat.le_of_lt inside) fun behind lt_behind =>
    later behind (Nat.lt_of_le_of_lt le_start lt_behind)).bind ?_ ?_
  · rintro ⟨inner, behind⟩ taken
    cases taken with
    | none le_next next_le head_eq =>
      -- A head that declares no type has still passed its sign or its keyword.
      have shorter := length_readTypeHead_lt tokens[start] (tokens.drop (start + 1)) begins
      rw [← drop_of_lt inside, head_eq] at shorter
      simp only [List.length_drop] at shorter
      have not_here : behind ≠ start := by omega
      have taken : pos < behind := by omega
      simp only [Option.isNone_none, not_here, decide_false, Bool.and_false, Bool.false_eq_true,
        ↓reduceIte, taken, ↓reduceDIte]
      refine .turn taken next_le (fun unit outer => ?_) later
      rw [read, head_eq]
      rfl
    | @some inner next head body lt_next next_le head_eq inner_read =>
      have taken : pos < behind := Nat.lt_of_le_of_lt le_start lt_next
      simp only [Option.isNone_some, Bool.false_and, Bool.false_eq_true, ↓reduceIte, taken,
        ↓reduceDIte]
      refine .turn taken next_le (fun unit outer => ?_) later
      rw [read, head_eq]
      exact inner_read unit (decl :: outer)
  · rintro ⟨head, body, head_eq, refused⟩ unit outer
    rw [read, head_eq]
    exact refused unit (decl :: outer)

private theorem blockTurn_agrees (is_brace : tokens[start].isPunct '\x7b' = true) :
    Agrees tokens (BodyClosed tokens decl pos) (BodyRefused tokens decl pos)
      (if _ : pos < (closeFrom tokens '\x7b' '\x7d' 0 (start + 1)).2 then
        classBodyFrom tokens decl (closeFrom tokens '\x7b' '\x7d' 0 (start + 1)).2
      else .fail (.stuck pos)) := by
  have closes := closeFrom_closes '\x7b' '\x7d' 0 inside
  have taken : pos < (closeFrom tokens '\x7b' '\x7d' 0 (start + 1)).2 :=
    Nat.lt_of_le_of_lt le_start closes.le_next
  rw [drop_of_lt inside] at preamble_eq
  rw [dif_pos taken]
  refine .turn taken closes.le_length (fun unit outer => ?_) later
  rw [readUnit_initializer unit decl outer preamble_eq is_brace, closes.split, closes.behind]

end Behind

/-- What the scan of a member hands to the body of its class. -/
structure MemberTaken (tokens : List Token) (decl : ClassDecl) (pos : Nat)
    (found : Option Member × Nat) : Prop where
  taken : pos < found.2
  next_le : found.2 ≤ tokens.length
  read : ∀ unit outer, readUnit unit (decl :: outer) (tokens.drop pos)
    = readUnit unit (decl.addMember found.1 :: outer) (tokens.drop found.2)

/-- Where a member is entered: behind a preamble, at no type and at no block, and without a preamble
neither at a closing brace nor at a semicolon. -/
structure Entered (tokens : List Token) (preamble : Preamble) (pos start : Nat) : Prop where
  not_first : 0 < pos
  inside : pos < tokens.length
  le_start : pos ≤ start
  start_le : start ≤ tokens.length
  preamble_eq : readPreamble (tokens.drop pos) = (preamble, tokens.drop start)
  empty : preamble.isEmpty = true → start = pos
  no_closing : tokens[pos].isPunct '\x7d' = false
  no_end : tokens[pos].isPunct ';' = false
  no_type : ∀ inside : start < tokens.length,
    (tokens[start].isPunct '@' || tokens[start].isWord typeWords) = false
  no_brace : ∀ inside : start < tokens.length, tokens[start].isPunct '\x7b' = false

theorem Entered.preamble_eq_cons (entered : Entered tokens preamble pos start)
    (inside : start < tokens.length) :
    readPreamble (tokens.drop pos) = (preamble, tokens[start] :: tokens.drop (start + 1)) := by
  rw [entered.preamble_eq, drop_of_lt inside]

theorem Entered.refused (entered : Entered tokens preamble pos start)
    (nameless : Nameless tokens start) : BodyRefused tokens decl pos := by
  obtain ⟨inside, nameless⟩ := nameless
  intro unit outer
  rw [readUnit_inClass unit decl outer (entered.preamble_eq_cons inside)]
  rcases nameless with is_end | is_equals
  · -- A semicolon without a preamble is no member, and it was not at `pos`.
    have has_preamble : preamble.isEmpty = false := by
      rw [Bool.eq_false_iff]
      intro is_empty
      have no_end := entered.no_end
      simp only [← entered.empty is_empty, is_end] at no_end
      cases no_end
    simp only [Token.isPunct_of_ne is_end (by decide : ';' ≠ '\x7d'), is_end, has_preamble,
      Bool.false_eq_true, ↓reduceIte]
  · simp only [Token.isPunct_of_ne is_equals (by decide : '=' ≠ '\x7d'),
      Token.isPunct_of_ne is_equals (by decide : '=' ≠ ';'), is_equals, Bool.false_eq_true,
      ↓reduceIte]

private theorem readUnit_brace {token : Token} (is_brace : token.isPunct '\x7d' = true)
    (unit : SourceUnit) (decl : ClassDecl) (outer : List ClassDecl) (rest : List Token) :
    readUnit unit (decl :: outer) (token :: rest)
      = readUnit (closeClass unit decl outer).1 (closeClass unit decl outer).2 rest :=
  readUnit_closing unit decl outer
    (readPreamble_end (Token.isPunct_of_ne is_brace (by decide))
      (Token.isWord_of_isPunct is_brace _) rest) is_brace

/-- A member that takes no token: the class ends at it, or the text does. -/
theorem Entered.memberTaken_nothing (decl : ClassDecl)
    (entered : Entered tokens preamble pos start)
    (closing : ∀ inside : start < tokens.length, tokens[start].isPunct '\x7d' = true) :
    memberAt tokens preamble start = .ok (none, start) ∧
      MemberTaken tokens decl pos (none, start) := by
  rw [memberAt, memberFrom]
  by_cases inside : start < tokens.length
  · have is_brace := closing inside
    have other := fun mark => @Token.isPunct_of_ne tokens[start] '\x7d' is_brace mark
    -- The turn takes the preamble, which is not empty: the brace was not at `pos`.
    have not_here : start ≠ pos := by
      rintro rfl
      simp [entered.no_closing] at is_brace
    refine ⟨?_, Nat.lt_of_le_of_ne entered.le_start not_here.symm, entered.start_le, ?_⟩
    · simp only [inside, ↓reduceDIte, other '(' (by decide), other '=' (by decide),
        other ';' (by decide), other '\x7b' (by decide), is_brace, Bool.false_eq_true, ↓reduceIte]
    · intro unit outer
      rw [readUnit_closing unit decl outer (entered.preamble_eq_cons inside) is_brace,
        drop_of_lt inside, readUnit_brace is_brace]
      rfl
  · refine ⟨dif_neg inside, ?_, entered.start_le, fun unit outer => ?_⟩
    · exact Nat.lt_of_lt_of_le entered.inside (Nat.not_lt.mp inside)
    · have preamble_eq := entered.preamble_eq
      rw [drop_of_lt entered.inside, drop_of_not_lt inside] at preamble_eq
      rw [drop_of_lt entered.inside, readUnit_unfinished unit decl outer preamble_eq,
        drop_of_not_lt inside, readUnit_nil]
      rfl

private theorem enterMember_agrees (decl : ClassDecl)
    (entered : Entered tokens preamble pos start) :
    Agrees tokens (MemberTaken tokens decl pos) (BodyRefused tokens decl pos)
      (enterMember tokens preamble start) := by
  by_cases nameless : Nameless tokens start
  · obtain ⟨inside, begins⟩ := nameless
    have not_first := Nat.lt_of_lt_of_le entered.not_first entered.le_start
    rw [enterMember, memberAt_fault preamble inside not_first begins]
    exact .refused (List.mem_singleton_self start) not_first ⟨inside, begins⟩
      (entered.refused ⟨inside, begins⟩)
  have named : ∀ other ∈ [start], ¬Nameless tokens other :=
    fun other member => (List.mem_singleton.mp member) ▸ nameless
  by_cases closing : ∀ inside : start < tokens.length, tokens[start].isPunct '\x7d' = true
  · obtain ⟨scan_eq, taken⟩ := entered.memberTaken_nothing decl closing
    rw [enterMember, scan_eq]
    exact .found named taken
  · obtain ⟨inside, no_closing⟩ := Classical.not_forall.mp closing
    -- Of the marks that settle a member, only the one of a group is left to begin with.
    have no_mark : tokens[start].isPunct ';' = false ∧ tokens[start].isPunct '=' = false := by
      simpa [Nameless, inside] using nameless
    have no_type := entered.no_type inside
    have no_brace := entered.no_brace inside
    simp only [Bool.not_eq_true] at no_closing
    have begins : tokens[start].isPunct '(' = true ∨ settlesMember tokens[start] = false := by
      cases opens : tokens[start].isPunct '(' with
      | true => exact .inl rfl
      | false => exact .inr (by simp [settlesMember, opens, no_mark, no_brace, no_closing])
    obtain ⟨member, next, scan_eq, lt_next, next_le, read_eq⟩ :=
      memberAt_spec preamble inside begins
    rw [enterMember, scan_eq]
    refine .found named ⟨Nat.lt_of_le_of_lt entered.le_start lt_next, next_le, fun unit outer => ?_⟩
    rw [readUnit_inClass unit decl outer (entered.preamble_eq_cons inside)]
    simp only [no_closing, no_mark, no_type, no_brace, Bool.false_eq_true, ↓reduceIte,
      ← drop_of_lt inside, read_eq]

private theorem classBodyFrom_agrees (not_first : 0 < pos) (within : pos ≤ tokens.length)
    (later : ∀ behind, pos < behind → behind ≤ tokens.length → BodyAgrees tokens behind) :
    BodyAgrees tokens pos := by
  intro decl
  rw [classBodyFrom]
  by_cases inside : pos < tokens.length
  · rw [dif_pos inside]
    split
    · next is_brace =>
      refine .pure ⟨Nat.le_succ pos, inside, fun unit outer => ?_⟩
      rw [drop_of_lt inside, readUnit_brace is_brace]
    · next no_closing =>
      split
      · next is_end =>
        refine .turn (Nat.lt_succ_self pos) inside (fun unit outer => ?_) later
        rw [drop_of_lt inside]
        exact readUnit_semicolon unit decl outer
          (readPreamble_end (Token.isPunct_of_ne is_end (by decide))
            (Token.isWord_of_isPunct is_end _) _) is_end rfl
      · next no_end =>
        obtain ⟨preamble, start, found_eq, le_start, start_le, preamble_eq, empty⟩ :=
          preambleFrom_spec within
        split
        · next fault fault_eq =>
          rw [found_eq] at fault_eq
          cases fault_eq
        · next other_preamble other_start other_eq =>
          rw [found_eq] at other_eq
          cases other_eq
          -- A type, a block or a member is entered behind the preamble, in this order.
          split
          · next begins =>
            obtain ⟨start_lt, begins⟩ := any_getElem?_iff.mp begins
            exact innerTurn_agrees later le_start start_lt preamble_eq begins
          · next no_type =>
            split
            · next opens =>
              obtain ⟨start_lt, is_brace⟩ := any_getElem?_iff.mp opens
              exact blockTurn_agrees later le_start start_lt preamble_eq is_brace
            · next no_brace =>
              -- The tests that have failed are all that is known of a member when it is entered.
              have entered : Entered tokens preamble pos start := by
                refine ⟨not_first, inside, le_start, start_le, preamble_eq, empty,
                  by simpa using no_closing, by simpa using no_end, fun start_lt => ?_,
                  fun start_lt => ?_⟩
                · simpa [start_lt] using no_type
                · simpa [markAt_of_lt start_lt] using no_brace
              refine (enterMember_agrees decl entered).bind ?_ id
              rintro ⟨member, next⟩ taken
              have lt_next : pos < next := taken.taken
              simp only [lt_next, ↓reduceDIte]
              exact .turn lt_next taken.next_le taken.read later
  · -- At the end of the tokens both close every class that is open.
    rw [dif_neg inside]
    refine .pure ⟨Nat.le_refl pos, within, fun unit outer => ?_⟩
    rw [drop_of_not_lt inside, readUnit_nil, readUnit_nil, closeAll_closeClass]

end ClassBody

/-- From every position behind the first one, the bodies of classes are scanned as they are read. -/
theorem bodyAgrees (not_first : 0 < pos) (within : pos ≤ tokens.length) :
    BodyAgrees tokens pos := by
  induction pos using turns_ind tokens with
  | turn pos ih =>
    refine classBodyFrom_agrees not_first within fun behind lt_behind behind_le => ?_
    exact ih behind lt_behind (Nat.lt_of_lt_of_le lt_behind behind_le)
      (Nat.lt_trans not_first lt_behind) behind_le

end SuiteMigration.Outline.Scan
