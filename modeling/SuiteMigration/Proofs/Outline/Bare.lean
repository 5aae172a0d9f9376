import SuiteMigration.Proofs.Outline.Remainder

/-!
# Tokens without their layout

A bare token keeps its kind and its text, and of its place only whether a gap follows. Two sources
with the same tokens, apart and adjacent alike, have the same bare tokens. The splitters take of the
bare tokens what they take of the tokens, and what they take is joined into the same text.
-/
namespace SuiteMigration.Outline

/-- The kind and the text of a token, without its place. -/
def Token.content (token : Token) : TokenKind × List Char :=
  (token.kind, token.text)

/-- Whether there is a gap, for each two neighbours of a run. -/
def gaps (tokens : List Token) : List Bool :=
  List.zipWith Token.apart tokens tokens.tail

/-- Two runs of the same kinds and texts that are apart, and adjacent, at the same places. -/
structure SameTokens (left right : List Token) : Prop where
  contents : left.map Token.content = right.map Token.content
  gaps : gaps left = gaps right

theorem gaps_cons (first next : Token) (rest : List Token) :
    gaps (first :: next :: rest) = first.apart next :: gaps (next :: rest) := rfl

/-- The token with its place reduced to whether a gap follows. -/
def Token.bare (token : Token) (gapBehind : Bool) : Token :=
  { token with start := 1, stop := if gapBehind then 0 else 1, line := 0 }

def bareTokens : List Token → List Token
  | [] => []
  | token :: rest => token.bare (rest.head?.any token.apart) :: bareTokens rest

namespace Token

variable (token : Token) (gapBehind : Bool)

@[simp] theorem kind_bare : (token.bare gapBehind).kind = token.kind := rfl

@[simp] theorem text_bare : (token.bare gapBehind).text = token.text := rfl

@[simp] theorem line_bare : (token.bare gapBehind).line = 0 := rfl

@[simp] theorem name_bare : (token.bare gapBehind).name = token.name := rfl

@[simp] theorem isPunct_bare (mark : Char) :
    (token.bare gapBehind).isPunct mark = token.isPunct mark := rfl

@[simp] theorem isWord_bare (words : List String) :
    (token.bare gapBehind).isWord words = token.isWord words := rfl

@[simp] theorem apart_bare (next : Token) (gapBehindNext : Bool) :
    (token.bare gapBehind).apart (next.bare gapBehindNext) = gapBehind := by
  cases gapBehind <;> rfl

private theorem bare_congr {left right : Token} (same : left.content = right.content) :
    left.bare gapBehind = right.bare gapBehind := by
  obtain ⟨kind_eq, text_eq⟩ := Prod.mk.inj same
  simp only [bare, kind_eq, text_eq]

end Token

@[simp] theorem bareTokens_nil : bareTokens [] = [] := rfl

@[simp] theorem length_bareTokens (tokens : List Token) :
    (bareTokens tokens).length = tokens.length := by
  induction tokens with
  | nil => rfl
  | cons token rest ih => simp only [bareTokens, List.length_cons, ih]

@[simp] theorem tail_bareTokens (tokens : List Token) :
    (bareTokens tokens).tail = bareTokens tokens.tail := by
  cases tokens <;> rfl

@[simp] theorem drop_bareTokens (tokens : List Token) (count : Nat) :
    (bareTokens tokens).drop count = bareTokens (tokens.drop count) := by
  induction count generalizing tokens with
  | zero => rfl
  | succ count ih =>
    cases tokens with
    | nil => rfl
    | cons token rest => exact ih rest

@[simp] theorem contents_bareTokens (tokens : List Token) :
    (bareTokens tokens).map Token.content = tokens.map Token.content := by
  induction tokens with
  | nil => rfl
  | cons token rest ih =>
    rw [bareTokens, List.map_cons, List.map_cons, ih]
    rfl

theorem SameTokens.bareTokens_eq {left right : List Token} (same : SameTokens left right) :
    bareTokens left = bareTokens right := by
  obtain ⟨contents, gaps_eq⟩ := same
  -- A gap depends on two neighbours, so the runs are taken apart two tokens at a time.
  induction left generalizing right with
  | nil => rw [List.map_eq_nil_iff.mp contents.symm]
  | cons first rest ih =>
    obtain ⟨first', rest', rfl, content_eq, contents⟩ := List.map_eq_cons_iff.mp contents.symm
    cases rest with
    | nil =>
      obtain rfl : rest' = [] := List.map_eq_nil_iff.mp contents
      simp only [bareTokens, Token.bare_congr _ content_eq, List.head?_nil, Option.any_none]
    | cons next rest =>
      obtain ⟨next', rest', rfl, next_eq, others_eq⟩ := List.map_eq_cons_iff.mp contents
      rw [gaps_cons, gaps_cons] at gaps_eq
      obtain ⟨apart_eq, gaps_eq⟩ := List.cons.inj gaps_eq
      have rest_eq := ih contents.symm gaps_eq
      simp only [bareTokens, List.head?_cons, Option.any_some] at rest_eq ⊢
      rw [rest_eq, apart_eq, Token.bare_congr _ content_eq]

/-! ## Bare runs -/

/-- A run of tokens, and the same run of the bare tokens. -/
def BareRun (run bared : List Token) : Prop :=
  ∃ tokens count, run = List.take count tokens ∧ bared = (bareTokens tokens).take count

namespace BareRun

variable {run bared tokens : List Token}

theorem bareTokens (tokens : List Token) : BareRun tokens (bareTokens tokens) := by
  refine ⟨tokens, tokens.length, List.take_length.symm, ?_⟩
  rw [← length_bareTokens, List.take_length]

theorem of_front (front : run <+: tokens) (bare_front : bared <+: Outline.bareTokens tokens)
    (length_eq : bared.length = run.length) : BareRun run bared :=
  ⟨tokens, run.length, List.prefix_iff_eq_take.mp front,
    length_eq ▸ List.prefix_iff_eq_take.mp bare_front⟩

theorem of_append {behind bare_behind : List Token} (whole : run ++ behind = tokens)
    (bare_whole : bared ++ bare_behind = Outline.bareTokens tokens)
    (length_eq : bared.length = run.length) : BareRun run bared :=
  of_front ⟨behind, whole⟩ ⟨bare_behind, bare_whole⟩ length_eq

theorem contents (bare : BareRun run bared) :
    bared.map Token.content = run.map Token.content := by
  obtain ⟨tokens, count, rfl, rfl⟩ := bare
  rw [List.map_take, List.map_take, contents_bareTokens]

/-- A run behind a token, the gap between them being kept. -/
theorem of_cons {rest : List Token} (bare : BareRun run bared) (front : run <+: rest)
    (bare_front : bared <+: Outline.bareTokens rest) (token : Token) :
    BareRun (token :: run) (token.bare (rest.head?.any token.apart) :: bared) := by
  have length_eq := congrArg List.length bare.contents
  simp only [List.length_map] at length_eq
  exact .of_front (List.cons_prefix_cons.mpr ⟨rfl, front⟩)
    (List.cons_prefix_cons.mpr ⟨rfl, bare_front⟩) (congrArg (· + 1) length_eq)

theorem dropLast (bare : BareRun run bared) : BareRun run.dropLast bared.dropLast := by
  obtain ⟨tokens, count, rfl, rfl⟩ := bare
  refine ⟨tokens, min (min count tokens.length - 1) count, ?_, ?_⟩
  · simp only [List.dropLast_eq_take, List.take_take, List.length_take]
  · simp only [List.dropLast_eq_take, List.take_take, List.length_take, length_bareTokens]

theorem joinTokens_eq (bare : BareRun run bared) : joinTokens bared = joinTokens run := by
  obtain ⟨tokens, count, rfl, rfl⟩ := bare
  induction tokens generalizing count with
  | nil => rfl
  | cons first rest ih =>
    cases count with
    | zero => rfl
    | succ count =>
      cases rest with
      | nil => cases count <;> rfl
      | cons next rest =>
        cases count with
        | zero => rfl
        | succ count =>
          have rest_eq := ih (count + 1)
          simp only [Outline.bareTokens, List.take_succ_cons, joinTokens] at rest_eq ⊢
          rw [rest_eq]
          simp

end BareRun

theorem SameTokens.joinTokens_eq {left right : List Token} (same : SameTokens left right) :
    joinTokens left = joinTokens right := by
  rw [← (BareRun.bareTokens left).joinTokens_eq, same.bareTokens_eq,
    (BareRun.bareTokens right).joinTokens_eq]

/-! ## Splitting bare tokens -/

/-- A split of the tokens, and a split of the bare tokens at the same place. -/
structure BareSplit (split bared : List Token × List Token) : Prop where
  run : BareRun split.1 bared.1
  rest : bared.2 = bareTokens split.2

theorem splitAtClose_bare (opening closing : Char) (depth : Nat) (tokens : List Token) :
    BareSplit (splitAtClose opening closing depth tokens)
      (splitAtClose opening closing depth (bareTokens tokens)) := by
  have same : (splitAtClose opening closing depth (bareTokens tokens)).1.length
        = (splitAtClose opening closing depth tokens).1.length ∧
      (splitAtClose opening closing depth (bareTokens tokens)).2
        = bareTokens (splitAtClose opening closing depth tokens).2 := by
    fun_induction splitAtClose opening closing depth tokens <;>
      simp_all [bareTokens, splitAtClose, prepend]
  exact ⟨.of_append (splitAtClose_append ..) (splitAtClose_append ..) same.1, same.2⟩

private theorem splitStatement_front (depth : Int) (tokens : List Token) :
    (splitStatement depth tokens).1 <+: tokens := by
  obtain ⟨semicolon, append_eq, -, -⟩ := splitStatement_append depth tokens
  exact ⟨_, append_eq⟩

theorem splitStatement_bare (depth : Int) (tokens : List Token) :
    BareSplit (splitStatement depth tokens) (splitStatement depth (bareTokens tokens)) := by
  have same : (splitStatement depth (bareTokens tokens)).1.length
        = (splitStatement depth tokens).1.length ∧
      (splitStatement depth (bareTokens tokens)).2
        = bareTokens (splitStatement depth tokens).2 := by
    fun_induction splitStatement depth tokens <;>
      simp [bareTokens, splitStatement, prepend, *]
  exact ⟨.of_front (splitStatement_front _ _) (splitStatement_front _ _) same.1, same.2⟩

theorem splitGroup_bare (tokens : List Token) :
    BareSplit (splitGroup tokens) (splitGroup (bareTokens tokens)) := by
  have same : (splitGroup (bareTokens tokens)).1.length = (splitGroup tokens).1.length ∧
      (splitGroup (bareTokens tokens)).2 = bareTokens (splitGroup tokens).2 := by
    cases tokens with
    | nil => exact ⟨rfl, rfl⟩
    | cons token rest =>
      have inside := splitAtClose_bare '(' ')' 0 rest
      have length_eq := congrArg List.length inside.run.contents
      simp only [List.length_map] at length_eq
      by_cases is_opening : token.isPunct '(' = true
      · simp [bareTokens, splitGroup, is_opening, inside.rest, length_eq]
      · simp [bareTokens, splitGroup, is_opening]
  exact ⟨.of_append (splitGroup_append tokens) (splitGroup_append _) same.1, same.2⟩

private theorem dropWhile_bareTokens {holds : Token → Bool}
    (same : ∀ token gapBehind, holds (Token.bare token gapBehind) = holds token)
    (tokens : List Token) :
    (bareTokens tokens).dropWhile holds = bareTokens (tokens.dropWhile holds) := by
  induction tokens with
  | nil => rfl
  | cons token rest ih =>
    simp only [bareTokens, List.dropWhile_cons, same, ih]
    split <;> rfl

theorem splitLeading_bare (tokens : List Token) :
    BareSplit (splitLeading tokens) (splitLeading (bareTokens tokens)) := by
  have rest_eq : (splitLeading (bareTokens tokens)).2 = bareTokens (splitLeading tokens).2 := by
    simp only [splitLeading, (splitGroup_bare tokens).rest]
    exact dropWhile_bareTokens (fun _ _ => rfl) _
  -- The rests are of one length, so what is in front of them is too.
  have length_eq :
      (splitLeading (bareTokens tokens)).1.length = (splitLeading tokens).1.length := by
    have whole_eq := congrArg List.length (splitLeading_append tokens)
    have bare_eq := congrArg List.length (splitLeading_append (bareTokens tokens))
    rw [rest_eq] at bare_eq
    simp only [List.length_append, length_bareTokens] at whole_eq bare_eq
    omega
  exact ⟨.of_append (splitLeading_append tokens) (splitLeading_append _) length_eq, rest_eq⟩

end SuiteMigration.Outline
