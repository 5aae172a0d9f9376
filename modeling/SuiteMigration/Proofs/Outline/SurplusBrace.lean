import SuiteMigration.Outline.Parsing
import SuiteMigration.Proofs.Outline.Body

/-!
# Where a statement meets the brace of its block

The splitter of statements has one count for brackets of all kinds. In front of a closing brace that
nothing in the statement opens, the braces cancel, so what is left of the count is the surplus of
the other brackets. The statement ends there when these cancel too, and else it takes the brace and
goes on behind the block.
-/
namespace SuiteMigration.Outline

/-- The brackets inside of expressions. -/
def expressionBrackets : List (Char × Char) := [('(', ')'), ('[', ']')]

/-- How much deeper a token leads into brackets of the given kinds. -/
def rise (kinds : List (Char × Char)) (token : Token) : Int :=
  if kinds.any (token.isPunct ·.1) then 1 else if kinds.any (token.isPunct ·.2) then -1 else 0

/-- How many more brackets of the given kinds a run opens than it closes. -/
def surplus (kinds : List (Char × Char)) : List Token → Int
  | [] => 0
  | token :: run => rise kinds token + surplus kinds run

/-- Does the token end a statement whose brackets have led so deep? -/
def Token.Ends (token : Token) (depth : Int) : Prop :=
  token.isPunct '\x7d' = true ∧ depth = 0 ∨ token.isPunct ';' = true ∧ depth ≤ 0

/-- Nothing in the run ends the statement. -/
def GoesOn (depth : Int) (run : List Token) : Prop :=
  ∀ front token later, run = front ++ token :: later →
    ¬token.Ends (depth + surplus allBrackets front)

/-- A closing brace that nothing in front of it opens: all braces there have their partners. -/
structure SurplusBrace (front : List Token) (brace : Token) : Prop where
  is_brace : brace.isPunct '\x7d' = true
  paired : Nests braces [] front

section Surplus

variable {kinds : List (Char × Char)} {run front later : List Token} {token : Token} {depth : Int}

@[simp] theorem surplus_nil : surplus kinds [] = 0 :=
  rfl

@[simp] theorem surplus_cons : surplus kinds (token :: run) = rise kinds token + surplus kinds run :=
  rfl

/-- A token is at most one mark, so it counts for one kind only. -/
theorem rise_allBrackets (token : Token) :
    rise allBrackets token = rise expressionBrackets token + rise braces token := by
  have one_mark := fun left right => @Token.isPunct_unique token left right
  simp only [rise, allBrackets, expressionBrackets, braces, List.any_cons, List.any_nil,
    Bool.or_false]
  grind

private theorem surplus_allBrackets (run : List Token) :
    surplus allBrackets run = surplus expressionBrackets run + surplus braces run := by
  induction run with
  | nil => rfl
  | cons token run ih =>
    simp only [surplus_cons, rise_allBrackets, ih]
    omega

/-- A token awaits as much more as it leads deeper: it opens a bracket, closes the one that is
awaited, or does neither. -/
theorem length_awaitedAfter {barred awaited next : List Char}
    (closers : awaited ⊆ kinds.map Prod.snd)
    (after : awaitedAfter kinds barred awaited token = some next) :
    next ⊆ kinds.map Prod.snd ∧ awaited.length + rise kinds token = next.length := by
  rcases awaitedAfter_cases after with
    ⟨kind, member, is_opening, rfl⟩ | ⟨no_opening, closing, is_closing, rfl⟩ | ⟨free, -, -, rfl⟩
  · have rise_eq : rise kinds token = 1 := if_pos (List.any_eq_true.mpr ⟨kind, member, is_opening⟩)
    refine ⟨List.cons_subset.mpr ⟨List.mem_map_of_mem member, closers⟩, ?_⟩
    rw [rise_eq, List.length_cons, Int.natCast_add_one]
  · obtain ⟨is_closer, others⟩ := List.cons_subset.mp closers
    obtain ⟨kind, member, rfl⟩ := List.mem_map.mp is_closer
    have none_opens : kinds.any (token.isPunct ·.1) = false := by simpa using no_opening
    have rise_eq : rise kinds token = -1 := by
      rw [rise, none_opens, if_neg Bool.false_ne_true,
        if_pos (List.any_eq_true.mpr ⟨kind, member, is_closing⟩)]
    refine ⟨others, ?_⟩
    rw [rise_eq, List.length_cons]
    omega
  · have none_opens : kinds.any (token.isPunct ·.1) = false := by
      simpa using fun opening closing member => (free (opening, closing) member).1
    have none_closes : kinds.any (token.isPunct ·.2) = false := by
      simpa using fun opening closing member => (free (opening, closing) member).2
    have rise_eq : rise kinds token = 0 := by simp [rise, none_opens, none_closes]
    refine ⟨closers, ?_⟩
    rw [rise_eq, Int.add_zero]

/-- Where brackets nest, the surplus is what is awaited more behind the run than in front of it. -/
theorem surplus_of_awaitedBehind {barred awaited final : List Char}
    (closers : awaited ⊆ kinds.map Prod.snd)
    (behind : awaitedBehind kinds barred awaited run = some final) :
    awaited.length + surplus kinds run = final.length := by
  induction run generalizing awaited with
  | nil =>
    cases behind
    simp
  | cons token run ih =>
    obtain ⟨next, after, remaining⟩ := Option.bind_eq_some_iff.mp behind
    obtain ⟨next_closers, length_eq⟩ := length_awaitedAfter closers after
    rw [surplus_cons, ← Int.add_assoc, length_eq, ih next_closers remaining]

/-- In front of a brace that nothing opens, only the brackets of expressions count. -/
theorem SurplusBrace.surplus_eq {brace : Token} (surplus_brace : SurplusBrace front brace) :
    surplus allBrackets front = surplus expressionBrackets front := by
  have cancels := surplus_of_awaitedBehind (List.nil_subset _) surplus_brace.paired
  rw [List.length_nil, Int.natCast_zero, Int.zero_add] at cancels
  rw [surplus_allBrackets, cancels, Int.add_zero]

end Surplus

section GoesOn

variable {depth : Int} {run front rest : List Token} {token : Token}

theorem goesOn_nil (depth : Int) : GoesOn depth [] := by
  intro front token later split
  simp at split

theorem goesOn_cons : GoesOn depth (token :: run) ↔
    ¬token.Ends depth ∧ GoesOn (depth + rise allBrackets token) run := by
  constructor
  · intro goes_on
    refine ⟨by simpa using goes_on [] token run rfl, fun front other later split => ?_⟩
    have inside := goes_on (token :: front) other later (congrArg (token :: ·) split)
    rwa [surplus_cons, ← Int.add_assoc] at inside
  · rintro ⟨first, goes_on⟩ front other later split
    cases front with
    | nil =>
      obtain ⟨rfl, -⟩ := List.cons.inj split
      simpa using first
    | cons head front =>
      obtain ⟨rfl, rest_split⟩ := List.cons.inj split
      rw [surplus_cons, ← Int.add_assoc]
      exact goes_on front other later rest_split

/-- A token that does not end the statement is taken, and the count moves by what it is. -/
theorem splitStatement_taken (no_end : ¬token.Ends depth) :
    splitStatement depth (token :: rest)
      = prepend token (splitStatement (depth + rise allBrackets token) rest) := by
  have one_mark := fun left right => @Token.isPunct_unique token left right
  simp only [Token.Ends, not_or, not_and] at no_end
  simp only [rise, allBrackets, List.any_cons, List.any_nil, Bool.or_false]
  rw [splitStatement]
  grind

private theorem splitStatement_ended (ends : token.Ends depth) (rest : List Token) :
    (splitStatement depth (token :: rest)).1 = [] := by
  have other := fun mark => @Token.isPunct_of_ne token mark
  rw [splitStatement]
  rcases ends with ⟨is_brace, rfl⟩ | ⟨is_end, shallow⟩
  · simp [is_brace, other _ is_brace]
  · simp [is_end, other _ is_end, shallow]

private theorem splitStatement_of_goesOn (goes_on : GoesOn depth front) (rest : List Token) :
    splitStatement depth (front ++ rest)
      = (front ++ (splitStatement (depth + surplus allBrackets front) rest).1,
          (splitStatement (depth + surplus allBrackets front) rest).2) := by
  induction front generalizing depth with
  | nil => simp
  | cons token front ih =>
    obtain ⟨first, goes_on⟩ := goesOn_cons.mp goes_on
    rw [List.cons_append, splitStatement_taken first, ih goes_on, surplus_cons, ← Int.add_assoc]
    rfl

private theorem goesOn_splitStatement (depth : Int) (tokens : List Token) :
    GoesOn depth (splitStatement depth tokens).1 := by
  induction tokens generalizing depth with
  | nil => exact goesOn_nil depth
  | cons token rest ih =>
    by_cases ends : token.Ends depth
    · rw [splitStatement_ended ends]
      exact goesOn_nil depth
    · rw [splitStatement_taken ends]
      exact goesOn_cons.mpr ⟨ends, ih _⟩

end GoesOn

section Reader

variable {front others rest : List Token} {first brace : Token}

/-- A brace that nothing opens ends the statement in front of it if the brackets of its expressions
cancel, and else it is taken like any other token. -/
theorem splitStatement_at_surplusBrace (surplus_brace : SurplusBrace front brace)
    (goes_on : GoesOn 0 front) (rest : List Token) :
    splitStatement 0 (front ++ brace :: rest)
      = if surplus expressionBrackets front = 0 then (front, brace :: rest)
        else (front ++ brace :: (splitStatement (surplus expressionBrackets front - 1) rest).1,
          (splitStatement (surplus expressionBrackets front - 1) rest).2) := by
  rw [splitStatement_of_goesOn goes_on, surplus_brace.surplus_eq, Int.zero_add]
  split
  · next cancel => rw [cancel, splitStatement_brace rest surplus_brace.is_brace, List.append_nil]
  · next uneven =>
    -- The count is off, so the brace does not end the statement and only takes one off the count.
    have no_end : ¬brace.Ends (surplus expressionBrackets front) := by
      simp [Token.Ends, uneven, Token.isPunct_of_ne surplus_brace.is_brace]
    have falls : rise allBrackets brace = -1 := by
      simp [rise, allBrackets, surplus_brace.is_brace, Token.isPunct_of_ne surplus_brace.is_brace]
    rw [splitStatement_taken no_end, falls]
    rfl

/-- A body that is one statement without its semicolon ends at its brace, whatever follows it, where
the brackets of expressions cancel. -/
theorem readBody_at_surplusBrace (no_opening : first.isPunct '\x7b' = false)
    (no_head : first.isWord headWords = false) (no_lead : first.isWord leadWords = false)
    (surplus_brace : SurplusBrace (first :: others) brace) (goes_on : GoesOn 0 (first :: others))
    (cancel : surplus expressionBrackets (first :: others) = 0) (rest : List Token) :
    readBody 0 (first :: (others ++ brace :: rest))
      = ([statementOf (first :: others) first.line], rest) := by
  obtain ⟨no_closing, no_end⟩ : first.isPunct '\x7d' = false ∧ first.isPunct ';' = false := by
    simpa [Token.Ends] using (goesOn_cons.mp goes_on).1
  have split_eq := splitStatement_at_surplusBrace surplus_brace goes_on rest
  rw [if_pos cancel, List.cons_append] at split_eq
  rw [readBody_statement _ _ no_opening no_closing no_end no_head no_lead, split_eq,
    readBody_end rest surplus_brace.is_brace, emit]

/-- The run of a statement holds no closing brace that nothing in it opens, but behind brackets of
expressions that do not cancel. In front of such a brace it stops and leaves the brace where they
cancel, unless it has ended before; where they do not, it takes the brace. -/
theorem splitStatement_surplusBrace (tokens : List Token) :
    (∀ front brace later, (splitStatement 0 tokens).1 = front ++ brace :: later →
      SurplusBrace front brace → surplus expressionBrackets front ≠ 0) ∧
    ∀ front brace rest, tokens = front ++ brace :: rest → SurplusBrace front brace →
      GoesOn 0 front →
      if surplus expressionBrackets front = 0 then splitStatement 0 tokens = (front, brace :: rest)
      else ∃ later left, splitStatement 0 tokens = (front ++ brace :: later, left) := by
  constructor
  · intro front brace later run_eq surplus_brace cancel
    have goes_on := goesOn_splitStatement 0 tokens front brace later run_eq
    rw [surplus_brace.surplus_eq, cancel] at goes_on
    exact goes_on (.inl ⟨surplus_brace.is_brace, rfl⟩)
  · rintro front brace rest rfl surplus_brace goes_on
    rw [splitStatement_at_surplusBrace surplus_brace goes_on]
    split
    · rfl
    · exact ⟨_, _, rfl⟩

/-- The tokens of `foo()` and of `foo(`, and a closing brace behind them. -/
def openCall : List Token := [⟨.ident, "foo".toList, 0, 3, 1⟩, ⟨.punct, ['('], 3, 4, 1⟩]

def closedCall : List Token := openCall ++ [⟨.punct, [')'], 4, 5, 1⟩]

def blockEnd : Token := ⟨.punct, ['\x7d'], 6, 7, 1⟩

theorem splitStatement_surplusBrace_closedCall :
    SurplusBrace closedCall blockEnd ∧ GoesOn 0 closedCall ∧
    splitStatement 0 (closedCall ++ [blockEnd]) = (closedCall, [blockEnd]) := by
  have surplus_brace : SurplusBrace closedCall blockEnd := ⟨by decide, by decide⟩
  have goes_on : GoesOn 0 closedCall := by
    simp only [closedCall, openCall, List.cons_append, List.nil_append, goesOn_cons, Token.Ends]
    exact ⟨by decide, by decide, by decide, goesOn_nil _⟩
  have stops := (splitStatement_surplusBrace (closedCall ++ [blockEnd])).2 closedCall blockEnd []
    rfl surplus_brace goes_on
  rw [if_pos (by decide)] at stops
  exact ⟨surplus_brace, goes_on, stops⟩

/-- A parenthesis too few or too many in front of it, and the brace of the block is taken: the
method behind is read as a part of the statement. -/
theorem splitStatement_surplusBrace_not_never :
    (¬ ∀ tokens front brace later, (splitStatement 0 tokens).1 = front ++ brace :: later →
      ¬SurplusBrace front brace) ∧
    ∀ source ∈ ["class A \x7b void f() \x7b foo( \x7d void g() \x7b bar(); \x7d \x7d",
        "class A \x7b void f() \x7b foo) \x7d void g() \x7b bar(); \x7d \x7d"],
      ((SourceUnit.parse source).toOption.map fun unit =>
        unit.classes.flatMap fun decl => decl.methods.map Method.name) = some ["f"] := by
  -- The run of `foo(` goes through the brace that follows.
  refine ⟨fun never => ?_, by decide +kernel⟩
  exact never (openCall ++ [blockEnd]) openCall blockEnd [] (by decide) ⟨by decide, by decide⟩

end Reader

end SuiteMigration.Outline
