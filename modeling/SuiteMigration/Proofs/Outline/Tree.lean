import SuiteMigration.Proofs.Outline.Body

/-!
# Statement trees

The bodies of well-formed methods as trees, the tokens that spell them, and the flat list of leaves
that a reader should find in them. Reading the tokens of a list of trees gives its leaves, whatever
comes behind.
-/
namespace SuiteMigration.Outline

structure Mark (mark : Char) where
  token : Token
  spelled : token.isPunct mark = true

structure Word (words : List String) where
  token : Token
  spelled : token.isWord words = true

/-- A parenthesised group. Only its parentheses have to nest. -/
structure Group where
  opening : Mark '('
  inside : List Token
  nests : Nests roundBrackets [] inside
  closing : Mark ')'

def Group.tokens (group : Group) : List Token :=
  group.opening.token :: (group.inside ++ [group.closing.token])

/-- A run of tokens with a first one, in which brackets nest and no semicolon stands outside
them. -/
structure Phrase where
  first : Token
  others : List Token
  nests : Nests allBrackets [';'] (first :: others)

def Phrase.tokens (phrase : Phrase) : List Token :=
  phrase.first :: phrase.others

/-- A phrase that a reader of statements takes for one. -/
structure SimpleStatement extends Phrase where
  no_block : first.isPunct '\x7b' = false
  no_head : first.isWord headWords = false
  no_lead : first.isWord leadWords = false

/-- The lead words that take a whole statement. -/
def plainLeadWords : List String := ["else", "finally", "do"]

inductive Tree where
  | simple (statement : SimpleStatement) (semicolon : Mark ';')
  | empty (semicolon : Mark ';')
  | block (opening : Mark '\x7b') (inner : List Tree) (closing : Mark '\x7d')
  | head (keyword : Word headWords) (group : Group) (body : Tree)
  | lead (keyword : Word plainLeadWords) (body : Tree)
  | attempt (keyword : Word ["try"]) (resources : Option Group) (opening : Mark '\x7b')
      (inner : List Tree) (closing : Mark '\x7d')

mutual

def Tree.tokens : Tree → List Token
  | .simple statement semicolon => statement.tokens ++ [semicolon.token]
  | .empty semicolon => [semicolon.token]
  | .block opening inner closing => opening.token :: (tokensAll inner ++ [closing.token])
  | .head keyword group body => keyword.token :: (group.tokens ++ body.tokens)
  | .lead keyword body => keyword.token :: body.tokens
  | .attempt keyword resources opening inner closing =>
    keyword.token :: ((resources.map Group.tokens).getD []
      ++ opening.token :: (tokensAll inner ++ [closing.token]))

def Tree.tokensAll : List Tree → List Token
  | [] => []
  | tree :: rest => tree.tokens ++ tokensAll rest

end

mutual

/-- The statements that a tree contributes to the flat body, in the order of the source. -/
def Tree.leaves : Tree → List Statement
  | .simple statement _ => [statementOf statement.tokens statement.first.line]
  | .empty _ => []
  | .block _ inner _ => leavesAll inner
  | .head keyword group body =>
    statementOf (keyword.token :: group.tokens) keyword.token.line :: body.leaves
  | .lead _ body => body.leaves
  | .attempt keyword resources _ inner _ =>
    (resources.map fun group => statementOf group.inside keyword.token.line).toList
      ++ leavesAll inner

def Tree.leavesAll : List Tree → List Statement
  | [] => []
  | tree :: rest => tree.leaves ++ leavesAll rest

end

/-- What begins a phrase neither closes a block nor ends a statement. -/
theorem Phrase.first_of_nests (phrase : Phrase) :
    phrase.first.isPunct '\x7d' = false ∧ phrase.first.isPunct ';' = false := by
  obtain ⟨next, after, -⟩ := Option.bind_eq_some_iff.mp phrase.nests
  rcases awaitedAfter_cases after with
    ⟨kind, member, is_opening, -⟩ | ⟨-, mark, -, absurd⟩ | ⟨free, no_bar, -, -⟩
  · -- It opens a bracket, and no opening mark is one of the two.
    simp only [allBrackets, List.mem_cons, List.not_mem_nil, or_false] at member
    rcases member with rfl | rfl | rfl <;>
      exact ⟨Token.isPunct_of_ne is_opening (by decide), Token.isPunct_of_ne is_opening (by decide)⟩
  · cases absurd
  · -- It is no mark of a bracket, and the semicolon is barred.
    exact ⟨(free ('\x7b', '\x7d') (by decide)).2, no_bar rfl ';' (by decide)⟩

theorem Group.splitGroup_tokens (group : Group) (rest : List Token) :
    splitGroup (group.tokens ++ rest) = (group.tokens, rest) := by
  simp only [Group.tokens, List.cons_append, List.append_assoc, List.nil_append]
  exact splitGroup_of_nests (by decide) group.opening.spelled group.nests group.closing.spelled rest

theorem Group.splitAtClose_tokens (group : Group) (rest : List Token) :
    splitAtClose '(' ')' 0 (group.inside ++ group.closing.token :: rest)
      = (group.inside, group.closing.token :: rest) :=
  splitAtClose_of_nests (by decide) group.nests group.closing.spelled rest

/-- What reading the rest gives, behind the statements already found. -/
def emitAll (statements : List Statement) (result : List Statement × List Token) :
    List Statement × List Token :=
  (statements ++ result.1, result.2)

theorem emitAll_append (first second : List Statement) (result : List Statement × List Token) :
    emitAll (first ++ second) result = emitAll first (emitAll second result) := by
  simp [emitAll]

mutual

theorem Tree.readBody_tokens (tree : Tree) (depth : Nat) (rest : List Token) :
    readBody depth (tree.tokens ++ rest) = emitAll tree.leaves (readBody depth rest) := by
  cases tree with
  | simple statement semicolon =>
    have marks := statement.first_of_nests
    simp only [Tree.tokens, Tree.leaves, Phrase.tokens, List.cons_append, List.append_assoc,
      List.nil_append]
    rw [readBody_statement _ _ statement.no_block marks.1 marks.2 statement.no_head
      statement.no_lead, ← List.cons_append,
      splitStatement_of_nests rest statement.nests semicolon.spelled]
    rfl
  | empty semicolon =>
    exact readBody_semicolon rest depth semicolon.spelled
  | block opening inner closing =>
    simp only [Tree.tokens, Tree.leaves, List.cons_append, List.append_assoc, List.nil_append]
    rw [readBody_opening _ _ opening.spelled, Tree.readBody_tokensAll inner,
      readBody_closing _ _ closing.spelled]
  | head keyword group body =>
    simp only [Tree.tokens, Tree.leaves, List.cons_append, List.append_assoc]
    rw [readBody_head _ _ keyword.spelled, group.splitGroup_tokens, Tree.readBody_tokens body]
    rfl
  | lead keyword body =>
    have is_lead := Token.isWord_of_subset keyword.spelled (by decide : plainLeadWords ⊆ leadWords)
    have no_try := Token.isWord_of_disjoint keyword.spelled
      (by decide : ∀ word ∈ plainLeadWords, word ∉ ["try"])
    simp only [Tree.tokens, Tree.leaves, List.cons_append]
    rw [readBody_lead _ _ is_lead (by simp [no_try]), Tree.readBody_tokens body]
  | attempt keyword resources opening inner closing =>
    have is_lead := Token.isWord_of_subset keyword.spelled (by decide : ["try"] ⊆ leadWords)
    -- The block behind the resources is read as a block of its own.
    have block_eq : ∀ depth, readBody depth
        (opening.token :: (Tree.tokensAll inner ++ closing.token :: rest))
          = emitAll (Tree.leavesAll inner) (readBody depth rest) := by
      intro depth
      rw [readBody_opening _ _ opening.spelled, Tree.readBody_tokensAll inner,
        readBody_closing _ _ closing.spelled]
    cases resources with
    | none =>
      simp only [Tree.tokens, Tree.leaves, Option.map_none, Option.getD_none, Option.toList_none,
        List.cons_append, List.append_assoc, List.nil_append]
      rw [readBody_lead _ _ is_lead, block_eq]
      simp [Token.isPunct_of_ne opening.spelled (by decide : '\x7b' ≠ '(')]
    | some group =>
      simp only [Tree.tokens, Tree.leaves, Group.tokens, Option.map_some, Option.getD_some,
        Option.toList_some, List.cons_append, List.append_assoc, List.nil_append]
      rw [readBody_resources _ keyword.spelled group.opening.spelled, group.splitAtClose_tokens,
        List.drop_one, List.tail_cons, block_eq]
      rfl

theorem Tree.readBody_tokensAll (trees : List Tree) (depth : Nat) (rest : List Token) :
    readBody depth (Tree.tokensAll trees ++ rest)
      = emitAll (Tree.leavesAll trees) (readBody depth rest) := by
  cases trees with
  | nil => rfl
  | cons tree others =>
    rw [Tree.tokensAll, Tree.leavesAll, List.append_assoc, Tree.readBody_tokens tree,
      Tree.readBody_tokensAll others, emitAll_append]

end

end SuiteMigration.Outline
