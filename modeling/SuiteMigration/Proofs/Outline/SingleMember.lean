import SuiteMigration.Proofs.Outline.Layout
import SuiteMigration.Proofs.Outline.RoundTrip

/-!
# Classes with a single member

A source on one line with one class, and in it a field or a method that has one statement. The
lexemes of the line spell a unit of the grammar, so the outline of the source is known.
-/
namespace SuiteMigration.Outline

open Text

def markAt (spaced : Bool) (c : Char) (place : Position) : Mark c :=
  ⟨(Lexeme.mark spaced c).token place, by simp [Token.isPunct, Lexeme.token, Lexeme.mark]⟩

def nameAt (spaced : Bool) (text : List Char) (place : Position) : Identifier :=
  ⟨(Lexeme.word spaced text).token place, rfl⟩

/-- The head of a class up to its opening brace. -/
def classLine (className : PlainName) : List Lexeme :=
  [.word false "class".toList, .word true className.text, .mark true '\x7b']

def classHead (className : PlainName) : ClassHead :=
  let second := (Lexeme.word false "class".toList).stop .start
  let third := (Lexeme.word true className.text).stop second
  { keyword := ⟨(Lexeme.word false "class".toList).token .start, rfl⟩
    name := nameAt true className.text second
    clauses := []
    nests := nests_nil _ _
    opening := markAt true '\x7b' third }

section Class

variable (className : PlainName)

/-- The whole source: a class and the line inside it. -/
def sourceLine (line : List Lexeme) : List Lexeme :=
  classLine className ++ (line ++ [.mark true '\x7d'])

def classText (inside : List Char) : List Char :=
  "class".toList ++ ' ' :: (className.text ++ ' ' :: '\x7b' :: ' ' :: (inside ++ [' ', '\x7d']))

private theorem printed_sourceLine {line : List Lexeme} {inside : List Char}
    (line_eq : printed line = ' ' :: inside) :
    printed (sourceLine className line) = classText className inside := by
  simp only [sourceLine, classLine, classText, Lexeme.word, Lexeme.mark, List.cons_append,
    List.nil_append, printed_bare, printed_spaced, printed_append, printed_nil, line_eq]

private theorem splittable_sourceLine {line : List Lexeme}
    (inside : Splittable (line ++ [.mark true '\x7d'])) :
    Splittable (sourceLine className line) := by
  refine .word (by decide) (by decide) (head_false (by decide)) ?_
  refine .word className.starts className.all_plain (head_false (by decide)) ?_
  exact .mark (by decide) inside

def memberPlace : Position :=
  placeBehind .start (classLine className)

/-- A class of one member that spells the line. -/
def singleUnit (line : List Lexeme) (member : MemberSyntax) : UnitSyntax where
  package := none
  imports := []
  classes := [{
    qualifiers := []
    head := classHead className
    members := [member]
    closing := markAt true '\x7d' (placeBehind (memberPlace className) line) }]

theorem parse_classText {line : List Lexeme} {inside : List Char} {member : MemberSyntax}
    (line_eq : printed line = ' ' :: inside)
    (spelled : member.tokens = placed (memberPlace className) line)
    (separated : member.separated = true) (splittable : Splittable (line ++ [.mark true '\x7d'])) :
    SourceUnit.parse (String.ofList (classText className inside))
      = .ok (singleUnit className line member).outline := by
  -- The lexemes of the whole line are placed one behind the other, as the unit spells them.
  have tokens_eq : tokenize (classText className inside)
      = (singleUnit className line member).tokens := by
    rw [← printed_sourceLine className line_eq, tokenize,
      tokenizeAt_printed (splittable_sourceLine className splittable), sourceLine, placed_append,
      placed_append, ← memberPlace, ← spelled]
    simp [singleUnit, UnitSyntax.tokens, ClassSyntax.tokens, MemberSyntax.tokensAll]
    rfl
  have unit_separated : (singleUnit className line member).separated = true := by
    simp [singleUnit, UnitSyntax.separated, ClassSyntax.separated, MemberSyntax.separatedAll,
      separated]
  rw [SourceUnit.parse, String.toList_ofList, tokens_eq]
  exact (singleUnit className line member).readUnit_tokens unit_separated

end Class

/-! ## Declarations -/

/-- The words that neither a declaration in a class nor a statement can begin with. -/
def reservedWords : List String :=
  modifierWords ++ (typeWords ++ (headWords ++ leadWords))

theorem isWord_of_unreserved {token : Token} {words : List String}
    (subset : ∀ word ∈ words, word ∈ reservedWords)
    (unreserved : String.ofList token.text ∉ reservedWords) : token.isWord words = false := by
  rw [Bool.eq_false_iff]
  intro is_word
  simp only [Token.isWord, Bool.and_eq_true, List.contains_iff_mem] at is_word
  exact unreserved (subset _ is_word.2)

/-- A variable of a type with one name and its initializer. -/
structure Initialized where
  type : PlainName
  unreserved : String.ofList type.text ∉ reservedWords
  name : PlainName
  first : Lexeme
  spaced : first.spaced = true
  others : List Lexeme
  nests : ∀ place, Nests allBrackets [';'] (placed place (first :: others))
  splittable : ∀ {rest}, Splittable rest → Splittable (first :: (others ++ rest))

namespace Initialized

variable (declared : Initialized) (place : Position)

def front : List Lexeme :=
  [.word true declared.type.text, .word true declared.name.text, .mark true '=']

def line : List Lexeme :=
  declared.front ++ declared.first :: declared.others

def text : List Char :=
  declared.type.text ++ ' ' :: (declared.name.text ++ ' ' :: '=' :: ' ' :: (declared.first.text
    ++ printed declared.others))

theorem printed_line : printed declared.line = ' ' :: declared.text := by
  have value_eq : printed (declared.first :: declared.others)
      = ' ' :: (declared.first.text ++ printed declared.others) := by
    simp [printed, Lexeme.gap, declared.spaced]
  simp only [line, front, List.cons_append, List.nil_append, Lexeme.word, Lexeme.mark,
    printed_spaced, value_eq, text]

private theorem splittable_line {rest : List Lexeme} (tail : Splittable rest) :
    Splittable (declared.line ++ rest) := by
  rw [line, List.append_assoc]
  refine .word declared.type.starts declared.type.all_plain (head_false (by decide)) ?_
  refine .word declared.name.starts declared.name.all_plain (head_false (by decide)) ?_
  exact .mark (by decide) (declared.splittable tail)

def namePlace : Position := (Lexeme.word true declared.type.text).stop place

def declarator : Declarator where
  typeRun := [(Lexeme.word true declared.type.text).token place]
  name := nameAt true declared.name.text (declared.namePlace place)
  unsettled := by
    intro token member
    rw [List.mem_singleton.mp member]
    rfl
  no_sign := rfl
  no_modifier := isWord_of_unreserved (by decide) declared.unreserved
  no_type := isWord_of_unreserved (by decide) declared.unreserved

def value : Phrase :=
  let valuePlace := placeBehind place declared.front
  { first := declared.first.token valuePlace
    others := placed (declared.first.stop valuePlace) declared.others
    nests := declared.nests valuePlace }

def field : FieldSyntax where
  qualifiers := []
  declarator := declared.declarator place
  typed := List.cons_ne_nil _ _
  initializer :=
    some (markAt true '=' ((Lexeme.word true declared.name.text).stop (declared.namePlace place)),
      declared.value place)
  semicolon := markAt false ';' (placeBehind place declared.line)

theorem tokens_field :
    (declared.field place).tokens = placed place (declared.line ++ [.mark false ';']) := by
  rw [placed_append, line, placed_append]
  rfl

theorem outline_field : (declared.field place).outline =
    { tags := []
      modifiers := []
      typeText := String.ofList declared.type.text
      name := String.ofList declared.name.text
      initializer := some (String.ofList (declared.first.text ++ printed declared.others))
      line := ((Lexeme.word true declared.type.text).token place).line } := by
  have value_eq : joinTokens (declared.value place).tokens
      = declared.first.text ++ printed declared.others :=
    joinTokens_placed declared.first declared.others _
  simp only [FieldSyntax.outline, field, Option.map_some, value_eq]
  rfl

theorem declaration_field : (declared.field place).outline.declaration.toList = declared.text := by
  rw [outline_field]
  simp [Field.declaration, text]

theorem parse_field (className : PlainName) :
    SourceUnit.parse (String.ofList (classText className (declared.text ++ [';'])))
      = .ok (singleUnit className (declared.line ++ [.mark false ';'])
          (.field (declared.field (memberPlace className)))).outline := by
  refine parse_classText className ?_ (declared.tokens_field _) rfl ?_
  · rw [printed_append, printed_line]
    rfl
  · rw [List.append_assoc]
    exact declared.splittable_line (.mark (by decide) (.mark (by decide) .nil))

/-- The declaration as a statement of a method. -/
def statement : SimpleStatement where
  first := (Lexeme.word true declared.type.text).token place
  others := placed ((Lexeme.word true declared.type.text).stop place)
    (.word true declared.name.text :: .mark true '=' :: declared.first :: declared.others)
  nests := (show Nests allBrackets [';'] (placed place declared.front) from rfl).append
    (declared.nests _)
  no_block := rfl
  no_head := isWord_of_unreserved (by decide) declared.unreserved
  no_lead := isWord_of_unreserved (by decide) declared.unreserved

private theorem leaves_statement : statementOf (declared.statement place).tokens
      (declared.statement place).first.line
    = ⟨String.ofList declared.text, ((Lexeme.word true declared.type.text).token place).line⟩ := by
  have joined_eq : joinTokens (declared.statement place).tokens
      = declared.type.text ++ printed declared.line.tail :=
    joinTokens_placed (.word true declared.type.text) declared.line.tail place
  have text_eq : declared.type.text ++ printed declared.line.tail = declared.text :=
    (List.cons.inj declared.printed_line).2
  rw [statementOf, joined_eq, text_eq]
  rfl

end Initialized

/-! ## Methods of one statement -/

section Method

variable (methodName : PlainName) (declared : Initialized)

def methodFront : List Lexeme :=
  [.word true "void".toList, .word true methodName.text, .mark false '(', .mark false ')',
    .mark true '\x7b']

def methodLine : List Lexeme :=
  methodFront methodName ++ (declared.line ++ [.mark false ';', .mark true '\x7d'])

private theorem void_unreserved : String.ofList "void".toList ∉ reservedWords := by
  decide

/-- A method without parameters whose body is the one declaration. -/
def singleMethod (place : Position) : MethodSyntax :=
  let namePlace := (Lexeme.word true "void".toList).stop place
  let openPlace := (Lexeme.word true methodName.text).stop namePlace
  let closePlace := (Lexeme.mark false '(').stop openPlace
  let bodyPlace := placeBehind place (methodFront methodName)
  let endPlace := placeBehind bodyPlace declared.line
  { qualifiers := []
    declarator := {
      typeRun := [(Lexeme.word true "void".toList).token place]
      name := nameAt true methodName.text namePlace
      unsettled := by
        intro token member
        rw [List.mem_singleton.mp member]
        rfl
      no_sign := rfl
      no_modifier := isWord_of_unreserved (by decide) void_unreserved
      no_type := isWord_of_unreserved (by decide) void_unreserved }
    opening := markAt false '(' openPlace
    parameters := none
    closing := markAt false ')' closePlace
    clause := []
    unsettled := fun _ member => absurd member List.not_mem_nil
    ending := .body (markAt true '\x7b' ((Lexeme.mark false ')').stop closePlace))
      [.simple (declared.statement bodyPlace) (markAt false ';' endPlace)]
      (markAt true '\x7d' ((Lexeme.mark false ';').stop endPlace)) }

private theorem tokens_singleMethod (place : Position) :
    (singleMethod methodName declared place).tokens
      = placed place (methodLine methodName declared) := by
  rw [methodLine, placed_append, placed_append]
  simp [MethodSyntax.tokens, MethodSyntax.tail, singleMethod, Declarator.tokens,
    MethodSyntax.parameterTokens, MethodEnd.tokens, Tree.tokensAll, Tree.tokens]
  rfl

def methodText (statement : List Char) : List Char :=
  "void".toList ++ ' ' :: (methodName.text ++ '(' :: ')' :: ' ' :: '\x7b' :: ' ' :: (statement
    ++ [';', ' ', '\x7d']))

private theorem printed_methodLine :
    printed (methodLine methodName declared) = ' ' :: methodText methodName declared.text := by
  simp only [methodLine, methodFront, methodText, Lexeme.word, Lexeme.mark, List.cons_append,
    List.nil_append, printed_bare, printed_spaced, printed_append, printed_nil,
    declared.printed_line]

theorem parse_method (className : PlainName) :
    SourceUnit.parse (String.ofList (classText className (methodText methodName declared.text)))
      = .ok (singleUnit className (methodLine methodName declared)
          (.method (singleMethod methodName declared (memberPlace className)))).outline := by
  refine parse_classText className (printed_methodLine methodName declared)
    (tokens_singleMethod methodName declared _) rfl ?_
  rw [methodLine, List.append_assoc, List.append_assoc]
  refine .word (by decide) (by decide) (head_false (by decide)) ?_
  refine .word methodName.starts methodName.all_plain (head_false (by decide)) ?_
  refine .mark (by decide) (.mark (by decide) (.mark (by decide) ?_))
  exact declared.splittable_line (.mark (by decide) (.mark (by decide) (.mark (by decide) .nil)))

theorem statements_singleMethod (place : Position) :
    ∃ lineNumber, (singleMethod methodName declared place).outline.statements
      = [⟨String.ofList declared.text, lineNumber⟩] := by
  let bodyPlace := placeBehind place (methodFront methodName)
  refine ⟨((Lexeme.word true declared.type.text).token bodyPlace).line, ?_⟩
  exact congrArg (· :: []) (declared.leaves_statement bodyPlace)

end Method

/-! ## Annotated fields -/

/-- A field without an initializer behind an annotation with arguments. -/
structure Annotated where
  tag : PlainName
  no_interface : String.ofList tag.text ≠ "interface"
  first : Lexeme
  unspaced : first.spaced = false
  others : List Lexeme
  nests : ∀ place, Nests roundBrackets [] (placed place (first :: others))
  splittable : ∀ {rest}, Splittable rest →
    Splittable (first :: (others ++ .mark false ')' :: rest))
  type : PlainName
  unreserved : String.ofList type.text ∉ reservedWords
  name : PlainName

namespace Annotated

variable (annotated : Annotated) (place : Position)

def front : List Lexeme :=
  [.mark true '@', .word false annotated.tag.text, .mark false '(']

def arguments : List Lexeme :=
  annotated.first :: annotated.others

def back : List Lexeme :=
  [.mark false ')', .word true annotated.type.text, .word true annotated.name.text, .mark false ';']

def line : List Lexeme :=
  annotated.front ++ (annotated.arguments ++ annotated.back)

def argumentText : List Char :=
  annotated.first.text ++ printed annotated.others

def text : List Char :=
  '@' :: (annotated.tag.text ++ '(' :: (annotated.argumentText ++ ')' :: ' ' :: (annotated.type.text
    ++ ' ' :: annotated.name.text)))

theorem printed_line : printed annotated.line = ' ' :: (annotated.text ++ [';']) := by
  have first_eq : annotated.first = ⟨false, annotated.first.kind, annotated.first.text⟩ := by
    rw [← annotated.unspaced]
  rw [line, arguments, first_eq]
  simp only [front, back, text, argumentText, Lexeme.word, Lexeme.mark, List.cons_append,
    List.nil_append, List.append_assoc, printed_spaced, printed_bare, printed_append, printed_nil]

def tagSyntax : TagSyntax :=
  let tagPlace := (Lexeme.mark true '@').stop place
  let insidePlace := placeBehind place annotated.front
  { sign := markAt true '@' place
    name := ⟨nameAt false annotated.tag.text tagPlace, []⟩
    no_type := by
      rw [Bool.eq_false_iff]
      intro is_word
      simp only [Token.isWord, Bool.and_eq_true, List.contains_iff_mem, List.mem_singleton]
        at is_word
      exact annotated.no_interface is_word.2
    arguments := some {
      opening := markAt false '(' ((Lexeme.word false annotated.tag.text).stop tagPlace)
      inside := placed insidePlace annotated.arguments
      nests := annotated.nests insidePlace
      closing := markAt false ')' (placeBehind insidePlace annotated.arguments) } }

def field : FieldSyntax :=
  let backPlace := placeBehind (placeBehind place annotated.front) annotated.arguments
  let typePlace := (Lexeme.mark false ')').stop backPlace
  let namePlace := (Lexeme.word true annotated.type.text).stop typePlace
  { qualifiers := [.tag (annotated.tagSyntax place)]
    declarator := {
      typeRun := [(Lexeme.word true annotated.type.text).token typePlace]
      name := nameAt true annotated.name.text namePlace
      unsettled := by
        intro token member
        rw [List.mem_singleton.mp member]
        rfl
      no_sign := rfl
      no_modifier := isWord_of_unreserved (by decide) annotated.unreserved
      no_type := isWord_of_unreserved (by decide) annotated.unreserved }
    typed := List.cons_ne_nil _ _
    initializer := none
    semicolon := markAt false ';' ((Lexeme.word true annotated.name.text).stop namePlace) }

theorem tokens_field : (annotated.field place).tokens = placed place annotated.line := by
  rw [line, placed_append, placed_append]
  simp [FieldSyntax.tokens, field, Qualifier.tokens, TagSyntax.tokens, tagSyntax, Group.tokens,
    QualifiedName.tokens, Declarator.tokens, FieldSyntax.ending]
  rfl

theorem outline_field : ∃ lineNumber, (annotated.field place).outline =
    { tags := [⟨String.ofList annotated.tag.text,
        some (String.ofList annotated.argumentText)⟩]
      modifiers := []
      typeText := String.ofList annotated.type.text
      name := String.ofList annotated.name.text
      initializer := none
      line := lineNumber } := by
  have inside_eq : joinTokens (placed (placeBehind place annotated.front) annotated.arguments)
      = annotated.argumentText :=
    joinTokens_placed annotated.first annotated.others _
  have tag_eq : (annotated.tagSyntax place).outline
      = ⟨String.ofList annotated.tag.text, some (String.ofList annotated.argumentText)⟩ := by
    simp only [TagSyntax.outline, tagSyntax, Option.map_some, inside_eq]
    simp [QualifiedName.text, QualifiedName.tokens, nameAt, Lexeme.token, Lexeme.word]
  refine ⟨(annotated.field place).declarator.first.line, ?_⟩
  simp only [FieldSyntax.outline, field, preambleOf, List.filterMap_cons, Qualifier.tag?, tag_eq]
  rfl

theorem parse_field (className : PlainName) :
    SourceUnit.parse (String.ofList (classText className (annotated.text ++ [';'])))
      = .ok (singleUnit className annotated.line
          (.field (annotated.field (memberPlace className)))).outline := by
  refine parse_classText className annotated.printed_line (annotated.tokens_field _) rfl ?_
  rw [line, List.append_assoc, List.append_assoc]
  refine .mark (by decide) ?_
  refine .word annotated.tag.starts annotated.tag.all_plain (head_false (by decide)) ?_
  refine .mark (by decide) (annotated.splittable ?_)
  refine .word annotated.type.starts annotated.type.all_plain (head_false (by decide)) ?_
  refine .word annotated.name.starts annotated.name.all_plain (head_false (by decide)) ?_
  exact .mark (by decide) (.mark (by decide) .nil)

end Annotated

end SuiteMigration.Outline
