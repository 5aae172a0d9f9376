import SuiteMigration.Proofs.Outline.Members

/-!
# Reading undoes spelling

A text whose tokens spell a unit of the grammar is read as the outline of the unit, however the
tokens are laid out.
-/
namespace SuiteMigration.Outline

/-- A class with more in it. -/
def ClassDecl.extend (decl : ClassDecl) (fields : List Field) (methods : List Method)
    (nested : List ClassDecl) : ClassDecl :=
  { decl with
    fields := decl.fields ++ fields
    methods := decl.methods ++ methods
    nested := decl.nested ++ nested }

namespace ClassDecl

theorem extend_nil (decl : ClassDecl) : decl.extend [] [] [] = decl := by
  cases decl
  simp [extend]

private theorem extend_field (decl : ClassDecl) (field : Field) :
    decl.extend [field] [] [] = decl.addField field := by
  simp [extend, addField]

private theorem extend_method (decl : ClassDecl) (method : Method) :
    decl.extend [] [method] [] = decl.addMethod method := by
  simp [extend, addMethod]

private theorem extend_nested (decl inner : ClassDecl) :
    decl.extend [] [] [inner] = decl.addNested inner := by
  simp [extend, addNested]

private theorem extend_extend (decl : ClassDecl) (fields moreFields : List Field)
    (methods moreMethods : List Method) (nested moreNested : List ClassDecl) :
    (decl.extend fields methods nested).extend moreFields moreMethods moreNested
      = decl.extend (fields ++ moreFields) (methods ++ moreMethods) (nested ++ moreNested) := by
  simp [extend]

private theorem extend_openClass (preamble : Preamble) (head : TypeHead)
    (members : List MemberSyntax) (nested : List ClassDecl) :
    (openClass preamble head).extend (members.filterMap MemberSyntax.field?)
        (members.filterMap MemberSyntax.method?) nested
      = MemberSyntax.fill preamble head members nested := by
  simp [extend, openClass, MemberSyntax.fill]

end ClassDecl

/-- No other reader takes the keyword of a type for its own. -/
theorem ClassHead.readPreamble_tokens (qualifiers : List Qualifier) (head : ClassHead)
    (rest : List Token) :
    readPreamble (qualifiers.flatMap Qualifier.tokens ++ (head.tokens ++ rest))
      = (preambleOf qualifiers, head.tokens ++ rest) := by
  have no_mark := Token.isPunct_of_isWord head.keyword.spelled
  have no_modifier := Token.isWord_of_disjoint head.keyword.spelled
    (by decide : ∀ word ∈ typeWords, word ∉ modifierWords)
  exact readPreamble_qualifiers qualifiers (no_mark '@') no_modifier
    (fun _ => ⟨no_mark '.', no_mark '('⟩) _

private theorem readUnit_closingBrace (unit : SourceUnit) (decl : ClassDecl)
    (outer : List ClassDecl) (closing : Mark '\x7d') (rest : List Token) :
    readUnit unit (decl :: outer) (closing.token :: rest)
      = readUnit (closeClass unit decl outer).1 (closeClass unit decl outer).2 rest := by
  have preamble_eq := readPreamble_end (Token.isPunct_of_ne closing.spelled (by decide))
    (Token.isWord_of_isPunct closing.spelled _) rest
  exact readUnit_closing unit decl outer preamble_eq closing.spelled

mutual

theorem MemberSyntax.readUnit_tokens (member : MemberSyntax) (unit : SourceUnit)
    (decl : ClassDecl) (outer : List ClassDecl) (separated : member.separated = true)
    (rest : List Token) :
    readUnit unit (decl :: outer) (member.tokens ++ rest)
      = readUnit unit (decl.extend member.field?.toList member.method?.toList
          member.nested?.toList :: outer) rest := by
  cases member with
  | empty semicolon =>
    have preamble_eq := readPreamble_end (Token.isPunct_of_ne semicolon.spelled (by decide))
      (Token.isWord_of_isPunct semicolon.spelled _) rest
    simp only [MemberSyntax.tokens, MemberSyntax.field?, MemberSyntax.method?,
      MemberSyntax.nested?, Option.toList_none, ClassDecl.extend_nil]
    exact readUnit_semicolon unit decl outer preamble_eq semicolon.spelled rfl
  | initializer block =>
    simp only [MemberSyntax.tokens, MemberSyntax.field?, MemberSyntax.method?,
      MemberSyntax.nested?, Option.toList_none, ClassDecl.extend_nil]
    exact block.readUnit_tokens unit decl outer rest
  | field field =>
    simp only [MemberSyntax.tokens, MemberSyntax.field?, MemberSyntax.method?,
      MemberSyntax.nested?, Option.toList_none, Option.toList_some, ClassDecl.extend_field]
    exact field.readUnit_tokens unit decl outer separated rest
  | method method =>
    simp only [MemberSyntax.tokens, MemberSyntax.field?, MemberSyntax.method?,
      MemberSyntax.nested?, Option.toList_none, Option.toList_some, ClassDecl.extend_method]
    exact method.readUnit_tokens unit decl outer separated rest
  | nested qualifiers head members closing =>
    have preamble_eq := head.readPreamble_tokens qualifiers
      (MemberSyntax.tokensAll members ++ closing.token :: rest)
    have head_eq := head.readTypeHead_tokens
      (MemberSyntax.tokensAll members ++ closing.token :: rest)
    rw [ClassHead.tokens, List.cons_append] at preamble_eq head_eq
    simp only [MemberSyntax.tokens, ClassHead.tokens, List.append_assoc, List.cons_append,
      List.nil_append] at preamble_eq head_eq ⊢
    -- The inner class opens on top, takes its members and is then closed into the outer one.
    rw [readUnit_nested unit decl outer preamble_eq head.keyword.spelled head_eq, List.drop_one,
      List.tail_cons, MemberSyntax.readUnit_tokensAll members _ _ _ separated,
      readUnit_closingBrace, ClassDecl.extend_openClass]
    simp only [closeClass, MemberSyntax.field?, MemberSyntax.method?, MemberSyntax.nested?,
      Option.toList_none, Option.toList_some, ClassDecl.extend_nested]

theorem MemberSyntax.readUnit_tokensAll (members : List MemberSyntax) (unit : SourceUnit)
    (decl : ClassDecl) (outer : List ClassDecl)
    (separated : MemberSyntax.separatedAll members = true) (rest : List Token) :
    readUnit unit (decl :: outer) (MemberSyntax.tokensAll members ++ rest)
      = readUnit unit (decl.extend (members.filterMap MemberSyntax.field?)
          (members.filterMap MemberSyntax.method?) (MemberSyntax.nestedAll members) :: outer)
          rest := by
  cases members with
  | nil =>
    simp only [MemberSyntax.tokensAll, MemberSyntax.nestedAll, List.filterMap_nil,
      ClassDecl.extend_nil, List.nil_append]
  | cons member others =>
    have both := Bool.and_eq_true_iff.mp separated
    have toList_append {α : Type} (f : MemberSyntax → Option α) :
        (f member).toList ++ others.filterMap f = (member :: others).filterMap f := by
      rw [List.filterMap_cons]
      cases f member <;> rfl
    rw [MemberSyntax.tokensAll, List.append_assoc,
      MemberSyntax.readUnit_tokens member _ _ _ both.1,
      MemberSyntax.readUnit_tokensAll others _ _ _ both.2, ClassDecl.extend_extend, toList_append,
      toList_append]
    rfl

end

section TopLevel

variable (unit : SourceUnit) (rest : List Token)

/-- A class begins with a qualifier or the keyword of a type. -/
theorem ClassSyntax.tokens_eq_cons (decl : ClassSyntax) :
    ∃ token others, decl.tokens = token :: others ∧ token.isWord ["package"] = false ∧
      token.isWord ["import"] = false := by
  unfold ClassSyntax.tokens
  cases decl.qualifiers with
  | nil =>
    exact ⟨decl.head.keyword.token, _, rfl,
      Token.isWord_of_disjoint decl.head.keyword.spelled (by decide),
      Token.isWord_of_disjoint decl.head.keyword.spelled (by decide)⟩
  | cons qualifier others =>
    cases qualifier with
    | tag tag =>
      exact ⟨tag.sign.token, _, rfl, Token.isWord_of_isPunct tag.sign.spelled _,
        Token.isWord_of_isPunct tag.sign.spelled _⟩
    | modifier word =>
      exact ⟨word.token, _, rfl, Token.isWord_of_disjoint word.spelled (by decide),
        Token.isWord_of_disjoint word.spelled (by decide)⟩

theorem ClassSyntax.readUnit_tokens (decl : ClassSyntax) (separated : decl.separated = true) :
    readUnit unit [] (decl.tokens ++ rest) = readUnit (unit.addClass decl.outline) [] rest := by
  obtain ⟨token, others, tokens_eq, no_package, no_import⟩ := decl.tokens_eq_cons
  have preamble_eq := decl.head.readPreamble_tokens decl.qualifiers
    (MemberSyntax.tokensAll decl.members ++ decl.closing.token :: rest)
  -- The step for classes wants the first token by itself, so the spelling is split there.
  have spelled_eq : token :: (others ++ rest)
      = decl.qualifiers.flatMap Qualifier.tokens ++ (decl.head.tokens
          ++ (MemberSyntax.tokensAll decl.members ++ decl.closing.token :: rest)) := by
    rw [← List.cons_append, ← tokens_eq]
    simp [ClassSyntax.tokens]
  have head_eq := decl.head.readTypeHead_tokens
    (MemberSyntax.tokensAll decl.members ++ decl.closing.token :: rest)
  rw [← spelled_eq] at preamble_eq
  rw [tokens_eq, List.cons_append,
    readUnit_class unit _ no_package no_import preamble_eq head_eq, List.drop_one, List.tail_cons,
    MemberSyntax.readUnit_tokensAll decl.members unit _ _ separated, readUnit_closingBrace,
    ClassDecl.extend_openClass]
  rfl

theorem ImportSyntax.readImport_tokens (clause : ImportSyntax) :
    readImport ((clause.isStatic.map Word.token).toList
        ++ (clause.name.tokens ++ clause.semicolon.token :: rest)) = (clause.outline, rest) := by
  -- The semicolon ends the name.
  have no_dot : NotNext '.' (clause.semicolon.token :: rest) := by
    intro next member
    cases member
    exact Token.isPunct_of_ne clause.semicolon.spelled (by decide)
  have name_eq := clause.name.readName_tokens _ no_dot
  have end_eq := splitStatement_semicolon rest clause.semicolon.spelled
  cases given : clause.isStatic with
  | none =>
    have no_static := clause.no_static given
    have head_eq : (clause.name.tokens ++ clause.semicolon.token :: rest).head?.any
        (·.isWord ["static"]) = false := no_static
    simp only [readImport, Option.map_none, Option.toList_none, List.nil_append, head_eq,
      Bool.false_eq_true, ↓reduceIte, name_eq, end_eq, ImportSyntax.outline, given,
      Option.isSome_none]
  | some word =>
    simp only [readImport, Option.map_some, Option.toList_some, List.cons_append, List.nil_append,
      List.head?_cons, Option.any_some, word.spelled, ↓reduceIte, List.tail_cons, name_eq, end_eq,
      ImportSyntax.outline, given, Option.isSome_some]

theorem ImportSyntax.readUnit_tokens (clause : ImportSyntax) :
    readUnit unit [] (clause.tokens ++ rest)
      = readUnit (unit.addImport clause.outline) [] rest := by
  have clause_eq := clause.readImport_tokens rest
  simp only [ImportSyntax.tokens, List.cons_append, List.append_assoc, List.nil_append]
  rw [readUnit_import unit _ clause.keyword.spelled, clause_eq]

theorem PackageSyntax.readUnit_tokens (clause : PackageSyntax) :
    readUnit unit [] (clause.tokens ++ rest)
      = readUnit { unit with package := some clause.name.text } [] rest := by
  have no_dot : NotNext '.' (clause.semicolon.token :: rest) := by
    intro next member
    cases member
    exact Token.isPunct_of_ne clause.semicolon.spelled (by decide)
  simp only [PackageSyntax.tokens, List.cons_append, List.append_assoc, List.nil_append]
  rw [readUnit_package unit _ clause.keyword.spelled, clause.name.readName_tokens _ no_dot,
    splitStatement_semicolon rest clause.semicolon.spelled]

private theorem readUnit_imports (clauses : List ImportSyntax) :
    readUnit unit [] (clauses.flatMap ImportSyntax.tokens ++ rest)
      = readUnit { unit with imports := unit.imports ++ clauses.map ImportSyntax.outline } []
          rest := by
  induction clauses generalizing unit with
  | nil =>
    simp only [List.flatMap_nil, List.nil_append, List.map_nil, List.append_nil]
  | cons clause others ih =>
    rw [List.flatMap_cons, List.append_assoc, clause.readUnit_tokens, ih]
    simp [SourceUnit.addImport]

private theorem readUnit_classes (classes : List ClassSyntax)
    (separated : classes.all ClassSyntax.separated = true) :
    readUnit unit [] (classes.flatMap ClassSyntax.tokens)
      = .ok { unit with classes := unit.classes ++ classes.map ClassSyntax.outline } := by
  induction classes generalizing unit with
  | nil =>
    rw [List.flatMap_nil, readUnit.eq_def]
    simp [closeAll]
  | cons decl others ih =>
    have both := Bool.and_eq_true_iff.mp separated
    rw [List.flatMap_cons, decl.readUnit_tokens _ _ both.1, ih _ both.2]
    simp [SourceUnit.addClass]

theorem UnitSyntax.readUnit_tokens (spelled : UnitSyntax) (separated : spelled.separated = true) :
    readUnit .empty [] spelled.tokens = .ok spelled.outline := by
  unfold UnitSyntax.tokens UnitSyntax.outline
  cases spelled.package with
  | none =>
    simp only [Option.map_none, Option.getD_none, List.nil_append, readUnit_imports,
      readUnit_classes _ _ separated, SourceUnit.empty]
  | some clause =>
    simp only [Option.map_some, Option.getD_some, clause.readUnit_tokens, readUnit_imports,
      readUnit_classes _ _ separated, SourceUnit.empty, List.nil_append]

end TopLevel

/-- A source whose tokens spell a unit of the grammar is read as the outline of the unit, unless the
grammar lets a type continue the name of an annotation. -/
theorem parse_undoes_spelling {source : String} {spelled : UnitSyntax}
    (separated : spelled.separated = true) (tokens_eq : tokenize source.toList = spelled.tokens) :
    SourceUnit.parse source = .ok spelled.outline := by
  rw [SourceUnit.parse, tokens_eq]
  exact spelled.readUnit_tokens separated

/-- The only class of a unit with one member, a field behind an annotation without arguments. -/
def taggedField (declarator : Declarator) (typed : declarator.typeRun ≠ [])
    (semicolon : Mark ';') (closing : Mark '\x7d') : UnitSyntax where
  package := none
  imports := []
  classes := [{
    qualifiers := []
    head := ⟨⟨⟨.ident, "class".toList, 0, 5, 1⟩, by decide⟩, ⟨⟨.ident, ['A'], 6, 7, 1⟩, rfl⟩, [],
      rfl, ⟨⟨.punct, ['\x7b'], 8, 9, 1⟩, rfl⟩⟩
    members := [.field {
      qualifiers := [.tag ⟨⟨⟨.punct, ['@'], 10, 11, 1⟩, rfl⟩,
        ⟨⟨⟨.ident, ['B'], 11, 12, 1⟩, rfl⟩, []⟩, by decide, none⟩]
      declarator := declarator
      typed := typed
      initializer := none
      semicolon := semicolon }]
    closing := closing }]

theorem parse_undoes_spelling_taggedField :
    ∃ spelled : UnitSyntax, spelled.separated = true ∧
      tokenize "class A \x7b @B c d; \x7d".toList = spelled.tokens ∧
      SourceUnit.parse "class A \x7b @B c d; \x7d" = .ok spelled.outline := by
  let declarator : Declarator := ⟨[⟨.ident, ['c'], 13, 14, 1⟩], ⟨⟨.ident, ['d'], 15, 16, 1⟩, rfl⟩,
    by decide, rfl, rfl, rfl⟩
  let spelled := taggedField declarator (by decide) ⟨⟨.punct, [';'], 16, 17, 1⟩, rfl⟩
    ⟨⟨.punct, ['\x7d'], 18, 19, 1⟩, rfl⟩
  have tokens_eq : tokenize "class A \x7b @B c d; \x7d".toList = spelled.tokens := by
    decide +kernel
  exact ⟨spelled, rfl, tokens_eq, parse_undoes_spelling rfl tokens_eq⟩

/-- The name of an annotation without arguments goes on behind a dot, though the dot begins a
type. -/
theorem parse_undoes_spelling_not_of_dot :
    ¬ ∀ (source : String) (spelled : UnitSyntax), tokenize source.toList = spelled.tokens →
      SourceUnit.parse source = .ok spelled.outline := by
  intro undoes
  let declarator : Declarator := ⟨[⟨.punct, ['.'], 13, 14, 1⟩, ⟨.ident, ['c'], 15, 16, 1⟩],
    ⟨⟨.ident, ['d'], 17, 18, 1⟩, rfl⟩, by decide, rfl, rfl, rfl⟩
  let spelled := taggedField declarator (by decide) ⟨⟨.punct, [';'], 18, 19, 1⟩, rfl⟩
    ⟨⟨.punct, ['\x7d'], 20, 21, 1⟩, rfl⟩
  have tokens_eq : tokenize "class A \x7b @B . c d; \x7d".toList = spelled.tokens := by
    decide +kernel
  -- The dot goes to the annotation, and the field is left without a type.
  have types_read : ((SourceUnit.parse "class A \x7b @B . c d; \x7d").toOption.map fun unit =>
      unit.classes.flatMap fun decl => decl.fields.map Field.typeText) = some [""] := by
    decide +kernel
  rw [undoes _ spelled tokens_eq] at types_read
  have types_spelled : (spelled.outline.classes.flatMap fun decl =>
      decl.fields.map Field.typeText) = [". c"] := by
    decide +kernel
  rw [Except.toOption, Option.map_some, types_spelled] at types_read
  exact absurd types_read (by decide)

end SuiteMigration.Outline
