import SuiteMigration.Proofs.Outline.Reading
import SuiteMigration.Proofs.Outline.Step

/-!
# Reading members

A field, a method or an initializer that the grammar spells is read as its outline, and the reader
stands behind its last token.
-/
namespace SuiteMigration.Outline

namespace Declarator

theorem tokens_eq_cons (declarator : Declarator) :
    ∃ others, declarator.tokens = declarator.first :: others := by
  unfold tokens first
  cases declarator.typeRun with
  | nil => exact ⟨[], rfl⟩
  | cons token rest => exact ⟨rest ++ [declarator.name.token], rfl⟩

private theorem tokens_unsettled (declarator : Declarator) :
    ∀ token ∈ declarator.tokens, settlesMember token = false := by
  intro token member
  rcases List.mem_append.mp member with in_type | is_name
  · exact declarator.unsettled token in_type
  · rw [List.mem_singleton.mp is_name]
    simp only [settlesMember, declarator.name.no_mark, Bool.or_self]

theorem first_mem (declarator : Declarator) : declarator.first ∈ declarator.tokens := by
  obtain ⟨others, tokens_eq⟩ := declarator.tokens_eq_cons
  rw [tokens_eq]
  exact List.mem_cons_self

theorem first_unsettled (declarator : Declarator) : settlesMember declarator.first = false :=
  declarator.tokens_unsettled _ declarator.first_mem

theorem splitLeading_tokens (declarator : Declarator) {mark : Token}
    (settles : settlesMember mark = true) (rest : List Token) :
    splitLeading (declarator.tokens ++ mark :: rest) = (declarator.tokens, mark :: rest) := by
  -- The first token opens no group, so nothing is skipped in front of the declarator.
  have group_eq : splitGroup (declarator.tokens ++ mark :: rest)
      = ([], declarator.tokens ++ mark :: rest) := by
    obtain ⟨others, tokens_eq⟩ := declarator.tokens_eq_cons
    have no_group : declarator.first.isPunct '(' = false := by
      have unsettled := declarator.first_unsettled
      simp only [settlesMember, Bool.or_eq_false_iff] at unsettled
      exact unsettled.1.1.1.1
    rw [tokens_eq, List.cons_append, splitGroup, no_group]
    rfl
  have all_kept : ∀ token ∈ declarator.tokens, (!settlesMember token) = true :=
    fun token member => by rw [declarator.tokens_unsettled token member]; rfl
  rw [splitLeading, group_eq, List.takeWhile_append_of_pos all_kept,
    List.dropWhile_append_of_pos all_kept]
  simp [settles]

private theorem fieldName_tokens (declarator : Declarator) :
    fieldName declarator.tokens = declarator.name.token.name := by
  simp [fieldName, tokens, declarator.name.is_ident]

end Declarator

theorem FieldSyntax.readMember_tokens (field : FieldSyntax) (rest : List Token) :
    readMember (preambleOf field.qualifiers) field.declarator.first.line
        (field.declarator.tokens ++ (field.ending ++ rest))
      = (some (.field field.outline), rest) := by
  have semicolon_settles : settlesMember field.semicolon.token = true := by
    simp [settlesMember, field.semicolon.spelled]
  have other := fun mark =>
    @Token.isPunct_of_ne field.semicolon.token ';' field.semicolon.spelled mark
  cases given : field.initializer with
  | none =>
    simp only [FieldSyntax.ending, given, Option.map_none, Option.getD_none, List.nil_append,
      List.cons_append, readMember, field.declarator.splitLeading_tokens semicolon_settles,
      other '(' (by decide), other '=' (by decide), field.semicolon.spelled, Bool.false_eq_true,
      ↓reduceIte, fieldOf, field.declarator.fieldName_tokens, FieldSyntax.outline]
    simp [Declarator.tokens]
  | some value =>
    have sign_settles : settlesMember value.1.token = true := by
      simp [settlesMember, value.1.spelled]
    have value_eq := splitStatement_of_nests rest value.2.nests field.semicolon.spelled
    rw [← Phrase.tokens] at value_eq
    simp only [FieldSyntax.ending, given, Option.map_some, Option.getD_some, List.nil_append,
      List.cons_append, List.append_assoc, readMember,
      field.declarator.splitLeading_tokens sign_settles,
      Token.isPunct_of_ne value.1.spelled (by decide : '=' ≠ '('), value.1.spelled,
      Bool.false_eq_true, ↓reduceIte, value_eq, fieldOf, field.declarator.fieldName_tokens,
      FieldSyntax.outline]
    simp [Declarator.tokens]

theorem MethodEnd.readMethodTail_tokens (ending : MethodEnd) (clause rest : List Token)
    (unsettled : ∀ token ∈ clause, token.isPunct '\x7b' = false ∧ token.isPunct ';' = false ∧
      token.isPunct '\x7d' = false) :
    readMethodTail (clause ++ (ending.tokens ++ rest)) = (ending.statements, rest) := by
  induction clause with
  | nil =>
    cases ending with
    | semicolon mark =>
      simp [MethodEnd.tokens, MethodEnd.statements, readMethodTail, mark.spelled,
        Token.isPunct_of_ne mark.spelled (by decide : ';' ≠ '\x7b')]
    | body opening trees closing =>
      simp only [MethodEnd.tokens, MethodEnd.statements, List.nil_append, List.cons_append,
        List.append_assoc, readMethodTail, opening.spelled, ↓reduceIte, Tree.readBody_tokensAll,
        readBody_end _ closing.spelled, emitAll, List.append_nil]
  | cons token tail ih =>
    have free := unsettled token List.mem_cons_self
    rw [List.cons_append, readMethodTail]
    simp only [free, Bool.false_eq_true, ↓reduceIte]
    exact ih fun other member => unsettled other (List.mem_cons_of_mem _ member)

theorem MethodSyntax.readMember_tokens (method : MethodSyntax) (rest : List Token) :
    readMember (preambleOf method.qualifiers) method.declarator.first.line
        (method.declarator.tokens ++ (method.tail ++ rest))
      = (some (.method method.outline), rest) := by
  have settles : settlesMember method.opening.token = true := by
    simp [settlesMember, method.opening.spelled]
  have nests : Nests parameterBrackets [] method.parameterTokens := by
    unfold MethodSyntax.parameterTokens
    cases method.parameters with
    | none => rfl
    | some list => exact list.nests_tokens
  have names_eq : parameterNames method.parameterTokens
      = (method.parameters.map ParameterList.names).getD [] := by
    unfold MethodSyntax.parameterTokens
    cases method.parameters with
    | none => rfl
    | some list => exact list.parameterNames_tokens
  have inside_eq := fun rest => splitAtClose_of_nests
    (by decide : OwnPair parameterBrackets '(' ')') nests method.closing.spelled rest
  simp only [MethodSyntax.tail, List.cons_append, List.append_assoc, readMember,
    method.declarator.splitLeading_tokens settles, method.opening.spelled, ↓reduceIte, inside_eq,
    List.drop_one, List.tail_cons, method.ending.readMethodTail_tokens _ _ method.unsettled,
    names_eq, MethodSyntax.outline]
  simp [Declarator.tokens]

section Reader

variable (unit : SourceUnit) (decl : ClassDecl) (outer : List ClassDecl)

private theorem readPreamble_declarator {qualifiers : List Qualifier} {declarator : Declarator}
    (apart : MemberSyntax.apart qualifiers declarator = true) (rest : List Token) :
    ∃ others, declarator.tokens ++ rest = declarator.first :: others ∧
      readPreamble (qualifiers.flatMap Qualifier.tokens ++ (declarator.tokens ++ rest))
        = (preambleOf qualifiers, declarator.first :: others) := by
  obtain ⟨others, tokens_eq⟩ := declarator.tokens_eq_cons
  have unsettled := declarator.first_unsettled
  simp only [settlesMember, Bool.or_eq_false_iff] at unsettled
  have ends : qualifiers.getLast?.any Qualifier.isBare = true →
      declarator.first.isPunct '.' = false ∧ declarator.first.isPunct '(' = false := by
    intro bare
    refine ⟨?_, unsettled.1.1.1.1⟩
    simpa [MemberSyntax.apart, bare] using apart
  refine ⟨others ++ rest, by rw [tokens_eq, List.cons_append], ?_⟩
  rw [tokens_eq, List.cons_append]
  exact readPreamble_qualifiers qualifiers declarator.no_sign declarator.no_modifier ends _

theorem FieldSyntax.readUnit_tokens (field : FieldSyntax)
    (apart : MemberSyntax.apart field.qualifiers field.declarator = true) (rest : List Token) :
    readUnit unit (decl :: outer) (field.tokens ++ rest)
      = readUnit unit (decl.addField field.outline :: outer) rest := by
  have member_eq := field.readMember_tokens rest
  obtain ⟨others, tokens_eq, preamble_eq⟩ := readPreamble_declarator apart (field.ending ++ rest)
  rw [tokens_eq] at member_eq
  simp only [FieldSyntax.tokens, List.append_assoc]
  rw [readUnit_member unit decl outer preamble_eq field.declarator.first_unsettled
    field.declarator.no_sign field.declarator.no_type, member_eq]
  rfl

theorem MethodSyntax.readUnit_tokens (method : MethodSyntax)
    (apart : MemberSyntax.apart method.qualifiers method.declarator = true) (rest : List Token) :
    readUnit unit (decl :: outer) (method.tokens ++ rest)
      = readUnit unit (decl.addMethod method.outline :: outer) rest := by
  have member_eq := method.readMember_tokens rest
  obtain ⟨others, tokens_eq, preamble_eq⟩ := readPreamble_declarator apart (method.tail ++ rest)
  rw [tokens_eq] at member_eq
  simp only [MethodSyntax.tokens, List.append_assoc]
  rw [readUnit_member unit decl outer preamble_eq method.declarator.first_unsettled
    method.declarator.no_sign method.declarator.no_type, member_eq]
  rfl

theorem Initializer.readUnit_tokens (block : Initializer) (rest : List Token) :
    readUnit unit (decl :: outer) (block.tokens ++ rest) = readUnit unit (decl :: outer) rest := by
  have other := fun mark =>
    @Token.isPunct_of_ne block.opening.token '\x7b' block.opening.spelled mark
  have no_modifier := Token.isWord_of_isPunct block.opening.spelled modifierWords
  have bare : (block.modifiers.map Qualifier.modifier).getLast?.any Qualifier.isBare = false := by
    rw [List.getLast?_map, Option.any_map]
    cases block.modifiers.getLast? <;> rfl
  have preamble_eq := readPreamble_qualifiers (block.modifiers.map Qualifier.modifier)
    (other '@' (by decide)) no_modifier (fun is_bare => absurd is_bare (by rw [bare]; decide))
    (block.inside ++ block.closing.token :: rest)
  have modifiers_eq : (block.modifiers.map Qualifier.modifier).flatMap Qualifier.tokens
      = block.modifiers.map Word.token := by
    rw [List.flatMap_map]
    exact List.map_eq_flatMap.symm
  rw [modifiers_eq] at preamble_eq
  simp only [Initializer.tokens, List.cons_append, List.append_assoc, List.nil_append]
  rw [readUnit_initializer unit decl outer preamble_eq block.opening.spelled,
    splitAtClose_of_nests (by decide) block.nests block.closing.spelled]
  rfl

end Reader

end SuiteMigration.Outline
