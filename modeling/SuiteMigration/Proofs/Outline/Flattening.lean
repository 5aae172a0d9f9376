import SuiteMigration.Proofs.Outline.Methods
import SuiteMigration.Proofs.Outline.RoundTrip

/-!
# Bodies are flattened

The body that is reported for a method whose body is a list of statement trees is the list of the
leaves of these trees, whatever stands around the method.
-/
namespace SuiteMigration.Outline

namespace MemberSyntax

def ending? : MemberSyntax → Option MethodEnd
  | .method decl => some decl.ending
  | _ => none

mutual

/-- The ends of the methods of the classes inside a member, in the order of the reported methods. -/
def nestedEndings : MemberSyntax → List MethodEnd
  | .nested _ _ members _ => members.filterMap ending? ++ nestedEndingsAll members
  | _ => []

def nestedEndingsAll : List MemberSyntax → List MethodEnd
  | [] => []
  | member :: rest => member.nestedEndings ++ nestedEndingsAll rest

end

private theorem bodies_method? (members : List MemberSyntax) :
    (members.filterMap method?).map Method.body
      = (members.filterMap ending?).map MethodEnd.statements := by
  rw [List.map_filterMap, List.map_filterMap]
  congr 1
  funext member
  cases member <;> rfl

mutual

private theorem bodies_nested? (member : MemberSyntax) :
    (ClassDecl.allMethodsOf member.nested?.toList).map Method.body
      = member.nestedEndings.map MethodEnd.statements := by
  cases member with
  | nested qualifiers head members closing =>
    simp only [nested?, nestedEndings, fill, Option.toList_some, ClassDecl.allMethodsOf,
      ClassDecl.allMethods, List.append_nil, List.map_append, bodies_method? members,
      bodies_nestedAll members]
  | empty | initializer | field | method => rfl

theorem bodies_nestedAll (members : List MemberSyntax) :
    (ClassDecl.allMethodsOf (nestedAll members)).map Method.body
      = (nestedEndingsAll members).map MethodEnd.statements := by
  cases members with
  | nil => rfl
  | cons member others =>
    rw [nestedAll, nestedEndingsAll, ClassDecl.allMethodsOf_append, List.map_append,
      List.map_append, bodies_nested? member, bodies_nestedAll others]

end

end MemberSyntax

/-- The ends of the methods of a class, its own in front of those of the classes inside it. -/
def ClassSyntax.endings (decl : ClassSyntax) : List MethodEnd :=
  decl.members.filterMap MemberSyntax.ending? ++ MemberSyntax.nestedEndingsAll decl.members

def UnitSyntax.endings (unit : UnitSyntax) : List MethodEnd :=
  unit.classes.flatMap ClassSyntax.endings

theorem UnitSyntax.bodies_outline (unit : UnitSyntax) :
    unit.outline.allMethods.map Method.body = unit.endings.map MethodEnd.statements := by
  simp only [UnitSyntax.outline, SourceUnit.allMethods, UnitSyntax.endings]
  generalize unit.classes = classes
  induction classes with
  | nil => rfl
  | cons decl others ih =>
    have own : decl.outline.allMethods.map Method.body
        = decl.endings.map MethodEnd.statements := by
      simp only [ClassSyntax.outline, ClassSyntax.endings, MemberSyntax.fill, ClassDecl.allMethods,
        List.map_append, MemberSyntax.bodies_method?, MemberSyntax.bodies_nestedAll]
    rw [List.map_cons, ClassDecl.allMethodsOf, List.flatMap_cons, List.map_append, List.map_append,
      own, ih]

/-- The bodies of a source that spells a unit are the leaves of its statement trees. In any source
at all, trees behind the opening brace of a body give their leaves. The line of a token counts from
the first line. -/
theorem bodies_are_leaves (source : String) :
    (∀ spelled : UnitSyntax, spelled.separated = true →
      tokenize source.toList = spelled.tokens →
      ∃ unit, SourceUnit.parse source = .ok unit ∧
        unit.allMethods.map Method.body = spelled.endings.map MethodEnd.statements) ∧
    (∀ unit, SourceUnit.parse source = .ok unit → ∀ method ∈ unit.allMethods,
      ∀ statements, method.body = some statements →
      ∃ before opening rest, tokenize source.toList = before ++ opening :: rest ∧
        opening.isPunct '\x7b' = true ∧
        ∀ (trees : List Tree) (closing : Mark '\x7d') (after : List Token),
          rest = Tree.tokensAll trees ++ closing.token :: after →
          statements = Tree.leavesAll trees) ∧
    ∀ token ∈ tokenize source.toList, ∃ before after,
      source.toList = before ++ (token.text ++ after) ∧ token.line = 1 + before.count '\n' := by
  refine ⟨?_, ?_, tokenizeAt_line .start source.toList⟩
  · -- The unit is read as its outline, whose bodies are the methods' ends in the same order.
    intro spelled separated tokens_eq
    refine ⟨spelled.outline, ?_, spelled.bodies_outline⟩
    rw [SourceUnit.parse, tokens_eq]
    exact spelled.readUnit_tokens separated
  · -- The reader of bodies ran from behind this brace, so its result on the trees is the body.
    intro unit parse_eq method member statements body_eq
    obtain ⟨after, ⟨before, opening, rest, tokens_eq, is_brace, read_eq⟩, -⟩ :=
      parse_source parse_eq method member statements body_eq
    refine ⟨before, opening, rest, tokens_eq, is_brace, ?_⟩
    rintro trees closing behind rfl
    rw [Tree.readBody_tokensAll, readBody_end _ closing.spelled] at read_eq
    have statements_eq := congrArg Prod.fst read_eq
    simpa [emitAll] using statements_eq.symm

/-- A method whose only statement is a conditional, the resources of its attempt and a block in
it. -/
theorem bodies_are_leaves_attempt :
    ∃ spelled : UnitSyntax, spelled.separated = true ∧
      tokenize "class A \x7b f() \x7b if(b) try(r) \x7b a; \x7d \x7d \x7d".toList = spelled.tokens ∧
      ∃ unit,
        SourceUnit.parse "class A \x7b f() \x7b if(b) try(r) \x7b a; \x7d \x7d \x7d" = .ok unit ∧
        unit.allMethods.map Method.body = [some [⟨"if(b)", 1⟩, ⟨"r", 1⟩, ⟨"a", 1⟩]] := by
  let attempt : Tree := .attempt ⟨⟨.ident, "try".toList, 22, 25, 1⟩, by decide⟩
    (some ⟨⟨⟨.punct, ['('], 25, 26, 1⟩, rfl⟩, [⟨.ident, ['r'], 26, 27, 1⟩], by decide,
      ⟨⟨.punct, [')'], 27, 28, 1⟩, rfl⟩⟩)
    ⟨⟨.punct, ['\x7b'], 29, 30, 1⟩, rfl⟩
    [.simple ⟨⟨⟨.ident, ['a'], 31, 32, 1⟩, [], by decide⟩, rfl, by decide, by decide⟩
      ⟨⟨.punct, [';'], 32, 33, 1⟩, rfl⟩]
    ⟨⟨.punct, ['\x7d'], 34, 35, 1⟩, rfl⟩
  let conditional : Tree := .head ⟨⟨.ident, "if".toList, 16, 18, 1⟩, by decide⟩
    ⟨⟨⟨.punct, ['('], 18, 19, 1⟩, rfl⟩, [⟨.ident, ['b'], 19, 20, 1⟩], by decide,
      ⟨⟨.punct, [')'], 20, 21, 1⟩, rfl⟩⟩ attempt
  let method : MethodSyntax := {
    qualifiers := []
    declarator := ⟨[], ⟨⟨.ident, ['f'], 10, 11, 1⟩, rfl⟩, by simp, rfl, by decide, by decide⟩
    opening := ⟨⟨.punct, ['('], 11, 12, 1⟩, rfl⟩
    parameters := none
    closing := ⟨⟨.punct, [')'], 12, 13, 1⟩, rfl⟩
    clause := []
    unsettled := by simp
    ending := .body ⟨⟨.punct, ['\x7b'], 14, 15, 1⟩, rfl⟩ [conditional]
      ⟨⟨.punct, ['\x7d'], 36, 37, 1⟩, rfl⟩ }
  let spelled : UnitSyntax := ⟨none, [], [{
    qualifiers := []
    head := ⟨⟨⟨.ident, "class".toList, 0, 5, 1⟩, by decide⟩, ⟨⟨.ident, ['A'], 6, 7, 1⟩, rfl⟩, [],
      rfl, ⟨⟨.punct, ['\x7b'], 8, 9, 1⟩, rfl⟩⟩
    members := [.method method]
    closing := ⟨⟨.punct, ['\x7d'], 38, 39, 1⟩, rfl⟩ }]⟩
  have tokens_eq : tokenize "class A \x7b f() \x7b if(b) try(r) \x7b a; \x7d \x7d \x7d".toList
      = spelled.tokens := by
    decide +kernel
  obtain ⟨unit, parse_eq, bodies_eq⟩ := (bodies_are_leaves _).1 spelled rfl tokens_eq
  refine ⟨spelled, rfl, tokens_eq, unit, parse_eq, bodies_eq.trans ?_⟩
  decide +kernel

end SuiteMigration.Outline
