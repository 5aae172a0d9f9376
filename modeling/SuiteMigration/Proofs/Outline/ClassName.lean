import Mathlib.Data.List.TakeWhile
import SuiteMigration.Proofs.Outline.Run

/-!
# Names of classes

A class has its name from an identifier of the source, so the name holds nothing but characters of
identifiers. The name of the public class may be the fallback instead.
-/
namespace SuiteMigration.Outline

open Text

private theorem isIdentPart_of_isIdentStart {c : Char} (starts : isIdentStart c = true) :
    isIdentPart c = true := by
  unfold isIdentStart at starts
  unfold isIdentPart
  simp only [Bool.or_eq_true] at starts ⊢
  exact starts.imp_left (Or.imp_left isLetterOrNumeral_of_isLetter)

private theorem isIdentPart_of_splitLexeme {c : Char} {rest : List Char}
    (is_ident : (splitLexeme c rest).1 = .ident) :
    ∀ d ∈ c :: (splitLexeme c rest).2.1, isIdentPart d = true := by
  unfold splitLexeme at is_ident ⊢
  split at is_ident
  · split at is_ident <;> cases is_ident
  · split at is_ident
    · cases is_ident
    · split at is_ident
      · next no_quote no_mark starts =>
        rw [if_neg no_quote, if_neg no_mark, if_pos starts]
        intro d member
        rcases List.mem_cons.mp member with rfl | in_rest
        · exact isIdentPart_of_isIdentStart starts
        · exact List.mem_takeWhile_imp in_rest
      · split at is_ident <;> cases is_ident

/-- An identifier is spelled with the characters of identifiers. -/
theorem isIdentPart_of_mem_tokenizeAt (place : Position) (text : List Char) :
    ∀ token ∈ tokenizeAt place text, token.kind = .ident →
      ∀ c ∈ token.text, isIdentPart c = true := by
  fun_induction tokenizeAt place text with
  | case1 => simp
  | case2 place text start c rest gap_eq lexeme stop ih =>
    intro token member is_ident
    rcases List.mem_cons.mp member with rfl | later
    · exact isIdentPart_of_splitLexeme is_ident
    · exact ih token later is_ident

private theorem text_ne_nil_of_mem_tokenizeAt (place : Position) (text : List Char) :
    ∀ token ∈ tokenizeAt place text, token.text ≠ [] := by
  fun_induction tokenizeAt place text with
  | case1 => simp
  | case2 place text start c rest gap_eq lexeme stop ih =>
    intro token member
    rcases List.mem_cons.mp member with rfl | later
    · exact List.cons_ne_nil _ _
    · exact ih token later

section Reading

variable {unit result : SourceUnit} {classes : List ClassDecl} {tokens rest : List Token}
  {name : String} {stand next : Stand}

/-- The names of the classes that a reader has found so far and not put into other ones. -/
def foundNames (unit : SourceUnit) (classes : List ClassDecl) : List String :=
  (unit.classes ++ classes).map ClassDecl.name

/-- The name is that of an identifier. -/
def IsIdentifier (tokens : List Token) (name : String) : Prop :=
  ∃ token ∈ tokens, token.kind = .ident ∧ token.name = name

theorem IsIdentifier.of_suffix (found : IsIdentifier rest name) (suffix : rest <:+ tokens) :
    IsIdentifier tokens name := by
  obtain ⟨token, member, is_ident, name_eq⟩ := found
  exact ⟨token, suffix.subset member, is_ident, name_eq⟩

private theorem foundNames_closeClass (unit : SourceUnit) (inner : ClassDecl)
    (outer : List ClassDecl)
    (member : name ∈ foundNames (closeClass unit inner outer).1 (closeClass unit inner outer).2) :
    name ∈ foundNames unit (inner :: outer) := by
  cases outer with
  | nil => simpa [closeClass, foundNames, SourceUnit.addClass] using member
  | cons around others =>
    have member_or : name ∈ unit.classes.map ClassDecl.name ∨ name = around.name
        ∨ name ∈ others.map ClassDecl.name := by
      simpa [closeClass, foundNames, ClassDecl.addNested] using member
    simp only [foundNames, List.map_append, List.map_cons, List.mem_append, List.mem_cons]
    rcases member_or with in_unit | here | behind
    · exact .inl in_unit
    · exact .inr (.inr (.inl here))
    · exact .inr (.inr (.inr behind))

private theorem name_of_readTypeHead {head : TypeHead} {behind : List Token}
    (head_eq : readTypeHead tokens = (some head, behind)) : IsIdentifier tokens head.name := by
  unfold readTypeHead at head_eq
  extract_lets after_sign at head_eq
  have after_suffix : after_sign <:+ tokens := by
    cases tokens with
    | nil => exact List.suffix_rfl
    | cons token rest =>
      dsimp only [after_sign]
      split
      · exact List.suffix_cons _ _
      · exact List.suffix_rfl
  -- A sign in front is passed, and the name stands behind the keyword.
  refine IsIdentifier.of_suffix ?_ after_suffix
  clear_value after_sign
  cases after_sign with
  | nil => cases (Prod.mk.inj head_eq).1
  | cons keyword behind_keyword =>
    dsimp only at head_eq
    split at head_eq
    · cases behind_keyword with
      | nil => cases (Prod.mk.inj head_eq).1
      | cons named after =>
        dsimp only at head_eq
        split at head_eq
        · next is_ident =>
          obtain rfl := Option.some.inj (Prod.mk.inj head_eq).1
          exact ⟨named, by simp, is_ident, rfl⟩
        · cases (Prod.mk.inj head_eq).1
    · cases (Prod.mk.inj head_eq).1

private theorem name_addMember (decl : ClassDecl) (member? : Option Member) :
    (decl.addMember member?).name = decl.name := by
  rcases member? with _ | field | method <;> rfl

private theorem names_openClass {preamble : Preamble} {head : TypeHead} {part : List Token}
    (is_identifier : IsIdentifier part head.name) (suffix : part <:+ tokens) :
    ∀ name ∈ foundNames unit (openClass preamble head :: classes),
      name ∈ foundNames unit classes ∨ IsIdentifier tokens name := by
  intro name member
  simp only [foundNames, List.map_append, List.map_cons, List.mem_append, List.mem_cons] at member ⊢
  rcases member with in_unit | rfl | behind
  · exact .inl (.inl in_unit)
  · exact .inr (is_identifier.of_suffix suffix)
  · exact .inl (.inr behind)

/-- A step knows the name of a class already, or comes by it as an identifier. -/
theorem Step.names (step : Step stand next) : ∀ name ∈ foundNames next.unit next.classes,
    name ∈ foundNames stand.unit stand.classes ∨ IsIdentifier stand.tokens name := by
  cases step with
  | skip | package | clause => exact fun name found => .inl found
  -- Only here a name is new.
  | opens suffix head_eq => exact names_openClass (name_of_readTypeHead head_eq) suffix
  | closes => exact fun name found => .inl (foundNames_closeClass _ _ _ found)
  | member =>
    intro name found
    simp only [foundNames, List.map_append, List.map_cons, name_addMember] at found ⊢
    exact .inl found

/-- The names of the classes of a unit were there before, or are identifiers that the reader was
given. -/
theorem Runs.names (runs : Runs result stand) : ∀ name ∈ result.classes.map ClassDecl.name,
    name ∈ foundNames stand.unit stand.classes ∨ IsIdentifier stand.tokens name := by
  intro name member
  have found : name ∈ foundNames result [] := by rwa [foundNames, List.append_nil]
  exact runs.known_or_read (fun unit classes name => name ∈ foundNames unit classes) IsIdentifier
    (fun suffix known => known.of_suffix suffix) (fun step _ => step.names _) found

end Reading

section PublicName

variable {source : String} {unit : SourceUnit} (parsed : SourceUnit.parse source = .ok unit)
  (fallback : String)
include parsed

/-- The name of the public class is an identifier of the source, or the fallback. -/
theorem publicName_isIdentifier :
    IsIdentifier (tokenize source.toList) (unit.publicName fallback)
      ∨ unit.publicName fallback = fallback := by
  unfold SourceUnit.publicName
  split
  · next decl public_eq =>
    have member : decl.name ∈ unit.classes.map ClassDecl.name :=
      List.mem_map_of_mem (List.mem_of_find?_eq_some public_eq)
    rcases (runs_of_parse parsed).names _ member with earlier | is_identifier
    · cases earlier
    · exact .inl is_identifier
  · exact .inr rfl

/-- The name of the public class is spelled with the characters of identifiers, or the fallback. -/
theorem publicName_cases :
    (∀ c ∈ (unit.publicName fallback).toList, isIdentPart c = true)
      ∨ unit.publicName fallback = fallback := by
  refine (publicName_isIdentifier parsed fallback).imp_left ?_
  rintro ⟨token, in_source, is_ident, name_eq⟩
  rw [← name_eq]
  simpa [Token.name] using isIdentPart_of_mem_tokenizeAt .start _ token in_source is_ident

variable {fallback} in
theorem publicName_ne_empty (nonempty : fallback ≠ "") : unit.publicName fallback ≠ "" := by
  rcases publicName_isIdentifier parsed fallback with ⟨token, in_source, -, name_eq⟩ | is_fallback
  · rw [← name_eq]
    simpa [Token.name] using text_ne_nil_of_mem_tokenizeAt .start _ token in_source
  · rwa [is_fallback]

end PublicName

end SuiteMigration.Outline
