import SuiteMigration.Proofs.Outline.ClassName
import SuiteMigration.Proofs.Text.Ending

/-!
# Paths of imports

The path of an import is spelled with the identifiers of its clause, dots and stars, so no name that
it ends in holds a blank.
-/
namespace SuiteMigration.Outline

open Text

/-- Was the clause read at some place in the tokens? -/
def ReadIn (tokens : List Token) (clause : Import) : Prop :=
  ∃ part, part <:+ tokens ∧ clause = (readImport part).1

section Reading

variable {result : SourceUnit} {tokens rest : List Token} {stand next : Stand}

theorem ReadIn.of_suffix {clause : Import} (read : ReadIn rest clause) (suffix : rest <:+ tokens) :
    ReadIn tokens clause := by
  obtain ⟨part, part_suffix, clause_eq⟩ := read
  exact ⟨part, part_suffix.trans suffix, clause_eq⟩

private theorem imports_closeClass (unit : SourceUnit) (inner : ClassDecl)
    (outer : List ClassDecl) :
    (closeClass unit inner outer).1.imports = unit.imports := by
  cases outer <;> rfl

/-- A step has an import already, or reads it as a clause. -/
theorem Step.imports (step : Step stand next) : ∀ clause ∈ next.unit.imports,
    clause ∈ stand.unit.imports ∨ ReadIn stand.tokens clause := by
  cases step with
  | skip | package | opens | member => exact fun clause found => .inl found
  | closes => exact fun clause found => .inl (imports_closeClass _ _ _ ▸ found)
  | clause suffix =>
    intro clause found
    rcases List.mem_append.mp found with earlier | here
    · exact .inl earlier
    · obtain rfl := List.mem_singleton.mp here
      exact .inr ⟨_, suffix, rfl⟩

/-- The imports of a unit were there before, or are clauses that the reader came by. -/
theorem Runs.imports (runs : Runs result stand) : ∀ clause ∈ result.imports,
    clause ∈ stand.unit.imports ∨ ReadIn stand.tokens clause :=
  fun _ member => runs.known_or_read (fun unit _ clause => clause ∈ unit.imports) ReadIn
    (fun suffix read => read.of_suffix suffix) (fun step _ => step.imports _) member

end Reading

/-- A name is put together of identifiers, dots and stars. -/
theorem mem_readName {tokens : List Token} {c : Char} (member : c ∈ (readName tokens).1.toList) :
    c ∈ ['.', '*'] ∨ ∃ token ∈ tokens, token.kind = .ident ∧ c ∈ token.text := by
  -- On the tokens, whichever of a name and a dot comes next.
  suffices split_chars : ∀ segment started, c ∈ (splitName segment started tokens).1 →
      c ∈ ['.', '*'] ∨ ∃ token ∈ tokens, token.kind = .ident ∧ c ∈ token.text from
    split_chars true false (by simpa [readName] using member)
  clear member
  intro segment started
  fun_induction splitName segment started tokens with
  | case1 => exact fun member => absurd member List.not_mem_nil
  | case3 => exact fun member => absurd member List.not_mem_nil
  | case2 segment started token rest accepted is_accepted more after split_eq ih =>
    intro member
    rcases List.mem_append.mp member with here | later
    · have token_cases : token.kind = .ident ∨ token.text = ['*'] ∨ token.text = ['.'] := by
        cases segment with
        | false => simp_all [accepted, Token.isPunct]
        | true =>
          simp only [accepted, ↓reduceIte, Token.isPunct, Bool.or_eq_true, Bool.and_eq_true,
            beq_iff_eq] at is_accepted
          exact is_accepted.imp_right fun star => .inl star.2.2
      rcases token_cases with is_ident | is_star | is_dot
      · exact .inr ⟨token, List.mem_cons_self, is_ident, here⟩
      · rw [is_star, List.mem_singleton] at here
        exact .inl (by simp [here])
      · rw [is_dot, List.mem_singleton] at here
        exact .inl (by simp [here])
    · rw [split_eq] at ih
      refine (ih later).imp_right ?_
      rintro ⟨other, in_rest, is_ident, in_text⟩
      exact ⟨other, List.mem_cons_of_mem _ in_rest, is_ident, in_text⟩

/-- The path of an import in a source file holds no blank. -/
theorem notMem_path {source : String} {unit : SourceUnit}
    (parsed : SourceUnit.parse source = .ok unit) {clause : Import}
    (imported : clause ∈ unit.imports) {c : Char} (blank : isBlank c = true) :
    c ∉ clause.path.toList := by
  intro member
  have no_name := isIdentPart_of_isBlank blank
  rcases (runs_of_parse parsed).imports clause imported with earlier | ⟨part, suffix, rfl⟩
  · cases earlier
  · have from_part : ∀ {tokens : List Token}, tokens <:+ part → c ∉ (readName tokens).1.toList := by
      intro tokens inside in_name
      rcases mem_readName in_name with is_mark | ⟨token, in_tokens, is_ident, in_text⟩
      · have no_mark : ['.', '*'].all (isBlank · == false) = true := by decide
        rw [beq_iff_eq.mp (List.all_eq_true.mp no_mark c is_mark)] at blank
        cases blank
      · have in_source := (inside.trans suffix).subset in_tokens
        rw [isIdentPart_of_mem_tokenizeAt .start _ token in_source is_ident c in_text] at no_name
        cases no_name
    simp only [readImport] at member
    split at member
    · exact from_part (List.tail_suffix part) member
    · exact from_part List.suffix_rfl member

theorem lastSegment_subset (name : String) : (lastSegment name).toList ⊆ name.toList := by
  intro c member
  rw [lastSegment, String.toList_ofList, List.mem_reverse] at member
  exact List.mem_reverse.mp ((List.takeWhile_sublist _).subset member)

end SuiteMigration.Outline
