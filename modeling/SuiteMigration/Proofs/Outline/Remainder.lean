import SuiteMigration.Outline.Parsing

/-!
# What the readers leave

Every reader leaves an end of the tokens it was given, so whatever is read later was there from the
start.
-/
namespace SuiteMigration.Outline

/-- A closing mark ends the splitter's run, or the end of the text does. -/
theorem splitAtClose_rest (opening closing : Char) (depth : Nat) (tokens : List Token) :
    ∀ mark ∈ (splitAtClose opening closing depth tokens).2.head?, mark.isPunct closing = true := by
  fun_induction splitAtClose opening closing depth tokens <;> simp_all [prepend]

/-- What a statement's splitter takes beyond the statement is one semicolon or nothing. -/
theorem splitStatement_append (depth : Int) (tokens : List Token) :
    ∃ semicolon : Option Token,
      (splitStatement depth tokens).1 ++ (semicolon.toList ++ (splitStatement depth tokens).2)
        = tokens ∧
      (∀ mark ∈ semicolon, mark.isPunct ';' = true) ∧
      (semicolon = none →
        ∀ mark ∈ (splitStatement depth tokens).2.head?, mark.isPunct '\x7d' = true) := by
  fun_induction splitStatement depth tokens with
  | case1 => exact ⟨none, rfl, by simp, by simp⟩
  -- The token is kept in front of what the splitter takes further on.
  | case2 depth token rest _ ih | case3 depth token rest _ _ ih | case5 depth token rest _ _ _ _ ih
  | case7 depth token rest _ _ _ _ ih =>
    obtain ⟨semicolon, append_eq, is_end, is_brace⟩ := ih
    refine ⟨semicolon, ?_, is_end, is_brace⟩
    simp only [prepend, List.cons_append, append_eq]
  -- A closing brace outside all brackets stays, and there is no semicolon.
  | case4 token rest _ _ is_brace =>
    exact ⟨none, rfl, by simp, by simpa using is_brace⟩
  | case6 depth token rest _ _ _ ends =>
    refine ⟨some token, rfl, ?_, by simp⟩
    simp_all

theorem splitAtClose_suffix (opening closing : Char) (depth : Nat) (tokens : List Token) :
    (splitAtClose opening closing depth tokens).2 <:+ tokens :=
  ⟨_, splitAtClose_append opening closing depth tokens⟩

theorem splitStatement_suffix (depth : Int) (tokens : List Token) :
    (splitStatement depth tokens).2 <:+ tokens := by
  obtain ⟨semicolon, append_eq, -, -⟩ := splitStatement_append depth tokens
  rw [← List.append_assoc] at append_eq
  exact ⟨_, append_eq⟩

private theorem splitGroup_suffix (tokens : List Token) : (splitGroup tokens).2 <:+ tokens :=
  ⟨_, splitGroup_append tokens⟩

theorem readBody_suffix (depth : Nat) (tokens : List Token) :
    (readBody depth tokens).2 <:+ tokens := by
  fun_induction readBody depth tokens with
  | case1 | case9 => exact List.nil_suffix
  | case2 => exact List.suffix_cons _ _
  | case3 _ _ _ _ ih | case4 _ _ _ _ _ ih | case5 _ _ _ _ _ _ ih
  | case8 _ _ _ _ _ _ _ _ _ _ ih => exact ih.trans (List.suffix_cons _ _)
  | case6 depth token rest _ _ _ _ head ih =>
    exact (ih.trans (splitGroup_suffix rest)).trans (List.suffix_cons _ _)
  | case7 depth token _ _ _ _ _ next inside _ resources ih =>
    have inside_suffix : resources.2 <:+ inside := splitAtClose_suffix _ _ _ _
    have rest_suffix := (ih.trans (List.drop_suffix _ _)).trans inside_suffix
    exact rest_suffix.trans ((List.suffix_cons _ _).trans (List.suffix_cons _ _))
  | case10 depth token rest _ _ _ _ _ run ih => exact ih.trans (splitStatement_suffix 0 _)

theorem readName_suffix (tokens : List Token) : (readName tokens).2 <:+ tokens := by
  -- The splitter alternates between segments and dots, so the induction is over both states.
  suffices split_suffix : ∀ segment started,
      (splitName segment started tokens).2 <:+ tokens from split_suffix true false
  intro segment started
  fun_induction splitName segment started tokens with
  | case1 => exact List.nil_suffix
  | case2 segment started token rest accepted is_accepted more after split_eq ih =>
    rw [split_eq] at ih
    exact ih.trans (List.suffix_cons _ _)
  | case3 => exact List.suffix_rfl

theorem readImport_suffix (tokens : List Token) : (readImport tokens).2 <:+ tokens := by
  simp only [readImport]
  refine (splitStatement_suffix 0 _).trans ((readName_suffix _).trans ?_)
  split
  · exact List.tail_suffix _
  · exact List.suffix_rfl

private theorem readTag_suffix (tokens : List Token) : (readTag tokens).2 <:+ tokens := by
  have name_suffix := readName_suffix tokens
  simp only [readTag]
  split
  · next token rest after_eq =>
    rw [after_eq] at name_suffix
    split
    · have rest_suffix := (List.drop_suffix 1 _).trans (splitAtClose_suffix '(' ')' 0 rest)
      exact (rest_suffix.trans (List.suffix_cons _ _)).trans name_suffix
    · exact name_suffix
  · exact List.nil_suffix

theorem readPreamble_suffix (tokens : List Token) : (readPreamble tokens).2 <:+ tokens := by
  fun_induction readPreamble tokens with
  | case1 | case2 | case5 => exact List.suffix_rfl
  | case3 token rest _ _ tag more ih =>
    exact (ih.trans (readTag_suffix rest)).trans (List.suffix_cons _ _)
  | case4 _ _ _ _ _ ih => exact ih.trans (List.suffix_cons _ _)

theorem readPreamble_suffix_of_eq {tokens behind : List Token}
    (behind_eq : (readPreamble tokens).2 = behind) : behind <:+ tokens :=
  behind_eq ▸ readPreamble_suffix tokens

private theorem skipToBrace_suffix (depth : Nat) (tokens : List Token) :
    skipToBrace depth tokens <:+ tokens := by
  fun_induction skipToBrace depth tokens with
  | case1 | case2 => exact List.suffix_rfl
  | case3 _ _ _ ih | case4 _ _ _ _ ih | case5 _ _ _ _ _ ih | case6 _ _ _ _ _ ih =>
    exact ih.trans (List.suffix_cons _ _)

private theorem readTypeHead_suffix (tokens : List Token) : (readTypeHead tokens).2 <:+ tokens := by
  unfold readTypeHead
  -- The at sign of an annotation type is skipped before the keyword is looked at.
  extract_lets behind
  have behind_suffix : behind <:+ tokens := by
    cases tokens with
    | nil => exact List.suffix_rfl
    | cons token rest =>
      dsimp only [behind]
      split
      · exact List.suffix_cons _ _
      · exact List.suffix_rfl
  refine List.IsSuffix.trans ?_ behind_suffix
  clear_value behind
  cases behind with
  | nil => exact List.suffix_rfl
  | cons keyword rest =>
    dsimp only
    split
    · cases rest with
      | nil => exact List.nil_suffix
      | cons name after =>
        dsimp only
        split
        · have head_suffix := (List.suffix_cons name after).trans (List.suffix_cons keyword _)
          exact (skipToBrace_suffix 0 after).trans head_suffix
        · exact List.suffix_cons _ _
    · exact List.suffix_rfl

theorem readTypeHead_suffix_of_eq {tokens behind : List Token} {head : Option TypeHead}
    (head_eq : readTypeHead tokens = (head, behind)) : behind <:+ tokens := by
  have behind_suffix := readTypeHead_suffix tokens
  rw [head_eq] at behind_suffix
  exact behind_suffix

private theorem readMethodTail_suffix (tokens : List Token) :
    (readMethodTail tokens).2 <:+ tokens := by
  fun_induction readMethodTail tokens with
  | case1 | case4 => exact List.suffix_rfl
  | case2 token rest _ body => exact (readBody_suffix 0 rest).trans (List.suffix_cons _ _)
  | case3 => exact List.suffix_cons _ _
  | case5 _ _ _ _ _ ih => exact ih.trans (List.suffix_cons _ _)

theorem splitLeading_suffix (tokens : List Token) : (splitLeading tokens).2 <:+ tokens :=
  ⟨_, splitLeading_append tokens⟩

theorem readMember_suffix (preamble : Preamble) (line : Nat) (tokens : List Token) :
    (readMember preamble line tokens).2 <:+ tokens := by
  have leading_suffix := splitLeading_suffix tokens
  simp only [readMember]
  -- A member ends where its tail, its statement, its initial value or its stray mark does.
  split
  · exact List.nil_suffix
  · next mark rest leading_eq =>
    rw [leading_eq] at leading_suffix
    have behind_mark := (List.suffix_cons mark rest).trans leading_suffix
    split
    · refine (readMethodTail_suffix _).trans (List.IsSuffix.trans ?_ behind_mark)
      exact (List.drop_suffix 1 _).trans (splitAtClose_suffix '(' ')' 0 rest)
    · split
      · exact (splitStatement_suffix 0 rest).trans behind_mark
      · split
        · exact behind_mark
        · split
          · exact ((List.drop_suffix 1 _).trans (splitAtClose_suffix _ _ 0 rest)).trans behind_mark
          · exact leading_suffix

end SuiteMigration.Outline
