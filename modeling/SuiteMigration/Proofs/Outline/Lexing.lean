import SuiteMigration.Outline.Lexing

/-!
# Lines of tokens

A token stands in the source on the line it names, and tokens come in the order of their lines.
-/
namespace SuiteMigration.Outline

theorem Position.line_afterAll (place : Position) (text : List Char) :
    (place.afterAll text).line = place.line + text.count '\n' := by
  induction text generalizing place with
  | nil => rfl
  | cons c rest ih =>
    have step := ih (place.after c)
    rw [Position.afterAll, List.foldl_cons]
    rw [Position.afterAll] at step
    rw [step, Position.after, List.count_cons]
    by_cases is_feed : c = '\n'
    · simp [is_feed]
      omega
    · simp [is_feed]

theorem tokenizeAt_line (place : Position) (text : List Char) :
    ∀ token ∈ tokenizeAt place text, ∃ before after,
      text = before ++ (token.text ++ after) ∧ token.line = place.line + before.count '\n' := by
  fun_induction tokenizeAt place text with
  | case1 => simp
  | case2 place text start c rest gap_eq lexeme stop ih =>
    obtain ⟨gap, text_eq, start_eq⟩ := skipGap_split .blank place text
    rw [gap_eq] at text_eq start_eq
    -- The text is the gap, the lexeme and what is lexed later.
    have rest_eq : lexeme.2.1 ++ lexeme.2.2 = rest := splitLexeme_append c rest
    have start_line : start.line = place.line + gap.count '\n' := by
      rw [show start = place.afterAll gap from start_eq, Position.line_afterAll]
    intro token member
    rcases List.mem_cons.mp member with rfl | member
    · exact ⟨gap, lexeme.2.2, by rw [List.cons_append, rest_eq]; exact text_eq, start_line⟩
    · obtain ⟨before, after, behind_eq, line_eq⟩ := ih token member
      refine ⟨gap ++ (c :: lexeme.2.1 ++ before), after, ?_, ?_⟩
      · rw [text_eq, ← rest_eq, behind_eq]
        simp
      · rw [line_eq, Position.line_afterAll, start_line, List.count_append, List.count_append]
        omega

theorem tokenizeAt_lines (place : Position) (text : List Char) :
    (tokenizeAt place text).Pairwise (·.line ≤ ·.line) := by
  fun_induction tokenizeAt place text with
  | case1 => exact List.Pairwise.nil
  | case2 place text start c rest gap_eq lexeme stop ih =>
    refine List.pairwise_cons.mpr ⟨fun token member => ?_, ih⟩
    obtain ⟨before, after, -, line_eq⟩ := tokenizeAt_line stop lexeme.2.2 token member
    have stop_line : stop.line = start.line + (c :: lexeme.2.1).count '\n' :=
      start.line_afterAll _
    simp only
    omega

end SuiteMigration.Outline
