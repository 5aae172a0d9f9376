import SuiteMigration.Proofs.Page.Queries
import SuiteMigration.Proofs.Test.OneLine
import SuiteMigration.Proofs.Text.BareReturn

/-!
# Comments for statements

A statement of the source without a counterpart becomes a comment. However many lines the statement
has, no line feed of it is left, so the comment goes on to its end. Only a bare carriage return of a
statement that is quoted breaks the line.
-/
namespace SuiteMigration.Output

open Pattern Text Locator
open Test (oneLine_review)

/-- What may be given as the reason for a review, in front of the source that is quoted. -/
structure IsReason (reason : String) : Prop where
  no_break : ∀ c ∈ ['\n', '\r'], c ∉ reason.toList
  no_mark : ∀ c ∈ reason.toList.head?, c ≠ '/'

/-- The comments that a statement of the source can become. -/
inductive CommentFor (source : List Char) : Statement → Prop where
  | review {reason : String} (is_reason : IsReason reason) : CommentFor source (.review reason source)
  | transition {page : List Char} (no_break : ∀ c ∈ ['\n', '\r'], c ∉ page) :
      CommentFor source (Page.transitionStatement page)
  | script : CommentFor source Page.scriptStatement

section Texts

variable {reason : String} {source : List Char} {comment : Statement}

theorem IsReason.of_text (no_feed : '\n' ∉ reason.toList) (no_return : '\r' ∉ reason.toList)
    (no_mark : reason.toList.head? ≠ some '/') : IsReason reason where
  no_break := by simp [no_feed, no_return]
  no_mark := fun c first is_mark => no_mark (is_mark ▸ first)

theorem return_mem_review (reason : String) (source : List Char) :
    '\r' ∈ (Statement.review reason source).text.toList ↔
      '\r' ∈ reason.toList ∨ HasBareReturn source := by
  have quoted : '\r' ∈ [' '].intercalate ((Text.lines source).map Text.trim)
      ↔ HasBareReturn source := by
    rw [mem_intercalate_iff (by decide), ← exists_return_trim_iff]
    simp
  simp [Statement.review, quoted]

/-- The mark of a comment stands in front of what it says, and is not repeated there. -/
theorem CommentFor.exists_said (is_comment : CommentFor source comment) :
    ∃ said : String, comment.text = "// " ++ said ∧ said.toList.head? ≠ some '/' := by
  cases is_comment with
  | @review reason is_reason =>
    let quoted := String.ofList ([' '].intercalate ((Text.lines source).map Text.trim))
    refine ⟨reason ++ (": " ++ quoted ++ " (review manually)"), ?_, ?_⟩
    · simp only [Statement.review, String.append_assoc, quoted]
    · rw [String.toList_append, List.head?_append]
      cases first : reason.toList.head? with
      | none => simp
      | some c => simpa using is_reason.no_mark c first
  | @transition page =>
    refine ⟨"Page transition to " ++ String.ofList page, ?_, by simp⟩
    rw [← String.append_assoc]
    rfl
  | script => exact ⟨"JavaScript executor call (review manually)", rfl, by decide⟩

theorem CommentFor.no_feed (is_comment : CommentFor source comment) :
    '\n' ∉ comment.text.toList := by
  cases is_comment with
  | review is_reason => exact (oneLine_review _ (is_reason.no_break _ (by decide)) source).no_feed
  | transition no_break => simp [Page.transitionStatement, no_break]
  | script => decide

/-- A comment takes carriage returns only from the source that it quotes. -/
theorem CommentFor.return_mem_iff (is_comment : CommentFor source comment) :
    '\r' ∈ comment.text.toList ↔
      HasBareReturn source ∧ ∃ reason, comment = .review reason source := by
  constructor
  · intro member
    cases is_comment with
    | review is_reason =>
      have no_return := is_reason.no_break '\r' (by decide)
      exact ⟨((return_mem_review _ _).mp member).resolve_left no_return, _, rfl⟩
    | transition no_break => simp [Page.transitionStatement, no_break] at member
    | script => exact absurd member (by decide)
  · rintro ⟨bare, reason, rfl⟩
    exact (return_mem_review reason source).mpr (.inr bare)

end Texts

section Page

variable {table : Table} {source target : List Char} {comment : Statement}
  {emit : Selector → Statement}

theorem convertBody_cases (table : Table) (body : List String) :
    Page.convertBody table body = [.pending] ∨
      Page.convertBody table body = body.filterMap (Page.convertStatement? table) := by
  simp only [Page.convertBody]
  split
  · exact .inl rfl
  · exact .inr rfl

private theorem commentFor_of_onTarget (accepted : target = [] ∨ Page.targetText.Accepts target)
    (no_comment : ∀ selector, (emit selector).kind.isComment = false)
    (is_comment : (Page.onTarget table source target emit).kind.isComment = true) :
    CommentFor source (Page.onTarget table source target emit) := by
  unfold Page.onTarget at is_comment ⊢
  split at is_comment
  · split at is_comment
    · rw [no_comment] at is_comment
      cases is_comment
    · exact .review (.of_text (by decide) (by decide) (by decide))
  · next no_lookup =>
    split at is_comment
    · rw [no_comment] at is_comment
      cases is_comment
    · have no_break : ∀ c ∈ ['\n', '\r'], c ∉ target := by
        rcases accepted with rfl | accepted
        · exact fun _ _ => List.not_mem_nil
        -- A target that is no lookup is a name.
        rcases Page.lookup_or_word accepted with ⟨head, locator, is_head, is_line, rfl⟩ | is_word
        · have is_some := Page.isSome_find?_inlineLookup is_head is_line
          rw [no_lookup] at is_some
          cases is_some
        · intro c is_break
          refine Test.not_mem_of_isWord is_word ?_
          rcases List.mem_pair.mp is_break with rfl | rfl <;> decide
      refine .review ⟨fun c is_break => ?_, by simp⟩
      have not_around : c ∉ "Unknown locator '".toList ∧ c ∉ "'".toList := by
        rcases List.mem_pair.mp is_break with rfl | rfl <;> decide
      simp only [String.toList_append, String.toList_ofList, List.mem_append, not_or]
      exact ⟨⟨not_around.1, no_break c is_break⟩, not_around.2⟩

theorem commentFor_of_elementCall {pattern : Pattern} {found : Match}
    (found_eq : pattern.find? source = some found)
    (bodies : ∀ body, ("target", body) ∈ pattern.bodies → body = Page.targetText)
    (no_comment : ∀ selector, (emit selector).kind.isComment = false)
    (is_comment : (Page.onTarget table source (found.group "target") emit).kind.isComment = true) :
    CommentFor source (Page.onTarget table source (found.group "target") emit) := by
  refine commentFor_of_onTarget ?_ no_comment is_comment
  rcases accepted_group found_eq "target" with empty | ⟨body, in_bodies, accepted⟩
  · exact .inl empty
  · exact .inr (bodies body in_bodies ▸ accepted)

theorem commentFor_of_convert? {rule : Page.Rule}
    (converted : rule.convert? table source = some comment)
    (is_comment : comment.kind.isComment = true) : CommentFor source comment := by
  cases rule with
  | fill =>
    obtain ⟨found, found_eq, rfl⟩ := Option.map_eq_some_iff.mp converted
    refine commentFor_of_elementCall found_eq ?_ (fun _ => rfl) is_comment
    simp [show Page.fillCall.bodies = [("target", Page.targetText), ("value", line)] from rfl]
  | click =>
    obtain ⟨found, found_eq, rfl⟩ := Option.map_eq_some_iff.mp converted
    refine commentFor_of_elementCall found_eq ?_ (fun _ => rfl) is_comment
    simp [show Page.clickCall.bodies = [("target", Page.targetText)] from rfl]
  | visibility =>
    obtain ⟨found, found_eq, rfl⟩ := Option.map_eq_some_iff.mp converted
    refine commentFor_of_elementCall found_eq ?_ (fun _ => rfl) is_comment
    simp [show Page.visibilityCall.bodies = [("target", Page.targetText)] from rfl]
  | title =>
    obtain ⟨-, some_eq⟩ := Option.ite_none_right_eq_some.mp converted
    obtain rfl := Option.some.inj some_eq
    cases is_comment
  | transition =>
    obtain ⟨found, found_eq, rfl⟩ := Option.map_eq_some_iff.mp converted
    refine .transition fun c is_break => ?_
    rcases List.mem_pair.mp is_break with rfl | rfl <;> exact notMem_group found_eq (by decide)
  | scriptEscape =>
    obtain ⟨-, some_eq⟩ := Option.ite_none_right_eq_some.mp converted
    exact Option.some.inj some_eq ▸ .script

end Page

section Test

variable {pages : List String} {source : List Char} {comment : Statement}

private theorem commentFor_of_emit {rule : Test.Rule}
    (emitted : rule.convert? pages source = some (.emit comment))
    (is_comment : comment.kind.isComment = true) : CommentFor source comment := by
  cases rule with
  | assertion =>
    simp only [Test.Rule.convert?] at emitted
    split at emitted <;> cases emitted
  | navigate | titleBinding | sleep | println =>
    obtain ⟨found, found_eq, outcome_eq⟩ := Option.map_eq_some_iff.mp emitted
    obtain rfl := Test.Outcome.emit.inj outcome_eq
    cases is_comment
  | driverCall =>
    obtain ⟨-, some_eq⟩ := Option.ite_none_right_eq_some.mp emitted
    obtain rfl := Test.Outcome.emit.inj (Option.some.inj some_eq)
    exact .review (.of_text (by decide) (by decide) (by decide))
  | call =>
    simp only [Test.Rule.convert?] at emitted
    split at emitted
    · cases emitted
    · next found found_eq =>
      obtain ⟨-, some_eq⟩ := Option.ite_none_right_eq_some.mp emitted
      obtain rfl := Test.Outcome.emit.inj (Option.some.inj some_eq)
      rw [Test.kind_callStatement] at is_comment
      cases is_comment

end Test

section Bodies

variable {body : List String} {source : String} {comment : Statement}

/-- A comment among the statements of a converted body. It begins with `//` and holds no line feed, and
a carriage return is in it exactly where it quotes a statement with a bare one. -/
structure IsCommentOf (body : List String) (comment : Statement) : Prop where
  opens : "//".toList <+: comment.text.toList
  no_feed : '\n' ∉ comment.text.toList
  return_mem_iff : '\r' ∈ comment.text.toList ↔ ∃ source ∈ body, HasBareReturn source.toList ∧
    ∃ reason, comment = .review reason source.toList

private theorem return_mem_of_bare (quotes : ∃ source ∈ body, HasBareReturn source.toList ∧
    ∃ reason, comment = .review reason source.toList) : '\r' ∈ comment.text.toList := by
  obtain ⟨source, -, bare, reason, rfl⟩ := quotes
  exact (return_mem_review reason _).mpr (.inr bare)

theorem CommentFor.isCommentOf (is_comment : CommentFor source.toList comment)
    (member : source ∈ body) : IsCommentOf body comment where
  opens := by
    obtain ⟨said, text_eq, -⟩ := is_comment.exists_said
    rw [text_eq, String.toList_append]
    exact ⟨" ".toList ++ said.toList, rfl⟩
  no_feed := is_comment.no_feed
  return_mem_iff :=
    ⟨fun in_text => ⟨source, member, is_comment.return_mem_iff.mp in_text⟩, return_mem_of_bare⟩

private theorem isCommentOf_pending (body : List String) : IsCommentOf body .pending where
  opens := by decide
  no_feed := by decide
  return_mem_iff := ⟨fun in_text => absurd in_text (by decide), return_mem_of_bare⟩

/-- Every comment of a page or a script is one line as far as line feeds go, whatever line ends the
statements of the source have. The exception are carriage returns that end no line. -/
theorem comments_break_at_bare_returns (table : Table) (name : String) (pageInstances : List String)
    (emitted : comment ∈ Page.convertBody table body ∨
      comment ∈ (Test.Case.ofBody name pageInstances body).statements)
    (is_comment : comment.kind.isComment = true) : IsCommentOf body comment := by
  rcases emitted with on_page | in_script
  · rcases convertBody_cases table body with alone | all_converted
    · rw [alone, List.mem_singleton] at on_page
      exact on_page ▸ isCommentOf_pending body
    · rw [all_converted] at on_page
      obtain ⟨source, in_body, converted⟩ := List.mem_filterMap.mp on_page
      obtain ⟨rule, rule_eq, -⟩ := Page.rule_of_convertStatement? converted
      exact (commentFor_of_convert? rule_eq is_comment).isCommentOf in_body
  · rw [Test.statements_ofBody] at in_script
    obtain ⟨source, in_body, emitted⟩ := List.mem_filterMap.mp in_script
    obtain ⟨rule, -, rule_eq⟩ :=
      List.exists_of_findSome?_eq_some (Test.convertStatement?_of_bind emitted)
    exact (commentFor_of_emit rule_eq is_comment).isCommentOf in_body

/-- A call of a script that stands in a text block, with both kinds of line ends. -/
def scriptCall : String :=
  "driver.executeScript(\"\"\"\n  return 1;\r\n  \"\"\")"

def scriptReview : Statement :=
  ⟨.reviewComment, "// Driver call not converted: driver.executeScript(\"\"\" return 1; \"\"\") "
    ++ "(review manually)"⟩

def unknownReview : Statement :=
  ⟨.reviewComment, "// Unknown locator 'menu': menu .click() (review manually)"⟩

theorem comments_break_at_bare_returns_textBlock :
    (unknownReview ∈ Page.convertBody .empty ["menu\r\n.click()"] ∧
      unknownReview.kind.isComment = true ∧ IsCommentOf ["menu\r\n.click()"] unknownReview) ∧
    scriptReview ∈ (Test.Case.ofBody "t" [] [scriptCall]).statements ∧
      scriptReview.kind.isComment = true ∧ IsCommentOf [scriptCall] scriptReview := by
  have on_page : unknownReview ∈ Page.convertBody .empty ["menu\r\n.click()"] := by decide +kernel
  have in_script : scriptReview ∈ (Test.Case.ofBody "t" [] [scriptCall]).statements := by
    decide +kernel
  exact ⟨⟨on_page, rfl, comments_break_at_bare_returns .empty "t" [] (.inl on_page) rfl⟩, in_script,
    rfl, comments_break_at_bare_returns .empty "t" [] (.inr in_script) rfl⟩

/-- The text block of this call has carriage returns alone for its line ends. -/
def returnCall : String :=
  "driver.executeScript(\"\"\"\rreturn 1;\r\"\"\")"

theorem comments_break_not_never :
    ¬ ∀ (name : String) (pageInstances body : List String),
      ∀ comment ∈ (Test.Case.ofBody name pageInstances body).statements,
        comment.kind.isComment = true → '\n' ∉ comment.text.toList ∧ '\r' ∉ comment.text.toList := by
  intro one_line
  have emitted : Statement.review "Driver call not converted" returnCall.toList
      ∈ (Test.Case.ofBody "t" [] [returnCall]).statements := by decide +kernel
  exact (one_line _ _ _ _ emitted rfl).2 (by decide +kernel)

end Bodies

end SuiteMigration.Output
