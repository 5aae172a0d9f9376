import SuiteMigration.Proofs.Outline.Body
import SuiteMigration.Proofs.Outline.Coverage
import SuiteMigration.Proofs.Outline.Lexing
import SuiteMigration.Proofs.Outline.Run

/-!
# The methods of a unit

All methods of all classes, however deep, and where their bodies come from: every body was read from
behind an opening brace of the source, so what holds of the reader of bodies holds of every method.
-/
namespace SuiteMigration.Outline

mutual

/-- The methods of a class and of the classes inside it. -/
def ClassDecl.allMethods : ClassDecl → List Method
  | ⟨_, _, _, _, methods, nested, _⟩ => methods ++ allMethodsOf nested

def ClassDecl.allMethodsOf : List ClassDecl → List Method
  | [] => []
  | decl :: rest => decl.allMethods ++ allMethodsOf rest

end

def SourceUnit.allMethods (unit : SourceUnit) : List Method :=
  ClassDecl.allMethodsOf unit.classes

theorem ClassDecl.allMethodsOf_append (first second : List ClassDecl) :
    allMethodsOf (first ++ second) = allMethodsOf first ++ allMethodsOf second := by
  induction first with
  | nil => rfl
  | cons decl rest ih => simp only [List.cons_append, allMethodsOf, ih, List.append_assoc]

theorem ClassDecl.allMethods_addField (decl : ClassDecl) (field : Field) :
    (decl.addField field).allMethods = decl.allMethods := by
  cases decl
  simp only [addField, allMethods]

theorem ClassDecl.mem_allMethods_addMethod (decl : ClassDecl) (method other : Method) :
    other ∈ (decl.addMethod method).allMethods ↔ other ∈ decl.allMethods ∨ other = method := by
  cases decl
  simp only [addMethod, allMethods, List.mem_append, List.mem_singleton]
  exact or_right_comm

theorem ClassDecl.mem_allMethods_addNested (decl inner : ClassDecl) (method : Method) :
    method ∈ (decl.addNested inner).allMethods
      ↔ method ∈ inner.allMethods ∨ method ∈ decl.allMethods := by
  cases decl
  simp only [addNested, allMethods, allMethodsOf_append, allMethodsOf, List.append_nil,
    List.mem_append]
  rw [← or_assoc, or_comm]

/-- The methods that a reader has found so far, in the unit and in its open classes. -/
def foundMethods (unit : SourceUnit) (classes : List ClassDecl) : List Method :=
  ClassDecl.allMethodsOf classes ++ unit.allMethods

theorem mem_foundMethods_cons (unit : SourceUnit) (decl : ClassDecl) (outer : List ClassDecl)
    (method : Method) :
    method ∈ foundMethods unit (decl :: outer)
      ↔ method ∈ decl.allMethods ∨ method ∈ foundMethods unit outer := by
  simp only [foundMethods, ClassDecl.allMethodsOf, List.append_assoc, List.mem_append]

private theorem mem_allMethods_addClass (unit : SourceUnit) (decl : ClassDecl) (method : Method) :
    method ∈ (unit.addClass decl).allMethods
      ↔ method ∈ decl.allMethods ∨ method ∈ unit.allMethods := by
  simp only [SourceUnit.allMethods, SourceUnit.addClass, ClassDecl.allMethodsOf_append,
    ClassDecl.allMethodsOf, List.append_nil, List.mem_append]
  exact or_comm

/-- Closing a class moves its methods and loses none. -/
theorem mem_foundMethods_closeClass (unit : SourceUnit) (inner : ClassDecl)
    (outer : List ClassDecl) (method : Method) :
    method ∈ foundMethods (closeClass unit inner outer).1 (closeClass unit inner outer).2
      ↔ method ∈ foundMethods unit (inner :: outer) := by
  cases outer with
  | nil =>
    rw [mem_foundMethods_cons]
    exact mem_allMethods_addClass unit inner method
  | cons decl others =>
    simp only [closeClass, mem_foundMethods_cons, ClassDecl.mem_allMethods_addNested, or_assoc]

/-- The statements were read from behind an opening brace of the tokens, and `after` is what the
reader of bodies left. -/
def BodyAt (tokens : List Token) (statements : List Statement) (after : List Token) : Prop :=
  ∃ before opening rest, tokens = before ++ opening :: rest ∧ opening.isPunct '\x7b' = true ∧
    readBody 0 rest = (statements, after)

theorem BodyAt.of_suffix {part tokens : List Token} {statements : List Statement}
    {after : List Token} (found : BodyAt part statements after) (suffix : part <:+ tokens) :
    BodyAt tokens statements after := by
  obtain ⟨before, opening, rest, rfl, is_brace, read_eq⟩ := found
  obtain ⟨front, rfl⟩ := suffix
  exact ⟨front ++ before, opening, rest, (List.append_assoc ..).symm, is_brace, read_eq⟩

private theorem readMethodTail_bodyAt {tokens : List Token} {statements : List Statement}
    (body_eq : (readMethodTail tokens).1 = some statements) :
    BodyAt tokens statements (readMethodTail tokens).2 := by
  fun_induction readMethodTail tokens with
  | case1 | case3 | case4 => cases body_eq
  | case2 token rest is_brace body =>
    exact ⟨[], token, rest, rfl, is_brace, by rw [← Option.some.inj body_eq]⟩
  | case5 token rest _ _ _ ih => exact (ih body_eq).of_suffix (List.suffix_cons token rest)

theorem readMember_bodyAt {preamble : Preamble} {line : Nat} {tokens : List Token}
    {method : Method} (member_eq : (readMember preamble line tokens).1 = some (.method method))
    {statements : List Statement} (body_eq : method.body = some statements) :
    BodyAt tokens statements (readMember preamble line tokens).2 := by
  have leading_suffix := splitLeading_suffix tokens
  simp only [readMember] at member_eq ⊢
  split at member_eq
  · cases member_eq
  · -- Only behind an opening parenthesis does a member become a method.
    next mark rest leading_eq =>
    rw [leading_eq] at leading_suffix
    have behind_mark := (List.suffix_cons mark rest).trans leading_suffix
    split at member_eq
    · next is_round =>
      have inside_suffix := (List.drop_suffix 1 _).trans (splitAtClose_suffix '(' ')' 0 rest)
      cases member_eq
      simp only [is_round, ↓reduceIte]
      exact (readMethodTail_bodyAt body_eq).of_suffix (inside_suffix.trans behind_mark)
    · repeat' (split at member_eq)
      all_goals cases member_eq

/-- The body of the method, if it has one, stands in the tokens, and behind it the reader went on to
the result with the method added to its class. -/
def HasSource (result : SourceUnit) (tokens : List Token) (method : Method) : Prop :=
  ∀ statements, method.body = some statements →
    ∃ after, BodyAt tokens statements after ∧
      ∃ (unit : SourceUnit) (decl : ClassDecl) (outer : List ClassDecl),
        readUnit unit (decl.addMethod method :: outer) after = .ok result

theorem HasSource.of_suffix {result : SourceUnit} {part tokens : List Token} {method : Method}
    (found : HasSource result part method) (suffix : part <:+ tokens) :
    HasSource result tokens method := by
  intro statements body_eq
  obtain ⟨after, body_at, reads_on⟩ := found statements body_eq
  exact ⟨after, body_at.of_suffix suffix, reads_on⟩

private theorem mem_foundMethods_openClass {unit : SourceUnit} {preamble : Preamble}
    {head : TypeHead}
    {classes : List ClassDecl} {method : Method}
    (member : method ∈ foundMethods unit (openClass preamble head :: classes)) :
    method ∈ foundMethods unit classes := by
  rcases (mem_foundMethods_cons _ _ _ _).mp member with inside | outside
  · simp [openClass, ClassDecl.allMethods, ClassDecl.allMethodsOf] at inside
  · exact outside

variable {stand next : Stand} {result : SourceUnit}

/-- What one step of the reader finds: a method was found before, or its body was read by this step. -/
theorem Step.sources (step : Step stand next) (read : next.read = .ok result) :
    ∀ method ∈ foundMethods next.unit next.classes,
      method ∈ foundMethods stand.unit stand.classes ∨ HasSource result stand.tokens method := by
  cases step with
  | skip | package | clause => exact fun method found => .inl found
  | opens => exact fun method found => .inl (mem_foundMethods_openClass found)
  | closes =>
    exact fun method found => .inl ((mem_foundMethods_closeClass _ _ _ method).mp found)
  | @member unit decl outer tokens after first preamble suffix =>
    intro method found
    rw [mem_foundMethods_cons]
    cases member_eq : (readMember preamble first.line (first :: after)).1 with
    | none =>
      rw [member_eq, mem_foundMethods_cons] at found
      exact .inl found
    | some content =>
      cases content with
      | field field =>
        rw [member_eq] at found
        simp only [ClassDecl.addMember, mem_foundMethods_cons, ClassDecl.allMethods_addField]
          at found
        exact .inl found
      | method latest =>
        rw [Stand.read, member_eq] at read
        rw [member_eq] at found
        simp only [ClassDecl.addMember, mem_foundMethods_cons,
          ClassDecl.mem_allMethods_addMethod, or_assoc] at found
        -- A method that the class had before, the new one, or one of another class.
        rcases found with inside | rfl | outside
        · exact .inl (.inl inside)
        · refine .inr fun statements body_eq => ?_
          have body_at := readMember_bodyAt member_eq body_eq
          exact ⟨_, body_at.of_suffix suffix, unit, decl, outer, read⟩
        · exact .inl (.inr outside)

/-- The methods of a run were found before, or have their source in the tokens it was given. -/
theorem Runs.sources (runs : Runs result stand) : ∀ method ∈ result.allMethods,
    method ∈ foundMethods stand.unit stand.classes ∨ HasSource result stand.tokens method :=
  fun _ member => runs.known_or_read (fun unit classes method => method ∈ foundMethods unit classes)
    (HasSource result) (fun suffix found => found.of_suffix suffix)
    (fun step read => step.sources read _) member

/-- What is evaluated about the unit of a source is so of a unit that was read. -/
theorem exists_parsed {β : Type} {source : String} {read : SourceUnit → β} {value : β}
    (evaluated : (SourceUnit.parse source).toOption.map read = some value) :
    ∃ unit, SourceUnit.parse source = .ok unit ∧ read unit = value := by
  cases parse_eq : SourceUnit.parse source with
  | error _ =>
    rw [parse_eq] at evaluated
    cases evaluated
  | ok unit =>
    rw [parse_eq] at evaluated
    exact ⟨unit, rfl, Option.some.inj evaluated⟩

theorem parse_source {source : String} {unit : SourceUnit}
    (parse_eq : SourceUnit.parse source = .ok unit) :
    ∀ method ∈ unit.allMethods, HasSource unit (tokenize source.toList) method := by
  intro method member
  rcases (runs_of_parse parse_eq).sources method member with earlier | found
  · cases earlier
  · exact found

/-- In every source that is read, every body is a run of pieces behind its opening brace, and the
reader goes on behind it. Its statements are those of the pieces, in their order and on lines that
never decrease. A body whose brackets nest ends with the brace that closes it. -/
theorem bodies_account_for_their_tokens (source : String) :
    (∀ unit, SourceUnit.parse source = .ok unit → ∀ method ∈ unit.allMethods,
      ∀ statements, method.body = some statements →
      ∃ before opening pieces after,
        tokenize source.toList = before ++ opening :: (pieces.flatMap Piece.tokens ++ after) ∧
        opening.isPunct '\x7b' = true ∧
        pieces.filterMap Piece.statement? = statements ∧
        (∀ piece ∈ pieces, piece.Genuine) ∧
        Covers 0 pieces ∧
        statements.Pairwise (·.line ≤ ·.line) ∧
        (∀ inner closing rest, pieces.flatMap Piece.tokens ++ after = inner ++ closing :: rest →
          Nests allBrackets [] inner → closing.isPunct '\x7d' = true →
          pieces.flatMap Piece.tokens = inner ++ [closing] ∧ after = rest) ∧
        ∃ (earlier : SourceUnit) (decl : ClassDecl) (outer : List ClassDecl),
          readUnit earlier (decl.addMethod method :: outer) after = .ok unit) ∧
    ∀ inner closing rest, Nests allBrackets [] inner → closing.isPunct '\x7d' = true →
      (readBody 0 (inner ++ closing :: rest)).2 = rest := by
  -- Where the reader stops is settled by the nesting alone, whatever the pieces are.
  have stops : ∀ inner closing rest, Nests allBrackets [] inner →
      closing.isPunct '\x7d' = true → (readBody 0 (inner ++ closing :: rest)).2 = rest := by
    intro inner closing rest nests is_closing
    have behind : awaitedBehind allBrackets [] (List.replicate 0 '\x7d') inner = some [] := nests
    exact readBody_of_awaitedBehind is_closing rest behind
  refine ⟨?_, stops⟩
  intro unit parse_eq method member statements body_eq
  obtain ⟨after, ⟨before, opening, rest, tokens_eq, is_brace, read_eq⟩, reads_on⟩ :=
    parse_source parse_eq method member statements body_eq
  obtain ⟨pieces, covered⟩ := readBody_pieces 0 rest
  rw [read_eq] at covered
  have sorted : rest.Pairwise (·.line ≤ ·.line) := by
    have all_sorted := tokenizeAt_lines .start source.toList
    rw [show tokenizeAt .start source.toList = _ from tokens_eq] at all_sorted
    exact (List.pairwise_cons.mp (List.pairwise_append.mp all_sorted).2.1).2
  refine ⟨before, opening, pieces, after, by rw [covered.tokens_eq]; exact tokens_eq, is_brace,
    covered.statements_eq, covered.genuine, covered.covers, covered.lines_pairwise sorted, ?_,
    reads_on⟩
  -- The closing brace is the one that the reader has stopped at.
  intro inner closing behind split_eq nests is_closing
  have rest_eq : rest = inner ++ closing :: behind := covered.tokens_eq.symm.trans split_eq
  have after_eq : after = behind := by
    have left := stops inner closing behind nests is_closing
    rw [← rest_eq, read_eq] at left
    exact left
  refine ⟨?_, after_eq⟩
  rw [after_eq, List.append_cons inner closing behind] at split_eq
  exact List.append_cancel_right split_eq

/-- A truncated source, in which a block, a conditional and the last statement lack their ends. -/
theorem bodies_account_for_their_tokens_truncated :
    ∃ (unit : SourceUnit) (method : Method) (pieces : List Piece),
      SourceUnit.parse "class A \x7b void f() \x7b try (r) \x7b a(); if (b) c(); d(" = .ok unit ∧
      method ∈ unit.allMethods ∧
      method.body = some [⟨"r", 1⟩, ⟨"a()", 1⟩, ⟨"if (b)", 1⟩, ⟨"c()", 1⟩, ⟨"d(", 1⟩] ∧
      some (pieces.filterMap Piece.statement?) = method.body := by
  have evaluated :
      (SourceUnit.parse "class A \x7b void f() \x7b try (r) \x7b a(); if (b) c(); d(").toOption.map
        SourceUnit.allMethods
        = some [⟨[], [], "f", [], some [⟨"r", 1⟩, ⟨"a()", 1⟩, ⟨"if (b)", 1⟩, ⟨"c()", 1⟩,
          ⟨"d(", 1⟩], 1⟩] := by
    decide +kernel
  cases parse_eq :
      SourceUnit.parse "class A \x7b void f() \x7b try (r) \x7b a(); if (b) c(); d(" with
  | error _ =>
    rw [parse_eq] at evaluated
    cases evaluated
  | ok unit =>
    rw [parse_eq] at evaluated
    have methods_eq := Option.some.inj evaluated
    obtain ⟨method, member, body_eq⟩ : ∃ method ∈ unit.allMethods,
        method.body = some [⟨"r", 1⟩, ⟨"a()", 1⟩, ⟨"if (b)", 1⟩, ⟨"c()", 1⟩, ⟨"d(", 1⟩] := by
      rw [methods_eq]
      exact ⟨_, List.mem_singleton_self _, rfl⟩
    obtain ⟨-, -, pieces, -, -, -, statements_eq, -⟩ :=
      (bodies_account_for_their_tokens _).1 unit parse_eq method member _ body_eq
    exact ⟨unit, method, pieces, rfl, member, body_eq, by rw [statements_eq, body_eq]⟩

end SuiteMigration.Outline
