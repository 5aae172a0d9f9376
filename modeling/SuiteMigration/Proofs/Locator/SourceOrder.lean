import Mathlib.Data.List.Forall2
import SuiteMigration.Locator.Declaration
import SuiteMigration.Proofs.Outline.Methods

/-!
# Declarations in source order

A class keeps its fields and its methods in two lists, so how they are mixed is lost. Here every
declaration of a class at top level comes with the tokens that begin with it, and these give the
order back: what a run of the reader adds to the classes at top level stands in the tokens it was
given, one behind another.
-/
namespace SuiteMigration.Locator

open Outline

/-- A declaration with the tokens from its own first one on, annotations and modifiers apart. -/
structure Placed where
  rest : List Token
  declaration : Declaration

/-- The tokens begin with the declaration: a field that they are read as, or the statement of a
piece of a body. -/
inductive Begins : List Token → Declaration → Prop where
  | field {first : Token} {after : List Token} {preamble : Preamble} {field : Field}
      (read_eq : (readMember preamble first.line (first :: after)).1 = some (.field field)) :
      Begins (first :: after) (.ofField field)
  | statement {piece : Piece} {after : List Token} {statement : Statement}
      (genuine : piece.Genuine) (reports : piece.statement? = some statement) :
      Begins (piece.tokens ++ after) (.ofStatement statement)

/-- The declarations begin in the tokens one behind another, and all in front of `after`. -/
structure InOrder (tokens after : List Token) (run : List Placed) : Prop where
  begins : ∀ placed ∈ run, Begins placed.rest placed.declaration
  suffix : ∀ placed ∈ run, placed.rest <:+ tokens
  before : ∀ placed ∈ run, after.length < placed.rest.length
  ordered : run.Pairwise fun first second => second.rest.length < first.rest.length

def isField (declaration : Declaration) : Bool :=
  declaration.field.isSome

/-- The statements of a class as declarations. -/
def statementsOf (decl : ClassDecl) : List Declaration :=
  decl.methods.flatMap fun method => method.statements.map Declaration.ofStatement

/-- The declarations of a class are those that it had, and behind them those of the run. -/
structure Extends (decl : ClassDecl) (run : List Placed) (extended : ClassDecl) : Prop where
  fields : extended.fields.map Declaration.ofField
    = decl.fields.map Declaration.ofField ++ (run.map Placed.declaration).filter isField
  statements : statementsOf extended
    = statementsOf decl ++ (run.map Placed.declaration).filter (!isField ·)

/-- The run mixes the fields and the statements of the class, each in their order. -/
structure Interleaves (decl : ClassDecl) (run : List Placed) : Prop where
  fields : decl.fields.map Declaration.ofField = (run.map Placed.declaration).filter isField
  statements : statementsOf decl = (run.map Placed.declaration).filter (!isField ·)

/-- The classes have the declarations of the runs, and these stand in the tokens in their order. -/
structure SourceOrder (tokens : List Token) (classes : List ClassDecl) (runs : List (List Placed)) :
    Prop where
  interleave : List.Forall₂ Interleaves classes runs
  inOrder : InOrder tokens [] runs.flatten

section Order

variable {tokens middle after : List Token} {run other : List Placed} {placed : Placed}

theorem inOrder_nil : InOrder tokens after [] := by
  constructor <;> simp

private theorem inOrder_single {declaration : Declaration} (begins : Begins tokens declaration)
    (shorter : after.length < tokens.length) : InOrder tokens after [⟨tokens, declaration⟩] := by
  constructor <;> simp [begins, shorter]

/-- What stands in front of a place comes before what stands behind it. -/
theorem InOrder.append (front : InOrder tokens middle run) (back : InOrder middle after other)
    (middle_suffix : middle <:+ tokens) (after_suffix : after <:+ middle) :
    InOrder tokens after (run ++ other) where
  begins placed member := (List.mem_append.mp member).elim (front.begins placed)
    (back.begins placed)
  suffix placed member := (List.mem_append.mp member).elim (front.suffix placed)
    fun behind => (back.suffix placed behind).trans middle_suffix
  before placed member := (List.mem_append.mp member).elim
    (fun here => Nat.lt_of_le_of_lt after_suffix.length_le (front.before placed here))
    (back.before placed)
  ordered := by
    refine List.pairwise_append.mpr ⟨front.ordered, back.ordered, ?_⟩
    intro first here second behind
    exact Nat.lt_of_le_of_lt (back.suffix second behind).length_le (front.before first here)

theorem InOrder.of_suffix (order : InOrder middle after run) (suffix : middle <:+ tokens)
    (after_suffix : after <:+ middle) : InOrder tokens after run :=
  InOrder.append inOrder_nil order suffix after_suffix

private theorem readMember_field_line {preamble : Preamble} {line : Nat} {field : Field}
    (read_eq : (readMember preamble line tokens).1 = some (.field field)) : field.line = line := by
  simp only [readMember] at read_eq
  split at read_eq
  · cases read_eq
  · split at read_eq
    · cases read_eq
    · split at read_eq
      · cases read_eq
        rfl
      · split at read_eq
        · cases read_eq
          rfl
        · split at read_eq <;> cases read_eq

/-- A declaration is on the line of its first token. -/
theorem Begins.line_eq {declaration : Declaration} (begins : Begins tokens declaration) :
    ∃ first ∈ tokens.head?, declaration.line = first.line := by
  cases begins with
  | @field first after preamble field read_eq =>
    exact ⟨first, rfl, readMember_field_line read_eq⟩
  | @statement piece after statement genuine reports =>
    cases piece <;> cases reports <;> exact ⟨_, rfl, rfl⟩

/-- Where the lines of the tokens never decrease, those of the declarations do not either. -/
theorem InOrder.lines (order : InOrder tokens after run)
    (sorted : tokens.Pairwise (·.line ≤ ·.line)) :
    run.Pairwise (·.declaration.line ≤ ·.declaration.line) := by
  refine order.ordered.imp_of_mem ?_
  intro first second first_mem second_mem shorter
  -- Both begin an end of the tokens, so the shorter end is one of the longer, and its first token
  -- stands behind that of the longer.
  have behind : second.rest <:+ first.rest :=
    List.suffix_of_suffix_length_le (order.suffix second second_mem) (order.suffix first first_mem)
      (Nat.le_of_lt shorter)
  obtain ⟨front, front_eq⟩ := behind
  obtain ⟨here, here_eq, here_line⟩ := (order.begins first first_mem).line_eq
  obtain ⟨there, there_eq, there_line⟩ := (order.begins second second_mem).line_eq
  have rest_sorted := sorted.sublist (order.suffix first first_mem).sublist
  rw [← front_eq] at rest_sorted here_eq shorter
  rw [here_line, there_line]
  cases front with
  | nil => simp at shorter
  | cons token others =>
    obtain rfl : token = here := Option.some.inj here_eq
    rw [List.cons_append, List.pairwise_cons] at rest_sorted
    exact rest_sorted.1 there (List.mem_append_right _ (List.mem_of_mem_head? there_eq))

end Order

section Extends

variable {decl middle extended : ClassDecl} {run other : List Placed}

theorem extends_of_same (fields_eq : extended.fields = decl.fields)
    (methods_eq : extended.methods = decl.methods) : Extends decl [] extended := by
  constructor
  · simp [fields_eq]
  · simp [statementsOf, methods_eq]

theorem Extends.trans (first : Extends decl run middle) (second : Extends middle other extended) :
    Extends decl (run ++ other) extended := by
  constructor
  · rw [second.fields, first.fields, List.map_append, List.filter_append, List.append_assoc]
  · rw [second.statements, first.statements, List.map_append, List.filter_append,
      List.append_assoc]

/-- A class has nothing when it opens. -/
theorem Extends.interleaves {preamble : Preamble} {head : TypeHead}
    (extend : Extends (openClass preamble head) run decl) : Interleaves decl run :=
  ⟨extend.fields, extend.statements⟩

end Extends

section Member

variable {after : List Token}

/-- The pieces of a body report their statements where they stand. -/
theorem exists_run_of_pieces (pieces : List Piece) (genuine : ∀ piece ∈ pieces, piece.Genuine) :
    ∃ run, InOrder (pieces.flatMap Piece.tokens ++ after) after run ∧
      run.map Placed.declaration
        = (pieces.filterMap Piece.statement?).map Declaration.ofStatement := by
  induction pieces with
  | nil => exact ⟨[], inOrder_nil, rfl⟩
  | cons piece others ih =>
    obtain ⟨run, order, run_eq⟩ := ih fun other member => genuine other (.tail _ member)
    have after_suffix := List.suffix_append (others.flatMap Piece.tokens) after
    rw [List.flatMap_cons, List.append_assoc]
    generalize others.flatMap Piece.tokens ++ after = rest at order after_suffix ⊢
    have behind := List.suffix_append piece.tokens rest
    -- A piece without a statement is passed over.
    cases reports : piece.statement? with
    | none => exact ⟨run, order.of_suffix behind after_suffix, by simp [reports, run_eq]⟩
    | some statement =>
      have shorter : rest.length < (piece.tokens ++ rest).length := by
        cases piece <;> simp [Piece.tokens] <;> omega
      have here := inOrder_single (.statement (genuine piece (.head _)) reports) shorter
      exact ⟨_, here.append order behind after_suffix, by simp [reports, run_eq]⟩

private theorem map_ofStatement_filter (statements : List Statement) :
    (statements.map Declaration.ofStatement).filter isField = [] ∧
      (statements.map Declaration.ofStatement).filter (!isField ·)
        = statements.map Declaration.ofStatement := by
  simp [isField, Declaration.ofStatement, List.filter_eq_nil_iff, List.filter_eq_self]

/-- A member adds to its class what it declares, in the order of its tokens. -/
theorem exists_run_of_member (decl : ClassDecl) (preamble : Preamble) {first : Token}
    (rest : List Token) (no_brace : first.isPunct '\x7d' = false) :
    ∃ run, InOrder (first :: rest) (readMember preamble first.line (first :: rest)).2 run ∧
      Extends decl run (decl.addMember (readMember preamble first.line (first :: rest)).1) := by
  cases member_eq : (readMember preamble first.line (first :: rest)).1 with
  -- A block without a name is passed over, and the class stays as it is.
  | none => exact ⟨[], inOrder_nil, extends_of_same rfl rfl⟩
  | some member =>
    cases member with
    | field field =>
      have shorter := length_readMember_lt preamble first.line first rest no_brace
      refine ⟨[⟨first :: rest, .ofField field⟩], inOrder_single (.field member_eq) shorter, ?_, ?_⟩
      · simp only [ClassDecl.addMember, ClassDecl.addField, List.map_append]
        rfl
      · exact (List.append_nil _).symm
    | method method =>
      cases body_eq : method.body with
      | none =>
        refine ⟨[], inOrder_nil, ?_, ?_⟩ <;>
          simp [ClassDecl.addMember, ClassDecl.addMethod, statementsOf, Method.statements, body_eq]
      | some statements =>
        -- The body was read from behind its brace, and its statements are those of its pieces.
        obtain ⟨before, opening, inside, tokens_eq, -, read_eq⟩ :=
          readMember_bodyAt member_eq body_eq
        obtain ⟨pieces, found⟩ := readBody_pieces 0 inside
        rw [read_eq] at found
        obtain ⟨run, order, run_eq⟩ := exists_run_of_pieces pieces found.genuine
        rw [found.tokens_eq] at order
        rw [found.statements_eq] at run_eq
        have inside_suffix : inside <:+ first :: rest :=
          tokens_eq ▸ (List.suffix_cons _ _).trans (List.suffix_append _ _)
        have after_suffix := readBody_suffix 0 inside
        rw [read_eq] at after_suffix
        refine ⟨run, order.of_suffix inside_suffix after_suffix, ?_, ?_⟩
        · simp [ClassDecl.addMember, ClassDecl.addMethod, run_eq, map_ofStatement_filter]
        · rw [run_eq, (map_ofStatement_filter _).2]
          simp [ClassDecl.addMember, ClassDecl.addMethod, statementsOf, Method.statements, body_eq]

end Member

/-- What a run of the reader adds to a unit: its new classes with their declarations. If a class is
open at top level it comes first, with what is added to it. -/
inductive Adds : Option ClassDecl → List ClassDecl → List (List Placed) → Prop where
  | outside {added : List ClassDecl} {runs : List (List Placed)}
      (interleave : List.Forall₂ Interleaves added runs) : Adds none added runs
  | inside {base decl : ClassDecl} {run : List Placed} {added : List ClassDecl}
      {runs : List (List Placed)} (extend : Extends base run decl)
      (interleave : List.Forall₂ Interleaves added runs) :
      Adds (some base) (decl :: added) (run :: runs)

section Reader

variable {base next : ClassDecl} {run : List Placed} {added : List ClassDecl}
  {runs : List (List Placed)} {tokens rest : List Token}

theorem Adds.interleave (adds : Adds none added runs) : List.Forall₂ Interleaves added runs := by
  cases adds with
  | outside interleave => exact interleave

/-- The class that is open at top level gets the declarations of a run, then the others. -/
theorem Adds.extend (adds : Adds (some next) added runs) (extend : Extends base run next) :
    ∃ own later, runs = own :: later ∧ Adds (some base) added ((run ++ own) :: later) := by
  cases adds with
  | inside further interleave => exact ⟨_, _, rfl, .inside (extend.trans further) interleave⟩

/-- What is added to a unit with some open classes, in the order of the tokens. -/
def AddsInOrder (unit : SourceUnit) (classes : List ClassDecl) (tokens : List Token)
    (result : SourceUnit) : Prop :=
  ∃ added runs, result.classes = unit.classes ++ added ∧ Adds classes.getLast? added runs ∧
    InOrder tokens [] runs.flatten

variable {unit following result : SourceUnit} {classes open_classes outer : List ClassDecl}
  {decl : ClassDecl} {stand : Stand}

/-- A step that leaves the class at top level as it is. -/
theorem addsInOrder_of_step (found : AddsInOrder following open_classes rest result)
    (suffix : rest <:+ tokens) (classes_eq : following.classes = unit.classes)
    (last_eq : open_classes.getLast? = classes.getLast?) :
    AddsInOrder unit classes tokens result := by
  obtain ⟨added, runs, result_eq, adds, order⟩ := found
  exact ⟨added, runs, classes_eq ▸ result_eq, last_eq ▸ adds,
    order.of_suffix suffix List.nil_suffix⟩

/-- A step that adds the declarations of a run to the class at top level. -/
theorem addsInOrder_of_extend (found : AddsInOrder unit [next] rest result)
    (suffix : rest <:+ tokens) (extend : Extends decl run next) (order : InOrder tokens rest run) :
    AddsInOrder unit [decl] tokens result := by
  obtain ⟨added, runs, result_eq, adds, behind⟩ := found
  obtain ⟨own, later, rfl, further⟩ := adds.extend extend
  refine ⟨added, (run ++ own) :: later, result_eq, further, ?_⟩
  rw [List.flatten_cons, List.append_assoc]
  exact order.append behind suffix List.nil_suffix

/-- A class that opens has nothing yet. -/
theorem addsInOrder_openClass {preamble : Preamble} {head : TypeHead}
    (found : AddsInOrder unit (openClass preamble head :: classes) rest result)
    (suffix : rest <:+ tokens) : AddsInOrder unit classes tokens result := by
  cases classes with
  | cons => exact addsInOrder_of_step found suffix rfl List.getLast?_cons_cons
  | nil =>
    obtain ⟨added, runs, result_eq, adds, order⟩ := found
    cases adds with
    | inside extend interleave =>
      exact ⟨_, _, result_eq, .outside (.cons extend.interleaves interleave),
        order.of_suffix suffix List.nil_suffix⟩

/-- A class that closes at top level keeps what it has. -/
theorem addsInOrder_closeClass
    (found : AddsInOrder (closeClass unit decl outer).1 (closeClass unit decl outer).2 rest result)
    (suffix : rest <:+ tokens) : AddsInOrder unit (decl :: outer) tokens result := by
  cases outer with
  | nil =>
    obtain ⟨added, runs, result_eq, adds, order⟩ := found
    refine ⟨decl :: added, [] :: runs, ?_, .inside (extends_of_same rfl rfl) adds.interleave,
      order.of_suffix suffix List.nil_suffix⟩
    rw [result_eq]
    exact List.append_assoc ..
  | cons around others =>
    cases others with
    | nil => exact addsInOrder_of_extend found suffix (extends_of_same rfl rfl) inOrder_nil
    | cons => exact addsInOrder_of_step found suffix rfl rfl

theorem Step.addsInOrder {after : Stand} (step : Step stand after)
    (found : AddsInOrder after.unit after.classes after.tokens result) :
    AddsInOrder stand.unit stand.classes stand.tokens result := by
  have behind := step.suffix
  cases step with
  | skip | package | clause => exact addsInOrder_of_step found behind rfl rfl
  | opens => exact addsInOrder_openClass found behind
  | closes => exact addsInOrder_closeClass found behind
  -- A member counts only in a class at top level.
  | @member unit decl outer tokens after first preamble suffix no_brace =>
    cases outer with
    | nil =>
      obtain ⟨run, order, extend⟩ := exists_run_of_member decl preamble after no_brace
      exact addsInOrder_of_extend found behind extend
        (order.of_suffix suffix (readMember_suffix _ _ _))
    | cons => exact addsInOrder_of_step found behind rfl rfl

/-- What a run of the reader adds to the classes at top level stands in the tokens it was given, in
their order. -/
theorem Runs.addsInOrder (runs : Runs result stand) :
    AddsInOrder stand.unit stand.classes stand.tokens result := by
  induction runs with
  | done => exact ⟨[], [], (List.append_nil _).symm, .outside .nil, inOrder_nil⟩
  | step step _ _ ih => exact Step.addsInOrder step ih

end Reader

/-- The declarations of the classes at top level stand in the source in the order of some runs. -/
theorem exists_sourceOrder {source : String} {unit : SourceUnit}
    (parsed : SourceUnit.parse source = .ok unit) :
    ∃ runs, SourceOrder (tokenize source.toList) unit.classes runs := by
  obtain ⟨added, runs, classes_eq, adds, order⟩ := Runs.addsInOrder (runs_of_parse parsed)
  rw [classes_eq]
  exact ⟨runs, adds.interleave, order⟩

end SuiteMigration.Locator
