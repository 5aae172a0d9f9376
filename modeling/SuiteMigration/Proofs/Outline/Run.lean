import SuiteMigration.Proofs.Outline.Remainder
import SuiteMigration.Proofs.Outline.Step

/-!
# Runs of the reader of units

A reader that comes to an end has gone there in steps. Each takes tokens from the front, and adds to
what was read: a clause, a class that opens, a member, or an open class that closes. What a step
preserves holds of everything that is read, by induction on the run.
-/
namespace SuiteMigration.Outline

/-- Where a reader stands: what it has read, the classes that are open, and the tokens that are left. -/
structure Stand where
  unit : SourceUnit
  classes : List ClassDecl
  tokens : List Token

def Stand.read (stand : Stand) : Except ParseError SourceUnit :=
  readUnit stand.unit stand.classes stand.tokens

/-- What a reader can do in one step. -/
inductive Step : Stand → Stand → Prop where
  /-- Some tokens are passed over. -/
  | skip {unit : SourceUnit} {classes : List ClassDecl} {tokens rest : List Token}
      (suffix : rest <:+ tokens) : Step ⟨unit, classes, tokens⟩ ⟨unit, classes, rest⟩
  | package {unit : SourceUnit} {name : String} {tokens rest : List Token} (suffix : rest <:+ tokens) :
      Step ⟨unit, [], tokens⟩ ⟨{ unit with package := some name }, [], rest⟩
  | clause {unit : SourceUnit} {tokens part : List Token} (suffix : part <:+ tokens) :
      Step ⟨unit, [], tokens⟩ ⟨unit.addImport (readImport part).1, [], (readImport part).2⟩
  | opens {unit : SourceUnit} {classes : List ClassDecl} {tokens part body : List Token}
      {preamble : Preamble} {head : TypeHead} (suffix : part <:+ tokens)
      (head_eq : readTypeHead part = (some head, body)) :
      Step ⟨unit, classes, tokens⟩ ⟨unit, openClass preamble head :: classes, body.drop 1⟩
  | closes {unit : SourceUnit} {decl : ClassDecl} {outer : List ClassDecl} {tokens rest : List Token}
      (suffix : rest <:+ tokens) : Step ⟨unit, decl :: outer, tokens⟩
        ⟨(closeClass unit decl outer).1, (closeClass unit decl outer).2, rest⟩
  | member {unit : SourceUnit} {decl : ClassDecl} {outer : List ClassDecl}
      {tokens after : List Token} {first : Token} {preamble : Preamble}
      (suffix : first :: after <:+ tokens) (no_brace : first.isPunct '\x7d' = false) :
      Step ⟨unit, decl :: outer, tokens⟩
        ⟨unit, decl.addMember (readMember preamble first.line (first :: after)).1 :: outer,
          (readMember preamble first.line (first :: after)).2⟩

/-- The reader comes to an end with the result, where all classes are closed. -/
inductive Runs (result : SourceUnit) : Stand → Prop where
  | done {tokens : List Token} : Runs result ⟨result, [], tokens⟩
  | step {stand next : Stand} (step : Step stand next) (read : next.read = .ok result)
      (runs : Runs result next) : Runs result stand

variable {unit result : SourceUnit} {stand next : Stand}

theorem Step.suffix (step : Step stand next) : next.tokens <:+ stand.tokens := by
  cases step with
  | skip suffix => exact suffix
  | package suffix => exact suffix
  | clause suffix => exact (readImport_suffix _).trans suffix
  | opens suffix head_eq =>
    exact ((List.drop_suffix 1 _).trans (readTypeHead_suffix_of_eq head_eq)).trans suffix
  | closes suffix => exact suffix
  | member suffix => exact (readMember_suffix _ _ _).trans suffix

/-- Where the text ends, the open classes are closed one after another. -/
theorem runs_closeAll (unit : SourceUnit) (classes : List ClassDecl) (tokens : List Token) :
    Runs (closeAll unit classes) ⟨unit, classes, tokens⟩ := by
  generalize result_eq : closeAll unit classes = result
  induction length_eq : classes.length generalizing unit classes tokens with
  | zero =>
    obtain rfl := List.length_eq_zero_iff.mp length_eq
    rw [closeAll] at result_eq
    exact result_eq ▸ .done
  | succ count ih =>
    cases classes with
    | nil => cases length_eq
    | cons inner outer =>
      rw [← closeAll_closeClass] at result_eq
      have shorter : (closeClass unit inner outer).2.length = count := by
        rw [List.length_cons, Nat.succ_inj] at length_eq
        rw [← length_eq]
        cases outer <;> rfl
      have read : readUnit (closeClass unit inner outer).1 (closeClass unit inner outer).2 []
          = .ok result := by
        rw [readUnit_nil, result_eq]
      exact .step (.closes List.nil_suffix) read (ih _ _ [] result_eq shorter)

/-- Whatever the reader makes of its tokens, it has come to in steps. -/
theorem runs_of_readUnit (unit : SourceUnit) (classes : List ClassDecl) (tokens : List Token)
    (read : readUnit unit classes tokens = .ok result) : Runs result ⟨unit, classes, tokens⟩ := by
  fun_induction readUnit unit classes tokens with
  -- The tokens are used up, or the text ends inside a class.
  | case1 | case6 =>
    cases read
    exact runs_closeAll _ _ _
  -- At top level: a package or an import clause, a class that opens, or a token that is passed over.
  | case2 unit token rest _ name ih =>
    have rest_suffix := (splitStatement_suffix 0 name.2).trans (readName_suffix rest)
    exact .step (.package (rest_suffix.trans (List.suffix_cons _ _))) read (ih read)
  | case3 unit token rest _ _ clause ih =>
    exact .step (.clause (List.suffix_cons _ _)) read (ih read)
  | case4 unit token rest _ _ preamble head body head_eq ih =>
    exact .step (.opens (readPreamble_suffix (token :: rest)) head_eq) read (ih read)
  | case5 unit token rest _ _ preamble after head_eq ih =>
    have after_suffix := (List.drop_suffix 1 _).trans (readTypeHead_suffix_of_eq head_eq)
    exact .step (.skip (after_suffix.trans (readPreamble_suffix (token :: rest)))) read (ih read)
  -- In a class: the class closes, a semicolon, the two ways to fail, and a class that opens.
  | case7 unit decl outer token rest preamble first after behind_eq _ closed ih =>
    have behind_suffix := readPreamble_suffix_of_eq behind_eq
    exact .step (.closes ((List.suffix_cons _ _).trans behind_suffix)) read (ih read)
  | case8 unit decl outer token rest preamble first after behind_eq _ _ _ ih =>
    have behind_suffix := readPreamble_suffix_of_eq behind_eq
    exact .step (.skip ((List.suffix_cons _ _).trans behind_suffix)) read (ih read)
  | case9 | case10 => cases read
  | case11 unit decl outer token rest preamble first after behind_eq _ _ _ _ head body head_eq ih =>
    exact .step (.opens (readPreamble_suffix_of_eq behind_eq) head_eq) read (ih read)
  -- A keyword of a class, or an initializer, which is passed over with all it contains.
  | case12 unit decl outer token rest preamble first after behind_eq _ _ _ _ behind head_eq ih =>
    have head_suffix := readTypeHead_suffix_of_eq head_eq
    exact .step (.skip (head_suffix.trans (readPreamble_suffix_of_eq behind_eq))) read (ih read)
  | case13 unit decl outer token rest preamble first after behind_eq _ _ _ _ _ ih =>
    have block_suffix := (List.drop_suffix 1 _).trans (splitAtClose_suffix '\x7b' '\x7d' 0 after)
    have first_suffix := (List.suffix_cons first _).trans (readPreamble_suffix_of_eq behind_eq)
    exact .step (.skip (block_suffix.trans first_suffix)) read (ih read)
  | case14 unit decl outer token rest preamble first after behind_eq no_brace _ _ _ _ member ih =>
    exact .step (.member (readPreamble_suffix_of_eq behind_eq) (Bool.eq_false_iff.mpr no_brace)) read
      (ih read)

/-- What is known in the end was known at first or read on the way, if that is so of each step. -/
theorem Runs.known_or_read {α : Type} (knows : SourceUnit → List ClassDecl → α → Prop)
    (reads : List Token → α → Prop)
    (reads_behind : ∀ {rest tokens item}, rest <:+ tokens → reads rest item → reads tokens item)
    (step_knows : ∀ {stand next item}, Step stand next → next.read = .ok result →
      knows next.unit next.classes item → knows stand.unit stand.classes item ∨ reads stand.tokens item)
    (runs : Runs result stand) {item : α} (known : knows result [] item) :
    knows stand.unit stand.classes item ∨ reads stand.tokens item := by
  induction runs with
  | done => exact .inl known
  | step step read _ ih =>
    rcases ih with earlier | later
    · exact step_knows step read earlier
    · exact .inr (reads_behind step.suffix later)

theorem runs_of_parse {source : String} (parsed : SourceUnit.parse source = .ok unit) :
    Runs unit ⟨.empty, [], tokenize source.toList⟩ :=
  runs_of_readUnit _ _ _ parsed

end SuiteMigration.Outline
