import SuiteMigration.Proofs.Outline.Body
import SuiteMigration.Proofs.Outline.Joining
import SuiteMigration.Proofs.Outline.Step

/-!
# Outlines do not depend on the layout

Every reader makes of bare tokens what it makes of the tokens, lines apart. So the outline of a
source, lines apart, is settled by its tokens and by which of them are apart: comments and the
amount of white space have no part in it.
-/
namespace SuiteMigration.Outline

/-! ## Outlines without lines -/

def Statement.unlined (statement : Statement) : Statement :=
  { statement with line := 0 }

def Field.unlined (field : Field) : Field :=
  { field with line := 0 }

def Method.unlined (method : Method) : Method :=
  { method with body := method.body.map (·.map Statement.unlined), line := 0 }

mutual

def ClassDecl.unlined : ClassDecl → ClassDecl
  | ⟨name, modifiers, tags, fields, methods, nested, _⟩ =>
    ⟨name, modifiers, tags, fields.map Field.unlined, methods.map Method.unlined,
      unlinedAll nested, 0⟩

def ClassDecl.unlinedAll : List ClassDecl → List ClassDecl
  | [] => []
  | decl :: rest => decl.unlined :: unlinedAll rest

end

/-- The outline with every line set to zero and all else kept. -/
def SourceUnit.unlined (unit : SourceUnit) : SourceUnit :=
  { unit with classes := ClassDecl.unlinedAll unit.classes }

def Member.unlined : Member → Member
  | .field declared => .field declared.unlined
  | .method declared => .method declared.unlined

def TypeHead.unlined (head : TypeHead) : TypeHead :=
  { head with line := 0 }

theorem ClassDecl.unlinedAll_append (first second : List ClassDecl) :
    unlinedAll (first ++ second) = unlinedAll first ++ unlinedAll second := by
  induction first with
  | nil => rfl
  | cons decl rest ih => simp only [List.cons_append, unlinedAll, ih]

theorem ClassDecl.unlined_addMember (decl : ClassDecl) (member : Option Member) :
    (decl.addMember member).unlined = decl.unlined.addMember (member.map Member.unlined) := by
  cases decl
  rcases member with _ | field | method
  · rfl
  · simp [addMember, addField, unlined, Member.unlined]
  · simp [addMember, addMethod, unlined, Member.unlined]

theorem ClassDecl.unlined_addNested (decl inner : ClassDecl) :
    (decl.addNested inner).unlined = decl.unlined.addNested inner.unlined := by
  cases decl
  simp [addNested, unlined, unlinedAll_append, unlinedAll]

theorem SourceUnit.unlined_addClass (unit : SourceUnit) (decl : ClassDecl) :
    (unit.addClass decl).unlined = unit.unlined.addClass decl.unlined := by
  simp [addClass, unlined, ClassDecl.unlinedAll_append, ClassDecl.unlinedAll]

private theorem unlined_openClass (preamble : Preamble) (head : TypeHead) :
    (openClass preamble head).unlined = openClass preamble head.unlined := by
  simp [openClass, ClassDecl.unlined, ClassDecl.unlinedAll, TypeHead.unlined]

private theorem closeClass_unlined (unit : SourceUnit) (inner : ClassDecl)
    (outer : List ClassDecl) :
    closeClass unit.unlined inner.unlined (ClassDecl.unlinedAll outer)
      = ((closeClass unit inner outer).1.unlined,
          ClassDecl.unlinedAll (closeClass unit inner outer).2) := by
  cases outer with
  | nil => simp only [closeClass, ClassDecl.unlinedAll, SourceUnit.unlined_addClass]
  | cons decl others => simp only [closeClass, ClassDecl.unlinedAll, ClassDecl.unlined_addNested]

private theorem closeAll_unlined (unit : SourceUnit) (classes : List ClassDecl) :
    closeAll unit.unlined (ClassDecl.unlinedAll classes) = (closeAll unit classes).unlined := by
  fun_induction closeAll unit classes with
  | case1 => simp only [ClassDecl.unlinedAll, closeAll]
  | case2 last => simp only [ClassDecl.unlinedAll, closeAll, SourceUnit.unlined_addClass]
  | case3 inner outer others ih =>
    rw [ClassDecl.unlinedAll, ClassDecl.unlined_addNested] at ih
    rw [ClassDecl.unlinedAll, ClassDecl.unlinedAll, closeAll, ih]

/-! ## Clauses, annotations and heads -/

section Readers

variable (tokens : List Token)

theorem any_isWord_bareTokens (words : List String) :
    (bareTokens tokens).head?.any (·.isWord words) = tokens.head?.any (·.isWord words) := by
  cases tokens <;> rfl

private theorem splitName_bare (segment started : Bool) :
    splitName segment started (bareTokens tokens)
      = ((splitName segment started tokens).1,
          bareTokens (splitName segment started tokens).2) := by
  induction tokens generalizing segment started with
  | nil => rfl
  | cons token rest ih =>
    cases segment with
    | true =>
      by_cases accepted : (token.kind == .ident || (started && token.isPunct '*')) = true
      · simp [bareTokens, splitName, accepted, ih]
      · simp [bareTokens, splitName, accepted]
    | false =>
      by_cases is_dot : token.isPunct '.' = true
      · simp [bareTokens, splitName, is_dot, ih]
      · simp [bareTokens, splitName, is_dot]

theorem readName_bare :
    readName (bareTokens tokens) = ((readName tokens).1, bareTokens (readName tokens).2) := by
  simp only [readName, splitName_bare]

private theorem readImport_bare :
    readImport (bareTokens tokens)
      = ((readImport tokens).1, bareTokens (readImport tokens).2) := by
  simp only [readImport, any_isWord_bareTokens, tail_bareTokens]
  split
  · simp only [readName_bare, (splitStatement_bare 0 _).rest]
  · simp only [readName_bare, (splitStatement_bare 0 _).rest]

private theorem readTag_bare :
    readTag (bareTokens tokens) = ((readTag tokens).1, bareTokens (readTag tokens).2) := by
  simp only [readTag, readName_bare]
  cases (readName tokens).2 with
  | nil => rfl
  | cons token rest =>
    have inside := splitAtClose_bare '(' ')' 0 rest
    by_cases is_opening : token.isPunct '(' = true
    · simp [bareTokens, is_opening, inside.run.joinTokens_eq, inside.rest]
    · simp [bareTokens, is_opening]

theorem readPreamble_bare :
    readPreamble (bareTokens tokens)
      = ((readPreamble tokens).1, bareTokens (readPreamble tokens).2) := by
  fun_induction readPreamble tokens with
  | case1 => simp [readPreamble]
  | case2 token rest is_sign is_type =>
    simp [bareTokens, readPreamble, is_sign, any_isWord_bareTokens, is_type]
  | case3 token rest is_sign no_type tag more ih =>
    simp [bareTokens, readPreamble, is_sign, any_isWord_bareTokens, no_type, readTag_bare, ih, tag,
      more]
  | case4 token rest no_sign is_modifier more ih =>
    simp [bareTokens, readPreamble, no_sign, is_modifier, ih, more]
  | case5 token rest no_sign no_modifier =>
    simp [bareTokens, readPreamble, no_sign, no_modifier]

private theorem skipToBrace_bare (depth : Nat) :
    skipToBrace depth (bareTokens tokens) = bareTokens (skipToBrace depth tokens) := by
  fun_induction skipToBrace depth tokens with
  | case1 => rfl
  | case2 token rest is_brace =>
    simp only [bareTokens, skipToBrace, Token.isPunct_bare, is_brace, ↓reduceIte]
  | case3 token rest no_brace ih =>
    simp only [bareTokens, skipToBrace, Token.isPunct_bare, no_brace, Bool.false_eq_true,
      ↓reduceIte]
    exact ih
  | case4 depth token rest is_opening ih =>
    simpa only [bareTokens, skipToBrace, Token.isPunct_bare, is_opening, ↓reduceIte] using ih
  | case5 depth token rest no_opening is_closing ih =>
    simpa only [bareTokens, skipToBrace, Token.isPunct_bare, no_opening, is_closing,
      Bool.false_eq_true, ↓reduceIte] using ih
  | case6 depth token rest no_opening no_closing ih =>
    simpa only [bareTokens, skipToBrace, Token.isPunct_bare, no_opening, no_closing,
      Bool.false_eq_true, ↓reduceIte] using ih

theorem readTypeHead_bare :
    readTypeHead (bareTokens tokens)
      = ((readTypeHead tokens).1.map TypeHead.unlined, bareTokens (readTypeHead tokens).2) := by
  -- A sign at the very start is passed over, and the rest is a keyword and a name or no head.
  rcases tokens with _ | ⟨first, rest⟩
  · rfl
  by_cases is_sign : first.isPunct '@' = true
  · rcases rest with _ | ⟨keyword, _ | ⟨name, after⟩⟩
    · simp [bareTokens, readTypeHead, is_sign]
    · by_cases is_type : keyword.isWord typeWords = true
      · simp [bareTokens, readTypeHead, is_sign, is_type]
      · simp [bareTokens, readTypeHead, is_sign, is_type]
    · by_cases is_type : keyword.isWord typeWords = true
      · by_cases is_name : name.kind = .ident
        · simp [bareTokens, readTypeHead, is_sign, is_type, is_name, skipToBrace_bare,
            TypeHead.unlined]
        · simp [bareTokens, readTypeHead, is_sign, is_type, is_name]
      · simp [bareTokens, readTypeHead, is_sign, is_type]
  · by_cases is_type : first.isWord typeWords = true
    · rcases rest with _ | ⟨name, after⟩
      · simp [bareTokens, readTypeHead, is_sign, is_type]
      · by_cases is_name : name.kind = .ident
        · simp [bareTokens, readTypeHead, is_sign, is_type, is_name, skipToBrace_bare,
            TypeHead.unlined]
        · simp [bareTokens, readTypeHead, is_sign, is_type, is_name]
    · simp [bareTokens, readTypeHead, is_sign, is_type]

private theorem parameterNames_bare {run bared : List Token} (bare : BareRun run bared) :
    parameterNames bared = parameterNames run := by
  suffices names : ∀ depth last, parameterNames.go depth last bared
      = parameterNames.go depth last run from names 0 none
  -- Of a token only the kind and the text are looked at, so gaps do not matter.
  have contents := bare.contents
  clear bare
  induction run generalizing bared with
  | nil =>
    obtain rfl := List.map_eq_nil_iff.mp contents
    exact fun _ _ => rfl
  | cons token rest ih =>
    obtain ⟨token', rest', rfl, content_eq, contents⟩ := List.map_eq_cons_iff.mp contents
    obtain ⟨kind_eq, text_eq⟩ := Prod.mk.inj content_eq
    intro depth last
    have same_mark : ∀ mark, token'.isPunct mark = token.isPunct mark := fun mark => by
      simp only [Token.isPunct, kind_eq, text_eq]
    have same_name : token'.name = token.name := by simp only [Token.name, text_eq]
    simp only [parameterNames.go, same_mark, same_name, kind_eq, ih contents]

end Readers

/-! ## Bodies and members -/

theorem emit_bare {run bared : List Token} (bare : BareRun run bared) (token : Token)
    (gapBehind : Bool) (result : List Statement × List Token) :
    emit (statementOf bared (token.bare gapBehind).line)
        (result.1.map Statement.unlined, bareTokens result.2)
      = ((emit (statementOf run token.line) result).1.map Statement.unlined,
          bareTokens (emit (statementOf run token.line) result).2) := by
  simp [emit, statementOf, Statement.unlined, bare.joinTokens_eq]

private theorem readBody_bare (depth : Nat) (tokens : List Token) :
    readBody depth (bareTokens tokens)
      = ((readBody depth tokens).1.map Statement.unlined,
          bareTokens (readBody depth tokens).2) := by
  -- The first bare token has the marks of the first token, so the reader takes the same step.
  fun_induction readBody depth tokens with
  | case1 => simp [readBody]
  | case2 token rest is_closing => exact @readBody_end (token.bare _) _ is_closing
  | case3 token rest is_closing outer ih =>
    rw [bareTokens, @readBody_closing (token.bare _) _ _ is_closing, ih]
  | case4 depth token rest no_closing is_opening ih =>
    rw [bareTokens, @readBody_opening (token.bare _) _ _ is_opening, ih]
  | case5 depth token rest no_closing no_opening is_end ih =>
    rw [bareTokens, @readBody_semicolon (token.bare _) _ _ is_end, ih]
  | case6 depth token rest no_closing no_opening no_end is_head head ih =>
    -- The head is joined with its group to one text.
    have group := splitGroup_bare rest
    have run := group.run.of_cons ⟨_, splitGroup_append rest⟩ ⟨_, splitGroup_append _⟩ token
    rw [bareTokens, @readBody_head (token.bare _) _ _ is_head, group.rest, ih, emit_bare run]
  | case7 depth token no_closing no_opening no_end no_head is_lead next inside has_resources
      resources ih =>
    obtain ⟨is_try, is_opening⟩ := Bool.and_eq_true_iff.mp has_resources
    have group := splitAtClose_bare '(' ')' 0 inside
    rw [bareTokens, bareTokens, @readBody_resources (token.bare _) _ is_try (next.bare _)
      is_opening, group.rest, drop_bareTokens, ih, emit_bare group.run]
  | case8 depth token no_closing no_opening no_end no_head is_lead next inside no_resources ih =>
    rw [bareTokens, @readBody_lead (token.bare _) _ _ is_lead, ih]
    intro is_try bared member
    cases member
    simpa [show token.isWord ["try"] = true from is_try] using no_resources
  | case9 depth token no_closing no_opening no_end no_head is_lead =>
    have nothing_left := @readBody_lead (token.bare false) [] depth is_lead (by simp)
    exact nothing_left.trans (by simp [readBody])
  | case10 depth token rest no_closing no_opening no_end no_head no_lead run ih =>
    simp only [Bool.not_eq_true] at no_closing no_opening no_end no_head no_lead
    have part := splitStatement_bare 0 (token :: rest)
    rw [bareTokens, @readBody_statement (token.bare _) _ _ no_opening no_closing no_end no_head
      no_lead, ← bareTokens, part.rest, ih, emit_bare part.run]

private theorem readMethodTail_bare (tokens : List Token) :
    readMethodTail (bareTokens tokens)
      = ((readMethodTail tokens).1.map (·.map Statement.unlined),
          bareTokens (readMethodTail tokens).2) := by
  fun_induction readMethodTail tokens with
  | case1 => rfl
  | case2 token rest is_brace body =>
    simp [bareTokens, readMethodTail, is_brace, readBody_bare, body]
  | case3 token rest no_brace is_end => simp [bareTokens, readMethodTail, no_brace, is_end]
  | case4 token rest no_brace no_end is_closing =>
    simp [bareTokens, readMethodTail, no_brace, no_end, is_closing]
  | case5 token rest no_brace no_end no_closing ih =>
    simp [bareTokens, readMethodTail, no_brace, no_end, no_closing, ih]

private theorem fieldName_bare {run bared : List Token} (bare : BareRun run bared) :
    fieldName bared = fieldName run := by
  have same : ∀ tokens : List Token, fieldName tokens
      = ((((tokens.map Token.content).reverse.find? (·.1 == .ident)).map
          fun content => String.ofList content.2).getD "") := by
    intro tokens
    rw [fieldName, ← List.map_reverse, List.find?_map]
    simp only [Function.comp_def, Token.content]
    cases tokens.reverse.find? (·.kind == .ident) with
    | none => rfl
    | some token => rfl
  rw [same bared, same run, bare.contents]

private theorem fieldOf_bare {run bared : List Token} (bare : BareRun run bared)
    (preamble : Preamble) (initializer : Option String) (line : Nat) :
    fieldOf preamble bared initializer 0 = (fieldOf preamble run initializer line).unlined := by
  simp only [fieldOf, Field.unlined, fieldName_bare bare, bare.dropLast.joinTokens_eq]

private theorem lastName_bare {run bared : List Token} (bare : BareRun run bared) :
    bared.getLast?.map Token.name = run.getLast?.map Token.name := by
  have last_eq := congrArg List.getLast? bare.contents
  rw [List.getLast?_map, List.getLast?_map] at last_eq
  have names_eq := congrArg (Option.map fun content => String.ofList content.2) last_eq
  rw [Option.map_map, Option.map_map] at names_eq
  exact names_eq

private theorem readMember_bare (preamble : Preamble) (line : Nat) (tokens : List Token) :
    readMember preamble 0 (bareTokens tokens)
      = ((readMember preamble line tokens).1.map Member.unlined,
          bareTokens (readMember preamble line tokens).2) := by
  have leading := splitLeading_bare tokens
  simp only [readMember, leading.rest]
  cases (splitLeading tokens).2 with
  | nil => rfl
  | cons mark rest =>
    simp only [bareTokens, Token.isPunct_bare]
    by_cases is_opening : mark.isPunct '(' = true
    · have inside := splitAtClose_bare '(' ')' 0 rest
      simp [is_opening, lastName_bare leading.run, parameterNames_bare inside.run, inside.rest,
        readMethodTail_bare, Member.unlined, Method.unlined]
    by_cases is_value : mark.isPunct '=' = true
    · have value := splitStatement_bare 0 rest
      simp [is_opening, is_value, value.rest, value.run.joinTokens_eq,
        fieldOf_bare leading.run preamble _ line, Member.unlined]
    by_cases is_end : mark.isPunct ';' = true
    · simp [is_opening, is_value, is_end, fieldOf_bare leading.run preamble _ line, Member.unlined]
    by_cases is_brace : mark.isPunct '\x7b' = true
    · have inside := splitAtClose_bare '\x7b' '\x7d' 0 rest
      simp [is_opening, is_value, is_end, is_brace, inside.rest]
    · simp [is_opening, is_value, is_end, is_brace, bareTokens]

/-! ## Units -/

theorem readPreamble_bare_cons {tokens after : List Token} {first : Token}
    (behind_eq : (readPreamble tokens).2 = first :: after) :
    readPreamble (bareTokens tokens) = ((readPreamble tokens).1,
      first.bare (after.head?.any first.apart) :: bareTokens after) := by
  rw [readPreamble_bare, behind_eq, bareTokens]

/-- Reading the bare tokens gives the outline that the tokens have, lines apart, and it is refused
where reading the tokens is. -/
theorem readUnit_bare (unit : SourceUnit) (classes : List ClassDecl) (tokens : List Token) :
    readUnit unit.unlined (ClassDecl.unlinedAll classes) (bareTokens tokens)
      = (readUnit unit classes tokens).map SourceUnit.unlined := by
  -- On the steps of the reader: each leaves bare tokens and open classes without their lines.
  fun_induction readUnit unit classes tokens with
  | case1 unit classes =>
    rw [bareTokens_nil, readUnit.eq_def]
    simp only [closeAll_unlined, Except.map]
  -- At the top of a file: a package, an import, a class, or a token that is none of these.
  | case2 unit token rest is_package name ih =>
    rw [← ih, bareTokens, ClassDecl.unlinedAll, @readUnit_package _ (token.bare _) _ is_package,
      readName_bare, (splitStatement_bare 0 _).rest]
    rfl
  | case3 unit token rest no_package is_import clause ih =>
    rw [← ih, bareTokens, ClassDecl.unlinedAll, @readUnit_import _ (token.bare _) _ is_import,
      readImport_bare]
    rfl
  | case4 unit token rest no_package no_import preamble head body head_eq ih =>
    simp only [Bool.not_eq_true] at no_package no_import
    have bare_head := readTypeHead_bare preamble.2
    rw [head_eq] at bare_head
    rw [← ih, bareTokens, ClassDecl.unlinedAll, @readUnit_class _ (token.bare _) _ no_package
      no_import _ _ (readPreamble_bare (token :: rest)) _ _ bare_head]
    simp only [ClassDecl.unlinedAll, unlined_openClass, drop_bareTokens, preamble]
  | case5 unit token rest no_package no_import preamble after head_eq ih =>
    simp only [Bool.not_eq_true] at no_package no_import
    have bare_head := readTypeHead_bare preamble.2
    rw [head_eq] at bare_head
    rw [← ih, bareTokens, ClassDecl.unlinedAll, @readUnit_skip _ (token.bare _) _ no_package
      no_import _ _ (readPreamble_bare (token :: rest)) _ bare_head, drop_bareTokens]
  -- Inside a class: what comes next is settled behind the preamble, which has bare tokens, too.
  | case6 unit decl outer token rest preamble behind_eq =>
    have bare_preamble := readPreamble_bare (token :: rest)
    rw [show (readPreamble (token :: rest)).2 = [] from behind_eq] at bare_preamble
    rw [bareTokens, ClassDecl.unlinedAll, @readUnit_unfinished _ _ _ (token.bare _) _ _
      bare_preamble, ← ClassDecl.unlinedAll, closeAll_unlined]
    rfl
  | case7 unit decl outer token rest preamble first after behind_eq is_closing closed ih =>
    rw [← ih, ClassDecl.unlinedAll, readUnit_inClass _ _ _ (readPreamble_bare_cons behind_eq)]
    simp only [Token.isPunct_bare, is_closing, ↓reduceIte, closeClass_unlined, closed]
  | case8 unit decl outer token rest preamble first after behind_eq no_closing is_end is_empty ih =>
    rw [← ih, ClassDecl.unlinedAll, readUnit_inClass _ _ _ (readPreamble_bare_cons behind_eq)]
    simp [no_closing, is_end, show (readPreamble (token :: rest)).1.isEmpty = true from is_empty]
  | case9 unit decl outer token rest preamble first after behind_eq no_closing is_end not_empty =>
    rw [ClassDecl.unlinedAll, readUnit_inClass _ _ _ (readPreamble_bare_cons behind_eq)]
    simp [no_closing, is_end, show ¬(readPreamble (token :: rest)).1.isEmpty = true from not_empty,
      Except.map]
  | case10 unit decl outer token rest preamble first after behind_eq no_closing no_end is_value =>
    rw [ClassDecl.unlinedAll, readUnit_inClass _ _ _ (readPreamble_bare_cons behind_eq)]
    simp [no_closing, no_end, is_value, Except.map]
  | case11 unit decl outer token rest preamble first after behind_eq no_closing no_end no_value
      is_type head body head_eq ih =>
    have bare_head := readTypeHead_bare (first :: after)
    rw [head_eq, bareTokens] at bare_head
    rw [← ih, ClassDecl.unlinedAll, readUnit_inClass _ _ _ (readPreamble_bare_cons behind_eq)]
    simp only [Token.isPunct_bare, Token.isWord_bare, no_closing, no_end, no_value, is_type,
      Bool.false_eq_true, ↓reduceIte, bare_head, Option.map_some, drop_bareTokens,
      ClassDecl.unlinedAll, unlined_openClass, preamble]
  | case12 unit decl outer token rest preamble first after behind_eq no_closing no_end no_value
      is_type behind head_eq ih =>
    have bare_head := readTypeHead_bare (first :: after)
    rw [head_eq, bareTokens] at bare_head
    rw [← ih, ClassDecl.unlinedAll, readUnit_inClass _ _ _ (readPreamble_bare_cons behind_eq)]
    simp only [Token.isPunct_bare, Token.isWord_bare, no_closing, no_end, no_value, is_type,
      Bool.false_eq_true, ↓reduceIte, bare_head, Option.map_none]
  | case13 unit decl outer token rest preamble first after behind_eq no_closing no_end no_value
      no_type is_brace ih =>
    rw [← ih, ClassDecl.unlinedAll, readUnit_inClass _ _ _ (readPreamble_bare_cons behind_eq)]
    simp only [Token.isPunct_bare, Token.isWord_bare, no_closing, no_end, no_value, no_type,
      is_brace, Bool.false_eq_true, ↓reduceIte, (splitAtClose_bare _ _ _ _).rest, drop_bareTokens]
  | case14 unit decl outer token rest preamble first after behind_eq no_closing no_end no_value
      no_type no_brace member ih =>
    have bare_member := readMember_bare preamble.1 first.line (first :: after)
    rw [bareTokens] at bare_member
    rw [← ih, ClassDecl.unlinedAll, readUnit_inClass _ _ _ (readPreamble_bare_cons behind_eq)]
    simp only [Token.isPunct_bare, Token.isWord_bare, Token.line_bare, no_closing, no_end, no_value,
      no_type, no_brace, Bool.false_eq_true, ↓reduceIte, bare_member, ClassDecl.unlinedAll,
      ClassDecl.unlined_addMember, preamble, member]

private theorem unlined_parse (source : String) :
    (SourceUnit.parse source).map SourceUnit.unlined
      = readUnit .empty [] (bareTokens (tokenize source.toList)) :=
  (readUnit_bare .empty [] _).symm

/-- Layout and comments have no part in an outline. -/
theorem parse_layoutFree :
    (∀ first second : String, SameTokens (tokenize first.toList) (tokenize second.toList) →
      (SourceUnit.parse first).map SourceUnit.unlined
        = (SourceUnit.parse second).map SourceUnit.unlined) ∧
    ∀ source : String,
      (SourceUnit.parse (String.ofList (joinTokens (tokenize source.toList)))).map
          SourceUnit.unlined
        = (SourceUnit.parse source).map SourceUnit.unlined := by
  have same_outline : ∀ first second : String,
      SameTokens (tokenize first.toList) (tokenize second.toList) →
      (SourceUnit.parse first).map SourceUnit.unlined
        = (SourceUnit.parse second).map SourceUnit.unlined := by
    intro first second same
    rw [unlined_parse, unlined_parse, same.bareTokens_eq]
  refine ⟨same_outline, fun source => same_outline _ _ ?_⟩
  rw [String.toList_ofList]
  exact (consecutive_tokenizeAt .start source.toList).sameTokens

def commentedPage : String :=
  "@Page( url = \"/in\" )\nclass Login \x7b // The form.\n\n  int tries /* so far */ = 1;\n" ++
    "  void enter(int n) \x7b\n    if (n > tries)\n      button . click();\n  \x7d\n\x7d\n"

def densePage : String :=
  "@Page( url = \"/in\" ) class Login \x7b int tries = 1; void enter(int n) \x7b if (n > tries) " ++
    "button/**/./**/click(); \x7d \x7d"

theorem parse_layoutFree_comments :
    SameTokens (tokenize commentedPage.toList) (tokenize densePage.toList) ∧
      (SourceUnit.parse commentedPage).map SourceUnit.unlined
        = (SourceUnit.parse densePage).map SourceUnit.unlined := by
  have same : SameTokens (tokenize commentedPage.toList) (tokenize densePage.toList) :=
    ⟨by decide +kernel, by decide +kernel⟩
  exact ⟨same, parse_layoutFree.1 commentedPage densePage same⟩

end SuiteMigration.Outline
