import SuiteMigration.Outline.Declaration
import SuiteMigration.Outline.Lexing

/-!
# Reading a source file

One pass over the tokens with the classes that are open, innermost first. What fits no rule is
passed over, and the end of the text closes whatever is open. Only one shape is refused: a class
member whose name and type are both missing.
-/
namespace SuiteMigration.Outline

inductive ParseError where
  /-- A member begins with `=`, or with `;` behind annotations or modifiers. -/
  | memberWithoutName
  deriving DecidableEq

/-- Hands a class whose end was reached to the class around it, or to the unit. -/
def closeClass (unit : SourceUnit) (inner : ClassDecl) :
    List ClassDecl → SourceUnit × List ClassDecl
  | [] => (unit.addClass inner, [])
  | outer :: others => (unit, outer.addNested inner :: others)

/-- Closes all open classes, innermost first. -/
def closeAll (unit : SourceUnit) : List ClassDecl → SourceUnit
  | [] => unit
  | [last] => unit.addClass last
  | inner :: outer :: others => closeAll unit (outer.addNested inner :: others)
termination_by classes => classes.length

def openClass (preamble : Preamble) (head : TypeHead) : ClassDecl where
  name := head.name
  modifiers := preamble.modifiers
  tags := preamble.tags
  fields := []
  methods := []
  nested := []
  line := head.line

def ClassDecl.addMember (decl : ClassDecl) : Option Member → ClassDecl
  | some (.field field) => decl.addField field
  | some (.method method) => decl.addMethod method
  | none => decl

/-- Reads on with a unit and the classes open in it. -/
def readUnit (unit : SourceUnit) : List ClassDecl → List Token → Except ParseError SourceUnit
  | classes, [] => .ok (closeAll unit classes)
  | [], token :: rest =>
    if token.isWord ["package"] then
      let name := readName rest
      readUnit { unit with package := some name.1 } [] (splitStatement 0 name.2).2
    else if token.isWord ["import"] then
      let clause := readImport rest
      readUnit (unit.addImport clause.1) [] clause.2
    else
      -- Outside all classes anything but a type is passed over, one token at a time.
      let preamble := readPreamble (token :: rest)
      match _ : readTypeHead preamble.2 with
      | (some head, body) => readUnit unit [openClass preamble.1 head] (body.drop 1)
      | (none, after) => readUnit unit [] (after.drop 1)
  | decl :: outer, token :: rest =>
    let preamble := readPreamble (token :: rest)
    match _ : preamble.2 with
    | [] => .ok (closeAll unit (decl :: outer))
    | first :: after =>
      if first.isPunct '\x7d' then
        let closed := closeClass unit decl outer
        readUnit closed.1 closed.2 after
      else if first.isPunct ';' then
        if preamble.1.isEmpty then readUnit unit (decl :: outer) after
        else .error .memberWithoutName
      else if first.isPunct '=' then .error .memberWithoutName
      else if first.isPunct '@' || first.isWord typeWords then
        match _ : readTypeHead (first :: after) with
        | (some head, body) =>
          readUnit unit (openClass preamble.1 head :: decl :: outer) (body.drop 1)
        | (none, behind) => readUnit unit (decl :: outer) behind
      else if first.isPunct '\x7b' then
        -- An initializer. Its preamble is dropped with it.
        readUnit unit (decl :: outer) ((splitAtClose '\x7b' '\x7d' 0 after).2.drop 1)
      else
        let member := readMember preamble.1 first.line (first :: after)
        readUnit unit (decl.addMember member.1 :: outer) member.2
termination_by _ tokens => tokens.length
decreasing_by
  · exact Nat.lt_succ_of_le (Nat.le_trans (length_splitStatement_le 0 _) (length_readName_le _))
  · exact Nat.lt_succ_of_le (length_readImport_le rest)
  · have head_le := length_readTypeHead_le preamble.2
    have preamble_le : preamble.2.length ≤ _ := length_readPreamble_le (token :: rest)
    simp_all only [List.length_cons, List.length_drop]
    omega
  · have head_le := length_readTypeHead_le preamble.2
    have preamble_le : preamble.2.length ≤ _ := length_readPreamble_le (token :: rest)
    simp_all only [List.length_cons, List.length_drop]
    omega
  -- Inside a class a step takes the first token behind the preamble or more.
  all_goals
    have preamble_le : (first :: after).length ≤ _ :=
      ‹preamble.2 = _› ▸ length_readPreamble_le (token :: rest)
  · exact preamble_le
  · exact preamble_le
  · have head_lt := length_readTypeHead_lt first after ‹_›
    simp_all only [List.length_cons, List.length_drop]
    omega
  · have head_lt := length_readTypeHead_lt first after ‹_›
    simp_all only [List.length_cons]
    omega
  · have inside_le := length_splitAtClose_le '\x7b' '\x7d' 0 after
    simp only [List.length_cons, List.length_drop] at *
    omega
  · have no_brace : first.isPunct '\x7d' = false := by simpa using ‹¬first.isPunct '\x7d' = true›
    exact Nat.lt_of_lt_of_le (length_readMember_lt preamble.1 first.line first after no_brace)
      preamble_le

def SourceUnit.parse (source : String) : Except ParseError SourceUnit :=
  readUnit .empty [] (tokenize source.toList)

end SuiteMigration.Outline
