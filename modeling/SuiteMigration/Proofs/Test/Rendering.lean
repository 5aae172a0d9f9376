import SuiteMigration.Proofs.Outline.ImportPath
import SuiteMigration.Proofs.Test.OneLine
import SuiteMigration.Proofs.Test.References
import SuiteMigration.Proofs.Test.TopLevel

/-!
# Lines of a rendered script

The try block of a script is rendered line by line: what it begins with, and for each case a comment
with its name and its statements in braces. Indenting splits the text into lines and puts it together
again, so the block keeps its shape because no name and no statement spans lines.
-/
namespace SuiteMigration.Test

open Outline Text Output

/-- The lines of a case; a case without statements has no braces. -/
def Case.blockLines (case : Case) : List String :=
  ["", "// @Test: " ++ case.name]
    ++ if case.statements.isEmpty then []
      else ["\x7b"] ++ case.statements.map (fun statement => "  " ++ statement.text) ++ ["\x7d"]

namespace Script

/-- The lines of the try block without its margin. -/
def blockLines (script : Script) : List String :=
  ["const page = await browser.newPage();"] ++ script.pages.map instanceLine
    ++ ["await page.goto(BASE_URL);"] ++ script.cases.flatMap Case.blockLines
    ++ ["", "console.log('All tests passed!');"]

/-- The lines of the try block: four blanks in front of each that is not empty. -/
def tryLines (script : Script) : List String :=
  script.blockLines.map tryLine
where
  tryLine (line : String) : String :=
    if line.isEmpty then "" else "    " ++ line

/-- What stands in front of the try block. -/
def opening (script : Script) : String :=
  "import \x7b chromium \x7d from 'playwright';\n"
    ++ String.join (script.pages.map importLine)
    ++ "\n(async () => \x7b\n  const HEADLESS = (process.env.HEADLESS ?? "
    ++ singleQuoted (if script.settings.headless then "true" else "false")
    ++ ") === 'true';\n  const BASE_URL = process.env.BASE_URL ?? "
    ++ singleQuoted script.settings.baseUrl ++ ";\n"
    ++ "  const browser = await chromium.launch(\x7b headless: HEADLESS \x7d);\n\n"

/-- What is done when the try block has failed, and what is done in any case. -/
def closing : String :=
  "    console.error('Test failed:', err);\n"
    ++ "    process.exitCode = 1;\n  \x7d finally \x7b\n    await browser.close();\n  \x7d\n"
    ++ "\x7d)();\n"

/-- No part of the script that is rendered on one line spans several. -/
structure Whole (script : Script) : Prop where
  pages : ∀ page ∈ script.pages, '\n' ∉ page.name.toList
  names : ∀ case ∈ script.cases, ∀ c ∈ case.name.toList, isIdentPart c = true
  statements : ∀ case ∈ script.cases, ∀ statement ∈ case.statements,
    OneLine statement.text.toList

end Script

/-- How many blanks a line begins with. -/
def indentation (line : String) : Nat :=
  (line.toList.takeWhile (· = ' ')).length

section Block

variable {case : Case} {line : String}

private theorem margin_of_opens {text : List Char} (level : Nat) (opens : Opens text) :
    margin level text = List.replicate (2 * level) ' ' ++ text := by
  rw [margin, if_neg (by simpa using opens.ne_nil)]

theorem notMem_name {name : String} (is_name : ∀ c ∈ name.toList, isIdentPart c = true) {c : Char}
    (no_part : isIdentPart c = false) : c ∉ name.toList := by
  intro member
  rw [is_name c member] at no_part
  cases no_part

/-- The statements of a case, one a line. -/
theorem splitAt_body (nonempty : case.statements ≠ [])
    (one_line : ∀ statement ∈ case.statements, OneLine statement.text.toList) :
    Text.splitAt '\n' ("\n".intercalate (case.statements.map Output.Statement.text)).toList
      = (case.statements.map Output.Statement.text).map String.toList := by
  rw [toList_joined]
  refine splitAt_intercalate_of_notMem (by simpa using nonempty) ?_
  rw [List.map_map]
  exact List.forall_mem_map.mpr fun statement member => (one_line statement member).no_feed

private theorem lined_body (nonempty : case.statements ≠ [])
    (one_line : ∀ statement ∈ case.statements, OneLine statement.text.toList) :
    Lined ("\n".intercalate (case.statements.map Output.Statement.text)).toList := by
  refine lined_of_closes (splitAt_body nonempty one_line) ?_ fun last_eq => ?_
  · exact List.forall_mem_map.mpr fun statement member => .inr (one_line statement member).closes
  · obtain ⟨statement, member, empty⟩ := List.mem_map.mp (List.mem_of_getLast? last_eq)
    exact (one_line statement member).opens.ne_nil (String.toList_eq_nil_iff.mpr empty)

/-- Indented, the statements of a case have two blanks in front of each. -/
theorem splitAt_indent_body (nonempty : case.statements ≠ [])
    (one_line : ∀ statement ∈ case.statements, OneLine statement.text.toList) :
    Text.splitAt '\n'
        (indent 1 ("\n".intercalate (case.statements.map Output.Statement.text))).toList
      = case.statements.map fun statement => ("  " ++ statement.text).toList := by
  rw [splitAt_indent 1 (lined_body nonempty one_line), splitAt_body nonempty one_line, List.map_map,
    List.map_map]
  refine List.map_congr_left fun statement member => ?_
  rw [Function.comp_apply, Function.comp_apply,
    margin_of_opens 1 (one_line statement member).opens]
  simp

/-- The rendered case is split into its lines. -/
theorem splitAt_render (one_line : ∀ statement ∈ case.statements, OneLine statement.text.toList)
    (name_whole : '\n' ∉ case.name.toList) :
    case.render.flatMap (fun step => Text.splitAt '\n' step.toList)
      = case.blockLines.map String.toList := by
  have head_whole : '\n' ∉ ("// @Test: " ++ case.name).toList := by
    rw [String.toList_append, List.mem_append, not_or]
    exact ⟨by decide, name_whole⟩
  have empty_line : Text.splitAt '\n' "".toList = [[]] := rfl
  unfold Case.render Case.blockLines
  split
  · simp only [List.append_nil, List.flatMap_cons, List.flatMap_nil, empty_line,
      splitAt_of_notMem head_whole, List.map_cons, List.map_nil]
    rfl
  · next some_statement =>
    have nonempty : case.statements ≠ [] := by simpa using some_statement
    have text_eq (text : String) : ("\x7b\n" ++ text ++ "\n\x7d").toList
        = ['\x7b'] ++ '\n' :: (text.toList ++ '\n' :: ['\x7d']) := by simp
    have brace (mark : Char) (no_feed : mark ≠ '\n') : Text.splitAt '\n' [mark] = [[mark]] :=
      splitAt_of_notMem (by simpa using Ne.symm no_feed)
    -- The block is one step of the script; its line feeds are those next to the braces and those
    -- between the statements.
    dsimp only
    simp only [List.flatMap_append, List.flatMap_cons, List.flatMap_nil, List.append_nil, text_eq,
      splitAt_append_mark, splitAt_indent_body nonempty one_line, empty_line,
      splitAt_of_notMem head_whole, brace '\x7b' (by decide), brace '\x7d' (by decide)]
    simp

private theorem closes_of_name (is_name : ∀ c ∈ case.name.toList, isIdentPart c = true) :
    Closes ("// @Test: " ++ case.name).toList := by
  rw [String.toList_append]
  -- A name without characters leaves the blank in front of it at the end.
  cases name_eq : case.name.toList.getLast? with
  | none =>
    rw [List.getLast?_eq_none_iff.mp name_eq]
    decide
  | some last =>
    refine Closes.behind ⟨notMem_name is_name (by decide), ?_⟩ (by decide)
    rw [name_eq, Option.any_some, bne_iff_ne]
    rintro rfl
    have no_return : '\r' ∉ case.name.toList := notMem_name is_name (by decide)
    exact no_return (List.mem_of_getLast? name_eq)

private theorem closes_of_mem_case
    (one_line : ∀ statement ∈ case.statements, OneLine statement.text.toList)
    (is_name : ∀ c ∈ case.name.toList, isIdentPart c = true) (member : line ∈ case.blockLines) :
    line = "" ∨ Closes line.toList := by
  rcases List.mem_append.mp member with in_head | in_braces
  · rcases List.mem_cons.mp in_head with rfl | in_name
    · exact .inl rfl
    · obtain rfl := List.mem_singleton.mp in_name
      exact .inr (closes_of_name is_name)
  · split at in_braces
    · cases in_braces
    · right
      rw [List.mem_append, List.mem_append, List.mem_singleton, List.mem_singleton,
        List.mem_map] at in_braces
      rcases in_braces with (rfl | ⟨statement, in_case, rfl⟩) | rfl
      · decide
      · rw [String.toList_append]
        exact (one_line statement in_case).closes.behind (by decide)
      · decide

end Block

section Indentation

variable {case : Case} {line : String}

private theorem indentation_of_opens {blanks : String}
    (all_blank : blanks.toList.all (· = ' ') = true)
    (opens : Opens line.toList) : indentation (blanks ++ line) = blanks.toList.length := by
  have stops : line.toList.takeWhile (· = ' ') = [] := by
    have first := opens.2
    cases line_eq : line.toList with
    | nil => rfl
    | cons c rest =>
      rw [line_eq] at first
      simpa using first
  rw [indentation, String.toList_append,
    List.takeWhile_append_of_pos (List.all_eq_true.mp all_blank), stops, List.append_nil]

private theorem indentation_tryLine (opens : Opens line.toList) :
    indentation (Script.tryLines.tryLine line) = 4 := by
  rw [Script.tryLines.tryLine, if_neg (by simpa using opens.ne_nil)]
  exact indentation_of_opens (by decide) opens

/-- The lines of a case with six blanks are its statements. -/
theorem filter_case (one_line : ∀ statement ∈ case.statements, OneLine statement.text.toList)
    (name_whole : '\n' ∉ case.name.toList) :
    (case.blockLines.map Script.tryLines.tryLine).filter (indentation · = 6)
      = case.statements.map fun statement => "      " ++ statement.text := by
  have head_opens : Opens ("// @Test: " ++ case.name).toList := by
    rw [String.toList_append]
    exact Opens.append (by decide) name_whole
  have head_other : indentation (Script.tryLines.tryLine ("// @Test: " ++ case.name)) = 4 :=
    indentation_tryLine head_opens
  have statements_kept : (case.statements.map fun statement =>
        Script.tryLines.tryLine ("  " ++ statement.text)).filter (indentation · = 6)
      = case.statements.map fun statement => "      " ++ statement.text := by
    have line_eq (statement : Output.Statement) :
        Script.tryLines.tryLine ("  " ++ statement.text) = "      " ++ statement.text := by
      rw [Script.tryLines.tryLine, if_neg (by simp), ← String.append_assoc]
      rfl
    simp only [line_eq]
    refine List.filter_eq_self.mpr (List.forall_mem_map.mpr fun statement member => ?_)
    rw [decide_eq_true_eq]
    exact indentation_of_opens (by decide) (one_line statement member).opens
  -- The other lines of a case are empty or stand at the margin of the block.
  have empty_other : indentation (Script.tryLines.tryLine "") = 0 := rfl
  have opening_other : indentation (Script.tryLines.tryLine "\x7b") = 4 := rfl
  have closing_other : indentation (Script.tryLines.tryLine "\x7d") = 4 := rfl
  unfold Case.blockLines
  split
  · next no_statement =>
    simp [empty_other, head_other, List.isEmpty_iff.mp no_statement]
  · rw [List.map_append, List.map_append, List.map_append, List.map_map, List.filter_append,
      List.filter_append, List.filter_append, Function.comp_def, statements_kept]
    simp [empty_other, head_other, opening_other, closing_other]

end Indentation

section Try

variable {script : Script}

theorem oneLine_instanceLine {page : PageImport} (whole : '\n' ∉ page.name.toList) :
    OneLine (Script.instanceLine page).toList := by
  have middle_whole : '\n' ∉ (lowerCamel page.name).toList ++ " = new ".toList
      ++ page.name.toList := by
    simp [feed_notMem_lowerCamel whole, whole]
  have one_line := oneLine_append (show Opens "const ".toList by decide) middle_whole
    (show Closes "(page);".toList by decide)
  simpa [Script.instanceLine] using one_line

private theorem splitAt_steps (whole : script.Whole) :
    Text.splitAt '\n' ("\n".intercalate script.steps).toList
      = script.blockLines.map String.toList := by
  have pages_eq : (script.pages.map Script.instanceLine).flatMap
        (fun step => Text.splitAt '\n' step.toList)
      = (script.pages.map Script.instanceLine).map String.toList := by
    rw [List.flatMap_map, List.map_map, List.map_eq_flatMap]
    exact List.flatMap_congr fun page member =>
      splitAt_of_notMem (oneLine_instanceLine (whole.pages page member)).no_feed
  have cases_eq : (script.cases.flatMap Case.render).flatMap
        (fun step => Text.splitAt '\n' step.toList)
      = (script.cases.flatMap Case.blockLines).map String.toList := by
    rw [List.flatMap_assoc, List.map_flatMap]
    exact List.flatMap_congr fun case member =>
      splitAt_render (whole.statements case member) (notMem_name (whole.names case member) (by decide))
  rw [toList_joined, splitAt_intercalate (by simp [Script.steps]), List.flatMap_map]
  unfold Script.steps Script.blockLines
  simp only [List.flatMap_append, List.map_append, pages_eq, cases_eq]
  rfl

private theorem closes_of_mem_blockLines (whole : script.Whole) {line : String}
    (member : line ∈ script.blockLines) : line = "" ∨ Closes line.toList := by
  unfold Script.blockLines at member
  simp only [List.mem_append, List.mem_map, List.mem_flatMap] at member
  rcases member with (((in_head | ⟨page, in_pages, rfl⟩) | in_visit) | ⟨case, in_cases, in_case⟩)
    | in_tail
  · obtain rfl := List.mem_singleton.mp in_head
    exact .inr (by decide)
  · exact .inr (oneLine_instanceLine (whole.pages page in_pages)).closes
  · obtain rfl := List.mem_singleton.mp in_visit
    exact .inr (by decide)
  · exact closes_of_mem_case (whole.statements case in_cases) (whole.names case in_cases) in_case
  · rcases List.mem_cons.mp in_tail with rfl | in_last
    · exact .inl rfl
    · obtain rfl := List.mem_singleton.mp in_last
      exact .inr (by decide)

private theorem lined_steps (whole : script.Whole) :
    Lined ("\n".intercalate script.steps).toList := by
  have last_eq : script.blockLines.getLast? = some "console.log('All tests passed!');" := by
    rw [Script.blockLines, List.getLast?_append]
    rfl
  exact lined_of_closes (splitAt_steps whole) (fun line => closes_of_mem_blockLines whole)
    (by rw [last_eq]; decide)

/-- Indented, the steps of a script are the lines of its try block. -/
theorem indent_steps (whole : script.Whole) :
    indent 2 ("\n".intercalate script.steps) = "\n".intercalate script.tryLines := by
  rw [← String.toList_inj, toList_indent, (lined_steps whole).lines_eq, splitAt_steps whole,
    toList_joined, Script.tryLines, List.map_map, List.map_map]
  congr 2
  funext line
  simp only [Function.comp_apply, margin, Script.tryLines.tryLine]
  by_cases empty : line = ""
  · simp [empty]
  · simp [empty]

theorem render_eq (whole : script.Whole) :
    script.render = script.opening ++ "  try \x7b\n" ++ "\n".intercalate script.tryLines
      ++ "\n  \x7d catch (err) \x7b\n" ++ Script.closing := by
  have try_eq :
      "  const browser = await chromium.launch(\x7b headless: HEADLESS \x7d);\n\n  try \x7b\n"
      = "  const browser = await chromium.launch(\x7b headless: HEADLESS \x7d);\n\n"
        ++ "  try \x7b\n" := rfl
  have catch_eq : "\n  \x7d catch (err) \x7b\n    console.error('Test failed:', err);\n"
      = "\n  \x7d catch (err) \x7b\n" ++ "    console.error('Test failed:', err);\n" := rfl
  unfold Script.render Script.opening Script.closing
  rw [indent_steps whole, try_eq, catch_eq]
  simp only [String.append_assoc]

private theorem filter_tryLines (whole : script.Whole) :
    script.tryLines.filter (indentation · = 6)
      = script.cases.flatMap fun case =>
        case.statements.map fun statement => "      " ++ statement.text := by
  have others (lines : List String)
      (other : ∀ line ∈ lines, indentation (Script.tryLines.tryLine line) ≠ 6) :
      (lines.map Script.tryLines.tryLine).filter (indentation · = 6) = [] := by
    rw [List.filter_eq_nil_iff]
    exact List.forall_mem_map.mpr fun line member => by simpa using other line member
  have pages_other : ∀ line ∈ script.pages.map Script.instanceLine,
      indentation (Script.tryLines.tryLine line) ≠ 6 := by
    refine List.forall_mem_map.mpr fun page member => ?_
    rw [indentation_tryLine (oneLine_instanceLine (whole.pages page member)).opens]
    decide
  have cases_kept : ((script.cases.flatMap Case.blockLines).map Script.tryLines.tryLine).filter
        (indentation · = 6)
      = script.cases.flatMap fun case =>
        case.statements.map fun statement => "      " ++ statement.text := by
    rw [List.map_flatMap, List.filter_flatMap]
    refine List.flatMap_congr fun case member => ?_
    exact filter_case (whole.statements case member) (notMem_name (whole.names case member) (by decide))
  unfold Script.tryLines Script.blockLines
  simp only [List.map_append, List.filter_append, cases_kept]
  rw [others _ (by decide), others _ pages_other, others _ (by decide), others _ (by decide)]
  simp only [List.append_nil, List.nil_append]

end Try

section Source

variable {source fallback : String} {unit : SourceUnit} {directory : Path} {catalog : Catalog}
  {settings : Settings} {script : Script}

/-- A script imports the pages that its test refers to, and its cases are those of test methods. -/
theorem parts_of_ofUnit?
    (built : Script.ofUnit? unit source fallback directory catalog settings = some script) :
    (∀ page ∈ script.pages, page.name ∈ catalog.referencedPages unit source) ∧
    ∀ case ∈ script.cases, ∃ test ∈ testMethods unit, ∃ instances,
      case = Case.ofBody test.name instances (test.statements.map Outline.Statement.text) := by
  unfold Script.ofUnit? at built
  extract_lets tests names instances at built
  split at built
  · cases built
  · cases built
    exact ⟨List.forall_mem_map.mpr fun name member => member,
      List.forall_mem_map.mpr fun test member => ⟨test, member, instances, rfl⟩⟩

private theorem feed_notMem_importedNames (parsed : SourceUnit.parse source = .ok unit)
    {name : String}
    (imported : name ∈ catalog.importedNames unit) : '\n' ∉ name.toList := by
  obtain ⟨clause, in_filter, rfl⟩ := List.mem_map.mp imported
  have in_unit := (List.mem_filter.mp in_filter).1
  exact fun member => notMem_path parsed in_unit (by decide) (lastSegment_subset clause.path member)

private theorem whole_of_ofUnit? (parsed : SourceUnit.parse source = .ok unit)
    (identifiers : ∀ method ∈ testMethods unit, ∀ c ∈ method.name.toList, isIdentPart c = true)
    (whole_names : ∀ name ∈ catalog.converted, '\n' ∉ name.toList)
    (built : Script.ofUnit? unit source fallback directory catalog settings = some script) :
    script.Whole := by
  obtain ⟨pages_known, cases_known⟩ := parts_of_ofUnit? built
  constructor
  · intro page member
    have known := mem_referencedPages catalog unit source (pages_known page member)
    rcases known with imported | converted
    · exact feed_notMem_importedNames parsed imported
    · exact whole_names page.name converted
  · intro case member
    obtain ⟨test, in_unit, instances, rfl⟩ := cases_known case member
    rw [Case.name_ofBody]
    exact identifiers test in_unit
  · intro case member statement in_case
    obtain ⟨test, -, instances, rfl⟩ := cases_known case member
    rw [statements_ofBody] at in_case
    obtain ⟨body, -, emitted⟩ := List.mem_filterMap.mp in_case
    obtain ⟨rule, -, rule_eq⟩ :=
      List.exists_of_findSome?_eq_some (convertStatement?_of_bind emitted)
    exact oneLine_of_convert? rule_eq

/-- No statement of a script holds a line feed, whatever the source has between its quotes. So the
lines between `try` and `catch` are those of the cases one behind another, and those that are
indented by six blanks are the statements of all cases. -/
theorem render_keeps_statements (parsed : SourceUnit.parse source = .ok unit)
    (identifiers : ∀ method ∈ testMethods unit, ∀ c ∈ method.name.toList, isIdentPart c = true)
    (whole_names : ∀ name ∈ catalog.converted, '\n' ∉ name.toList)
    (built : Script.ofSource? source fallback directory catalog settings = .ok (some script)) :
    (∀ case ∈ script.cases, ∀ statement ∈ case.statements, '\n' ∉ statement.text.toList) ∧
    script.render = script.opening ++ "  try \x7b\n" ++ "\n".intercalate script.tryLines
      ++ "\n  \x7d catch (err) \x7b\n" ++ Script.closing ∧
    (∀ line ∈ script.tryLines, '\n' ∉ line.toList) ∧
    script.tryLines.filter (indentation · = 6)
      = script.cases.flatMap fun case =>
        case.statements.map fun statement => "      " ++ statement.text := by
  rw [Script.ofSource?, parsed] at built
  have whole := whole_of_ofUnit? parsed identifiers whole_names (Except.ok.inj built)
  refine ⟨fun case member statement in_case =>
      (whole.statements case member statement in_case).no_feed,
    render_eq whole, List.forall_mem_map.mpr fun line member => ?_, filter_tryLines whole⟩
  rcases closes_of_mem_blockLines whole member with rfl | closes
  · decide
  · unfold Script.tryLines.tryLine
    split
    · decide
    · rw [String.toList_append]
      exact (closes.behind (by decide)).1

/-- Three tests: one opens a page, one is empty, and one has a text block. -/
def textBlockSource : String :=
  "import shop.pages.*; class T \x7b @Test void opens() \x7b driver.get(\"/a\"); Cart.open(); \x7d "
    ++ "@Test void idle() \x7b \x7d "
    ++ "@Test void reads() \x7b driver.type(\"\"\"\n  one\n  two\"\"\"); \x7d \x7d"

def textBlockLines : List String :=
  ["    const page = await browser.newPage();", "    const cart = new Cart(page);",
    "    await page.goto(BASE_URL);",
    "", "    // @Test: opens", "    \x7b", "      await page.goto('/a');",
    "      await Cart.open();", "    \x7d",
    "", "    // @Test: idle",
    "", "    // @Test: reads", "    \x7b",
    "      // Driver call not converted: driver.type(\"\"\" one two\"\"\") (review manually)",
    "    \x7d", "", "    console.log('All tests passed!');"]

theorem render_keeps_statements_textBlock :
    ∃ unit script, SourceUnit.parse textBlockSource = .ok unit ∧
      (∀ method ∈ testMethods unit, ∀ c ∈ method.name.toList, isIdentPart c = true) ∧
      (∀ name ∈ cartCatalog.converted, '\n' ∉ name.toList) ∧
      Script.ofSource? textBlockSource "T" ⟨"tests"⟩ cartCatalog ⟨"http://shop", true⟩
        = .ok (some script) ∧
      script.render = script.opening ++ "  try \x7b\n" ++ "\n".intercalate textBlockLines
        ++ "\n  \x7d catch (err) \x7b\n" ++ Script.closing ∧
      textBlockLines.filter (indentation · = 6)
        = script.cases.flatMap fun case =>
          case.statements.map fun statement => "      " ++ statement.text := by
  have names_eq : (SourceUnit.parse textBlockSource).toOption.map (fun unit =>
      (testMethods unit).map Method.name) = some ["opens", "idle", "reads"] := by decide +kernel
  have lines_eq : ((Script.ofSource? textBlockSource "T" ⟨"tests"⟩ cartCatalog
      ⟨"http://shop", true⟩).toOption.bind id).map Script.tryLines = some textBlockLines := by
    decide +kernel
  have whole_names : ∀ name ∈ cartCatalog.converted, '\n' ∉ name.toList := by decide
  cases parsed : SourceUnit.parse textBlockSource with
  | error fault =>
    rw [parsed] at names_eq
    cases names_eq
  | ok unit =>
    rw [parsed] at names_eq
    have names_eq : (testMethods unit).map Method.name = ["opens", "idle", "reads"] :=
      Option.some.inj names_eq
    have identifiers : ∀ method ∈ testMethods unit, ∀ c ∈ method.name.toList,
        isIdentPart c = true := by
      intro method member
      have in_names : method.name ∈ ["opens", "idle", "reads"] :=
        names_eq ▸ List.mem_map_of_mem member
      have all_identifiers : ["opens", "idle", "reads"].all (·.toList.all isIdentPart) = true := by
        decide
      exact List.all_eq_true.mp (List.all_eq_true.mp all_identifiers method.name in_names)
    cases built : Script.ofSource? textBlockSource "T" ⟨"tests"⟩ cartCatalog
        ⟨"http://shop", true⟩ with
    | error fault =>
      rw [built] at lines_eq
      cases lines_eq
    | ok script? =>
      rw [built] at lines_eq
      obtain ⟨script, rfl, tryLines_eq⟩ := Option.map_eq_some_iff.mp lines_eq
      obtain ⟨-, render_eq, -, statements_eq⟩ :=
        render_keeps_statements parsed identifiers whole_names built
      rw [tryLines_eq] at render_eq statements_eq
      exact ⟨unit, script, rfl, identifiers, whole_names, rfl, render_eq, statements_eq⟩

end Source

end SuiteMigration.Test
