import Mathlib.Data.List.Nodup
import SuiteMigration.Proofs.Output.LowerCamel
import SuiteMigration.Test.Script

/-!
# Instances of a script

The try block of a script begins with its constants: the page of the browser and one instance for
each page class that the test refers to. Page classes are told apart as they are spelled and their
instances in lower camel case, so the constants clash exactly where that forgets a difference or
gives a name that the block has already.
-/
namespace SuiteMigration.Test

open Outline Output

namespace Script

/-- The names of the constants at the top of the try block. -/
def constants (script : Script) : List String :=
  "page" :: script.pages.map fun page => lowerCamel page.name

/-- What the constants are set to. -/
def initializers (script : Script) : List String :=
  "await browser.newPage()" :: script.pages.map fun page => "new " ++ page.name ++ "(page)"

end Script

/-- No page class has the name of what the block uses besides its instances, and none differs from
another one in the case of its first character only. -/
structure Unambiguous (names : List String) : Prop where
  not_reserved : ∀ name ∈ names, name ∉ ["Page", "page", "Browser", "browser"]
  told_apart : ∀ left ∈ names, ∀ right ∈ names, left ≠ right →
    ¬ SameButCase left.toList right.toList

section Names

variable {name : String}

/-- The two spellings of a word with an instance of that name. -/
theorem lowerCamel_eq_word_iff {small capital : Char} {rest : List Char}
    (ascii : small.toNat < 0x80) (not_i : small ≠ 'i') (not_k : small ≠ 'k')
    (letters : ∀ code < 0x80, (Char.ofNat code).toLower = small →
      Char.ofNat code = capital ∨ Char.ofNat code = small)
    (of_capital : lowerCamel (String.ofList (capital :: rest)) = String.ofList (small :: rest))
    (of_small : lowerCamel (String.ofList (small :: rest)) = String.ofList (small :: rest)) :
    lowerCamel name = String.ofList (small :: rest)
      ↔ name = String.ofList (capital :: rest) ∨ name = String.ofList (small :: rest) := by
  constructor
  · intro equal
    have lists_eq : (lowerCamel name).toList = small :: rest := by
      rw [equal, String.toList_ofList]
    obtain ⟨first, name_eq, below, lower_eq⟩ := lowerCamel_eq_word ascii not_i not_k lists_eq
    have first_eq := letters first.toNat below
    rw [Char.ofNat_toNat] at first_eq
    rw [← String.ofList_toList (s := name), name_eq]
    rcases first_eq lower_eq with rfl | rfl
    · exact .inl rfl
    · exact .inr rfl
  · rintro (rfl | rfl)
    · exact of_capital
    · exact of_small

/-- No name begins with a capital of ASCII in lower case. -/
theorem lowerCamel_ne_base : lowerCamel name ≠ "BASE_URL" := by
  intro equal
  have lists_eq : (lowerCamel name).toList = 'B' :: "ASE_URL".toList := congrArg String.toList equal
  obtain ⟨first, -, below, lower_eq⟩ :=
    lowerCamel_eq_word (by decide) (by decide) (by decide) lists_eq
  have no_capital : ∀ code < 0x80, (Char.ofNat code).toLower ≠ 'B' := by decide
  have first_ne := no_capital first.toNat below
  rw [Char.ofNat_toNat] at first_ne
  exact first_ne lower_eq

end Names

section References

private theorem nodup_addNew {names : List String} (nodup : names.Nodup) (name : String) :
    (Catalog.addNew names name).Nodup := by
  unfold Catalog.addNew
  split
  · exact nodup
  · next absent =>
    have not_mem : name ∉ names := by simpa using absent
    exact List.nodup_append.mpr ⟨nodup, List.nodup_singleton name, by
      intro other member last in_last
      exact fun equal => not_mem (List.mem_singleton.mp in_last ▸ equal ▸ member)⟩

private theorem nodup_foldl_addNew (more : List String) {names : List String}
    (nodup : names.Nodup) :
    (more.foldl Catalog.addNew names).Nodup := by
  induction more generalizing names with
  | nil => exact nodup
  | cons name more ih => exact ih (nodup_addNew nodup name)

/-- A test refers to every page once. -/
theorem nodup_referencedPages (catalog : Catalog) (unit : SourceUnit) (source : String) :
    (catalog.referencedPages unit source).Nodup :=
  nodup_foldl_addNew _ List.nodup_nil

end References

section Constants

variable {names : List String}

/-- No instance has the name `page` or `browser` where no class has one of the four names. -/
theorem not_reserved_iff :
    "page" ∉ names.map lowerCamel ∧ "browser" ∉ names.map lowerCamel
      ↔ ∀ name ∈ names, name ∉ ["Page", "page", "Browser", "browser"] := by
  have instance_iff (name : String) : name ∉ ["Page", "page", "Browser", "browser"]
      ↔ lowerCamel name ≠ "page" ∧ lowerCamel name ≠ "browser" := by
    have page_iff : lowerCamel name = "page" ↔ name = "Page" ∨ name = "page" :=
      @lowerCamel_eq_word_iff _ 'p' 'P' "age".toList (by decide) (by decide) (by decide) (by decide)
        (by decide) (by decide)
    have browser_iff : lowerCamel name = "browser" ↔ name = "Browser" ∨ name = "browser" :=
      @lowerCamel_eq_word_iff _ 'b' 'B' "rowser".toList (by decide) (by decide) (by decide)
        (by decide) (by decide) (by decide)
    rw [Ne, Ne, page_iff, browser_iff, ← not_or, or_assoc]
    simp only [List.mem_cons, List.not_mem_nil, or_false]
  simp only [instance_iff, List.mem_map, not_exists, not_and]
  exact ⟨fun reserved name member => ⟨reserved.1 name member, reserved.2 name member⟩,
    fun reserved => ⟨fun name member => (reserved name member).1,
      fun name member => (reserved name member).2⟩⟩

private theorem nodup_instances_iff (nodup : names.Nodup) :
    (names.map lowerCamel).Nodup
      ↔ ∀ left ∈ names, ∀ right ∈ names, left ≠ right →
        ¬ SameButCase left.toList right.toList := by
  rw [List.nodup_map_iff_inj_on nodup]
  constructor
  · intro injective left left_member right right_member different same
    have equal := (lowerCamel_eq_iff left right).mpr (.inr same)
    exact different (injective left left_member right right_member equal)
  · intro told_apart left left_member right right_member equal
    by_contra different
    rcases (lowerCamel_eq_iff left right).mp equal with same | same
    · exact different same
    · exact told_apart left left_member right right_member different same

private theorem nodup_constants_iff (nodup : names.Nodup) :
    ("page" :: names.map lowerCamel).Nodup ∧ "browser" ∉ "page" :: names.map lowerCamel
        ∧ "BASE_URL" ∉ "page" :: names.map lowerCamel
      ↔ Unambiguous names := by
  have no_base : "BASE_URL" ∉ "page" :: names.map lowerCamel := by
    intro member
    rcases List.mem_cons.mp member with equal | in_map
    · exact absurd equal (by decide)
    · obtain ⟨name, -, equal⟩ := List.mem_map.mp in_map
      exact lowerCamel_ne_base equal
  have browser_iff : "browser" ∉ "page" :: names.map lowerCamel
      ↔ "browser" ∉ names.map lowerCamel := by
    rw [List.mem_cons, or_iff_right (by decide)]
  rw [List.nodup_cons, nodup_instances_iff nodup, browser_iff]
  constructor
  · rintro ⟨⟨no_page, told_apart⟩, no_browser, -⟩
    exact ⟨not_reserved_iff.mp ⟨no_page, no_browser⟩, told_apart⟩
  · intro unambiguous
    obtain ⟨no_page, no_browser⟩ := not_reserved_iff.mpr unambiguous.not_reserved
    exact ⟨⟨no_page, unambiguous.told_apart⟩, no_browser, no_base⟩

end Constants

section Script

theorem steps_eq (script : Script) :
    script.steps = (script.constants.zip script.initializers).map
        (fun constant => "const " ++ constant.1 ++ " = " ++ constant.2 ++ ";")
      ++ "await page.goto(BASE_URL);"
      :: (script.cases.flatMap Case.render ++ ["", "console.log('All tests passed!');"]) := by
  have lines_eq : script.pages.map Script.instanceLine
      = ((script.pages.map fun page => lowerCamel page.name).zip
          (script.pages.map fun page => "new " ++ page.name ++ "(page)")).map
        (fun constant => "const " ++ constant.1 ++ " = " ++ constant.2 ++ ";") := by
    rw [List.zip_map', List.map_map]
    apply List.map_congr_left
    intro page _
    have joined : " = new " = " = " ++ "new " := rfl
    simp only [Script.instanceLine, Function.comp_apply, joined, String.append_assoc]
    rfl
  unfold Script.steps Script.constants Script.initializers
  rw [lines_eq]
  simp

/-- The constants of a script are different from one another and from the names of the scopes around
them exactly when its page classes are unambiguous. -/
theorem constants_distinct_iff {source : String} {unit : SourceUnit}
    (parsed : SourceUnit.parse source = .ok unit) (tested : testMethods unit ≠ [])
    (fallback : String) (directory : Path) (catalog : Catalog) (settings : Settings) :
    ∃ script, Script.ofSource? source fallback directory catalog settings = .ok (some script)
      ∧ (∃ rest, script.steps = (script.constants.zip script.initializers).map
          (fun constant => "const " ++ constant.1 ++ " = " ++ constant.2 ++ ";")
        ++ "await page.goto(BASE_URL);" :: rest)
      ∧ script.pages.map PageImport.name = catalog.referencedPages unit source
      ∧ (script.constants.Nodup ∧ "browser" ∉ script.constants ∧ "BASE_URL" ∉ script.constants
        ↔ Unambiguous (catalog.referencedPages unit source)) := by
  let names := catalog.referencedPages unit source
  have script_eq : ∃ script, Script.ofUnit? unit source fallback directory catalog settings
        = some script
      ∧ script.pages
        = names.map fun name => ⟨name, modulePath directory catalog.directory name⟩ := by
    unfold Script.ofUnit?
    rw [if_neg (by simpa using tested)]
    exact ⟨_, rfl, rfl⟩
  obtain ⟨script, script_eq, pages_eq⟩ := script_eq
  have names_eq : script.pages.map PageImport.name = names := by
    rw [pages_eq, List.map_map]
    exact List.map_id names
  have constants_eq : script.constants = "page" :: names.map lowerCamel := by
    rw [Script.constants, ← names_eq, List.map_map]
    rfl
  refine ⟨script, by rw [Script.ofSource?, parsed, ← script_eq]; rfl, ⟨_, steps_eq script⟩,
    names_eq, ?_⟩
  rw [constants_eq]
  exact nodup_constants_iff (nodup_referencedPages catalog unit source)

/-- A test of two pages, one of them by a wildcard. -/
def loginTestSource : String :=
  "import shop.pages.Login; import pages.*; class T \x7b @Test void t() \x7b new Cart(); \x7d \x7d"

def cartCatalog : Catalog := ⟨⟨"pages"⟩, "pages", ["Cart"]⟩

theorem constants_distinct_iff_login :
    ∃ unit, SourceUnit.parse loginTestSource = .ok unit ∧ testMethods unit ≠ []
      ∧ ∃ script, Script.ofSource? loginTestSource "T" ⟨"tests"⟩ cartCatalog ⟨"http://shop", true⟩
          = .ok (some script)
        ∧ script.constants = ["page", "login", "cart"]
        ∧ Unambiguous (script.pages.map PageImport.name) := by
  have reads : (SourceUnit.parse loginTestSource).toOption.map (fun unit => (testMethods unit).length)
      = some 1 := by decide +kernel
  have constants_eq : ((Script.ofSource? loginTestSource "T" ⟨"tests"⟩ cartCatalog
      ⟨"http://shop", true⟩).toOption.bind id).map Script.constants
        = some ["page", "login", "cart"] := by decide +kernel
  cases parsed : SourceUnit.parse loginTestSource with
  | error fault =>
    rw [parsed] at reads
    cases reads
  | ok unit =>
    rw [parsed] at reads
    have tested : testMethods unit ≠ [] :=
      List.ne_nil_of_length_eq_add_one (Option.some.inj reads)
    obtain ⟨script, converted, -, names_eq, distinct_iff⟩ :=
      constants_distinct_iff parsed tested "T" ⟨"tests"⟩ cartCatalog ⟨"http://shop", true⟩
    rw [converted] at constants_eq
    have constants_eq : script.constants = ["page", "login", "cart"] :=
      Option.some.inj constants_eq
    refine ⟨unit, rfl, tested, script, converted, constants_eq, ?_⟩
    rw [names_eq, ← distinct_iff, constants_eq]
    decide

/-- A test of a page class that is named like the page of the browser. -/
def homonymTestSource : String :=
  "import a.pages.Page; class T \x7b @Test void t() \x7b \x7d \x7d"

theorem not_distinct_homonym :
    ¬ ∀ source fallback directory catalog settings script,
      Script.ofSource? source fallback directory catalog settings = .ok (some script) →
      script.constants.Nodup ∧ "browser" ∉ script.constants ∧ "BASE_URL" ∉ script.constants := by
  intro distinct
  have constants_eq : ((Script.ofSource? homonymTestSource "T" ⟨"tests"⟩ cartCatalog
      ⟨"http://shop", true⟩).toOption.bind id).map Script.constants
        = some ["page", "page"] := by decide +kernel
  cases converted : Script.ofSource? homonymTestSource "T" ⟨"tests"⟩ cartCatalog
      ⟨"http://shop", true⟩ with
  | error fault =>
    rw [converted] at constants_eq
    cases constants_eq
  | ok script? =>
    cases script? with
    | none =>
      rw [converted] at constants_eq
      cases constants_eq
    | some script =>
      rw [converted] at constants_eq
      have nodup := (distinct _ _ _ _ _ script converted).1
      rw [Option.some.inj constants_eq] at nodup
      exact absurd nodup (by decide)

end Script

end SuiteMigration.Test
