import SuiteMigration.Migration.Run
import SuiteMigration.Proofs.FileSystem.Remaking
import SuiteMigration.Proofs.Migration.Outputs
import SuiteMigration.Proofs.Outline.ClassName

/-!
# Where modules are saved

A module is saved under its class name, which holds no slash, so its path leads one move further than
its directory. Conversions make directories and write modules, and nothing else.
-/
namespace SuiteMigration

namespace Path

private theorem no_slash_of_fileName? {path : Path} {name : String}
    (named : path.fileName? = some name) :
    '/' ∉ name.toList := by
  have member := List.mem_of_getLast? (fileName?_eq_some.mp named)
  obtain ⟨piece, in_split, component_eq⟩ := List.mem_filterMap.mp member
  unfold Component.ofPiece? at component_eq
  split_ifs at component_eq
  · cases component_eq
  · obtain rfl := Component.normal.inj (Option.some.inj component_eq)
    rw [String.toList_ofList]
    exact (Text.chars_of_mem_splitAt in_split).1

private theorem splitName_subset (name : String) :
    ∀ c ∈ (splitName name).1.toList, c ∈ name.toList := by
  intro c member
  unfold splitName at member
  dsimp only at member
  split at member
  · next dot first stem behind_eq =>
    have in_behind : c ∈ dot :: first :: stem := by
      have in_stem : c ∈ (first :: stem).reverse := by simpa using member
      exact List.mem_cons_of_mem _ (List.mem_reverse.mp in_stem)
    rw [← behind_eq] at in_behind
    exact List.mem_reverse.mp ((List.dropWhile_sublist _).subset in_behind)
  · exact member

theorem splitName_append {stem : String} (nonempty : stem ≠ "") :
    splitName (stem ++ ".ts") = (stem, some "ts") := by
  have reversed_eq : (stem ++ ".ts").toList.reverse = 's' :: 't' :: '.' :: stem.toList.reverse := by
    simp
  cases stem_eq : stem.toList.reverse with
  | nil => exact absurd (by simpa using stem_eq) nonempty
  | cons c rest =>
    have back : String.ofList (c :: rest).reverse = stem := by
      rw [← stem_eq, List.reverse_reverse, String.ofList_toList]
    rw [splitName, reversed_eq, stem_eq]
    exact Prod.ext back rfl

/-- A file with an extension has something in front of it. -/
theorem stem?_of_extension? {path : Path} {extension : String}
    (extension_eq : path.extension? = some extension) : ∃ stem, path.stem? = some stem ∧ stem ≠ "" := by
  unfold extension? at extension_eq
  obtain ⟨name, named, split_eq⟩ := Option.bind_eq_some_iff.mp extension_eq
  refine ⟨(splitName name).1, by rw [stem?, named]; rfl, ?_⟩
  unfold splitName at split_eq ⊢
  dsimp only at split_eq ⊢
  split at split_eq
  · simp
  · cases split_eq

/-- The name of a file is no way. -/
theorem no_slash_stem (path : Path) : '/' ∉ (path.stem?.getD "").toList := by
  unfold stem?
  cases named : path.fileName? with
  | none => simp
  | some name => exact fun member => no_slash_of_fileName? named (splitName_subset name _ member)

end Path

namespace FileSystem

theorem Grounded.grow {files after : FileSystem} {path : Path} {written : Location → Prop}
    (grounded : files.Grounded path) (grows : Grows written files after) : after.Grounded path := by
  intro front back moves_eq missing
  rw [grows.start] at missing
  have not_missing := grounded front back moves_eq
  cases walked : (front ++ [['.', '.']]).foldlM files.step (files.start path) with
  | ok place =>
    rw [grows.keeps.foldlM_step walked] at missing
    cases missing
  | error fault =>
    have lasting : fault ≠ .missing := by
      rintro rfl
      exact not_missing walked
    rw [grows.foldlM_error walked lasting] at missing
    exact lasting (Except.error.inj missing)

/-- The folder of the files that are joined to a directory's path. An empty path leads nowhere, but
what is joined to it is in the working directory. -/
def IsFolder (files : FileSystem) (directory : Path) (folder : Location) : Prop :=
  files.directory? directory = some folder ∨ directory = ⟨""⟩ ∧ folder = files.working

end FileSystem

namespace Migration

open FileSystem Outline SuiteMigration.Path

variable {builder : Builder} {directory source : Path} {files next : FileSystem} {product : Product}

/-- The modules of a builder have the name of the public class of their source, or the fallback. -/
def NamesByClass (builder : Builder) : Prop :=
  ∀ {fallback text product}, builder fallback text = .ok (some product) →
    ∃ unit, SourceUnit.parse text = .ok unit ∧ product.name = unit.publicName fallback

theorem namesByClass_page : NamesByClass pageBuilder := by
  intro fallback text product built
  obtain ⟨module, module_eq, built⟩ := bind_eq_ok.mp built
  obtain rfl := Option.some.inj (Except.ok.inj built)
  unfold Page.Module.ofSource at module_eq
  cases parsed : SourceUnit.parse text with
  | error cause =>
    rw [parsed] at module_eq
    cases module_eq
  | ok unit =>
    rw [parsed] at module_eq
    obtain rfl := Except.ok.inj module_eq
    exact ⟨unit, rfl, rfl⟩

theorem namesByClass_test (directory : Path) (catalog : Test.Catalog) (settings : Test.Settings) :
    NamesByClass (testBuilder directory catalog settings) := by
  intro fallback text product built
  obtain ⟨script?, script_eq, built⟩ := bind_eq_ok.mp built
  obtain ⟨script, rfl, rfl⟩ := Option.map_eq_some_iff.mp (Except.ok.inj built)
  unfold Test.Script.ofSource? at script_eq
  cases parsed : SourceUnit.parse text with
  | error cause =>
    rw [parsed] at script_eq
    cases script_eq
  | ok unit =>
    rw [parsed] at script_eq
    have unit_eq : Test.Script.ofUnit? unit text fallback directory catalog settings = some script :=
      Except.ok.inj script_eq
    unfold Test.Script.ofUnit? at unit_eq
    dsimp only at unit_eq
    split at unit_eq
    · cases unit_eq
    · obtain rfl := Option.some.inj unit_eq
      exact ⟨unit, rfl, rfl⟩

/-- The modules of a builder are named by identifiers or by the fallback. -/
def NamesFiles (builder : Builder) : Prop :=
  ∀ {fallback text product}, '/' ∉ fallback.toList → builder fallback text = .ok (some product) →
    '/' ∉ product.name.toList

theorem no_slash_publicName {text : String} {unit : SourceUnit}
    (parsed : SourceUnit.parse text = .ok unit) {fallback : String}
    (no_slash : '/' ∉ fallback.toList) : '/' ∉ (unit.publicName fallback).toList := by
  rcases publicName_cases parsed fallback with is_identifier | is_fallback
  · exact fun member => absurd (is_identifier '/' member) (by decide)
  · rwa [is_fallback]

theorem NamesByClass.namesFiles (names : NamesByClass builder) : NamesFiles builder := by
  intro fallback text product no_slash built
  obtain ⟨unit, parsed, name_eq⟩ := names built
  rw [name_eq]
  exact no_slash_publicName parsed no_slash

theorem namesFiles_page : NamesFiles pageBuilder :=
  NamesByClass.namesFiles namesByClass_page

theorem namesFiles_test (directory : Path) (catalog : Test.Catalog) (settings : Test.Settings) :
    NamesFiles (testBuilder directory catalog settings) :=
  NamesByClass.namesFiles (namesByClass_test directory catalog settings)

theorem no_slash_of_build (names : NamesFiles builder)
    (built : build builder files source = .ok (some product)) : '/' ∉ product.name.toList := by
  obtain ⟨text, -, built⟩ := build_eq_ok.mp built
  exact names (no_slash_stem source) built

section Output

variable (directory) (no_slash : '/' ∉ product.name.toList)
include no_slash

theorem no_slash_fileName : '/' ∉ (product.name ++ ".ts").toList := by
  simpa using no_slash

omit no_slash in
theorem leads_fileName : stays (product.name ++ ".ts").toList = false := by
  have longer : 2 < (product.name ++ ".ts").toList.length := by simp
  generalize (product.name ++ ".ts").toList = name at longer
  cases staying : stays name with
  | false => rfl
  | true =>
    have short : name = [] ∨ name = ['.'] := by simpa [stays] using staying
    rcases short with rfl | rfl <;> simp at longer

private theorem moves_outputPath :
    (outputPath directory product).moves = directory.moves ++ [(product.name ++ ".ts").toList] :=
  moves_join directory (no_slash_fileName no_slash) leads_fileName

private theorem isAbsolute_outputPath :
    (outputPath directory product).isAbsolute = directory.isAbsolute :=
  isAbsolute_join directory (no_slash_fileName no_slash)

theorem lastPiece_outputPath :
    stays (lastPiece (outputPath directory product).text.toList) = false := by
  rw [outputPath, lastPiece_join directory (no_slash_fileName no_slash)]
  exact leads_fileName

/-- The parent of a module's path leads where the directory of the module does. -/
theorem moves_of_leadsFrom {parent : Path} (leads_from : parent.LeadsFrom (outputPath directory product)) :
    parent.moves = directory.moves ∧ parent.isAbsolute = directory.isAbsolute := by
  have moves_eq := leads_from.moves_eq
  rw [moves_outputPath directory no_slash] at moves_eq
  exact ⟨(List.append_inj' moves_eq rfl).1.symm,
    leads_from.isAbsolute_eq.trans (isAbsolute_outputPath directory no_slash)⟩

omit no_slash in
private theorem not_up_fileName : (product.name ++ ".ts").toList ≠ ['.', '.'] := by
  intro up
  have length_eq := congrArg List.length up
  simp at length_eq

theorem fileName?_fileName :
    (Path.mk (product.name ++ ".ts")).fileName? = some (product.name ++ ".ts") :=
  fileName?_name (no_slash_fileName no_slash) leads_fileName not_up_fileName

theorem extension?_fileName (nonempty : product.name ≠ "") :
    Path.extension? ⟨product.name ++ ".ts"⟩ = some "ts" := by
  rw [Path.extension?, fileName?_fileName no_slash, Option.bind_some, splitName_append nonempty]

/-- A module lies directly in the folder of its directory. -/
theorem folder_of_locate {location : Location}
    (found : files.locate (outputPath directory product) = .ok location) :
    ∃ folder, files.IsFolder directory folder ∧ location = folder ++ [product.name ++ ".ts"] := by
  have accepted := accepted_of_locate found
  rw [locate_leads accepted (lastPiece_outputPath directory no_slash),
    moves_outputPath directory no_slash, List.foldlM_append,
    start_congr (isAbsolute_outputPath directory no_slash)] at found
  obtain ⟨folder, folder_eq, found⟩ := bind_eq_ok.mp found
  have stepped : files.step folder (product.name ++ ".ts").toList = .ok location := by
    simpa [List.foldlM_cons, List.foldlM_nil] using found
  obtain ⟨is_directory, ⟨staying, -⟩ | ⟨up, -⟩ | ⟨-, -, -, rfl⟩⟩ := step_cases stepped
  · rw [leads_fileName] at staying
    cases staying
  · exact absurd up not_up_fileName
  · refine ⟨folder, ?_, by rw [String.ofList_toList]⟩
    rcases join_cases directory (no_slash_fileName no_slash) with ⟨rfl, -⟩ | ⟨nonempty, front, -⟩
    · exact .inr ⟨rfl, (Except.ok.inj folder_eq).symm⟩
    · have not_empty : directory.text.isEmpty = false := by simpa using nonempty
      exact .inl (directory?_iff.mpr
        ⟨accepted_of_front accepted front not_empty, folder_eq, is_directory⟩)

variable {directory} in
theorem groundedFile_outputPath (grounded : files.Grounded directory) :
    files.GroundedFile (outputPath directory product) := by
  refine ⟨lastPiece_outputPath directory no_slash, fun parent parent_eq => ?_⟩
  obtain ⟨other, other_eq, leads_from⟩ := exists_parent (lastPiece_outputPath directory no_slash)
  obtain rfl : other = parent := Option.some.inj (other_eq.symm.trans parent_eq)
  obtain ⟨moves_eq, absolute_eq⟩ := moves_of_leadsFrom directory no_slash leads_from
  intro front back split_eq
  rw [start_congr absolute_eq]
  exact grounded front back (moves_eq ▸ split_eq)

end Output

/-- A conversion makes directories, and writes no file but its module. -/
theorem convert_grows (formed : files.WellFormed)
    {outcome : Except Failure (Option Product)}
    (converted : convert builder directory files source = (next, outcome)) :
    Grows IsModule files next := by
  have saved_grows (product : Product) :
      Grows IsModule files (files.save (outputPath directory product) (.text product.text)).1 :=
    save_grows formed fun tree location found => isModule_of_locate found
  unfold convert at converted
  split at converted
  · obtain ⟨rfl, -⟩ := Prod.mk.inj converted
    exact .refl
  · obtain ⟨rfl, -⟩ := Prod.mk.inj converted
    exact .refl
  · next product _ =>
    have grows := saved_grows product
    split at converted
    · next saved_eq =>
      obtain ⟨rfl, -⟩ := Prod.mk.inj converted
      rwa [saved_eq] at grows
    · next saved_eq =>
      obtain ⟨rfl, -⟩ := Prod.mk.inj converted
      rwa [saved_eq] at grows

end Migration

end SuiteMigration
