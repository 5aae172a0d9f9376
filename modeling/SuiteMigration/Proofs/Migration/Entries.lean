import SuiteMigration.Proofs.Migration.Accounting
import SuiteMigration.Proofs.Migration.Lockstep

/-!
# What an entry tells

An entry of a manifest tells of a conversion: its source was read and made into a module, the module
was saved, and nothing that came later in the run took it away.
-/
namespace SuiteMigration.Migration

open FileSystem Manifest Outline SuiteMigration.Path

variable {config : Config} {kind : SourceKind} {builder : Builder} {directory : Path}
  {files next middle after : FileSystem} {turns pages tests : List Turn} {turn : Turn}
  {entry : Entry} {product : Product} {manifest : Manifest}

/-- Where the modules of a kind are saved. -/
def outputDirectory (config : Config) : SourceKind → Path
  | .page => config.pagesOutput
  | .test => config.testsOutput

theorem Turn.exists_product (entry_eq : turn.entry? kind directory = some entry) :
    ∃ product, turn.outcome = .ok (some product) ∧ entry.output = outputPath directory product := by
  unfold Turn.entry? at entry_eq
  split at entry_eq
  · next product outcome_eq =>
    obtain rfl := Option.some.inj entry_eq
    exact ⟨product, outcome_eq, rfl⟩
  · cases entry_eq

/-- The conversion that an entry tells: its source was made into a product and saved, and the run
went on from there. -/
structure Made (config : Config) (builder : Builder) (before next after : FileSystem) (entry : Entry)
    (product : Product) : Prop where
  names : NamesByClass builder
  formed : before.WellFormed
  is_source : entry.input.extension? = some "java"
  converted : convert builder (outputDirectory config entry.kind) before entry.input
    = (next, .ok (some product))
  output_eq : entry.output = outputPath (outputDirectory config entry.kind) product
  grows : Grows IsModule next after

theorem Follows.made {start : FileSystem}
    (follows : Follows builder (outputDirectory config kind) start turns middle)
    (formed : start.WellFormed) (names : NamesByClass builder)
    (are_sources : ∀ path ∈ turns.map Turn.source, path.extension? = some "java")
    (grows : Grows IsModule middle after)
    (member : entry ∈ turns.filterMap (Turn.entry? kind (outputDirectory config kind))) :
    ∃ builder before next product, Made config builder before next after entry product := by
  obtain ⟨turn, turn_mem, entry_eq⟩ := List.mem_filterMap.mp member
  obtain ⟨product, made, output_eq⟩ := Turn.exists_product entry_eq
  obtain ⟨rfl, input_eq⟩ := Turn.input_of_entry? entry_eq
  obtain ⟨next, converted, turn_formed, next_grows⟩ := follows.exists_next formed turn_mem
  have is_source := are_sources _ (List.mem_map_of_mem turn_mem)
  rw [made, ← input_eq] at converted
  exact ⟨builder, turn.files, next, product, names, turn_formed, input_eq ▸ is_source, converted,
    output_eq, next_grows.trans grows⟩

theorem Recorded.grows (recorded : Recorded config files middle after pages tests manifest)
    (formed : files.WellFormed) : Grows IsModule files middle ∧ Grows IsModule middle after := by
  have pages_grow := recorded.page_turns.grows formed
  exact ⟨pages_grow, recorded.test_turns.grows (pages_grow.wellFormed formed)⟩

/-- Every entry of a run tells a conversion. -/
theorem Recorded.made (recorded : Recorded config files middle after pages tests manifest)
    (formed : files.WellFormed) (member : entry ∈ manifest.entries) :
    ∃ builder before next product, Made config builder before next after entry product := by
  obtain ⟨pages_grow, tests_grow⟩ := recorded.grows formed
  rw [recorded.entries] at member
  rcases List.mem_append.mp member with in_pages | in_tests
  · refine @Follows.made config .page _ _ _ _ _ _ recorded.page_turns formed namesByClass_page ?_
      tests_grow in_pages
    rw [recorded.page_sources]
    exact fun path => extension?_of_mem_sources
  · refine @Follows.made config .test _ _ _ _ _ _ recorded.test_turns
      (pages_grow.wellFormed formed) (namesByClass_test _ _ _) ?_ .refl in_tests
    rw [recorded.test_sources]
    exact fun path => extension?_of_mem_sources

section Made

variable {before : FileSystem} (made : Made config builder before next after entry product)
include made

/-- A module is saved where its output leads. -/
theorem Made.saved : ∃ location, after.locate entry.output = .ok location ∧
    ∃ content, after.node? location = some (.file content) := by
  rcases convert_cases made.converted with ⟨other, location, same, -, leads, -, -, stored⟩ | ⟨none_made, -⟩
  · obtain rfl := Option.some.inj (Except.ok.inj same)
    rw [made.output_eq]
    exact ⟨location, made.grows.keeps.locate leads, made.grows.file_stays stored⟩
  · exact absurd rfl (none_made product)

/-- A module has the name of the public class of its source, or else of its file. -/
theorem Made.exists_unit : ∃ text unit, before.readText entry.input = .ok text ∧
    SourceUnit.parse text = .ok unit ∧
    product.name = unit.publicName (entry.input.stem?.getD "") := by
  rcases convert_cases made.converted with ⟨other, -, same, built, -⟩ | ⟨none_made, -⟩
  · obtain rfl := Option.some.inj (Except.ok.inj same)
    obtain ⟨text, read_eq, built⟩ := build_eq_ok.mp built
    obtain ⟨unit, parsed, name_eq⟩ := made.names built
    exact ⟨text, unit, read_eq, parsed, name_eq⟩
  · exact absurd rfl (none_made product)

/-- The name of a module is no way, and there is one. -/
theorem Made.product_name : product.name ≠ "" ∧ '/' ∉ product.name.toList := by
  obtain ⟨text, unit, -, parsed, name_eq⟩ := made.exists_unit
  rw [name_eq]
  refine ⟨?_, no_slash_publicName parsed (no_slash_stem _)⟩
  obtain ⟨stem, stem_eq, nonempty⟩ := stem?_of_extension? made.is_source
  rw [stem_eq]
  exact publicName_ne_empty parsed nonempty

end Made

end SuiteMigration.Migration
