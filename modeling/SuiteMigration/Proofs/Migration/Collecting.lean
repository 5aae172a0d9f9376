import SuiteMigration.Migration.Source
import SuiteMigration.Proofs.FileSystem.TreeView
import SuiteMigration.Proofs.Migration.PathOrder

/-!
# Collecting sources in any order

The sources below a root are what is left of all that a walk finds when the rest is sorted out by the
paths. They are put in the order of their components at the end, so it does not show in which order the
directories were listed.
-/
namespace SuiteMigration

namespace View

open FileSystem

variable {view other : View} {root directory : Path} {way : Location} {fault : Fault}

/-- The same is seen, but the names in the directories may be told in another order. -/
structure Relists (view other : View) : Prop where
  isDirectory : other.isDirectory = view.isDirectory
  perm : ∀ directory, (other.entries directory).Perm (view.entries directory)

theorem Lawful.relist (lawful : view.Lawful) (relists : view.Relists other) : other.Lawful where
  short is_directory := lawful.short (relists.isDirectory ▸ is_directory)
  named listed := lawful.named ((relists.perm _).mem_iff.mp listed)
  distinct directory := (lawful.distinct directory).perm (relists.perm directory).symm
    fun apart name second_eq first_eq => apart name first_eq second_eq

theorem Relists.finds_iff (relists : view.Relists other) :
    other.Finds root way ↔ view.Finds root way := by
  induction way generalizing root with
  | nil => simp [View.finds_iff]
  | cons name rest ih =>
    rw [@View.finds_iff other, @View.finds_iff view]
    refine exists_congr fun name => exists_congr fun behind => and_congr_right fun same => ?_
    obtain ⟨rfl, rfl⟩ := List.cons.inj same
    simp only [FindsBehind, relists.isDirectory, (relists.perm _).mem_iff, ih]

theorem Relists.fails_iff (relists : view.Relists other) :
    other.Fails root way fault ↔ view.Fails root way fault := by
  induction way generalizing root with
  | nil => simp only [fails_nil, (relists.perm _).mem_iff]
  | cons name rest ih => simp only [fails_cons, relists.isDirectory, (relists.perm _).mem_iff, ih]

theorem Finds.named (finds : view.Finds root way) (lawful : view.Lawful) :
    ∀ name ∈ way, isEntryName name = true := by
  induction finds with
  | entry listed => simpa using lawful.named listed
  | inside listed _ _ ih => exact List.forall_mem_cons.mpr ⟨lawful.named listed, ih⟩

end View

namespace Migration

open FileSystem

variable {view other : View} {root path : Path} {filter : Option String} {way : Location}
  {found paths others : List Path} {fault : Fault}

/-- The sources below a root in strictly ascending order. A filter asks for a directory of its name
between the root and the source. -/
structure AreSources (view : View) (root : Path) (filter : Option String) (paths : List Path) :
    Prop where
  ascending : paths.Pairwise Path.Precedes
  mem_iff : ∀ path, path ∈ paths ↔ ∃ way, view.Finds root way ∧ path = joinWay root way ∧
    path.extension? = some "java" ∧ ∀ directory ∈ filter, directory ∈ way.dropLast

theorem AreSources.unique (first : AreSources view root filter paths)
    (second : AreSources view root filter others) : paths = others :=
  first.ascending.eq_of_mem_iff second.ascending fun path =>
    (first.mem_iff path).trans (second.mem_iff path).symm

section Sources

/-- Sorting out by the path asks for the same as sorting out by the way. -/
theorem keeps_joinWay (root : Path) (filter : Option String)
    (named : ∀ name ∈ way, isEntryName name = true) :
    keeps root filter (joinWay root way) = true ↔
      (joinWay root way).extension? = some "java" ∧ ∀ directory ∈ filter, directory ∈ way.dropLast := by
  have behind_eq : root.behind? (joinWay root way) = some (way.map .normal) := by
    rw [Path.behind?, Path.components_joinWay root named,
      if_pos (List.isPrefixOf_iff_prefix.mpr (List.prefix_append _ _)), List.drop_left]
  rw [keeps, behind_eq, Bool.and_eq_true, beq_iff_eq]
  cases filter with
  | none => simp
  | some directory =>
    simp only [Option.all_some, Option.any_some, ← List.map_dropLast, List.any_map]
    simp [Path.Component.text]

/-- Whatever a walk to its end has found, the sources are left of it. -/
theorem areSources_of_covers (lawful : view.Lawful) (covers : view.Covers root found)
    (filter : Option String) :
    AreSources view root filter (Path.sort (found.filter (keeps root filter))) := by
  obtain ⟨ways, distinct, rfl, mem_ways⟩ := covers.ways
  have named : ∀ way ∈ ways, ∀ name ∈ way, isEntryName name = true :=
    fun way member => ((mem_ways way).mp member).named lawful
  refine ⟨Path.pairwise_sort (.filter _ (List.pairwise_map.mpr ?_)), fun path => ?_⟩
  · exact distinct.imp_of_mem fun left_mem right_mem different =>
      Path.components_joinWay_ne (named _ left_mem) (named _ right_mem) root different
  · rw [Path.mem_sort, List.mem_filter, List.mem_map]
    constructor
    · rintro ⟨⟨way, member, rfl⟩, kept⟩
      exact ⟨way, (mem_ways way).mp member, rfl, (keeps_joinWay root filter (named way member)).mp kept⟩
    · rintro ⟨way, finds, rfl, kept⟩
      have member := (mem_ways way).mpr finds
      exact ⟨⟨way, member, rfl⟩, (keeps_joinWay root filter (named way member)).mpr kept⟩

theorem collectSources_of_absent (absent : view.isDirectory root = false) (filter : Option String) :
    collectSources view root filter = .error (.noDirectory root) := by
  rw [collectSources, absent]
  rfl

/-- What is kept of a walk is collected as it is, if it is in order. -/
theorem collectSources_of_walk (is_directory : view.isDirectory root = true)
    (walked : view.walk (pathLimit + 1) root = .ok found)
    (kept : found.filter (keeps root filter) = paths)
    (sorted : paths.Pairwise fun left right =>
      Path.componentsBefore left.components right.components = true) :
    collectSources view root filter = .ok paths := by
  rw [collectSources, if_pos is_directory, walked]
  change Except.ok (Path.sort (found.filter (keeps root filter))) = _
  rw [kept, Path.sort, List.mergeSort_of_pairwise sorted]

/-- Where telling the names never fails, the sources are collected. -/
theorem collectSources_of_readable (lawful : view.Lawful) (is_directory : view.isDirectory root = true)
    (readable : ∀ way fault, ¬view.Fails root way fault) (filter : Option String) :
    ∃ paths, collectSources view root filter = .ok paths ∧ AreSources view root filter paths := by
  rcases View.walk_cases lawful is_directory with ⟨found, walked, covers⟩ | ⟨way, fault, fails, -⟩
  · refine ⟨_, ?_, areSources_of_covers lawful covers filter⟩
    rw [collectSources, if_pos is_directory, walked]
    rfl
  · exact absurd fails (readable way fault)

theorem collectSources_of_fails (lawful : view.Lawful) (is_directory : view.isDirectory root = true)
    (fails : view.Fails root way fault) (filter : Option String) :
    ∃ way fault, view.Fails root way fault ∧
      collectSources view root filter = .error (.read (joinWay root way) fault) := by
  rcases View.walk_cases lawful is_directory with ⟨found, -, covers⟩ | ⟨other, cause, failing, walked⟩
  · exact absurd fails (covers.readable way fault)
  · refine ⟨other, cause, failing, ?_⟩
    rw [collectSources, if_pos is_directory, walked]
    rfl

theorem areSources_of_ok (lawful : view.Lawful)
    (collected : collectSources view root filter = .ok paths) : AreSources view root filter paths := by
  cases is_directory : view.isDirectory root with
  | false => cases (collectSources_of_absent is_directory filter).symm.trans collected
  | true =>
    rcases View.walk_cases lawful is_directory with ⟨found, walked, covers⟩ | ⟨way, fault, -, walked⟩
    · rw [collectSources, if_pos is_directory, walked] at collected
      obtain rfl := Except.ok.inj collected
      exact areSources_of_covers lawful covers filter
    · rw [collectSources, if_pos is_directory, walked] at collected
      cases collected

section Tree

variable {files : FileSystem} {place : Location} {node : Node} (formed : files.WellFormed)
  (root_eq : files.directory? root = some place)
include formed root_eq

/-- A walk through a tree without locked directories comes to its end. -/
theorem exists_sources_of_unlocked (unlocked : files.locked = []) (filter : Option String) :
    ∃ paths, collectSources files.view root filter = .ok paths := by
  have readable : ∀ way fault, ¬files.view.Fails root way fault := by
    intro way fault fails
    have locked := ((fails_view_iff formed root_eq).mp fails).2.1
    simp [unlocked] at locked
  obtain ⟨paths, collected, -⟩ := collectSources_of_readable files.view_lawful
    (view_isDirectory.mpr ⟨_, root_eq⟩) readable filter
  exact ⟨paths, collected⟩

/-- A source that is collected stands in a directory with a path that is not too long. -/
theorem accepted_of_mem_sources (found : files.node? (place ++ way) = some node)
    (collected : collectSources files.view root filter = .ok paths)
    (member : joinWay root way ∈ paths) : refusal? (joinWay root way.dropLast) = none := by
  have lawful := files.view_lawful
  obtain ⟨other, finds, same, -⟩ := ((areSources_of_ok lawful collected).mem_iff _).mp member
  have way_eq : way = other := by
    by_contra different
    exact Path.components_joinWay_ne (formed.entryNames found) (finds.named lawful) root different
      (congrArg Path.components same)
  subst way_eq
  exact ((finds_view_iff formed root_eq).mp finds).2.2.1

end Tree

end Sources

section Collecting

/-- Whatever is seen of a tree, the sources below a root are collected in strictly ascending order and
exactly, and they are the same in whatever order the names in each directory are told. It is an error if
the root is no directory or if a walk gets to a directory of which the names cannot all be told. -/
theorem sources_in_any_order (lawful : view.Lawful) (root : Path) (filter : Option String) :
    (view.isDirectory root = false → collectSources view root filter = .error (.noDirectory root)) ∧
    (view.isDirectory root = true →
      ((∃ way fault, view.Fails root way fault) → ∃ way fault, view.Fails root way fault ∧
        collectSources view root filter = .error (.read (joinWay root way) fault)) ∧
      ((∀ way fault, ¬view.Fails root way fault) →
        (∃ paths, collectSources view root filter = .ok paths ∧ AreSources view root filter paths) ∧
        ∀ other, view.Relists other →
          collectSources other root filter = collectSources view root filter)) := by
  refine ⟨fun absent => collectSources_of_absent absent filter, fun is_directory =>
    ⟨?_, fun readable => ⟨?_, ?_⟩⟩⟩
  · rintro ⟨way, fault, fails⟩
    exact collectSources_of_fails lawful is_directory fails filter
  · exact collectSources_of_readable lawful is_directory readable filter
  · intro other relists
    obtain ⟨paths, paths_eq, are_sources⟩ :=
      collectSources_of_readable lawful is_directory readable filter
    obtain ⟨others, others_eq, others_are⟩ := collectSources_of_readable (lawful.relist relists)
      (relists.isDirectory ▸ is_directory)
      (fun way fault => mt relists.fails_iff.mp (readable way fault)) filter
    have same : AreSources view root filter others :=
      ⟨others_are.ascending, by simpa only [relists.finds_iff] using others_are.mem_iff⟩
    rw [paths_eq, others_eq, are_sources.unique same]

/-- Two pages, a note and a utility, in no particular order. -/
def companyTree : FileSystem where
  nodes :=
    let company := ["com", "crm", "qa"]
    ([company ++ ["util"], company ++ ["pages"]] ++ [["com"], ["com", "crm"], company]).map
      (·, .directory)
    ++ [company ++ ["pages", "B.java"], company ++ ["pages", "notes.txt"],
      company ++ ["util", "TestUtil.java"], company ++ ["pages", "A.java"]].map (·, .file (.text ""))
  working := []

/-- The pages are collected; a filter for the name of the root leaves nothing. -/
theorem sources_in_any_order_company :
    let pages : List Path := [⟨"./com/crm/qa/pages/A.java"⟩, ⟨"./com/crm/qa/pages/B.java"⟩]
    companyTree.view.Lawful ∧
      collectSources companyTree.view ⟨"./com"⟩ (some "pages") = .ok pages ∧
      AreSources companyTree.view ⟨"./com"⟩ (some "pages") pages ∧
      AreSources companyTree.view ⟨"./com"⟩ (some "com") [] := by
  intro pages
  let company : List Path := pages
    ++ [⟨"./com/crm/qa/pages/notes.txt"⟩, ⟨"./com/crm/qa/util/TestUtil.java"⟩]
  have walked : companyTree.view.walk (pathLimit + 1) ⟨"./com"⟩ = .ok company := by decide +kernel
  have is_directory : companyTree.view.isDirectory ⟨"./com"⟩ = true := by decide +kernel
  have readable : ∀ way fault, ¬companyTree.view.Fails ⟨"./com"⟩ way fault :=
    (View.covers_of_walk companyTree.view_lawful is_directory (by decide) walked).readable
  have collects (filter : Option String) := ((sources_in_any_order companyTree.view_lawful ⟨"./com"⟩
    filter).2 is_directory).2 readable
  have pages_eq : collectSources companyTree.view ⟨"./com"⟩ (some "pages") = .ok pages :=
    collectSources_of_walk is_directory walked (by decide +kernel) (by decide +kernel)
  have nothing_eq : collectSources companyTree.view ⟨"./com"⟩ (some "com") = .ok [] :=
    collectSources_of_walk is_directory walked (by decide +kernel) .nil
  obtain ⟨⟨paths, paths_eq, are_pages⟩, -⟩ := collects (some "pages")
  obtain rfl := Except.ok.inj (pages_eq.symm.trans paths_eq)
  obtain ⟨⟨paths, paths_eq, are_nothing⟩, -⟩ := collects (some "com")
  obtain rfl := Except.ok.inj (nothing_eq.symm.trans paths_eq)
  exact ⟨companyTree.view_lawful, pages_eq, are_pages, are_nothing⟩

end Collecting

section Far

/-- A source in a directory. -/
def farTree : FileSystem where
  nodes := [(["far"], .directory), (["far", "X.java"], .file (.text ""))]
  working := []

/-- A source is not collected if the path of its directory is too long. -/
theorem sources_not_of_far :
    ¬ ∀ (files : FileSystem) (root : Path) (place : Location) (paths : List Path), files.WellFormed →
      files.directory? root = some place → collectSources files.view root none = .ok paths →
      ∀ way content, files.node? (place ++ way) = some (.file content) →
        (joinWay root way).extension? = some "java" → joinWay root way ∈ paths := by
  intro exact
  have formed : farTree.WellFormed := by decide +kernel
  obtain ⟨root, size_eq, -, leads⟩ := @exists_path_of_size 4094 (by decide) (by decide)
  have root_eq : farTree.directory? root = some [] := leads farTree formed
  have file_eq : farTree.node? ([] ++ ["far", "X.java"]) = some (.file (.text "")) := by decide +kernel
  obtain ⟨paths, collected⟩ := exists_sources_of_unlocked formed root_eq rfl none
  have extension_eq : (joinWay root ["far", "X.java"]).extension? = some "java" := by
    rw [← List.singleton_append, joinWay_append, Path.extension?,
      Path.fileName?_join_name (by decide)]
    decide +kernel
  have member := exact _ _ _ _ formed root_eq collected _ _ file_eq extension_eq
  -- The directory is looked at by a path of more than 4095 bytes.
  have accepted := accepted_of_mem_sources formed root_eq file_eq collected member
  have longer := Path.size_le_join (by decide : isEntryName "far" = true) root
  have far : pathLimit < 4094 + "far".utf8ByteSize := by decide +kernel
  rw [size_eq] at longer
  exact absurd (le_trans longer (refusal?_eq_none.mp accepted).2.2) (not_le.mpr far)

end Far

end Migration

end SuiteMigration
