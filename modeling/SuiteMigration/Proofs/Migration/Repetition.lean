import SuiteMigration.Proofs.Migration.Lockstep

/-!
# Running again

A run that begins where another one ended finds the same sources, and every module it saves stands
where the first run had put one. It ends in the tree that it began with. What the first run made could
only be in the way of a path that goes up by a double dot from a place where nothing was.
-/
namespace SuiteMigration

namespace FileSystem

open SuiteMigration.Path

variable {files after : FileSystem} {path : Path} {location : Location} {written : Location → Prop}

/-- The same nodes at the same places. -/
structure SameTree (left right : FileSystem) : Prop where
  working : right.working = left.working
  locked : right.locked = left.locked
  node : ∀ place, right.node? place = left.node? place

/-- Where a grounded path leads that led to no directory before, nothing was before. -/
theorem Grounded.absent_of_directory? (grounded : files.Grounded path) (formed : files.WellFormed)
    (grows : Grows written files after) (no_directory : files.directory? path = none)
    (found : after.directory? path = some location) (way : Location) :
    files.node? (location ++ way) = none := by
  obtain ⟨accepted, moves_eq, is_directory⟩ := directory?_iff.mp found
  rw [grows.start] at moves_eq
  cases walked : path.moves.foldlM files.step (files.start path) with
  | error fault =>
    have missing : fault = .missing := by
      refine Decidable.byContradiction fun lasting => ?_
      rw [grows.foldlM_error walked lasting] at moves_eq
      cases moves_eq
    subst missing
    exact grounded.absent formed grows.keeps walked moves_eq way
  | ok place =>
    -- The path led to this place, which has been made a directory since.
    obtain rfl := Except.ok.inj ((grows.keeps.foldlM_step walked).symm.trans moves_eq)
    apply formed.absent_below
    cases node_eq : files.node? place with
    | none => rfl
    | some node =>
      cases node with
      | directory =>
        rw [directory?_iff.mpr ⟨accepted, walked, node_eq⟩] at no_directory
        cases no_directory
      | file content =>
        obtain ⟨other, is_file⟩ := grows.file_stays node_eq
        rw [is_directory] at is_file
        cases is_file

end FileSystem

namespace Migration

open FileSystem Manifest Outline SuiteMigration.Path

variable {config : Config} {kind : SourceKind} {builder : Builder} {directory root source : Path}
  {files other after final left right next : FileSystem} {paths : List Path} {manifest : Manifest}
  {entries : List Entry} {written : Location → Prop} {place : Location} {name : String}

section Sources

theorem not_isModule_of_isSource (last_eq : place.getLast? = some name)
    (is_source : isSource name = true) : ¬IsModule place := by
  rintro ⟨last, same_eq, front, name_eq⟩
  obtain rfl := Option.some.inj (last_eq.symm.trans same_eq)
  obtain ⟨file, named, ending⟩ :=
    Path.fileName?_append (String.ofList front) ".ts" (by decide) (by decide)
  have spelled : String.ofList front ++ ".ts" = name := by
    rw [← String.toList_inj, String.toList_append, String.toList_ofList, name_eq]
  rw [spelled] at named
  have extension_eq : (⟨name⟩ : Path).extension? = some "java" := eq_of_beq is_source
  rw [Path.extension?, named] at extension_eq
  exact splitName_of_ending ending extension_eq

theorem sameFiles_of_grows (grows : Grows IsModule files after) : SameFiles files after :=
  fun last_eq is_source => grows.keeps.file (not_isModule_of_isSource last_eq is_source)

/-- A directory that is made below a root and named like a source can be looked at from there. -/
def InReach (root : Path) (files after : FileSystem) : Prop :=
  ∀ {place way name}, after.directory? root = some place → way.getLast? = some name →
    isSource name = true → after.node? (place ++ way) = some .directory →
    files.node? (place ++ way) = some .directory ∨ refusal? (joinWay root way) = none

/-- Saving modules makes and changes no source. -/
theorem SameSources.of_grows (grows : Grows IsModule files after) (reach : InReach root files after) :
    SameSources root files after where
  locked := grows.locked
  file := sameFiles_of_grows grows
  far root_eq last_eq is_source refused := ⟨fun made =>
    (reach (grows.keeps.directory? root_eq) last_eq is_source made).resolve_right refused,
    grows.keeps.directory⟩

/-- A run finds the same sources after it as before. Where its root was made by the run itself, no
source can be. -/
theorem sources_grown (formed : files.WellFormed) (grows : Grows IsModule files after)
    (reach : InReach (sourceRoot config kind).1 files after)
    (grounded : files.Grounded (sourceRoot config kind).1) :
    sources config after kind = sources config files kind
      ∧ walkFailure? config after kind = walkFailure? config files kind := by
  have after_formed := grows.wellFormed formed
  cases root_eq : files.directory? (sourceRoot config kind).1 with
  | some location =>
    apply (SameSources.of_grows grows reach).sources_eq formed after_formed
    rw [root_eq, grows.keeps.directory? root_eq]
  | none =>
    obtain ⟨no_sources, no_failure⟩ := sources_of_none root_eq
    rw [no_sources, no_failure]
    cases made_eq : after.directory? (sourceRoot config kind).1 with
    | none => exact sources_of_none made_eq
    | some location =>
      -- The root is new, and so is what is below it.
      have absent := grounded.absent_of_directory? formed grows root_eq made_eq
      apply sources_of_bare after_formed made_eq
      · intro way name node last_eq is_source found
        cases node with
        | file content =>
          have place_last : (location ++ way).getLast? = some name := by
            rw [List.getLast?_append, last_eq]
            rfl
          rw [sameFiles_of_grows grows place_last is_source, absent] at found
          cases found
        | directory =>
          refine ⟨rfl, (reach made_eq last_eq is_source found).resolve_left ?_⟩
          simp [absent]
      · intro way is_locked
        rw [grows.locked] at is_locked
        have was_directory := formed.locked _ is_locked
        rw [absent] at was_directory
        cases was_directory

/-- A source is loaded alike from two trees that grew by modules from trees with the same sources. -/
theorem load_of_mem_sources (formed : files.WellFormed) (other_formed : other.WellFormed)
    (same : SameFiles files other)
    (same_root : ∀ location, files.directory? (sourceRoot config kind).1 = some location →
      other.directory? (sourceRoot config kind).1 = some location)
    (left_grows : Grows IsModule files left) (right_grows : Grows IsModule other right)
    (member : source ∈ sources config files kind) : right.load source = left.load source := by
  obtain ⟨location, way, name, node, root_eq, rfl, found, ending, last_eq, is_source⟩ :=
    way_of_mem_sources formed member
  cases refused : refusal? (joinWay (sourceRoot config kind).1 way) with
  | some fault => rw [load_refused refused, load_refused refused]
  | none =>
    cases node with
    | directory => exact absurd rfl (ending refused)
    | file content =>
      have nonempty : way ≠ [] := by
        rintro rfl
        cases last_eq
      have place_last : (location ++ way).getLast? = some name := by
        rw [List.getLast?_append, last_eq]
        rfl
      have not_module := not_isModule_of_isSource place_last is_source
      have other_found := (same place_last is_source).mpr found
      exact load_joinWay_eq (left_grows.wellFormed formed) (right_grows.wellFormed other_formed)
        (left_grows.keeps.directory? root_eq) (right_grows.keeps.directory? (same_root _ root_eq))
        nonempty refused ((left_grows.keeps.file not_module).mpr found)
        ((right_grows.keeps.file not_module).mpr other_found)

end Sources

/-- A conversion that is done again in a later tree comes out as it did, and at most puts its module
where it was. -/
theorem convert_again (formed : left.WellFormed) (grounded : left.Grounded directory)
    (names : NamesFiles builder) (loaded : right.load source = left.load source)
    {outcome : Except Failure (Option Product)}
    (converted : convert builder directory left source = (next, outcome))
    (grows : Grows written next right) :
    (Keeps (fun _ => False) left next ∧ convert builder directory right source = (right, outcome)) ∨
    ∃ location content, Keeps (· = location) left next ∧
      next.node? location = some (.file content) ∧
      convert builder directory right source = (right.set location (.file content), outcome) := by
  unfold convert at converted ⊢
  rw [build_congr loaded]
  split at converted
  · obtain ⟨rfl, rfl⟩ := Prod.mk.inj converted
    exact .inl ⟨.refl _, rfl⟩
  · obtain ⟨rfl, rfl⟩ := Prod.mk.inj converted
    exact .inl ⟨.refl _, rfl⟩
  · next product built =>
    have grounded_file : left.GroundedFile (outputPath directory product) :=
      groundedFile_outputPath (no_slash_of_build names built) grounded
    split at converted
    · next saved_eq =>
      obtain ⟨rfl, rfl⟩ := Prod.mk.inj converted
      refine .inl ⟨save_error saved_eq, ?_⟩
      simp only [save_again_error formed grounded_file saved_eq grows]
    · next saved_eq =>
      obtain ⟨rfl, rfl⟩ := Prod.mk.inj converted
      obtain ⟨location, found, -, keeps, stored⟩ := save_ok saved_eq
      refine .inr ⟨location, .text product.text, keeps, stored, ?_⟩
      simp only [save_again_ok formed grounded_file saved_eq found grows]

/-- The tree of a run that began where another one ended, while that one, taken from its start, has
come to a given tree. All directories were there in the end, and a file is as it was in the end or as
it is by now. -/
structure Redone (final left right : FileSystem) : Prop where
  grows : Grows IsModule final right
  directory : ∀ place, right.node? place = some .directory → final.node? place = some .directory
  file : ∀ place content, right.node? place = some (.file content) →
    final.node? place = some (.file content) ∨ left.node? place = some (.file content)

theorem Redone.refl (final left : FileSystem) : Redone final left final :=
  ⟨.refl, fun _ => id, fun _ _ => .inl⟩

/-- The directories are all there in the end, and nothing else matters to where they are. -/
theorem Redone.directory?_final (redone : Redone final left right)
    (found : right.directory? root = some place) : final.directory? root = some place := by
  have back : Keeps (fun _ => True) right final :=
    ⟨redone.grows.keeps.working.symm, redone.directory _, fun unwritten => absurd trivial unwritten⟩
  exact back.directory? found

theorem Redone.directory?_eq_none (redone : Redone final left right)
    (no_root : final.directory? root = none) : right.directory? root = none := by
  cases found : right.directory? root with
  | none => rfl
  | some location =>
    rw [redone.directory?_final found] at no_root
    cases no_root

theorem Redone.inReach (redone : Redone final left right) (reach : InReach root files final) :
    InReach root files right := fun found last_eq is_source is_directory =>
  reach (redone.directory?_final found) last_eq is_source (redone.directory _ is_directory)

/-- When the first run comes to its end, the second one is back where it began. -/
theorem Redone.sameTree (redone : Redone final final right) : SameTree final right where
  working := redone.grows.keeps.working
  locked := redone.grows.locked
  node place := by
    have as_final : ∀ content, right.node? place = some (.file content) →
        final.node? place = some (.file content) :=
      fun content is_file => (redone.file place content is_file).elim id id
    cases node_eq : right.node? place with
    | some node =>
      cases node with
      | directory => exact (redone.directory place node_eq).symm
      | file content => exact (as_final content node_eq).symm
    | none =>
      cases final_eq : final.node? place with
      | none => rfl
      | some node =>
        cases node with
        | directory =>
          rw [redone.grows.keeps.directory final_eq] at node_eq
          cases node_eq
        | file content =>
          obtain ⟨other, is_file⟩ := redone.grows.file_stays final_eq
          rw [node_eq] at is_file
          cases is_file

/-- A turn of the first run that is taken again. -/
theorem Redone.turn (redone : Redone final left right) (formed : left.WellFormed)
    (final_formed : final.WellFormed) (grounded : left.Grounded directory) (names : NamesFiles builder)
    (loaded : right.load source = left.load source) {outcome : Except Failure (Option Product)}
    (converted : convert builder directory left source = (next, outcome))
    (rest : Grows IsModule next final) :
    ∃ after, convert builder directory right source = (after, outcome) ∧ Redone final next after := by
  rcases convert_again formed grounded names loaded converted (rest.trans redone.grows) with
    ⟨keeps, again⟩ | ⟨location, content, keeps, stored, again⟩
  · refine ⟨right, again, redone.grows, redone.directory, fun place content is_file => ?_⟩
    exact (redone.file place content is_file).imp_right (keeps.file id).mpr
  · have saved_grows := convert_grows (redone.grows.wellFormed final_formed) again
    have not_root : location ≠ [] := @ne_root_of_node? next _ (by simp [stored])
    refine ⟨_, again, redone.grows.trans saved_grows, ?_, ?_⟩
    · intro place is_directory
      by_cases here : place = location
      · subst here
        rw [node?_set_self right _ not_root] at is_directory
        cases is_directory
      · rw [node?_set_of_ne right _ here] at is_directory
        exact redone.directory place is_directory
    · intro place other is_file
      by_cases here : place = location
      · subst here
        rw [node?_set_self right _ not_root] at is_file
        obtain rfl := Node.file.inj (Option.some.inj is_file)
        exact .inr stored
      · rw [node?_set_of_ne right _ here] at is_file
        exact (redone.file place other is_file).imp_right (keeps.file here).mpr

/-- The turns of a first run keep the tree of a second one redone, from the tree that they begin in. -/
theorem keptByTurns_redone (formed : files.WellFormed) (grounded : files.Grounded directory)
    (names : NamesFiles builder) (grows : Grows IsModule files final)
    (rest : Grows IsModule after final) :
    KeptByTurns (fun left _ right => Grows IsModule files left ∧ Redone final left right) kind builder
      directory (sources config files kind) after := by
  intro source member left next right entries outcome ⟨left_grows, redone⟩ converted next_grows
  have left_formed := left_grows.wellFormed formed
  have final_formed := grows.wellFormed formed
  have loaded := load_of_mem_sources formed final_formed (sameFiles_of_grows grows)
    (fun _ => grows.keeps.directory?) left_grows redone.grows member
  obtain ⟨other, again, other_redone⟩ := redone.turn left_formed final_formed
    (grounded.grow left_grows) names loaded converted (next_grows.trans rest)
  exact ⟨other, again, left_grows.trans (convert_grows left_formed converted), other_redone⟩

/-- The sources of the tests are not grounded: where their root is not there when their turn comes,
the run ends with that. -/
theorem sources_redone {progress last : Progress} (formed : progress.files.WellFormed)
    (convert_eq : convertKind config kind builder directory progress = .ok last)
    (reach : InReach (sourceRoot config kind).1 progress.files last.files)
    (redone : Redone last.files progress.files right) :
    sources config right kind = sources config progress.files kind
      ∧ walkFailure? config right kind = walkFailure? config progress.files kind := by
  have last_grows := convertKind_grows formed convert_eq
  have grows := last_grows.trans redone.grows
  apply (SameSources.of_grows grows (redone.inReach reach)).sources_eq formed (grows.wellFormed formed)
  cases root_eq : progress.files.directory? (sourceRoot config kind).1 with
  | some location => exact grows.keeps.directory? root_eq
  | none =>
    obtain ⟨no_sources, -⟩ := sources_of_none root_eq
    unfold convertKind at convert_eq
    rw [no_sources] at convert_eq
    obtain rfl := Except.ok.inj convert_eq
    rw [Progress.recordWalk_files] at redone
    exact redone.directory?_eq_none root_eq

/-- A run that begins where another one ended records the same, and changes nothing. -/
theorem run_again (formed : files.WellFormed) (ran : run config files = (after, .ok manifest))
    (reach : ∀ kind, InReach (sourceRoot config kind).1 files after)
    (pages_input : files.Grounded config.pagesInput)
    (pages_output : files.Grounded config.pagesOutput)
    (tests_output : files.Grounded config.testsOutput) :
    ∃ again, run config after = (again, .ok manifest) ∧ SameTree after again := by
  obtain ⟨pages, last, pages_eq, tests_eq, rfl, rfl⟩ := run_eq_ok.mp ran
  have pages_grow := convertKind_grows formed pages_eq
  have pages_formed := pages_grow.wellFormed formed
  have tests_grow := convertKind_grows pages_formed tests_eq
  have grows := pages_grow.trans tests_grow
  have tests_reach : InReach (sourceRoot config .test).1 pages.files last.files :=
    fun found last_eq is_source made =>
      (reach .test found last_eq is_source made).imp_left pages_grow.keeps.directory
  have same_pages : sources config last.files .page = sources config files .page
      ∧ walkFailure? config last.files .page = walkFailure? config files .page :=
    sources_grown formed grows (reach .page) pages_input
  -- The pages are converted again where the first run ended.
  have start_formed : (Progress.mk files .empty []).files.WellFormed := formed
  obtain ⟨second, second_eq, -, second_redone⟩ := convertKind_lockstep start_formed
    ⟨.refl, Redone.refl last.files files⟩ same_pages pages_eq
    (keptByTurns_redone formed pages_output namesFiles_page grows tests_grow)
  -- The tests are converted again behind them.
  obtain ⟨again, again_eq, -, again_redone⟩ := convertKind_lockstep pages_formed
    ⟨.refl, second_redone⟩ (sources_redone pages_formed tests_eq tests_reach second_redone) tests_eq
    (keptByTurns_redone pages_formed (tests_output.grow pages_grow) (namesFiles_test _ _ _) tests_grow
      .refl)
  refine ⟨again, ?_, again_redone.sameTree⟩
  exact run_eq_ok.mpr ⟨pages.on second, last.on again, second_eq, again_eq, rfl, rfl⟩

end Migration

end SuiteMigration
