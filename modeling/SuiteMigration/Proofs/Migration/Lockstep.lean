import SuiteMigration.Proofs.Migration.OutputPath
import SuiteMigration.Proofs.Migration.SourceWays
import SuiteMigration.Proofs.Migration.Turns

/-!
# Two runs in lockstep

Two runs that find the same sources take their turns side by side, each in its own tree. If what
relates the trees makes every turn come out alike and is kept by it, the runs record the same.
-/
namespace SuiteMigration.Migration

open FileSystem Manifest Outline

/-- What was done so far, in another tree. -/
def Progress.on (progress : Progress) (tree : FileSystem) : Progress :=
  { progress with files := tree }

@[simp] theorem Progress.on_files (progress : Progress) (tree : FileSystem) :
    (progress.on tree).files = tree := rfl

@[simp] theorem Progress.on_names (progress : Progress) (tree : FileSystem) :
    (progress.on tree).names = progress.names := rfl

@[simp] theorem Progress.on_manifest (progress : Progress) (tree : FileSystem) :
    (progress.on tree).manifest = progress.manifest := rfl

theorem Progress.on_recordWalk (progress : Progress) (tree : FileSystem)
    (failure? : Option Manifest.Failure) :
    (progress.on tree).recordWalk failure? = (progress.recordWalk failure?).on tree := by
  cases failure? <;> rfl

variable {config : Config} {kind : SourceKind} {builder : Builder} {directory source : Path}
  {paths : List Path} {progress next last : Progress} {files after tree : FileSystem}
  {turns : List Turn} {manifest : Manifest}

theorem Follows.grows (follows : Follows builder directory files turns after)
    (formed : files.WellFormed) : Grows IsModule files after := by
  induction follows with
  | nil => exact .refl
  | cons converted _ ih =>
    have grows := convert_grows formed converted
    exact grows.trans (ih (grows.wellFormed formed))

/-- Each turn is taken in a well-formed tree, and the others only add to what it leaves. -/
theorem Follows.exists_next (follows : Follows builder directory files turns after)
    (formed : files.WellFormed) {turn : Turn} (member : turn ∈ turns) :
    ∃ next, convert builder directory turn.files turn.source
        = (next, turn.outcome.mapError .access) ∧
      turn.files.WellFormed ∧ Grows IsModule next after := by
  induction follows with
  | nil => cases member
  | cons converted rest ih =>
    have next_formed := (convert_grows formed converted).wellFormed formed
    rcases List.mem_cons.mp member with rfl | later
    · exact ⟨_, converted, formed, rest.grows next_formed⟩
    · exact ih next_formed later

private theorem foldlM_grows (formed : progress.files.WellFormed)
    (fold_eq : paths.foldlM (convertNext kind builder directory) progress = .ok next) :
    Grows IsModule progress.files next.files := by
  obtain ⟨turns, follows, -, -⟩ := foldlM_turns fold_eq
  exact follows.grows formed

theorem convertKind_grows (formed : progress.files.WellFormed)
    (convert_eq : convertKind config kind builder directory progress = .ok next) :
    Grows IsModule progress.files next.files := by
  have grows := foldlM_grows (by rwa [Progress.recordWalk_files]) convert_eq
  rwa [Progress.recordWalk_files] at grows

theorem build_congr {left right : FileSystem} (loaded : right.load source = left.load source) :
    build builder right source = build builder left source := by
  rw [build, build, loaded]

/-- A turn that comes out alike in another tree is recorded alike. -/
theorem convertNext_on
    (converted : convert builder directory tree source
      = (after, (convert builder directory progress.files source).2))
    (step_eq : convertNext kind builder directory progress source = .ok next) :
    convertNext kind builder directory (progress.on tree) source = .ok (next.on after) := by
  unfold convertNext at step_eq ⊢
  rw [Progress.on_files, converted]
  rcases convert_eq : convert builder directory progress.files source with ⟨left, outcome⟩
  rw [convert_eq] at step_eq
  rcases outcome with ⟨failure | cause⟩ | ⟨_ | product⟩
  · obtain rfl := Except.ok.inj step_eq
    rfl
  · cases step_eq
  · obtain rfl := Except.ok.inj step_eq
    rfl
  · obtain rfl := Except.ok.inj step_eq
    rfl

/-- A relation between the tree of one run, the entries it has recorded, and the tree of another run
is kept by the turns of some sources. The first run is known to end in a given tree. -/
def KeptByTurns (related : FileSystem → List Entry → FileSystem → Prop) (kind : SourceKind)
    (builder : Builder) (directory : Path) (paths : List Path) (final : FileSystem) : Prop :=
  ∀ source ∈ paths, ∀ (left next right : FileSystem) (entries : List Entry)
    (outcome : Except FileSystem.Failure (Option Product)), related left entries right →
    convert builder directory left source = (next, outcome.mapError .access) →
    Grows IsModule next final →
    ∃ after, convert builder directory right source = (after, outcome.mapError .access) ∧
      related next (entries ++ (Turn.entry? kind directory ⟨source, left, outcome⟩).toList) after

section Lockstep

variable {related : FileSystem → List Entry → FileSystem → Prop}
  (formed : progress.files.WellFormed) (start : related progress.files progress.manifest.entries tree)
include formed start

private theorem foldlM_lockstep
    (fold_eq : paths.foldlM (convertNext kind builder directory) progress = .ok last)
    (kept : KeptByTurns related kind builder directory paths last.files) :
    ∃ after, paths.foldlM (convertNext kind builder directory) (progress.on tree)
        = .ok (last.on after) ∧ related last.files last.manifest.entries after := by
  induction paths generalizing progress tree with
  | nil =>
    obtain rfl := Except.ok.inj fold_eq
    exact ⟨tree, rfl, start⟩
  | cons path paths ih =>
    rw [List.foldlM_cons] at fold_eq
    obtain ⟨middle, step_eq, fold_eq⟩ := bind_eq_ok.mp fold_eq
    obtain ⟨outcome, converted, taken⟩ := convertNext_ok step_eq
    have middle_formed := (convert_grows formed converted).wellFormed formed
    -- One turn in the other tree.
    obtain ⟨other, other_converted, middle_related⟩ := kept path List.mem_cons_self _ _ _ _ _ start
      converted (foldlM_grows middle_formed fold_eq)
    have other_eq : convertNext kind builder directory (progress.on tree) path = .ok (middle.on other) := by
      apply convertNext_on _ step_eq
      rw [other_converted, converted]
    have entries_eq : middle.manifest.entries = progress.manifest.entries
        ++ (Turn.entry? kind directory ⟨path, progress.files, outcome⟩).toList := by
      rw [taken.entries]
      cases entry_eq : Turn.entry? kind directory ⟨path, progress.files, outcome⟩ <;> simp [entry_eq]
    rw [← entries_eq] at middle_related
    -- The other turns.
    obtain ⟨after, after_eq, last_related⟩ := ih middle_formed middle_related fold_eq
      fun source member => kept source (List.mem_cons_of_mem _ member)
    refine ⟨after, ?_, last_related⟩
    rw [List.foldlM_cons]
    exact bind_eq_ok.mpr ⟨_, other_eq, after_eq⟩

/-- All sources of one kind have their turns in both trees, if the walks find the same. -/
theorem convertKind_lockstep
    (same : sources config tree kind = sources config progress.files kind
      ∧ walkFailure? config tree kind = walkFailure? config progress.files kind)
    (convert_eq : convertKind config kind builder directory progress = .ok last)
    (kept : KeptByTurns related kind builder directory (sources config progress.files kind) last.files) :
    ∃ after, convertKind config kind builder directory (progress.on tree) = .ok (last.on after) ∧
      related last.files last.manifest.entries after := by
  unfold convertKind at convert_eq ⊢
  rw [Progress.on_files, same.1, same.2, Progress.on_recordWalk]
  exact foldlM_lockstep (by rwa [Progress.recordWalk_files]) (by simpa using start) convert_eq kept

end Lockstep

/-- A run with a manifest converts the pages, and then the tests in the tree with the pages. -/
theorem run_eq_ok : run config files = (after, .ok manifest) ↔
    ∃ pages last, convertKind config .page pageBuilder config.pagesOutput ⟨files, .empty, []⟩
        = .ok pages ∧
      convertKind config .test
        (testBuilder config.testsOutput (catalog config pages.names) config.settings)
        config.testsOutput pages = .ok last ∧
      last.files = after ∧ last.manifest = manifest := by
  unfold run
  constructor
  · intro ran
    split at ran
    · next last convert_eq =>
      obtain ⟨rfl, manifest_eq⟩ := Prod.mk.inj ran
      obtain ⟨pages, pages_eq, tests_eq⟩ := bind_eq_ok.mp convert_eq
      exact ⟨pages, last, pages_eq, tests_eq, rfl, Except.ok.inj manifest_eq⟩
    · cases (Prod.mk.inj ran).2
  · rintro ⟨pages, last, pages_eq, tests_eq, rfl, rfl⟩
    have convert_eq : convertAll config files = .ok last := bind_eq_ok.mpr ⟨pages, pages_eq, tests_eq⟩
    rw [convert_eq]

theorem run_eq_of_snd {outcome : Except ParseError Manifest}
    (recorded : (run config files).2 = outcome) :
    run config files = ((run config files).1, outcome) := by
  rw [← recorded]

end SuiteMigration.Migration
