import Mathlib.Data.List.Basic
import SuiteMigration.FileSystem.Transfer
import SuiteMigration.Proofs.FileSystem.FileName

/-!
# What a change to a tree keeps

Making directories changes no file, and saving changes the one it writes. Directories stay, so a
path that led somewhere leads there afterwards, and a text that was not written over is read again.
-/
namespace SuiteMigration.FileSystem

variable {files made saved before middle after : FileSystem} {path : Path} {location : Location}
  {content : Content} {written larger : Location → Prop}

/-- A change keeps all directories, and makes and changes no files but the written ones. -/
structure Keeps (written : Location → Prop) (before after : FileSystem) : Prop where
  working : after.working = before.working
  directory : ∀ {location}, before.node? location = some .directory →
    after.node? location = some .directory
  file : ∀ {location content}, ¬written location →
    (after.node? location = some (.file content) ↔ before.node? location = some (.file content))

namespace Keeps

theorem refl (files : FileSystem) : Keeps written files files :=
  ⟨rfl, id, fun _ => Iff.rfl⟩

theorem trans (first : Keeps written before middle) (second : Keeps written middle after) :
    Keeps written before after :=
  ⟨second.working.trans first.working, fun found => second.directory (first.directory found),
    fun unwritten => (second.file unwritten).trans (first.file unwritten)⟩

theorem mono (keeps : Keeps written before after)
    (within : ∀ location, written location → larger location) : Keeps larger before after :=
  ⟨keeps.working, keeps.directory, fun unwritten => keeps.file (unwritten ∘ within _)⟩

/-- Each step stands in a directory, which is still there. -/
theorem foldlM_step (keeps : Keeps written before after) {pieces : List (List Char)}
    {start last : Location} (found : pieces.foldlM before.step start = .ok last) :
    pieces.foldlM after.step start = .ok last := by
  have step_eq : ∀ {start piece next}, before.step start piece = .ok next →
      after.step start piece = .ok next := by
    intro start piece next step_eq
    unfold step at step_eq ⊢
    split at step_eq
    · cases step_eq
    · cases step_eq
    · next is_directory => rwa [keeps.directory is_directory]
  induction pieces generalizing start with
  | nil => exact found
  | cons piece pieces ih =>
    rw [List.foldlM_cons] at found ⊢
    obtain ⟨next, next_eq, found⟩ := bind_eq_ok.mp found
    exact bind_eq_ok.mpr ⟨next, step_eq next_eq, ih found⟩

theorem locate (keeps : Keeps written before after) (found : before.locate path = .ok location) :
    after.locate path = .ok location := by
  unfold FileSystem.locate at found ⊢
  split at found
  · cases found
  split at found
  · cases found
  split at found
  · cases found
  simp only [*, Bool.false_eq_true, ↓reduceIte, keeps.working]
  exact keeps.foldlM_step found

end Keeps

/-- A text is read where a file with it is, unless the path asks for a directory. -/
theorem readText_eq_ok {text : String} : files.readText path = .ok text ↔
    ∃ location, files.locate path = .ok location ∧
      files.node? location = some (.file (.text text)) ∧ endsInSlash path = false := by
  unfold readText open?
  constructor
  · intro read_eq
    obtain ⟨⟨place, node⟩, open_eq, read_eq⟩ := bind_eq_ok.mp read_eq
    obtain ⟨location, found, open_eq⟩ := bind_eq_ok.mp open_eq
    split at open_eq
    · cases open_eq
    · next is_file =>
      split at open_eq
      · cases open_eq
      · next no_slash =>
        obtain ⟨rfl, rfl⟩ := Prod.mk.inj (Except.ok.inj open_eq)
        split at read_eq
        · next content_eq =>
          obtain ⟨-, content_eq⟩ := Prod.mk.inj content_eq
          obtain rfl := Except.ok.inj read_eq
          exact ⟨location, found, content_eq ▸ is_file, by simpa using no_slash⟩
        · cases read_eq
        · next content_eq => cases (Prod.mk.inj content_eq).2
    · -- What was opened is a directory, and that has no text.
      obtain ⟨rfl, rfl⟩ := Prod.mk.inj (Except.ok.inj open_eq)
      cases read_eq
  · rintro ⟨location, found, is_file, no_slash⟩
    refine bind_eq_ok.mpr ⟨(location, .file (.text text)), ?_, rfl⟩
    refine bind_eq_ok.mpr ⟨location, found, ?_⟩
    simp only [is_file, no_slash, Bool.false_eq_true, ↓reduceIte]

theorem Keeps.readText {text : String} (keeps : Keeps written before after)
    (read_eq : before.readText path = .ok text)
    (unwritten : ∀ location, before.locate path = .ok location → ¬written location) :
    after.readText path = .ok text := by
  obtain ⟨location, found, is_file, no_slash⟩ := readText_eq_ok.mp read_eq
  exact readText_eq_ok.mpr
    ⟨location, keeps.locate found, (keeps.file (unwritten location found)).mpr is_file, no_slash⟩

theorem keeps_set (node : Node) (replaced : files.node? location ≠ some .directory) :
    Keeps (· = location) files (files.set location node) where
  working := rfl
  directory {other} is_directory := by
    have different : other ≠ location := by
      rintro rfl
      exact replaced is_directory
    rwa [node?_set_of_ne files node different]
  file {other content} unwritten := by
    rw [node?_set_of_ne files node unwritten]

theorem ne_root_of_node? (absent : files.node? location ≠ some .directory) : location ≠ [] := by
  rintro rfl
  exact absent rfl

private theorem makeDirectory_keeps (made_eq : files.makeDirectory path = .ok made) :
    Keeps (fun _ => False) files made := by
  unfold makeDirectory at made_eq
  obtain ⟨location, -, made_eq⟩ := bind_eq_ok.mp made_eq
  split at made_eq
  · cases made_eq
  · next absent =>
    obtain rfl := Except.ok.inj made_eq
    have replaced : files.node? location ≠ some .directory := by
      rw [absent]
      exact nofun
    have not_root := ne_root_of_node? replaced
    refine ⟨rfl, (keeps_set .directory replaced).directory, ?_⟩
    intro other content _
    by_cases here : other = location
    · subst here
      simp [node?_set_self files .directory not_root, absent]
    · rw [node?_set_of_ne files .directory here]

theorem makeAncestors_keeps (files : FileSystem) (paths : List Path) :
    Keeps (fun _ => False) files (files.makeAncestors paths).1 := by
  induction paths with
  | nil => exact .refl files
  | cons path parents ih =>
    unfold makeAncestors
    split
    · exact .refl files
    split
    · next made_eq => exact makeDirectory_keeps made_eq
    · split
      · next parents_eq => exact parents_eq ▸ ih
      · next parents_eq =>
        have parents_kept := parents_eq ▸ ih
        split
        · next made_eq => exact parents_kept.trans (makeDirectory_keeps made_eq)
        · exact parents_kept
    · exact .refl files

theorem makeParents_keeps (files : FileSystem) (path : Path) :
    Keeps (fun _ => False) files (files.makeParents path).1 := by
  unfold makeParents
  split
  · exact .refl files
  · exact makeAncestors_keeps files _

private theorem write_eq_ok (write_eq : files.write path content = .ok saved) :
    ∃ location, files.locate path = .ok location ∧ endsInSlash path = false ∧
      Keeps (· = location) files saved ∧ saved.node? location = some (.file content) := by
  unfold write at write_eq
  obtain ⟨location, found, write_eq⟩ := bind_eq_ok.mp write_eq
  split at write_eq
  · cases write_eq
  · next writable =>
    obtain rfl := Except.ok.inj write_eq
    simp only [Bool.or_eq_true, decide_eq_true_eq, not_or, Bool.not_eq_true] at writable
    obtain ⟨no_slash, replaced⟩ := writable
    exact ⟨location, found, no_slash, keeps_set _ replaced,
      node?_set_self files _ (ne_root_of_node? replaced)⟩

/-- A save that fails leaves all files as they are. -/
theorem save_error {failure : Failure}
    (save_eq : files.save path content = (saved, .error failure)) :
    Keeps (fun _ => False) files saved := by
  have parents_kept := makeParents_keeps files path
  unfold save at save_eq
  split at save_eq
  · next made_eq =>
    obtain ⟨rfl, -⟩ := Prod.mk.inj save_eq
    rwa [made_eq] at parents_kept
  · next made_eq =>
    rw [made_eq] at parents_kept
    split at save_eq
    · obtain ⟨rfl, -⟩ := Prod.mk.inj save_eq
      exact parents_kept
    · cases (Prod.mk.inj save_eq).2

theorem save_ok (save_eq : files.save path content = (saved, .ok ())) :
    ∃ location, saved.locate path = .ok location ∧ endsInSlash path = false ∧
      Keeps (· = location) files saved ∧ saved.node? location = some (.file content) := by
  have parents_kept := makeParents_keeps files path
  unfold save at save_eq
  split at save_eq
  · cases (Prod.mk.inj save_eq).2
  · next made_eq =>
    rw [made_eq] at parents_kept
    split at save_eq
    · cases (Prod.mk.inj save_eq).2
    · next write_eq =>
      obtain ⟨rfl, -⟩ := Prod.mk.inj save_eq
      obtain ⟨location, found, no_slash, kept, stored⟩ := write_eq_ok write_eq
      exact ⟨location, kept.locate found, no_slash,
        (parents_kept.mono fun _ => False.elim).trans kept, stored⟩

end SuiteMigration.FileSystem
