import Mathlib.Data.List.Basic
import SuiteMigration.Config.Loading
import SuiteMigration.Url.Check

/-!
# What is known of a loaded configuration

Validation accepts exactly the configurations that have what they need, and otherwise tells the first
fault. So a configuration that was loaded is valid, however addresses are checked. The default one is
valid if the check accepts its address.
-/
namespace SuiteMigration.Config

variable {check : AddressCheck} {config : Config} {files : FileSystem} {path : Path} {fault : Fault}

/-- What a configuration needs. -/
structure Valid (check : AddressCheck) (config : Config) : Prop where
  address : check config.settings.baseUrl = .ok ()
  command : Text.trim config.runner.command.toList ≠ []
  timeout : config.runner.timeout ≠ 0

/-- The first thing that is wrong with a configuration. -/
inductive FirstFault (check : AddressCheck) (config : Config) : Fault → Prop where
  | baseUrl {complaint : String} (refused : check config.settings.baseUrl = .error complaint) :
      FirstFault check config (.baseUrl complaint)
  | emptyCommand (address : check config.settings.baseUrl = .ok ())
      (blank : Text.trim config.runner.command.toList = []) : FirstFault check config .emptyCommand
  | noTimeout (address : check config.settings.baseUrl = .ok ())
      (command : Text.trim config.runner.command.toList ≠ []) (zero : config.runner.timeout = 0) :
      FirstFault check config .noTimeout

section Validating

theorem validate_cases (check : AddressCheck) (config : Config) :
    (config.validate check = .ok () ∧ config.Valid check) ∨
      ∃ fault, config.validate check = .error fault ∧ config.FirstFault check fault := by
  unfold validate
  cases address : check config.settings.baseUrl with
  | error complaint => exact .inr ⟨_, rfl, .baseUrl address⟩
  | ok =>
    by_cases blank : Text.trim config.runner.command.toList = []
    · exact .inr ⟨_, if_pos (List.isEmpty_iff.mpr blank), .emptyCommand address blank⟩
    · have named : ¬(Text.trim config.runner.command.toList).isEmpty = true :=
        fun empty => blank (List.isEmpty_iff.mp empty)
      by_cases zero : config.runner.timeout = 0
      · exact .inr ⟨_, by simp only [if_neg named, if_pos zero], .noTimeout address blank zero⟩
      · exact .inl ⟨by simp only [if_neg named, if_neg zero], address, blank, zero⟩

theorem FirstFault.not_valid (first : config.FirstFault check fault) : ¬config.Valid check := by
  intro valid
  cases first with
  | baseUrl refused => cases refused.symm.trans valid.address
  | emptyCommand _ blank => exact valid.command blank
  | noTimeout _ _ zero => exact valid.timeout zero

/-- The valid configurations are those that validation accepts. -/
theorem validate_eq_ok : config.validate check = .ok () ↔ config.Valid check := by
  rcases validate_cases check config with ⟨accepted, valid⟩ | ⟨fault, refused, first⟩
  · exact iff_of_true accepted valid
  · exact iff_of_false (by rw [refused]; nofun) first.not_valid

/-- Of several faults the first is told. -/
theorem validate_eq_error : config.validate check = .error fault ↔ config.FirstFault check fault := by
  rcases validate_cases check config with ⟨accepted, valid⟩ | ⟨other, refused, first⟩
  · exact iff_of_false (by rw [accepted]; nofun) fun first => first.not_valid valid
  · rw [refused, Except.error.injEq]
    refine ⟨fun same => same ▸ first, fun again => ?_⟩
    -- Each fault needs that none in front of it is there.
    cases first <;> cases again <;> simp_all

end Validating

section Loading

private theorem ofText_eq_ok {text : String} :
    ofText check text = .ok config ↔ parse? text = some config ∧ config.Valid check := by
  rw [ofText]
  cases parse? text with
  | none => simp
  | some parsed =>
    rcases validate_cases check parsed with ⟨accepted, valid⟩ | ⟨fault, refused, first⟩
    · simp only [accepted, Except.ok.injEq, Option.some.injEq]
      exact ⟨fun same => ⟨same, same ▸ valid⟩, And.left⟩
    · simp only [refused, reduceCtorEq, Option.some.injEq, false_iff]
      rintro ⟨rfl, valid⟩
      exact first.not_valid valid

/-- Whatever is loaded is the valid configuration of a text. -/
theorem load_eq_ok : load check files path = .ok config ↔
    ∃ text, files.load path = .ok text ∧ parse? text = some config ∧ config.Valid check := by
  rw [load]
  cases files.load path with
  | error failure => simp
  | ok text => simp [ofText_eq_ok]

/-- The default configuration only needs a check that accepts its address. -/
theorem default_valid (accepted : check defaultSettings.baseUrl = .ok ()) :
    Config.default.Valid check where
  address := accepted
  command := by decide
  timeout := by decide

end Loading

section Addresses

/-- A text without a colon has no scheme, so it is no address. -/
theorem complain_of_no_colon {address : String} (no_colon : ':' ∉ address.toList) :
    Url.complain address = .error (Url.Fault.message .relative) := by
  have no_scheme : Url.splitScheme? (Url.strip address.toList) = none := by
    unfold Url.splitScheme?
    split
    · next rest rest_eq =>
      refine absurd ?_ no_colon
      have stripped_mem : ':' ∈ Url.strip address.toList :=
        (List.dropWhile_sublist _).subset (rest_eq ▸ List.mem_cons_self)
      have trimmed_mem := List.mem_of_mem_filter stripped_mem
      exact (List.dropWhile_sublist _).subset (List.mem_reverse.mp
        ((List.dropWhile_sublist _).subset (List.mem_reverse.mp trimmed_mem)))
    · rfl
  rw [Url.complain, Url.check, no_scheme]
  rfl

theorem not_valid_of_no_colon (no_colon : ':' ∉ config.settings.baseUrl.toList) :
    ¬config.Valid Url.complain :=
  FirstFault.not_valid (.baseUrl (complain_of_no_colon no_colon))

example : Config.default.Valid Url.complain :=
  default_valid (by decide +kernel)

end Addresses

end SuiteMigration.Config
