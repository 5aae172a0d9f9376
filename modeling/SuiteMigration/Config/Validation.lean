import SuiteMigration.Config.Reading
import SuiteMigration.Text.Lines

/-!
# Valid configurations

A configuration is valid if its base address is absolute and its runner has a command and a time
limit. Of several faults the first in this order counts. Which addresses are absolute is for a check to
tell.
-/
namespace SuiteMigration.Config

/-- Accepts the texts that are absolute addresses, and complains about the others. -/
abbrev AddressCheck := String → Except String Unit

inductive Fault where
  | baseUrl (complaint : String)
  | emptyCommand
  | noTimeout
  deriving DecidableEq

def Fault.message : Fault → String
  | .baseUrl complaint => "Invalid base URL: " ++ complaint
  | .emptyCommand => "Configuration error: runner.command must not be empty"
  | .noTimeout => "Configuration error: runner.timeout_ms must be greater than zero"

def validate (check : AddressCheck) (config : Config) : Except Fault Unit :=
  match check config.settings.baseUrl with
  | .error complaint => .error (.baseUrl complaint)
  | .ok () =>
    if (Text.trim config.runner.command.toList).isEmpty then .error .emptyCommand
    else if config.runner.timeout = 0 then .error .noTimeout
    else .ok ()

end SuiteMigration.Config
