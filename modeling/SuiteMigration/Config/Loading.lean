import SuiteMigration.Config.Validation
import SuiteMigration.FileSystem.Transfer

/-!
# Loading a configuration

A configuration file is read, parsed and validated, in this order.
-/
namespace SuiteMigration.Config

inductive LoadFailure where
  | access (failure : FileSystem.Failure)
  /-- The text is no configuration. -/
  | malformed
  | invalid (fault : Fault)
  deriving DecidableEq

def LoadFailure.message : LoadFailure → String
  | .access failure => failure.message
  | .malformed => "Serialization error"
  | .invalid fault => fault.message

/-- The configuration that a text holds. -/
def ofText (check : AddressCheck) (text : String) : Except LoadFailure Config :=
  match parse? text with
  | none => .error .malformed
  | some config =>
    match config.validate check with
    | .error fault => .error (.invalid fault)
    | .ok () => .ok config

def load (check : AddressCheck) (files : FileSystem) (path : Path) : Except LoadFailure Config :=
  match files.load path with
  | .error failure => .error (.access failure)
  | .ok text => ofText check text

end SuiteMigration.Config
