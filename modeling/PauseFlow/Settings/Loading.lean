import PauseFlow.Settings.Basic
import PauseFlow.Settings.Mismatch
import PauseFlow.Settings.Storage
import PauseFlow.Toml.Document

/-! Settings from a TOML document. Options that are not set keep their defaults, and keys
that name no option are passed over. -/
namespace PauseFlow

namespace Toml.Value

def asBoolean : Value → Except Mismatch Bool
  | .boolean value => .ok value
  | value => .error ⟨.boolean, value⟩

def asCount : Value → Except Mismatch Nat
  | .integer value => if 0 ≤ value then .ok value.toNat else .error ⟨.count, .integer value⟩
  | value => .error ⟨.count, value⟩

def asString : Value → Except Mismatch String
  | .string text => .ok text
  | value => .error ⟨.string, value⟩

end Toml.Value

namespace LoggingSettings

def set (settings : LoggingSettings) : String × Toml.Value → Except Mismatch LoggingSettings
  | ("level", value) => return { settings with level := ← value.asString }
  | ("json", value) => return { settings with json := ← value.asBoolean }
  | ("stderr", value) => return { settings with stderr := ← value.asBoolean }
  | _ => .ok settings

/-- Set options in order; the first misfit ends it. -/
def ofTable (table : Toml.Table) : Except Mismatch LoggingSettings := table.foldlM set default

/-- An array gives the options by position. A date or time counts as a table without any. -/
def ofValue : Toml.Value → Except Mismatch LoggingSettings
  | .table entries => ofTable entries
  | .array elements => ofTable (["level", "json", "stderr"].zip elements)
  | .moment _ => .ok default
  | value => .error ⟨.loggingTable, value⟩

end LoggingSettings

/-- Why settings cannot be had. -/
inductive SettingsFailure where
  | unreadable (path : String) (fault : FileFault)
  | malformed
  | misfit (mismatch : Mismatch)

namespace SettingsFailure

/-- What the failure says; a malformed document is not described further. -/
def message? : SettingsFailure → Option String
  | .unreadable path fault =>
    some ("failed to read config file " ++ path ++ ": " ++ fault.message)
  | .malformed => none
  | .misfit mismatch => some ("failed to parse toml config: " ++ mismatch.message)

end SettingsFailure

namespace Settings

def set (settings : Settings) : String × Toml.Value → Except Mismatch Settings
  | ("enabled", value) => return { settings with enabled := ← value.asBoolean }
  | ("max_distinct_pairs", value) =>
    return { settings with maxDistinctPairs := ← value.asCount }
  | ("max_interpreter_steps", value) => return { settings with maxSteps := ← value.asCount }
  | ("logging", value) => return { settings with logging := ← LoggingSettings.ofValue value }
  | _ => .ok settings

/-- Set options in order; the first misfit ends it. -/
def ofTable (table : Toml.Table) : Except Mismatch Settings := table.foldlM set default

def load (text : String) : Except SettingsFailure Settings :=
  match Toml.read? text with
  | none => .error .malformed
  | some table => (ofTable table).mapError .misfit

/-- The settings in the file at a path. -/
def loadFrom (path : String) : Except SettingsFailure Settings :=
  match Storage.read path with
  | .ok text => load text
  | .error fault => .error (.unreadable path fault)

end Settings

end PauseFlow
