import PauseFlow.Number.Shortest
import PauseFlow.Text.Quoted
import PauseFlow.Toml.Value

namespace PauseFlow

/-- What an option takes. -/
inductive OptionKind where
  | boolean
  | count
  | string
  | loggingTable
deriving DecidableEq

structure Mismatch where
  expected : OptionKind
  found : Toml.Value

namespace OptionKind

def description : OptionKind → String
  | .boolean => "a boolean"
  | .count => "usize"
  | .string => "a string"
  | .loggingTable => "struct LoggingConfig"

end OptionKind

/-- A value in a message. Dates and times are described as tables. -/
def Toml.Value.description : Toml.Value → String
  | .string text => "string " ++ Text.quoted text
  | .integer value => "integer `" ++ toString value ++ "`"
  | .float bits => "floating point `" ++ Binary64.textWithPoint bits ++ "`"
  | .boolean value => "boolean `" ++ (if value then "true" else "false") ++ "`"
  | .array _ => "sequence"
  | .moment _ => "map"
  | .table _ => "map"

namespace Mismatch

/-- An integer where a count is expected is of the right type, but out of range. -/
def subject (mismatch : Mismatch) : String :=
  match mismatch.expected, mismatch.found with
  | .count, .integer _ => "value"
  | _, _ => "type"

def message (mismatch : Mismatch) : String :=
  "invalid " ++ mismatch.subject ++ ": " ++ mismatch.found.description ++ ", expected " ++
    mismatch.expected.description

end Mismatch

end PauseFlow
