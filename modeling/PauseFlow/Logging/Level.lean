import PauseFlow.Text.Ascii

namespace PauseFlow.Logging

inductive Level where
  | off
  | error
  | warn
  | info
  | debug
  | trace
deriving DecidableEq

namespace Level

def name : Level → String
  | .off => "off"
  | .error => "error"
  | .warn => "warn"
  | .info => "info"
  | .debug => "debug"
  | .trace => "trace"

/-- All levels, from the quietest. -/
def all : List Level := [.off, .error, .warn, .info, .debug, .trace]

/-- A level by its number, or by its name in letters of either case. No name at all stands
for errors. -/
def ofText? (text : List Char) : Option Level :=
  match (Text.natural? text).bind (all[·]?) with
  | some level => some level
  | none =>
    if text = [] then some .error
    else all.find? fun level => level.name.toList = Text.lowered text

end Level

end PauseFlow.Logging
