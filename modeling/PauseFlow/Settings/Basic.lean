namespace PauseFlow

structure LoggingSettings where
  /-- A level such as `info`, or filter directives. -/
  level : String
  json : Bool
  stderr : Bool
deriving DecidableEq

structure Settings where
  /-- Whether the assist runs when the debugger pauses. -/
  enabled : Bool
  /-- Bound on the pairs of objects recorded as different. -/
  maxDistinctPairs : Nat
  /-- Step budget of one exploration. -/
  maxSteps : Nat
  logging : LoggingSettings
deriving DecidableEq

def LoggingSettings.default : LoggingSettings := ⟨"info", false, true⟩

def Settings.default : Settings := ⟨true, 20, 10000, .default⟩

end PauseFlow
