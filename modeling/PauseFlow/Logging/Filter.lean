import PauseFlow.Logging.Directive
import PauseFlow.Settings.Basic

namespace PauseFlow.Logging

/-- Put a directive before less specific ones. One of the same scope is replaced. -/
def addDirective (directive : Directive) : List Directive → List Directive
  | [] => [directive]
  | first :: rest =>
    match directive.compareScope first with
    | .gt => directive :: first :: rest
    | .eq => directive :: rest
    | .lt => first :: addDirective directive rest

def ofDirectives (directives : List Directive) : List Directive :=
  directives.foldl (fun table directive => addDirective directive table) []

/-- Two tables of directives, most specific first. One that asks for a field, but for no
value of it, is in both. -/
structure Filter where
  static : List Directive
  dynamic : List Directive
deriving DecidableEq

namespace Filter

def ofDirectives (directives : List Directive) : Filter :=
  ⟨Logging.ofDirectives (directives.filter Directive.isStatic),
   Logging.ofDirectives (directives.filter Directive.isDynamic)⟩

/-- Directives with commas between; empty ones are passed over. -/
def ofText? (text : List Char) : Option Filter :=
  ofDirectives <$>
    ((Text.pieces ',' text).filter (· ≠ [])).mapM Directive.ofText?

def text (filter : Filter) : String :=
  ",".intercalate ((filter.static ++ filter.dynamic).map Directive.text)

/-- Everything at a level. -/
def atLevel (level : Level) : Filter := ofDirectives [⟨none, none, none, level⟩]

end Filter

/-- Level names that are written in letters of either case, with the name they stand for. -/
def levelNames : List (String × String) :=
  [("trace", "trace"), ("debug", "debug"), ("info", "info"), ("warn", "warn"),
   ("warning", "warn"), ("error", "error")]

/-- Directives as set, without blanks around them; none at all stand for the default level,
and a level name is brought to its usual form. -/
def normalized (setting : String) : List Char :=
  let trimmed := Text.trim setting.toList
  if trimmed = [] then LoggingSettings.default.level.toList
  else ((levelNames.lookup (String.ofList (Text.lowered trimmed))).map String.toList).getD trimmed

/-- The filter that the settings ask for, at the level of information if they are not well
formed. -/
def configuredFilter (settings : LoggingSettings) : Filter :=
  (Filter.ofText? (normalized settings.level)).getD (.atLevel .info)

/-- The filter in force. Directives of the environment are added to the settings; if that is
not well formed they stand alone, and otherwise the settings do. -/
def effectiveFilter (settings : LoggingSettings) (environment : Option String) : Filter :=
  let directives := Text.trim (environment.getD "").toList
  if directives = [] then configuredFilter settings
  else
    (Filter.ofText? (normalized settings.level ++ ',' :: directives) <|>
      Filter.ofText? directives).getD (configuredFilter settings)

end PauseFlow.Logging
