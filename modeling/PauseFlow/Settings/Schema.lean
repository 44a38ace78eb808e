import PauseFlow.Data.Json
import PauseFlow.Settings.Basic
import PauseFlow.Toml.Value

namespace PauseFlow

namespace Toml

mutual

/-- A TOML value as JSON. Dates and times are strings. -/
def Value.toJson : Value → Json
  | .string text => .string text
  | .integer value => .integer value
  | .float bits => .float bits
  | .boolean value => .boolean value
  | .moment text => .string text
  | .array elements => .array (elementsToJson elements)
  | .table entries => .object (entriesToJson entries)

def elementsToJson : List Value → List Json
  | [] => []
  | element :: rest => element.toJson :: elementsToJson rest

def entriesToJson : Table → List (String × Json)
  | [] => []
  | (key, value) :: rest => (key, value.toJson) :: entriesToJson rest

end

end Toml

namespace Schema

/-- What a single value must be. -/
inductive Shape where
  | boolean
  | string
  /-- A whole number that is not less. -/
  | count (least : Nat)
deriving DecidableEq

/-- An option of an object, with a shape of some kind. -/
structure Property (α : Type) where
  name : String
  description : Option String
  initial : Json
  shape : α

/-- What an option must be: a single value, or an object of a named kind. -/
inductive Content where
  | single (shape : Shape)
  | object (name : String) (properties : List (Property Shape))

def Shape.admits : Shape → Json → Bool
  | .boolean, .boolean _ => true
  | .string, .string _ => true
  | .count least, value =>
    value.number?.any fun (number : Rat) => number.isInt && (least : Rat) ≤ number
  | _, _ => false

/-- Whether an object has no other members than the properties, each as it must be. -/
def admitsObject {α : Type} (admits : α → Json → Bool) (properties : List (Property α)) :
    Json → Bool
  | .object members => members.all fun member =>
      match properties.find? fun property => property.name = member.1 with
      | some property => admits property.shape member.2
      | none => false
  | _ => false

def Content.admits : Content → Json → Bool
  | .single shape, value => shape.admits value
  | .object _ properties, value => admitsObject Shape.admits properties value

def wholeNumber (number : Nat) : Json :=
  .float (Binary64.withSign false (Binary64.nearestToDecimal number 0))

def Shape.members : Shape → List (String × Json)
  | .boolean => [("type", .string "boolean")]
  | .string => [("type", .string "string")]
  | .count least =>
    [("type", .string "integer"), ("format", .string "uint"), ("minimum", wholeNumber least)]

def Content.members : Content → List (String × Json)
  | .single shape => shape.members
  | .object name _ =>
    [("allOf", .array [.object [("$ref", .string ("#/definitions/" ++ name))]])]

/-- A property with what its shape asks for. -/
def Property.document {α : Type} (members : α → List (String × Json)) (property : Property α) :
    Json :=
  .object ((property.description.map fun text => ("description", Json.string text)).toList ++
    ("default", property.initial) :: members property.shape)

/-- An object that may have the properties and no others. -/
def objectMembers {α : Type} (members : α → List (String × Json))
    (properties : List (Property α)) : List (String × Json) :=
  [("type", .string "object"),
   ("properties",
     .object (properties.map fun property => (property.name, property.document members))),
   ("additionalProperties", .boolean false)]

def Content.definition? : Content → Option (String × Json)
  | .single _ => none
  | .object name properties => some (name, .object (objectMembers Shape.members properties))

/-- The document for a titled object; objects of a named kind are defined apart. -/
def document (title : String) (properties : List (Property Content)) : Json :=
  .object (
    [("$schema", .string "http://json-schema.org/draft-07/schema#"), ("title", .string title)] ++
    objectMembers Content.members properties ++
    [("definitions", .object (properties.filterMap fun property => property.shape.definition?))])

end Schema

open Schema

namespace LoggingSettings

def toJson (settings : LoggingSettings) : Json :=
  .object [("level", .string settings.level), ("json", .boolean settings.json),
    ("stderr", .boolean settings.stderr)]

def properties : List (Property Shape) :=
  [⟨"level", "Either a simple level (`info`, `debug`, ...) or an `EnvFilter` directive string.",
    .string LoggingSettings.default.level, .string⟩,
   ⟨"json", "Emit logs in JSON format.", .boolean LoggingSettings.default.json, .boolean⟩,
   ⟨"stderr", none, .boolean LoggingSettings.default.stderr, .boolean⟩]

end LoggingSettings

namespace Settings

def properties : List (Property Content) :=
  [⟨"enabled", "Run the assist when the debugger pauses.",
    .boolean Settings.default.enabled, .single .boolean⟩,
   ⟨"max_distinct_pairs",
    "Maximum number of \"these two live objects differ\" facts added to the seeded state. " ++
      "Pairs beyond the bound are dropped.",
    .integer Settings.default.maxDistinctPairs, .single (.count 0)⟩,
   ⟨"max_interpreter_steps", "Interpreter step budget for one run.",
    .integer Settings.default.maxSteps, .single (.count 1)⟩,
   ⟨"logging", none, LoggingSettings.default.toJson,
    .object "LoggingConfig" LoggingSettings.properties⟩]

def schema : Json := Schema.document "DfaAssistConfig" properties

/-- Whether the schema admits a document. -/
def admits (document : Json) : Bool := admitsObject Content.admits properties document

end Settings

end PauseFlow
