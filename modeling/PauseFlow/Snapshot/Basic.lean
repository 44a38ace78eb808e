import PauseFlow.Debuggee.LiveValue
import PauseFlow.Hierarchy.Signature
import PauseFlow.Variable.Registry

namespace PauseFlow

/-- What was read of a live value. Objects come with the signature of their type. -/
inductive Snapshot where
  /-- A primitive value or `null`. -/
  | constant (value : AbstractValue)
  | string (text : String)
  | object (signature : String)
  | enumCase (signature : String) (name : String)
  /-- An object together with one of its derived fields. -/
  | withField (signature : String) (field : DerivedField) (value : Snapshot)
deriving DecidableEq

namespace Snapshot

/-- Signature of the runtime type, for snapshots of objects. -/
def signature? : Snapshot → Option String
  | constant _ => none
  | string _ => some Signature.string
  | object signature => some signature
  | enumCase signature _ => some signature
  | withField signature _ _ => some signature

end Snapshot

/-- Variables grouped by the live value they hold, in order of first sight. -/
structure Aliases where
  groups : List (LiveValue × List Var)
deriving DecidableEq

namespace Aliases

def empty : Aliases := ⟨[]⟩

def isEmpty (aliases : Aliases) : Bool := aliases.groups.isEmpty

def values (aliases : Aliases) : List LiveValue := aliases.groups.map (·.1)

/-- Put variables into the group of a live value, or open a new group. -/
def join (value : LiveValue) (vars : List Var) :
    List (LiveValue × List Var) → List (LiveValue × List Var)
  | [] => [(value, vars)]
  | group :: rest =>
    if group.1.same value then (group.1, group.2 ++ vars) :: rest
    else group :: join value vars rest

/-- Record that a variable holds a live value. -/
def add (aliases : Aliases) (value : LiveValue) (var : Var) : Aliases :=
  ⟨join value [var] aliases.groups⟩

/-- Groups in order of first sight; groups of one value are merged. -/
def ofGroups (groups : List (LiveValue × List Var)) : Aliases :=
  ⟨groups.foldl (fun joined group => join group.1 group.2 joined) []⟩

end Aliases

/-- Snapshots by live value, in order of their taking. -/
structure Snapshots where
  entries : List (LiveValue × Snapshot)
deriving DecidableEq

namespace Snapshots

def get? (snapshots : Snapshots) (value : LiveValue) : Option Snapshot :=
  (snapshots.entries.find? fun entry => entry.1.same value).map (·.2)

end Snapshots

end PauseFlow
