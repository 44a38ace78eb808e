import PauseFlow.Toml.Value

namespace PauseFlow.Toml

/-- How a table came about, which decides what may still be added. -/
inductive Origin where
  /-- By its own header; only the statements below it and further headers add to it. -/
  | header
  /-- As the parent of a header; its own header may still come, once. -/
  | implied
  /-- By a dotted key; more dotted keys add to it, its own header may not come. -/
  | dotted
deriving DecidableEq

inductive Draft where
  | value (value : Value)
  | table (origin : Origin) (entries : List (String × Draft))
  /-- An array of tables: those before the last, and the last, which is open. -/
  | tables (earlier : List Value) (last : List (String × Draft))

/-- The entries of a table under construction. -/
abbrev Entries := List (String × Draft)

mutual

/-- The value that a finished draft stands for. -/
def Draft.seal : Draft → Value
  | .value value => value
  | .table _ entries => .table (sealEntries entries)
  | .tables earlier last => .array (earlier ++ [.table (sealEntries last)])

def sealEntries : Entries → Table
  | [] => []
  | (key, draft) :: rest => (key, draft.seal) :: sealEntries rest

end

namespace Entries

/-- The entries with another draft under a key that is there. -/
def replace (entries : Entries) (key : String) (draft : Draft) : Entries :=
  entries.map fun entry => if entry.1 = key then (key, draft) else entry

/-- Set a key, given by the tables on its way. Only tables made by dotted keys take it; a
table that is implied by a header can be passed, but not be the last on the way. -/
def assign (key : String) (value : Value) : List String → Entries → Option Entries
  | [], entries =>
    match entries.lookup key with
    | none => some (entries ++ [(key, .value value)])
    | some _ => none
  | step :: path, entries =>
    match entries.lookup step with
    | none => (assign key value path []).map fun inner => entries ++ [(step, .table .dotted inner)]
    | some (.table origin inner) =>
      if origin = .dotted ∨ (origin = .implied ∧ path ≠ []) then
        (assign key value path inner).map fun inner => entries.replace step (.table origin inner)
      else none
    | some (.tables earlier last) =>
      if path = [] then none
      else (assign key value path last).map fun last => entries.replace step (.tables earlier last)
    | some (.value _) => none

/-- Change the table that a header's parents lead to; missing ones are implied. An array of
tables stands for its last table. -/
def changeAt (change : Entries → Option Entries) : List String → Entries → Option Entries
  | [], entries => change entries
  | step :: path, entries =>
    match entries.lookup step with
    | none => (changeAt change path []).map fun inner => entries ++ [(step, .table .implied inner)]
    | some (.table origin inner) =>
      (changeAt change path inner).map fun inner => entries.replace step (.table origin inner)
    | some (.tables earlier last) =>
      (changeAt change path last).map fun last => entries.replace step (.tables earlier last)
    | some (.value _) => none

/-- Give a table its header and fill it. One that was implied moves to the end. -/
def openTable (key : String) (fill : Entries → Option Entries) (entries : Entries) :
    Option Entries :=
  match entries.lookup key with
  | none => (fill []).map fun inner => entries ++ [(key, .table .header inner)]
  | some (.table .implied inner) =>
    (fill inner).map fun inner =>
      entries.filter (fun entry => entry.1 ≠ key) ++ [(key, .table .header inner)]
  | some _ => none

/-- Add a table to an array of tables and fill it. -/
def openElement (key : String) (fill : Entries → Option Entries) (entries : Entries) :
    Option Entries :=
  match entries.lookup key with
  | none => (fill []).map fun inner => entries ++ [(key, .tables [] inner)]
  | some (.tables earlier last) =>
    (fill []).map fun inner =>
      entries.replace key (.tables (earlier ++ [.table (sealEntries last)]) inner)
  | some _ => none

end Entries

end PauseFlow.Toml
