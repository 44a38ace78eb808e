import PauseFlow.Hierarchy.Signature
import PauseFlow.Memory.Narrowing
import PauseFlow.Snapshot.Basic

/-! Turning what the debugger observed into the memory that interpretation starts from.
An observation that contradicts what is known is left out. -/
namespace PauseFlow

/-- The variables and the memory while observations are added. -/
structure Seed where
  registry : Variables
  memory : Memory
deriving DecidableEq

namespace Seed

/-- Narrow a variable, if that contradicts nothing. -/
def narrow (seed : Seed) (var : Var) (value : AbstractValue) : Seed :=
  { seed with memory := (seed.memory.narrow seed.registry var value).2 }

/-- The constant of an enum case, if the type is an enumeration that declares it. -/
def enumCase? (table : ClassTable) (type : JvmType) (name : String) : Option AbstractValue :=
  match type with
  | .ofClass id =>
    match table.get? id with
    | some info =>
      if info.isEnum && name ∈ info.constants then some (.enumConstant id name) else none
    | none => none
  | _ => none

/-- Narrow a variable to the runtime type that a signature denotes. Tells the type if it
is known and contradicts nothing. -/
def narrowToSignature (seed : Seed) (var : Var) (signature : String) : Seed × Option JvmType :=
  match Signature.type? seed.registry.table signature with
  | none => (seed, none)
  | some type =>
    let (feasible, memory) := seed.memory.narrow seed.registry var (.notNull (.exact type))
    ({ seed with memory := memory }, if feasible then some type else none)

/-- Add what a snapshot says of a variable. Derived fields become variables of their own. -/
def observe (seed : Seed) (var : Var) : Snapshot → Seed
  | .constant value => seed.narrow var value
  | .string text =>
    match seed.registry.table.lookup ClassTable.stringName with
    | some stringClass => seed.narrow var (.stringConstant text stringClass)
    | none => seed
  | .object signature => (seed.narrowToSignature var signature).1
  | .enumCase signature name =>
    let (seed, type) := seed.narrowToSignature var signature
    match type.bind fun type => enumCase? seed.registry.table type name with
    | some value => seed.narrow var value
    | none => seed
  | .withField signature field value =>
    let (seed, type) := seed.narrowToSignature var signature
    if type.isSome then
      let known := seed.memory.value seed.registry var
      let (registry, fieldVar) := seed.registry.requestDerived field var known
      let seed := { seed with registry := registry }
      match fieldVar with
      | some fieldVar => seed.observe fieldVar value
      | none => seed
    else seed

/-- Let a variable share the class of the first variable of its group, and add what is
known of their value. -/
def observeMember (first : Var) (snapshot : Option Snapshot) (seed : Seed) (var : Var) : Seed :=
  let (feasible, memory) := seed.memory.unite seed.registry var first
  if feasible then
    match snapshot with
    | some snapshot => { seed with memory := memory }.observe var snapshot
    | none => { seed with memory := memory }
  else seed

def observeGroup (snapshots : Snapshots) (seed : Seed) (group : LiveValue × List Var) : Seed :=
  match group.2 with
  | [] => seed
  | first :: _ => group.2.foldl (observeMember first (snapshots.get? group.1)) seed

/-- Whether different objects in a variable differ in the eyes of the program. -/
def comparesByIdentity (registry : Variables) (var : Var) : Bool :=
  let declared := registry.declared var
  declared.isReference && !declared.bound.isComparedByContent registry.table

/-- The first variables of the groups whose values can be told apart. -/
def representatives (registry : Variables) (aliases : Aliases) : List Var :=
  (aliases.groups.filterMap fun group => group.2.head?).filter (comparesByIdentity registry)

/-- All pairs of a list, earlier element first, in lexicographic order of positions. -/
def pairs : List Var → List (Var × Var)
  | [] => []
  | first :: rest => rest.map (fun second => (first, second)) ++ pairs rest

/-- Record that two variables differ, unless their values differ anyway. Counts the pairs
recorded, up to a cap. -/
def separatePair (registry : Variables) (cap : Nat) (counted : Nat × Memory) (pair : Var × Var) :
    Nat × Memory :=
  if cap ≤ counted.1 then counted
  else
    let overlap := (counted.2.value registry pair.1).meet registry.table
      (counted.2.value registry pair.2)
    if overlap = .bottom then counted
    else
      let (feasible, memory) := counted.2.assume registry ⟨pair.1, .different, .var pair.2⟩
      (if feasible then counted.1 + 1 else counted.1, memory)

end Seed

/-- The memory that says what was observed, with the variables it mentions. Variables with
one live value are equal, and at most `cap` pairs of variables with different objects are
recorded as different, in order of the groups. -/
def Memory.ofObservations (registry : Variables) (aliases : Aliases) (snapshots : Snapshots)
    (cap : Nat) : Seed :=
  let seed := aliases.groups.foldl (Seed.observeGroup snapshots) ⟨registry, .empty⟩
  let pairs := Seed.pairs (Seed.representatives registry aliases)
  { seed with memory := (pairs.foldl (Seed.separatePair seed.registry cap) (0, seed.memory)).2 }

end PauseFlow
