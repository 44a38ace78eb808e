import PauseFlow.Memory.Narrowing

namespace PauseFlow.Memory

/-- The members of the class of `root` other than the root, in ascending order. -/
def membersBelow (memory : Memory) (root : Var) : List Var :=
  memory.links.keys.filter fun member => memory.root member = root

/-- Move what a map records for one variable to another one. -/
def moveEntry {Value : Type} (table : OrderedMap Var Value) (old new : Var) :
    OrderedMap Var Value :=
  match table.get? old with
  | some value => (table.erase old).insert new value
  | none => table

/-- Take a variable out of its class. A member without children leaves, one with children
hands them to its parent, a root hands its class to the smallest member. -/
def detach (memory : Memory) (var : Var) : Memory :=
  match memory.links.get? var with
  | some parent =>
    { memory with links :=
        (memory.links.erase var).mapValues fun link => if link = var then parent else link }
  | none =>
    match memory.membersBelow var with
    | [] =>
      { memory with
        facts := memory.facts.erase var
        apart := memory.apart.filter fun pair _ => pair.1 ≠ var && pair.2 ≠ var
        excluded := memory.excluded.erase var }
    | heir :: others =>
      let joined := others.foldl (fun links member => links.insert member heir) memory.links
      { links := joined.erase heir
        facts := moveEntry memory.facts var heir
        apart := renameApart memory.apart var heir
        excluded := moveEntry memory.excluded var heir }

/-- Forget a variable and everything that hangs off it. -/
def forget (memory : Memory) (registry : Variables) (var : Var) : Memory :=
  (registry.invalidatedBy var).foldl detach memory

end PauseFlow.Memory
