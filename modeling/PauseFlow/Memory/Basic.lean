import PauseFlow.Data.OrderedMap
import PauseFlow.Variable.Registry

/-! Facts known on one path. Variables with the same value share a class, whose root is
reached over parent links; what is known of a class is recorded at its root. -/
namespace PauseFlow

/-- The facts of one path. Equality of memories is equality of what they record, parent
links and order of exclusions included. -/
structure Memory where
  /-- Parent links; a variable without one is a root. -/
  links : OrderedMap Var Var
  /-- What is known of a class beyond the declaration of its root. -/
  facts : OrderedMap Var AbstractValue
  /-- Pairs of roots whose classes hold different values, smaller variable first. -/
  apart : OrderedMap (Var × Var) Unit
  /-- Constants that a class does not hold, in order of exclusion. -/
  excluded : OrderedMap Var (List AbstractValue)
deriving DecidableEq

namespace Memory

/-- Nothing is known. -/
def empty : Memory := ⟨.empty, .empty, .empty, .empty⟩

instance : Inhabited Memory := ⟨empty⟩

/-- Follow at most `steps` parent links. -/
def climb (links : OrderedMap Var Var) : (steps : Nat) → Var → Var
  | 0, var => var
  | steps + 1, var =>
    match links.get? var with
    | some parent => climb links steps parent
    | none => var

/-- The root of a class. A chain of links repeats no variable, so it is no longer than
the number of links. -/
def root (memory : Memory) (var : Var) : Var :=
  climb memory.links memory.links.entries.length var

/-- Two variables as a pair with the smaller one first. -/
def sorted (left right : Var) : Var × Var :=
  if left.index ≤ right.index then (left, right) else (right, left)

def areEqual (memory : Memory) (left right : Var) : Bool := memory.root left = memory.root right

def areDistinct (memory : Memory) (left right : Var) : Bool :=
  memory.apart.contains (sorted (memory.root left) (memory.root right))

/-- Pairs of roots known to hold different values, in ascending order. -/
def distinctPairs (memory : Memory) : List (Var × Var) := memory.apart.keys

/-- What is known of the class with the given root. -/
def classValue (memory : Memory) (registry : Variables) (root : Var) : AbstractValue :=
  (memory.facts.get? root).getD (registry.declared root)

/-- What is known of a variable. -/
def value (memory : Memory) (registry : Variables) (var : Var) : AbstractValue :=
  memory.classValue registry (memory.root var)

/-- The constants excluded for the class with the given root. -/
def exclusions (memory : Memory) (root : Var) : List AbstractValue :=
  (memory.excluded.get? root).getD []

/-- Whether a value is a constant that the class cannot hold. -/
def isExcluded (memory : Memory) (root : Var) (value : AbstractValue) : Bool :=
  value.isConstant && value ∈ memory.exclusions root

end Memory

end PauseFlow
