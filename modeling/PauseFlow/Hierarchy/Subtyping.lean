import PauseFlow.Hierarchy.ClassTable

/-! Subtyping over a class table. The supertype search visits each class once, so it
ends on every table, also on one whose links form a cycle. -/
namespace PauseFlow.ClassTable

/-- Number of supertype links in the table. -/
def linkCount (table : ClassTable) : Nat :=
  (table.classes.flatMap ClassInfo.supertypes).length

/-- Depth-first search upward for `target`. A class is expanded once, so each link is
followed once and `linkCount + 1` steps are enough. -/
def climbs (table : ClassTable) (target : ClassId) :
    (steps : Nat) → (expanded pending : List ClassId) → Bool
  | 0, _, _ => false
  | _ + 1, _, [] => false
  | steps + 1, expanded, current :: pending =>
    if current = target then true
    else if current ∈ expanded then table.climbs target steps expanded pending
    else table.climbs target steps (current :: expanded) (table.supertypes current ++ pending)

/-- Whether `upper` is reached from `lower` over superclass and interface links. -/
def isSubclass (table : ClassTable) (lower upper : ClassId) : Bool :=
  table.climbs upper (table.linkCount + 1) [] [lower]

/-- Whether a value of runtime type `lower` can be stored in a place of type `upper`.
Arrays of references are covariant, arrays of primitives are not. -/
def isAssignable (table : ClassTable) : (lower upper : JvmType) → Bool
  | .primitive lower, .primitive upper => lower = upper
  | .ofClass lower, .ofClass upper => table.isSubclass lower upper
  | .arrayOf _, .ofClass upper => table.isObject upper
  | .arrayOf lower, .arrayOf upper =>
    if lower.isReference && upper.isReference then table.isAssignable lower upper
    else lower = upper
  | _, _ => false

/-- Whether some class, known or not, may lie below both classes. An interface can be
implemented by any class that is not final. -/
def mayShareSubclass (left right : ClassInfo) : Bool :=
  match left.isInterface, right.isInterface with
  | true, true => true
  | true, false => !right.isFinal
  | false, true => !left.isFinal
  | false, false => false

/-- Whether some runtime type may be assignable to both types. -/
def mayShareSubtype (table : ClassTable) (left right : JvmType) : Bool :=
  table.isAssignable left right || table.isAssignable right left ||
    match left, right with
    | .ofClass left, .ofClass right =>
      match table.get? left, table.get? right with
      | some left, some right => mayShareSubclass left right
      | _, _ => false
    | .arrayOf left, .arrayOf right =>
      left.isReference && right.isReference && table.mayShareSubtype left right
    | _, _ => false

end PauseFlow.ClassTable
