import PauseFlow.Hierarchy.Subtyping

namespace PauseFlow

/-- Knowledge about the runtime type of an object. -/
inductive TypeBound where
  /-- Nothing is known. -/
  | top
  /-- The runtime type is this one. -/
  | exact (type : JvmType)
  /-- The runtime type is this one or below it. -/
  | instanceOf (type : JvmType)
  /-- No runtime type fits. -/
  | bottom
deriving DecidableEq

namespace TypeBound

/-- The knowledge of both sides. Of two unrelated bounds that may share a subtype the
left one is kept. -/
def meet (table : ClassTable) : TypeBound → TypeBound → TypeBound
  | bottom, _ => bottom
  | _, bottom => bottom
  | top, other => other
  | other, top => other
  | exact left, exact right => if left = right then exact left else bottom
  | exact left, instanceOf right => if table.isAssignable left right then exact left else bottom
  | instanceOf left, exact right => if table.isAssignable right left then exact right else bottom
  | instanceOf left, instanceOf right =>
    if table.isAssignable left right then instanceOf left
    else if table.isAssignable right left then instanceOf right
    else if table.mayShareSubtype left right then instanceOf left
    else bottom

/-- Strings and boxes are conventionally compared by content, so two objects of such a
type may be equal in the eyes of the program. -/
def isComparedByContent (table : ClassTable) : TypeBound → Bool
  | exact (.ofClass id) => byContent (table.nameOf id)
  | instanceOf (.ofClass id) => byContent (table.nameOf id)
  | _ => false
where
  byContent (name : String) : Bool :=
    name = ClassTable.stringName || (PrimitiveKind.ofBoxName? name).isSome

end TypeBound

end PauseFlow
