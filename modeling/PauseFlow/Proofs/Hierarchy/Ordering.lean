import PauseFlow.Proofs.Hierarchy.OpenWorld
import PauseFlow.Proofs.Hierarchy.PartialOrder

namespace PauseFlow.ClassTable

/-- Types may share a subtype when they are comparable, or are classes with room for a common
subclass, or are arrays of references that may share a subtype. -/
theorem mayShareSubtype_cases {table : ClassTable} {left right : JvmType}
    (share : table.mayShareSubtype left right = true) :
    (table.isAssignable left right = true ∨ table.isAssignable right left = true) ∨
    (∃ leftId rightId leftInfo rightInfo, left = .ofClass leftId ∧ right = .ofClass rightId ∧
      table.get? leftId = some leftInfo ∧ table.get? rightId = some rightInfo ∧
      mayShareSubclass leftInfo rightInfo = true) ∨
    (∃ leftElement rightElement, left = .arrayOf leftElement ∧ right = .arrayOf rightElement ∧
      leftElement.isReference = true ∧ rightElement.isReference = true ∧
      table.mayShareSubtype leftElement rightElement = true) := by
  unfold mayShareSubtype at share
  rw [Bool.or_eq_true, Bool.or_eq_true] at share
  refine share.imp_right fun room => ?_
  split at room
  · rename_i leftId rightId
    split at room
    · rename_i leftInfo rightInfo leftFound rightFound
      exact .inl ⟨leftId, rightId, leftInfo, rightInfo, rfl, rfl, leftFound, rightFound, room⟩
    · cases room
  · simp only [Bool.and_eq_true] at room
    exact .inr ⟨_, _, rfl, rfl, room.1.1, room.1.2, room.2⟩
  · cases room

namespace Legal

variable {table : ClassTable}

private theorem rootOnTop (legal : table.Legal) : table.RootOnTop := fun _ _ => legal.ofObject

theorem isAssignable_trans (legal : table.Legal) {lower middle upper : JvmType}
    (first : table.isAssignable lower middle = true)
    (second : table.isAssignable middle upper = true) : table.isAssignable lower upper = true :=
  legal.rootOnTop.isAssignable_trans first second

/-- Room for a common subclass is kept on the way up. -/
theorem mayShareSubclass_of_below (legal : table.Legal) {lower upper : ClassId}
    {otherInfo lowerInfo upperInfo : ClassInfo}
    (lowerFound : table.get? lower = some lowerInfo)
    (upperFound : table.get? upper = some upperInfo) (path : table.Below lower upper)
    (room : mayShareSubclass otherInfo lowerInfo = true) :
    mayShareSubclass otherInfo upperInfo = true := by
  rcases legal.interface_of_mayShareSubclass lowerFound room with
    ⟨otherKind, extendable⟩ | ⟨lowerKind, extendable⟩
  · cases upperKind : upperInfo.isInterface with
    | true => simp [mayShareSubclass, otherKind, upperKind]
    | false =>
      cases upperFinal : upperInfo.isFinal with
      | false => simp [mayShareSubclass, otherKind, upperKind, upperFinal]
      | true =>
        obtain rfl := legal.eq_of_below_final path upperFound upperFinal
        obtain rfl := Option.some.inj (lowerFound.symm.trans upperFound)
        simp [upperFinal] at extendable
  · have upperKind := legal.isInterface_of_below lowerFound lowerKind path upperFound
    cases otherKind : otherInfo.isInterface with
    | true => simp [mayShareSubclass, otherKind, upperKind]
    | false => simp [mayShareSubclass, otherKind, upperKind, extendable]

/-- A type shares subtypes with all that lies above a comparable one. -/
private theorem mayShareSubtype_of_comparable (legal : table.Legal) {other lower upper : JvmType}
    (comparable :
      table.isAssignable other lower = true ∨ table.isAssignable lower other = true)
    (below : table.isAssignable lower upper = true) : table.mayShareSubtype other upper = true := by
  rcases comparable with otherBelow | otherAbove
  · exact legal.mayShareSubtype_of_isAssignable (table.isAssignable_refl other)
      (legal.isAssignable_trans otherBelow below)
  · exact legal.mayShareSubtype_of_isAssignable otherAbove below

/-- What may share a subtype with a type may share one with every type above it. -/
theorem mayShareSubtype_mono (legal : table.Legal) {other lower upper : JvmType}
    (share : table.mayShareSubtype other lower = true)
    (below : table.isAssignable lower upper = true) : table.mayShareSubtype other upper = true := by
  induction other generalizing lower upper with
  | primitive kind =>
    rcases mayShareSubtype_cases share with comparable | ⟨_, _, _, _, impossible, _⟩ |
      ⟨_, _, impossible, _⟩
    · exact legal.mayShareSubtype_of_comparable comparable below
    · cases impossible
    · cases impossible
  | ofClass otherId =>
    rcases mayShareSubtype_cases share with comparable |
      ⟨_, lowerId, otherInfo, lowerInfo, same, rfl, otherFound, lowerFound, room⟩ |
      ⟨_, _, impossible, _⟩
    · exact legal.mayShareSubtype_of_comparable comparable below
    · cases same
      cases upper with
      | primitive kind => cases below
      | arrayOf element => cases below
      | ofClass upperId =>
        have path := (table.isSubclass_iff_below lowerId upperId).mp below
        rcases Relation.ReflTransGen.cases_tail path with rfl | ⟨_, _, link⟩
        · exact share
        · obtain ⟨upperInfo, upperFound⟩ := legal.exists_of_extends link
          have wider := legal.mayShareSubclass_of_below lowerFound upperFound path room
          simp [mayShareSubtype, otherFound, upperFound, wider]
    · cases impossible
  | arrayOf otherElement ih =>
    rcases mayShareSubtype_cases share with comparable | ⟨_, _, _, _, impossible, _⟩ |
      ⟨_, lowerElement, same, rfl, otherReference, lowerReference, elements⟩
    · exact legal.mayShareSubtype_of_comparable comparable below
    · cases impossible
    · cases same
      cases upper with
      | primitive kind => cases below
      | ofClass upperId =>
        have root : table.isAssignable (.arrayOf otherElement) (.ofClass upperId) = true := below
        simp [mayShareSubtype, root]
      | arrayOf upperElement =>
        rcases isAssignable_arrayOf_iff.mp below with rfl | ⟨_, upperReference, elementsBelow⟩
        · exact share
        · simp [mayShareSubtype, otherReference, upperReference, ih elements elementsBelow]

end Legal

end PauseFlow.ClassTable
