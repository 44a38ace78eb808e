import PauseFlow.Proofs.Hierarchy.Growth

/-! The judgement on common subtypes speaks about an open world: it says yes exactly when some
class, perhaps one that is not in the table yet, can lie below both types. -/
namespace PauseFlow.ClassTable

private theorem IsRuntimeType.isReference {table : ClassTable} {type : JvmType}
    (runtime : table.IsRuntimeType type) : type.isReference = true := by
  cases type with
  | primitive kind => exact runtime.elim
  | ofClass id => rfl
  | arrayOf element => rfl

private theorem mayShareSubclass_comm (left right : ClassInfo) :
    mayShareSubclass left right = mayShareSubclass right left := by
  cases leftKind : left.isInterface <;> cases rightKind : right.isInterface <;>
    simp [mayShareSubclass, leftKind, rightKind]

/-- On every table the judgement does not depend on the order of the two types. -/
theorem mayShareSubtype_comm (table : ClassTable) (left right : JvmType) :
    table.mayShareSubtype left right = table.mayShareSubtype right left := by
  have either := Bool.or_comm (table.isAssignable left right) (table.isAssignable right left)
  induction left generalizing right with
  | primitive kind => cases right <;> simp only [mayShareSubtype, either]
  | ofClass leftId =>
    cases right with
    | primitive kind => simp only [mayShareSubtype, either]
    | ofClass rightId =>
      cases leftFound : table.get? leftId with
      | none => cases rightFound : table.get? rightId <;>
          simp only [mayShareSubtype, either, leftFound, rightFound]
      | some leftInfo =>
        cases rightFound : table.get? rightId with
        | none => simp only [mayShareSubtype, either, leftFound, rightFound]
        | some rightInfo =>
          simp only [mayShareSubtype, either, leftFound, rightFound,
            mayShareSubclass_comm leftInfo rightInfo]
    | arrayOf element => simp only [mayShareSubtype, either]
  | arrayOf leftElement ih =>
    cases right with
    | primitive kind => simp only [mayShareSubtype, either]
    | ofClass rightId => simp only [mayShareSubtype, either]
    | arrayOf rightElement =>
      have elements := ih rightElement (Bool.or_comm _ _)
      simp only [mayShareSubtype, either, elements,
        Bool.and_comm leftElement.isReference rightElement.isReference]

/-- A class is a subclass of each of its declared supertypes. -/
theorem isSubclass_of_mem_supertypes {table : ClassTable} {id upper : ClassId} {info : ClassInfo}
    (found : table.get? id = some info) (listed : upper ∈ info.supertypes) :
    table.isSubclass id upper = true := by
  have link : table.Extends id upper := by simpa [Extends, supertypes, found] using listed
  exact (table.isSubclass_iff_below id upper).mpr (.single link)

theorem isSubclass_trans {table : ClassTable} {lower middle upper : ClassId}
    (first : table.isSubclass lower middle = true) (second : table.isSubclass middle upper = true) :
    table.isSubclass lower upper = true := by
  have low := (table.isSubclass_iff_below lower middle).mp first
  have high := (table.isSubclass_iff_below middle upper).mp second
  exact (table.isSubclass_iff_below lower upper).mpr (low.trans high)

/-- A type of objects that are instances of both types. -/
structure IsCommonType (table : ClassTable) (left right type : JvmType) : Prop where
  known : table.Knows type
  runtime : table.IsRuntimeType type
  left : table.isAssignable type left = true
  right : table.isAssignable type right = true

/-- Objects can be instances of both types, in the table or with classes that it may take in. -/
def CanShareInstance (table : ClassTable) (left right : JvmType) : Prop :=
  ∃ wider, table.ExtendedBy wider ∧ wider.Legal ∧ ∃ type, wider.IsCommonType left right type

theorem CanShareInstance.symm {table : ClassTable} {left right : JvmType}
    (share : table.CanShareInstance left right) : table.CanShareInstance right left := by
  obtain ⟨wider, extended, legal, type, common⟩ := share
  exact ⟨wider, extended, legal, type, common.known, common.runtime, common.right, common.left⟩

/-- Arrays of the common instances are common instances of the array types. -/
theorem CanShareInstance.arrayOf {table : ClassTable} {left right : JvmType}
    (leftReference : left.isReference = true) (rightReference : right.isReference = true)
    (share : table.CanShareInstance left right) :
    table.CanShareInstance (.arrayOf left) (.arrayOf right) := by
  obtain ⟨wider, extended, legal, type, common⟩ := share
  have reference := common.runtime.isReference
  exact ⟨wider, extended, legal, .arrayOf type, common.known, trivial,
    isAssignable_arrayOf_iff.mpr (.inr ⟨reference, leftReference, common.left⟩),
    isAssignable_arrayOf_iff.mpr (.inr ⟨reference, rightReference, common.right⟩)⟩

namespace Legal

variable {table : ClassTable}

/-- A class that may be extended and interfaces of the table always have a common subclass in
some wider table. -/
theorem exists_implementation (legal : table.Legal) (superclass : Option ClassId)
    (interfaces : List ClassId)
    (extendable : ∀ {upper : ClassId}, superclass = some upper → ∃ upperInfo,
      table.get? upper = some upperInfo ∧ upperInfo.isInterface = false ∧ upperInfo.isFinal = false)
    (implementable : ∀ {upper : ClassId}, upper ∈ interfaces → ∃ upperInfo,
      table.get? upper = some upperInfo ∧ upperInfo.isInterface = true) :
    ∃ wider, table.ExtendedBy wider ∧ wider.Legal ∧ ∃ id info, wider.get? id = some info ∧
      info.isInterface = false ∧
      ∀ upper ∈ superclass.toList ++ interfaces, wider.isSubclass id upper = true := by
  obtain ⟨name, notRoot, fresh⟩ := table.exists_freshName
  let info : ClassInfo :=
    { ClassInfo.plain name with superclass := superclass, interfaces := interfaces }
  have joins : table.Joins info := {
    named := fresh
    superclass := extendable
    interfaces := implementable
    ofInterface := fun interface => by cases interface
    ofObject := fun root => absurd root notRoot }
  have found := get?_grow_size table info
  refine ⟨table.grow info, extendedBy_grow table info, legal.grow joins, ⟨table.size⟩, info, found,
    rfl, ?_⟩
  intro upper listed
  exact isSubclass_of_mem_supertypes found listed

/-- Each reference type can have instances, and they are instances of all that lies above it. -/
theorem canShareInstance_of_isAssignable (legal : table.Legal) {lower upper : JvmType}
    (known : table.Knows lower) (reference : lower.isReference = true)
    (below : table.isAssignable lower upper = true) : table.CanShareInstance lower upper := by
  have itself : table.IsRuntimeType lower → table.CanShareInstance lower upper := fun runtime =>
    ⟨table, .refl table, legal, lower, known, runtime, table.isAssignable_refl lower, below⟩
  cases lower with
  | primitive kind => cases reference
  | arrayOf element => exact itself trivial
  | ofClass lowerId =>
    obtain ⟨info, found⟩ := known
    cases interface : info.isInterface with
    | false => exact itself ⟨info, found, interface⟩
    | true =>
      obtain ⟨wider, extended, legalWider, id, newInfo, newFound, plain, above⟩ :=
        legal.exists_implementation none [lowerId] (fun above => by cases above)
          (fun listed => ⟨info, List.mem_singleton.mp listed ▸ found, interface⟩)
      have implements := above lowerId (List.mem_cons_self ..)
      refine ⟨wider, extended, legalWider, .ofClass id, ⟨newInfo, newFound⟩,
        ⟨newInfo, newFound, plain⟩, implements, ?_⟩
      cases upper with
      | primitive kind => simp [isAssignable] at below
      | arrayOf element => simp [isAssignable] at below
      | ofClass upperId =>
        have kept : wider.isSubclass lowerId upperId = table.isSubclass lowerId upperId :=
          extended.isSubclass_eq legal found
        exact isSubclass_trans implements (kept.trans below)

/-- An interface and anything that may be extended or implemented have room for a common
subclass. -/
theorem canShareInstance_of_interface (legal : table.Legal) {left right : ClassId}
    {leftInfo rightInfo : ClassInfo} (leftFound : table.get? left = some leftInfo)
    (rightFound : table.get? right = some rightInfo) (interface : leftInfo.isInterface = true)
    (extendable : rightInfo.isFinal = false) :
    table.CanShareInstance (.ofClass left) (.ofClass right) := by
  cases rightKind : rightInfo.isInterface with
  | true =>
    have implementable : ∀ {upper : ClassId}, upper ∈ [left, right] → ∃ upperInfo,
        table.get? upper = some upperInfo ∧ upperInfo.isInterface = true := by
      intro upper listed
      rcases List.mem_pair.mp listed with rfl | rfl
      · exact ⟨leftInfo, leftFound, interface⟩
      · exact ⟨rightInfo, rightFound, rightKind⟩
    obtain ⟨wider, extended, legalWider, id, info, found, plain, above⟩ :=
      legal.exists_implementation none [left, right] (fun above => by cases above) implementable
    exact ⟨wider, extended, legalWider, .ofClass id, ⟨info, found⟩, ⟨info, found, plain⟩,
      above left (by simp), above right (by simp)⟩
  | false =>
    obtain ⟨wider, extended, legalWider, id, info, found, plain, above⟩ :=
      legal.exists_implementation (some right) [left]
        (fun above => ⟨rightInfo, Option.some.inj above ▸ rightFound, rightKind, extendable⟩)
        (fun listed => ⟨leftInfo, List.mem_singleton.mp listed ▸ leftFound, interface⟩)
    exact ⟨wider, extended, legalWider, .ofClass id, ⟨info, found⟩, ⟨info, found, plain⟩,
      above left (by simp), above right (by simp)⟩

/-- Room for a common subclass is room between an interface and something that is not final. -/
theorem interface_of_mayShareSubclass (legal : table.Legal) {right : ClassId}
    {leftInfo rightInfo : ClassInfo} (rightFound : table.get? right = some rightInfo)
    (room : mayShareSubclass leftInfo rightInfo = true) :
    leftInfo.isInterface = true ∧ rightInfo.isFinal = false ∨
      rightInfo.isInterface = true ∧ leftInfo.isFinal = false := by
  cases leftKind : leftInfo.isInterface with
  | true =>
    cases rightKind : rightInfo.isInterface with
    | true => exact .inl ⟨rfl, (legal.ofInterface rightFound rightKind).2⟩
    | false => exact .inl ⟨rfl, by simpa [mayShareSubclass, leftKind, rightKind] using room⟩
  | false =>
    cases rightKind : rightInfo.isInterface with
    | true => exact .inr ⟨rfl, by simpa [mayShareSubclass, leftKind, rightKind] using room⟩
    | false => simp [mayShareSubclass, leftKind, rightKind] at room

private theorem canShareInstance_of_comparable (legal : table.Legal) {left right : JvmType}
    (leftKnown : table.Knows left) (rightKnown : table.Knows right)
    (leftReference : left.isReference = true) (rightReference : right.isReference = true)
    (comparable : table.isAssignable left right = true ∨ table.isAssignable right left = true) :
    table.CanShareInstance left right := by
  rcases comparable with below | above
  · exact legal.canShareInstance_of_isAssignable leftKnown leftReference below
  · exact (legal.canShareInstance_of_isAssignable rightKnown rightReference above).symm

/-- What the judgement does not rule out can happen. -/
theorem canShareInstance_of_mayShareSubtype (legal : table.Legal) {left right : JvmType}
    (leftKnown : table.Knows left) (rightKnown : table.Knows right)
    (leftReference : left.isReference = true) (rightReference : right.isReference = true)
    (share : table.mayShareSubtype left right = true) : table.CanShareInstance left right := by
  induction left generalizing right with
  | primitive kind => cases leftReference
  | ofClass leftId =>
    have related := legal.canShareInstance_of_comparable leftKnown rightKnown rfl rightReference
    cases right with
    | primitive kind => cases rightReference
    | arrayOf element =>
      simp only [mayShareSubtype, Bool.or_false, Bool.or_eq_true] at share
      exact related share
    | ofClass rightId =>
      obtain ⟨leftInfo, leftFound⟩ := leftKnown
      obtain ⟨rightInfo, rightFound⟩ := rightKnown
      simp only [mayShareSubtype, leftFound, rightFound, Bool.or_eq_true] at share
      rcases share with comparable | room
      · exact related comparable
      · rcases legal.interface_of_mayShareSubclass rightFound room with
          ⟨interface, extendable⟩ | ⟨interface, extendable⟩
        · exact legal.canShareInstance_of_interface leftFound rightFound interface extendable
        · exact (legal.canShareInstance_of_interface rightFound leftFound interface extendable).symm
  | arrayOf leftElement ih =>
    have related := legal.canShareInstance_of_comparable leftKnown rightKnown rfl rightReference
    cases right with
    | primitive kind => cases rightReference
    | ofClass rightId =>
      simp only [mayShareSubtype, Bool.or_false, Bool.or_eq_true] at share
      exact related share
    | arrayOf rightElement =>
      simp only [mayShareSubtype, Bool.or_eq_true, Bool.and_eq_true] at share
      rcases share with comparable | ⟨⟨leftElements, rightElements⟩, elements⟩
      · exact related comparable
      · have rightElementKnown : table.Knows rightElement := rightKnown
        exact (ih leftKnown rightElementKnown leftElements rightElements elements).arrayOf
          leftElements rightElements

/-- What the judgement rules out happens in no wider table. -/
theorem mayShareSubtype_of_extendedBy (legal : table.Legal) {wider : ClassTable}
    (extended : table.ExtendedBy wider) (legalWider : wider.Legal) {left right type : JvmType}
    (leftKnown : table.Knows left) (rightKnown : table.Knows right)
    (isLeft : wider.isAssignable type left = true)
    (isRight : wider.isAssignable type right = true) :
    table.mayShareSubtype left right = true := by
  rw [← extended.mayShareSubtype_eq legal leftKnown rightKnown]
  exact legalWider.mayShareSubtype_of_isAssignable isLeft isRight

/-- Two reference types of a legal table are judged to share subtypes exactly when the table can
grow to a legal one with objects of both types. When they are judged disjoint, no object is ever
an instance of both, whatever classes are still to come. The judgement is symmetric. -/
theorem mayShareSubtype_iff_canShareInstance (legal : table.Legal) {left right : JvmType}
    (leftKnown : table.Knows left) (rightKnown : table.Knows right)
    (leftReference : left.isReference = true) (rightReference : right.isReference = true) :
    (table.mayShareSubtype left right = true ↔ table.CanShareInstance left right) ∧
    (table.mayShareSubtype left right = false → ∀ wider, table.ExtendedBy wider → wider.Legal →
      ∀ type, wider.IsRuntimeType type →
        ¬ (wider.isAssignable type left = true ∧ wider.isAssignable type right = true)) ∧
    table.mayShareSubtype left right = table.mayShareSubtype right left := by
  refine ⟨⟨fun share => ?_, fun share => ?_⟩,
    fun disjoint wider extended legalWider type _ both => ?_,
    table.mayShareSubtype_comm left right⟩
  · exact legal.canShareInstance_of_mayShareSubtype leftKnown rightKnown leftReference
      rightReference share
  · obtain ⟨wider, extended, legalWider, type, common⟩ := share
    exact legal.mayShareSubtype_of_extendedBy extended legalWider leftKnown rightKnown common.left
      common.right
  · have share := legal.mayShareSubtype_of_extendedBy extended legalWider leftKnown rightKnown
      both.1 both.2
    simp [disjoint] at share

end Legal

/-- The small hierarchy with an interface that no class implements. -/
def smallWithInterface : ClassTable := small.grow (.interface "zoo.Walker")

theorem legal_smallWithInterface : smallWithInterface.Legal := by
  apply legal_small.grow
  constructor
  · intro id known found
    rcases get?_small found with ⟨rfl, rfl⟩ | ⟨rfl, rfl⟩ | ⟨rfl, rfl⟩ <;> decide
  · intro upper above
    cases above
  · intro upper listed
    cases listed
  · intro _
    exact ⟨rfl, rfl⟩
  · intro root
    exact absurd root (by decide)

/-- Arrays of a class that can be extended can hold objects of an interface, arrays of strings
never can. -/
theorem canShareInstance_smallWithInterface :
    smallWithInterface.CanShareInstance (.arrayOf (.ofClass ⟨2⟩)) (.arrayOf (.ofClass ⟨3⟩)) ∧
      ¬ smallWithInterface.CanShareInstance (.arrayOf (.ofClass ⟨1⟩))
        (.arrayOf (.ofClass ⟨3⟩)) := by
  have string : smallWithInterface.Knows (.arrayOf (.ofClass ⟨1⟩)) := ⟨_, rfl⟩
  have node : smallWithInterface.Knows (.arrayOf (.ofClass ⟨2⟩)) := ⟨_, rfl⟩
  have walker : smallWithInterface.Knows (.arrayOf (.ofClass ⟨3⟩)) := ⟨_, rfl⟩
  constructor
  · exact (legal_smallWithInterface.mayShareSubtype_iff_canShareInstance node walker rfl rfl).1.mp
      (by decide +kernel)
  · intro share
    have judged := (legal_smallWithInterface.mayShareSubtype_iff_canShareInstance string walker rfl
      rfl).1.mpr share
    exact absurd judged (by decide +kernel)

end PauseFlow.ClassTable
