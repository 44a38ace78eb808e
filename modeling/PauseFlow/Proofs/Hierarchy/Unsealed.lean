import PauseFlow.Proofs.Hierarchy.Legal

/-! Subtyping never reads whether an interface is final. A table that is legal apart from final
interfaces judges types as its unsealed form does, which is legal. -/
namespace PauseFlow

/-- The same definition, without finality of an interface. -/
def ClassInfo.unsealed (info : ClassInfo) : ClassInfo :=
  if info.isInterface then { info with isFinal := false } else info

namespace ClassInfo

variable (info : ClassInfo)

private theorem unsealed_name : info.unsealed.name = info.name := by
  unfold unsealed
  split <;> rfl

private theorem unsealed_superclass : info.unsealed.superclass = info.superclass := by
  unfold unsealed
  split <;> rfl

private theorem unsealed_interfaces : info.unsealed.interfaces = info.interfaces := by
  unfold unsealed
  split <;> rfl

private theorem unsealed_supertypes : info.unsealed.supertypes = info.supertypes := by
  rw [supertypes, supertypes, unsealed_superclass, unsealed_interfaces]

private theorem unsealed_isInterface : info.unsealed.isInterface = info.isInterface := by
  unfold unsealed
  split <;> rfl

private theorem unsealed_isFinal : info.unsealed.isFinal = (info.isFinal && !info.isInterface) := by
  unfold unsealed
  cases kind : info.isInterface <;> simp

end ClassInfo

namespace ClassTable

/-- The rules for declarations in one program. A final interface, though useless, breaks none. -/
structure Hierarchical (table : ClassTable) : Prop where
  namedOnce : ∀ {left right : ClassId} {leftInfo rightInfo : ClassInfo},
    table.get? left = some leftInfo → table.get? right = some rightInfo →
    leftInfo.name = rightInfo.name → left = right
  superclass : ∀ {id upper : ClassId} {info : ClassInfo}, table.get? id = some info →
    info.superclass = some upper → ∃ upperInfo, table.get? upper = some upperInfo ∧
      upperInfo.isInterface = false ∧ upperInfo.isFinal = false
  interfaces : ∀ {id upper : ClassId} {info : ClassInfo}, table.get? id = some info →
    upper ∈ info.interfaces → ∃ upperInfo, table.get? upper = some upperInfo ∧
      upperInfo.isInterface = true
  ofInterface : ∀ {id : ClassId} {info : ClassInfo}, table.get? id = some info →
    info.isInterface = true → info.superclass = none
  ofObject : ∀ {id : ClassId} {info : ClassInfo}, table.get? id = some info →
    info.name = objectName → info.supertypes = []
  acyclic : ∀ {lower upper : ClassId}, table.Extends lower upper → ¬ table.Below upper lower

theorem Legal.hierarchical {table : ClassTable} (legal : table.Legal) : table.Hierarchical where
  namedOnce := legal.namedOnce
  superclass := legal.superclass
  interfaces := legal.interfaces
  ofInterface found interface := (legal.ofInterface found interface).1
  ofObject := legal.ofObject
  acyclic := legal.acyclic

/-- The table without finality of its interfaces. -/
def unsealed (table : ClassTable) : ClassTable := ⟨table.classes.map ClassInfo.unsealed⟩

private theorem get?_unsealed (table : ClassTable) (id : ClassId) :
    table.unsealed.get? id = (table.get? id).map ClassInfo.unsealed :=
  List.getElem?_map

private theorem get?_unsealed_eq_some_iff {table : ClassTable} {id : ClassId} {info : ClassInfo} :
    table.unsealed.get? id = some info ↔ ∃ own, table.get? id = some own ∧ own.unsealed = info := by
  rw [get?_unsealed, Option.map_eq_some_iff]

private theorem supertypes_unsealed (table : ClassTable) (id : ClassId) :
    table.unsealed.supertypes id = table.supertypes id := by
  unfold supertypes
  rw [get?_unsealed]
  cases table.get? id with
  | none => rfl
  | some info => exact info.unsealed_supertypes

private theorem extends_unsealed (table : ClassTable) : table.unsealed.Extends = table.Extends := by
  funext lower upper
  rw [Extends, Extends, supertypes_unsealed]

private theorem below_unsealed (table : ClassTable) : table.unsealed.Below = table.Below := by
  funext lower upper
  rw [Below, Below, extends_unsealed]

private theorem isSubclass_unsealed (table : ClassTable) (lower upper : ClassId) :
    table.unsealed.isSubclass lower upper = table.isSubclass lower upper := by
  rw [Bool.eq_iff_iff, isSubclass_iff_below, isSubclass_iff_below, below_unsealed]

private theorem isObject_unsealed (table : ClassTable) (id : ClassId) :
    table.unsealed.isObject id = table.isObject id := by
  unfold isObject nameOf
  rw [get?_unsealed]
  cases table.get? id with
  | none => rfl
  | some info => exact congrArg (fun name => decide (name = objectName)) info.unsealed_name

theorem isAssignable_unsealed (table : ClassTable) (lower upper : JvmType) :
    table.unsealed.isAssignable lower upper = table.isAssignable lower upper := by
  induction lower generalizing upper with
  | primitive kind => cases upper <;> rfl
  | ofClass id =>
    cases upper with
    | primitive kind => rfl
    | ofClass upper => exact table.isSubclass_unsealed id upper
    | arrayOf element => rfl
  | arrayOf element ih =>
    cases upper with
    | primitive kind => rfl
    | ofClass upper => exact table.isObject_unsealed upper
    | arrayOf upper => rw [isAssignable, isAssignable, ih]

private theorem mayShareSubclass_unsealed (left right : ClassInfo) :
    mayShareSubclass left.unsealed right.unsealed = mayShareSubclass left right := by
  unfold mayShareSubclass
  rw [left.unsealed_isInterface, right.unsealed_isInterface, left.unsealed_isFinal,
    right.unsealed_isFinal]
  cases left.isInterface <;> cases right.isInterface <;> simp

theorem mayShareSubtype_unsealed (table : ClassTable) (left right : JvmType) :
    table.unsealed.mayShareSubtype left right = table.mayShareSubtype left right := by
  induction left generalizing right with
  | primitive kind => cases right <;> simp only [mayShareSubtype, isAssignable_unsealed]
  | ofClass leftId =>
    cases right with
    | primitive kind => simp only [mayShareSubtype, isAssignable_unsealed]
    | arrayOf element => simp only [mayShareSubtype, isAssignable_unsealed]
    | ofClass rightId =>
      simp only [mayShareSubtype, isAssignable_unsealed, get?_unsealed]
      cases table.get? leftId <;> cases table.get? rightId <;>
        simp [mayShareSubclass_unsealed]
  | arrayOf element ih =>
    cases right <;> simp only [mayShareSubtype, isAssignable_unsealed, ih]

theorem isRuntimeType_unsealed_iff (table : ClassTable) (type : JvmType) :
    table.unsealed.IsRuntimeType type ↔ table.IsRuntimeType type := by
  cases type with
  | primitive kind => exact .rfl
  | arrayOf element => exact .rfl
  | ofClass id =>
    constructor
    · rintro ⟨_, found, plain⟩
      obtain ⟨own, present, rfl⟩ := get?_unsealed_eq_some_iff.mp found
      exact ⟨own, present, own.unsealed_isInterface.symm.trans plain⟩
    · rintro ⟨own, present, plain⟩
      exact ⟨own.unsealed, get?_unsealed_eq_some_iff.mpr ⟨own, present, rfl⟩,
        own.unsealed_isInterface.trans plain⟩

theorem Hierarchical.legal_unsealed {table : ClassTable} (hierarchical : table.Hierarchical) :
    table.unsealed.Legal where
  namedOnce leftFound rightFound same := by
    obtain ⟨left, leftPresent, rfl⟩ := get?_unsealed_eq_some_iff.mp leftFound
    obtain ⟨right, rightPresent, rfl⟩ := get?_unsealed_eq_some_iff.mp rightFound
    rw [left.unsealed_name, right.unsealed_name] at same
    exact hierarchical.namedOnce leftPresent rightPresent same
  superclass found above := by
    obtain ⟨own, present, rfl⟩ := get?_unsealed_eq_some_iff.mp found
    obtain ⟨upper, upperPresent, plain, extendable⟩ :=
      hierarchical.superclass present (own.unsealed_superclass.symm.trans above)
    refine ⟨upper.unsealed, get?_unsealed_eq_some_iff.mpr ⟨upper, upperPresent, rfl⟩,
      upper.unsealed_isInterface.trans plain, ?_⟩
    rw [upper.unsealed_isFinal, extendable, Bool.false_and]
  interfaces found listed := by
    obtain ⟨own, present, rfl⟩ := get?_unsealed_eq_some_iff.mp found
    obtain ⟨upper, upperPresent, interface⟩ :=
      hierarchical.interfaces present (own.unsealed_interfaces ▸ listed)
    exact ⟨upper.unsealed, get?_unsealed_eq_some_iff.mpr ⟨upper, upperPresent, rfl⟩,
      upper.unsealed_isInterface.trans interface⟩
  ofInterface found interface := by
    obtain ⟨own, present, rfl⟩ := get?_unsealed_eq_some_iff.mp found
    rw [own.unsealed_isInterface] at interface
    refine ⟨own.unsealed_superclass.trans (hierarchical.ofInterface present interface), ?_⟩
    rw [own.unsealed_isFinal, interface, Bool.not_true, Bool.and_false]
  ofObject found named := by
    obtain ⟨own, present, rfl⟩ := get?_unsealed_eq_some_iff.mp found
    rw [own.unsealed_supertypes]
    exact hierarchical.ofObject present (own.unsealed_name.symm.trans named)
  acyclic link path := by
    rw [extends_unsealed] at link
    rw [below_unsealed] at path
    exact hierarchical.acyclic link path

end ClassTable

end PauseFlow
