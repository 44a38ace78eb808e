import PauseFlow.Proofs.Hierarchy.Antisymmetry
import PauseFlow.Proofs.Hierarchy.Issuing

/-! The way to the root class. Classes that are loaded on top of the well-known ones name a
superclass each, so in a hierarchy without cycles they all lead to the root. Interfaces name none:
they lead there only over a class. -/
namespace PauseFlow.ClassTable

/-- The well-known classes, and classes with new names added one after the other. -/
inductive Loaded : ClassTable → Prop where
  | wellKnown : Loaded wellKnown
  | add {table : ClassTable} {declared : ClassInfo} (loaded : Loaded table)
      (fresh : table.lookup declared.name = none) : Loaded (table.add declared).1

/-- Superclasses are classes, interface lists hold interfaces, and there are no cycles. -/
structure Linked (table : ClassTable) : Prop where
  superclass : ∀ {id upper : ClassId} {info : ClassInfo}, table.get? id = some info →
    info.superclass = some upper → ∃ upperInfo, table.get? upper = some upperInfo ∧
      upperInfo.isInterface = false
  interfaces : ∀ {id upper : ClassId} {info : ClassInfo}, table.get? id = some info →
    upper ∈ info.interfaces → ∃ upperInfo, table.get? upper = some upperInfo ∧
      upperInfo.isInterface = true
  acyclic : table.Acyclic

/-- Whether each definition mentions earlier classes only, as superclass a class and in its list
interfaces. -/
def isOrderly (table : ClassTable) : Bool :=
  table.classes.zipIdx.all fun (info, index) =>
    (info.superclass.all fun upper =>
      upper.index < index && (table.get? upper).any fun found => !found.isInterface) &&
    info.interfaces.all fun upper =>
      upper.index < index && (table.get? upper).any fun found => found.isInterface

theorem linked_of_isOrderly {table : ClassTable} (orderly : table.isOrderly = true) :
    table.Linked := by
  have earlier : ∀ {id : ClassId} {info : ClassInfo}, table.get? id = some info →
      (∀ upper, info.superclass = some upper → upper.index < id.index ∧
        ∃ upperInfo, table.get? upper = some upperInfo ∧ upperInfo.isInterface = false) ∧
      (∀ upper ∈ info.interfaces, upper.index < id.index ∧
        ∃ upperInfo, table.get? upper = some upperInfo ∧ upperInfo.isInterface = true) := by
    intro id info found
    have checked := List.all_eq_true.mp orderly (info, id.index)
      (List.mem_zipIdx_iff_getElem?.mpr found)
    simpa [Option.all_eq_true, Option.any_eq_true] using checked
  have down : ∀ {lower upper : ClassId}, table.Extends lower upper → upper.index < lower.index := by
    intro lower upper link
    obtain ⟨info, found, above | listed⟩ := extends_cases link
    · exact ((earlier found).1 upper above).1
    · exact ((earlier found).2 upper listed).1
  constructor
  · exact fun found above => ((earlier found).1 _ above).2
  · exact fun found listed => ((earlier found).2 _ listed).2
  · exact acyclic_of_descends down

/-- What loading keeps: the root is a class, and each other class names a superclass. -/
structure Anchored (table : ClassTable) (root : ClassId) : Prop where
  named : table.lookup objectName = some root
  enumBase : ∃ id, table.lookup enumName = some id
  plain : ∃ info, table.get? root = some info ∧ info.isInterface = false
  extending : ∀ {id : ClassId} {info : ClassInfo}, table.get? id = some info →
    info.isInterface = false → id = root ∨ ∃ upper, info.superclass = some upper

/-- Types whose values are instances of some class: arrays, and whatever has a class at or above
it. Interfaces that extend interfaces only are left. -/
def ReachesClass (table : ClassTable) : JvmType → Prop
  | .primitive _ => False
  | .ofClass id => ∃ upper info, table.Below id upper ∧ table.get? upper = some info ∧
      info.isInterface = false
  | .arrayOf _ => True

theorem IsRuntimeType.reachesClass {table : ClassTable} {type : JvmType}
    (runtime : table.IsRuntimeType type) : table.ReachesClass type := by
  cases type with
  | primitive kind => exact runtime
  | ofClass id =>
    obtain ⟨info, found, plain⟩ := runtime
    exact ⟨id, info, Below.refl table id, found, plain⟩
  | arrayOf element => trivial

namespace Anchored

variable {table : ClassTable} {root : ClassId}

private theorem isObject (anchored : table.Anchored root) : table.isObject root = true :=
  decide_eq_true (nameOf_of_lookup anchored.named)

/-- A class that names no superclass gets one, unless it is the root. -/
theorem exists_superclass (anchored : table.Anchored root) {declared : ClassInfo}
    (plain : declared.isInterface = false) (other : declared.name ≠ objectName) :
    ∃ upper, (table.withImplicitSuperclass declared).superclass = some upper := by
  obtain ⟨enumBase, enumKnown⟩ := anchored.enumBase
  unfold withImplicitSuperclass
  cases own : declared.superclass with
  | some upper => exact ⟨upper, by simp [own]⟩
  | none =>
    cases enumeration : declared.isEnum with
    | true => exact ⟨enumBase, by simp [plain, other, enumKnown]⟩
    | false => exact ⟨root, by simp [plain, other, anchored.named]⟩

private theorem add (anchored : table.Anchored root) {declared : ClassInfo}
    (fresh : table.lookup declared.name = none) : (table.add declared).1.Anchored root := by
  have other : declared.name ≠ objectName := by
    intro same
    rw [same, anchored.named] at fresh
    cases fresh
  constructor
  · exact lookup_add_of_some anchored.named declared
  · obtain ⟨id, known⟩ := anchored.enumBase
    exact ⟨id, lookup_add_of_some known declared⟩
  · obtain ⟨info, found, plain⟩ := anchored.plain
    rw [add_of_fresh fresh]
    exact ⟨info, (extendedBy_grow table _).get? found, plain⟩
  · intro id info found plain
    rw [add_of_fresh fresh] at found
    rcases get?_grow_cases found with old | ⟨_, rfl⟩
    · exact anchored.extending old plain
    · rw [withImplicitSuperclass_isInterface] at plain
      exact .inr (anchored.exists_superclass plain other)

/-- Every class leads to the root: it is the root, or its superclass does. -/
theorem below_root (anchored : table.Anchored root) (linked : table.Linked) {id : ClassId}
    {info : ClassInfo} (found : table.get? id = some info) (plain : info.isInterface = false) :
    table.Below id root := by
  have acyclic : table.Acyclic := linked.acyclic
  induction id using acyclic.wellFounded.induction generalizing info with
  | _ id ih =>
    rcases anchored.extending found plain with rfl | ⟨upper, above⟩
    · exact Below.refl table id
    · have link := extends_of_superclass found above
      obtain ⟨upperInfo, present, upperPlain⟩ := linked.superclass found above
      exact .head link (ih upper link present upperPlain)

theorem isAssignable_root_iff (anchored : table.Anchored root) (linked : table.Linked)
    (type : JvmType) :
    table.isAssignable type (.ofClass root) = true ↔ table.ReachesClass type := by
  cases type with
  | primitive kind => exact ⟨nofun, False.elim⟩
  | ofClass id =>
    refine (table.isSubclass_iff_below id root).trans ⟨fun path => ?_, ?_⟩
    · obtain ⟨info, found, plain⟩ := anchored.plain
      exact ⟨root, info, path, found, plain⟩
    · rintro ⟨upper, info, path, found, plain⟩
      exact path.trans (anchored.below_root linked found plain)
  | arrayOf element => exact ⟨fun _ => trivial, fun _ => anchored.isObject⟩

/-- Elements of an array go to the root class as they would by themselves. -/
theorem isAssignable_arrayOf_root_iff (anchored : table.Anchored root) (linked : table.Linked)
    (type : JvmType) :
    table.isAssignable (.arrayOf type) (.arrayOf (.ofClass root)) = true ↔
      table.ReachesClass type := by
  rw [isAssignable_arrayOf_iff, ← anchored.isAssignable_root_iff linked type]
  constructor
  · rintro (rfl | ⟨_, _, below⟩)
    · exact table.isAssignable_refl _
    · exact below
  · intro below
    cases type with
    | primitive kind => cases below
    | ofClass id => exact .inr ⟨rfl, rfl, below⟩
    | arrayOf element => exact .inr ⟨rfl, rfl, below⟩

end Anchored

private theorem anchored_wellKnown : wellKnown.Anchored ⟨0⟩ := by
  have complete : ∀ info ∈ wellKnown.classes.tail,
      info.isInterface = false → info.superclass.isSome = true := by
    decide +kernel
  refine ⟨by decide +kernel, ⟨⟨2⟩, by decide +kernel⟩, ⟨_, rfl, by decide +kernel⟩, ?_⟩
  rintro ⟨index⟩ info found plain
  cases index with
  | zero => exact .inl rfl
  | succ index =>
    have later : wellKnown.classes.tail[index]? = some info := by
      rw [List.getElem?_tail]
      exact found
    exact .inr (Option.isSome_iff_exists.mp
      (complete info (List.mem_of_getElem? later) plain))

theorem Loaded.anchored {table : ClassTable} (loaded : table.Loaded) : table.Anchored ⟨0⟩ := by
  induction loaded with
  | wellKnown => exact anchored_wellKnown
  | add _ fresh ih => exact ih.add fresh

end PauseFlow.ClassTable
