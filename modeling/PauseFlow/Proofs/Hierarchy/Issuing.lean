import PauseFlow.Proofs.Data.PositionIndex
import PauseFlow.Proofs.Hierarchy.Growth
import PauseFlow.Proofs.Hierarchy.Naming

namespace PauseFlow

namespace ClassTable

variable {table : ClassTable} {declared : ClassInfo} {name : String} {id : ClassId}

private theorem withImplicitSuperclass_name (table : ClassTable) (declared : ClassInfo) :
    (table.withImplicitSuperclass declared).name = declared.name := by
  unfold withImplicitSuperclass
  split <;> rfl

theorem withImplicitSuperclass_isInterface (table : ClassTable) (declared : ClassInfo) :
    (table.withImplicitSuperclass declared).isInterface = declared.isInterface := by
  unfold withImplicitSuperclass
  split <;> rfl

theorem add_of_fresh (fresh : table.lookup declared.name = none) :
    table.add declared = (table.grow (table.withImplicitSuperclass declared), ⟨table.size⟩) := by
  simp only [add, withImplicitSuperclass_name, fresh]
  rfl

theorem add_of_known (known : table.lookup declared.name = some id) :
    table.add declared =
      (⟨table.classes.set id.index (table.withImplicitSuperclass declared)⟩, id) := by
  simp only [add, withImplicitSuperclass_name, known]

/-- A new class at the end is found under its name, unless an earlier one bears it. -/
theorem lookup_grow (table : ClassTable) (info : ClassInfo) (name : String) :
    (table.grow info).lookup name =
      (table.lookup name).or (if info.name = name then some ⟨table.size⟩ else none) := by
  rw [lookup, grow, findIdx?_key_append, lookup, Option.map_or]
  split <;> rfl

/-- A definition that replaces another one of its name changes no name. -/
theorem lookup_set {info : ClassInfo} (known : table.lookup info.name = some id)
    (name : String) :
    lookup ⟨table.classes.set id.index info⟩ name = table.lookup name := by
  obtain ⟨index, position, rfl⟩ := Option.map_eq_some_iff.mp known
  rw [lookup, findIdx?_key_set position, lookup]

/-- After an addition its name stands for the identity handed out, and each other name for what it
stood for before. -/
theorem lookup_add (table : ClassTable) (declared : ClassInfo) (name : String) :
    (table.add declared).1.lookup name =
      if declared.name = name then some (table.add declared).2 else table.lookup name := by
  cases known : table.lookup declared.name with
  | some id =>
    have again : table.lookup (table.withImplicitSuperclass declared).name = some id := by
      rwa [withImplicitSuperclass_name]
    rw [add_of_known known, lookup_set again]
    split
    · rename_i same
      rw [← same, known]
    · rfl
  | none =>
    rw [add_of_fresh known, lookup_grow, withImplicitSuperclass_name]
    split
    · rename_i same
      rw [← same, known, Option.none_or]
    · rw [Option.or_none]

/-- What a name stands for stays. -/
theorem lookup_add_of_some (known : table.lookup name = some id) (declared : ClassInfo) :
    (table.add declared).1.lookup name = some id := by
  rw [lookup_add]
  split
  · rename_i same
    rw [← same] at known
    rw [add_of_known known]
  · exact known

/-- The identities handed out when classes are added one after the other, with the names they are
handed out for. -/
def issued (table : ClassTable) : (declared : List ClassInfo) → List (String × ClassId)
  | [] => []
  | first :: rest => (first.name, (table.add first).2) :: (table.add first).1.issued rest

/-- A name stands for what it stood for at the start, and for what was handed out for it. -/
theorem lookup_addAll_iff (table : ClassTable) (declared : List ClassInfo) (name : String)
    (id : ClassId) : (table.addAll declared).lookup name = some id ↔
      table.lookup name = some id ∨ (name, id) ∈ table.issued declared := by
  induction declared generalizing table with
  | nil => simp [addAll, issued]
  | cons first rest ih =>
    have later := ih (table.add first).1
    rw [lookup_add] at later
    change ((table.add first).1.addAll rest).lookup name = some id ↔ _
    rw [later, issued, List.mem_cons, Prod.mk.injEq]
    constructor
    · rintro (now | after)
      · split at now
        · rename_i same
          exact .inr (.inl ⟨same.symm, (Option.some.inj now).symm⟩)
        · exact .inl now
      · exact .inr (.inr after)
    · rintro (before | ⟨rfl, rfl⟩ | after)
      · have kept := lookup_add_of_some before first
        rw [lookup_add] at kept
        exact .inl kept
      · exact .inl (if_pos rfl)
      · exact .inr after

/-- Whatever was added and replaced, each name stands for the identity that was handed out at every
addition under it, and a signature that denotes a type spells the name of that type. -/
theorem addAll_spells (declared : List ClassInfo) :
    (∀ name id, (empty.addAll declared).lookup name = some id ↔
      (name, id) ∈ empty.issued declared) ∧
    (∀ name id, (name, id) ∈ empty.issued declared → (empty.addAll declared).nameOf id = name) ∧
    (∀ signature type, Signature.type? (empty.addAll declared) signature = some type →
      (empty.addAll declared).typeName type = Signature.typeName signature) := by
  have stands : ∀ name id, (empty.addAll declared).lookup name = some id ↔
      (name, id) ∈ empty.issued declared := by
    intro name id
    have nothing : empty.lookup name = none := rfl
    rw [lookup_addAll_iff, nothing]
    simp
  refine ⟨stands, fun name id handed => ?_, fun signature type denotes => ?_⟩
  · exact nameOf_of_lookup ((stands name id).mpr handed)
  · exact Signature.typeName_of_type? denotes

/-- A node class that is replaced by a final one after another class has extended it. -/
def nodeReplaced : List ClassInfo :=
  [.plain objectName, .plain "zoo.Node", { ClassInfo.plain "zoo.Cat" with superclass := some ⟨1⟩ },
    { ClassInfo.plain "zoo.Node" with isFinal := true }]

theorem addAll_spells_nodeReplaced :
    let table := empty.addAll nodeReplaced
    let nodes := JvmType.arrayOf (.arrayOf (.ofClass ⟨1⟩))
    Signature.type? table "[[Lzoo/Node;" = some nodes ∧
      table.typeName nodes = Signature.typeName "[[Lzoo/Node;" ∧
      ("zoo.Node", ⟨1⟩) ∈ empty.issued nodeReplaced ∧ table.lookup "zoo.Node" = some ⟨1⟩ := by
  intro table nodes
  obtain ⟨stands, _, spells⟩ := addAll_spells nodeReplaced
  have denotes : Signature.type? table "[[Lzoo/Node;" = some nodes := by decide +kernel
  have known : table.lookup "zoo.Node" = some ⟨1⟩ := by decide +kernel
  exact ⟨denotes, spells _ _ denotes, (stands _ _).mp known, known⟩

/-- The well-known classes are such additions too. -/
example : empty.addAll wellKnown.classes = wellKnown := by decide +kernel

end ClassTable

/-- A class table with a map from names to identities. -/
structure IndexedClasses where
  table : ClassTable
  byName : PositionIndex ClassInfo.name table.classes

namespace IndexedClasses

def empty : IndexedClasses := ⟨.empty, .empty _⟩

/-- The class known under a name, by the map alone. -/
def lookup (indexed : IndexedClasses) (name : String) : Option ClassId :=
  (indexed.byName.find? name).map .mk

/-- The implicit superclass of a definition is looked up in the map. -/
def withImplicitSuperclass (indexed : IndexedClasses) (info : ClassInfo) : ClassInfo :=
  if info.superclass.isNone && !info.isInterface && info.name ≠ ClassTable.objectName then
    let implicit := if info.isEnum then ClassTable.enumName else ClassTable.objectName
    { info with superclass := indexed.lookup implicit }
  else info

/-- Add a class, or replace the definition that the map knows under its name. A new name is entered,
and a replaced definition leaves the map alone. -/
def add (indexed : IndexedClasses) (declared : ClassInfo) : IndexedClasses × ClassId :=
  let info := indexed.withImplicitSuperclass declared
  match known : indexed.byName.find? info.name with
  | some position =>
    (⟨⟨indexed.table.classes.set position info⟩, indexed.byName.replace info known⟩, ⟨position⟩)
  | none =>
    (⟨⟨indexed.table.classes ++ [info]⟩, indexed.byName.push info known⟩, ⟨indexed.table.size⟩)

def addAll (indexed : IndexedClasses) (declared : List ClassInfo) : IndexedClasses :=
  declared.foldl (fun grown info => (grown.add info).1) indexed

theorem lookup_eq (indexed : IndexedClasses) (name : String) :
    indexed.lookup name = indexed.table.lookup name := by
  rw [lookup, PositionIndex.find?_eq, ClassTable.lookup]

/-- An addition by the map is the one by search: it hands out the same identity, and leaves the same
classes. -/
theorem add_eq (indexed : IndexedClasses) (declared : ClassInfo) :
    ((indexed.add declared).1.table, (indexed.add declared).2) = indexed.table.add declared := by
  have filled : indexed.withImplicitSuperclass declared =
      indexed.table.withImplicitSuperclass declared := by
    simp only [withImplicitSuperclass, lookup_eq, ClassTable.withImplicitSuperclass]
  have looked := indexed.lookup_eq (indexed.withImplicitSuperclass declared).name
  unfold add ClassTable.add
  rw [← filled]
  dsimp only
  split
  · rename_i position known
    rw [lookup, known, Option.map_some] at looked
    rw [← looked]
  · rename_i fresh
    rw [lookup, fresh, Option.map_none] at looked
    rw [← looked]

/-- Whatever is added and replaced, the map answers as the search does. -/
theorem addAll_eq (indexed : IndexedClasses) (declared : List ClassInfo) :
    (indexed.addAll declared).table = indexed.table.addAll declared ∧
      ∀ name, (indexed.addAll declared).lookup name =
        (indexed.table.addAll declared).lookup name := by
  have same : (indexed.addAll declared).table = indexed.table.addAll declared := by
    induction declared generalizing indexed with
    | nil => rfl
    | cons first rest ih =>
      have grown : (indexed.add first).1.table = (indexed.table.add first).1 :=
        congrArg Prod.fst (indexed.add_eq first)
      have next := ih (indexed.add first).1
      rw [grown] at next
      exact next
  exact ⟨same, fun name => by rw [lookup_eq, same]⟩

end IndexedClasses

end PauseFlow
