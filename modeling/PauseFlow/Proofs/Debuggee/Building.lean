import PauseFlow.Proofs.Debuggee.Walking

/-! Heaps that building operations make. Every operation is a sequence of elementary changes of the
loaded types and of the numbers handed out, so that what these keep holds of every heap. -/
namespace PauseFlow.Heap

/-- Heaps that building operations make of the empty one. Types are loaded below what is allowed. -/
inductive Built (allowed : Heap → Option TypeId → Prop) : Heap → Prop where
  | empty : Built allowed .empty
  | load {heap : Heap} {superclass : Option TypeId} (built : Built allowed heap)
      (fits : allowed heap superclass) (signature : String) (loader : Option ObjectId) :
      Built allowed (heap.load signature superclass loader false).1
  | loadEnum {heap : Heap} (built : Built allowed heap) (signature : String)
      (loader : Option ObjectId) : Built allowed (heap.loadEnum signature loader).1
  | addField {heap : Heap} (built : Built allowed heap) (id : TypeId) (name : String) :
      Built allowed (heap.addField id name).1
  | newObject {heap : Heap} (built : Built allowed heap) (typeId : TypeId) :
      Built allowed (heap.newObject typeId).1
  | newEnumConstant {heap after : Heap} {typeId : TypeId} {name : String} {ref : ObjectRef}
      (built : Built allowed heap)
      (created : heap.newEnumConstant typeId name = some (after, ref)) : Built allowed after
  | newString {heap : Heap} (built : Built allowed heap) (text : String) :
      Built allowed (heap.newString text).1
  | newArray {heap : Heap} (built : Built allowed heap) (signature : String) (length : Int32) :
      Built allowed (heap.newArray signature length).1
  | newClassLoader {heap after : Heap} {parent : Option ObjectRef} {ref : ObjectRef}
      (built : Built allowed heap) (created : heap.newClassLoader parent = some (after, ref)) :
      Built allowed after
  | setField {heap after : Heap} {id : ObjectId} {name : String} {value : LiveValue}
      (built : Built allowed heap) (written : heap.setField id name value = some after) :
      Built allowed after
  | collect {heap : Heap} (built : Built allowed heap) (id : ObjectId) :
      Built allowed (heap.collect id)
  | setFrame {heap : Heap} (built : Built allowed heap) (frame : FrameRef) (content : Frame) :
      Built allowed (heap.setFrame frame content)
  | setLocal {heap : Heap} (built : Built allowed heap) (frame : FrameRef) (name : String)
      (value : LiveValue) : Built allowed (heap.setLocal frame name value)
  | setAssertions {heap : Heap} (built : Built allowed heap) (signature : String)
      (status : Option Bool) : Built allowed (heap.setAssertions signature status)

def IsLoaded (heap : Heap) (id : TypeId) : Prop := ∃ type ∈ heap.types, type.info.id = id

private theorem IsLoaded.all_some {heap : Heap} {id : TypeId} (loaded : heap.IsLoaded id) :
    ∀ other ∈ some id, heap.IsLoaded other := by
  intro other same
  cases same
  exact loaded

/-- One change of the loaded types and of the numbers handed out. -/
inductive Change (allowed : Heap → Option TypeId → Prop) (heap : Heap) : Heap → Prop where
  | load {superclass : Option TypeId}
      (fits : allowed heap superclass ∨ ∀ id ∈ superclass, heap.IsLoaded id) (signature : String)
      (loader : Option ObjectId) (isEnum : Bool) :
      Change allowed heap (heap.load signature superclass loader isEnum).1
  | addField (id : TypeId) (name : String) : Change allowed heap (heap.addField id name).1
  | beside {after : Heap} (types : after.types = heap.types)
      (numbers : heap.lastId ≤ after.lastId) : Change allowed heap after

/-- Any number of changes, one after the other. -/
def Evolves (allowed : Heap → Option TypeId → Prop) : Heap → Heap → Prop :=
  Relation.ReflTransGen (Change allowed)

section Operations

variable {allowed : Heap → Option TypeId → Prop} {heap after : Heap}

theorem Evolves.keep {kept : Heap → Prop} (evolves : Evolves allowed heap after)
    (step : ∀ {before next}, Change allowed before next → kept before → kept next)
    (start : kept heap) : kept after := by
  induction evolves with
  | refl => exact start
  | tail _ change ih => exact step change ih

private theorem Change.evolves (change : Change allowed heap after) : Evolves allowed heap after :=
  .single change

private theorem evolves_allocate (heap : Heap) (typeId : TypeId) (text : Option String)
    (length : Option Int32) : Evolves allowed heap (heap.allocate typeId text length).1 := by
  have change : Change allowed heap (heap.allocate typeId text length).1 :=
    .beside rfl (Nat.le_succ _)
  exact change.evolves

private theorem evolves_store (heap : Heap) (id : ObjectId) (field : FieldId) (value : LiveValue) :
    Evolves allowed heap (heap.store id field value) := by
  have change : Change allowed heap (heap.store id field value) := .beside rfl le_rfl
  exact change.evolves

private theorem isLoaded_ensureType (heap : Heap) (signature : String)
    (superclass : Option TypeId) :
    (heap.ensureType signature superclass).1.IsLoaded (heap.ensureType signature superclass).2 := by
  unfold ensureType
  cases found : heap.typeOfSignature? signature with
  | some id =>
    obtain ⟨type, first, same⟩ := Option.map_eq_some_iff.mp found
    exact ⟨type, List.mem_of_find?_eq_some first, same⟩
  | none => exact ⟨_, List.mem_cons_self, rfl⟩

private theorem evolves_ensureType (heap : Heap) (signature : String) {superclass : Option TypeId}
    (known : ∀ id ∈ superclass, heap.IsLoaded id) :
    Evolves allowed heap (heap.ensureType signature superclass).1 := by
  unfold ensureType
  cases heap.typeOfSignature? signature with
  | some id => exact .refl
  | none => exact (Change.load (.inr known) _ _ _).evolves

private theorem evolves_ensureField (heap : Heap) (id : TypeId) (name : String) :
    Evolves allowed heap (heap.ensureField id name) := by
  unfold ensureField
  split
  · exact .refl
  · exact (Change.addField id name).evolves

private theorem IsLoaded.ensureField {id : TypeId} (loaded : heap.IsLoaded id) (owner : TypeId)
    (name : String) : (heap.ensureField owner name).IsLoaded id := by
  unfold Heap.ensureField
  split
  · exact loaded
  · obtain ⟨type, member, same⟩ := loaded
    refine ⟨_, List.mem_map_of_mem member, ?_⟩
    rw [← same]
    split <;> rfl

private theorem evolves_setField {id : ObjectId} {name : String} {value : LiveValue}
    (written : heap.setField id name value = some after) : Evolves allowed heap after := by
  unfold setField at written
  split at written
  · cases written
    exact .refl
  · split at written
    · cases written
      exact evolves_store _ _ _ _
    · cases written
      exact (Change.addField _ name).evolves.trans (evolves_store _ _ _ _)
    · cases written

private theorem evolves_loadEnum (heap : Heap) (signature : String) (loader : Option ObjectId) :
    Evolves allowed heap (heap.loadEnum signature loader).1 := by
  have loaded := (isLoaded_ensureType heap enumSignature none).ensureField
    (heap.ensureType enumSignature none).2 "name"
  exact ((evolves_ensureType heap enumSignature (by simp)).trans
    (evolves_ensureField _ _ "name")).trans
      (Change.load (.inr loaded.all_some) signature loader true).evolves

private theorem evolves_newString (heap : Heap) (text : String) :
    Evolves allowed heap (heap.newString text).1 :=
  (evolves_ensureType heap _ (by simp)).trans (evolves_allocate _ _ _ _)

private theorem evolves_newArray (heap : Heap) (signature : String) (length : Int32) :
    Evolves allowed heap (heap.newArray signature length).1 :=
  (evolves_ensureType heap _ (by simp)).trans (evolves_allocate _ _ _ _)

/-- What there is of an enum case before its name is written. -/
theorem evolves_enumCase (heap : Heap) (typeId : TypeId) (name : String) :
    Evolves allowed heap ((heap.newObject typeId).1.newString name).1 :=
  (evolves_allocate _ _ _ _).trans (evolves_newString _ _)

private theorem evolves_newEnumConstant {typeId : TypeId} {name : String} {ref : ObjectRef}
    (created : heap.newEnumConstant typeId name = some (after, ref)) :
    Evolves allowed heap after := by
  obtain ⟨named, written, same⟩ := Option.map_eq_some_iff.mp created
  cases same
  exact (evolves_enumCase heap typeId name).trans (evolves_setField written)

/-- The heap in which a class loader is created, with its type. -/
def withLoaderType (heap : Heap) : Heap × TypeId :=
  let (heap, base) := heap.ensureType classLoaderSignature none
  (heap.ensureField base "parent").ensureType appClassLoaderSignature (some base)

private theorem evolves_withLoaderType (heap : Heap) : Evolves allowed heap heap.withLoaderType.1 :=
    by
  have loaded := (isLoaded_ensureType heap classLoaderSignature none).ensureField
    (heap.ensureType classLoaderSignature none).2 "parent"
  exact ((evolves_ensureType heap classLoaderSignature (by simp)).trans
    (evolves_ensureField _ _ "parent")).trans
      (evolves_ensureType _ appClassLoaderSignature loaded.all_some)

/-- What there is of a class loader before its parent is written. -/
theorem evolves_classLoader (heap : Heap) :
    Evolves allowed heap (heap.withLoaderType.1.newObject heap.withLoaderType.2).1 :=
  (evolves_withLoaderType heap).trans (evolves_allocate _ _ _ _)

private theorem evolves_newClassLoader {parent : Option ObjectRef} {ref : ObjectRef}
    (created : heap.newClassLoader parent = some (after, ref)) : Evolves allowed heap after := by
  obtain ⟨below, written, same⟩ := Option.map_eq_some_iff.mp created
  cases same
  exact (evolves_classLoader heap).trans (evolves_setField written)

theorem Built.evolves (built : heap.Built allowed) : Evolves allowed .empty heap := by
  induction built with
  | empty => exact .refl
  | load _ fits signature loader ih =>
    exact ih.trans (Change.load (.inl fits) signature loader false).evolves
  | loadEnum _ signature loader ih => exact ih.trans (evolves_loadEnum _ signature loader)
  | addField _ id name ih => exact ih.trans (Change.addField id name).evolves
  | newObject _ typeId ih => exact ih.trans (evolves_allocate _ typeId none none)
  | newEnumConstant _ created ih => exact ih.trans (evolves_newEnumConstant created)
  | newString _ text ih => exact ih.trans (evolves_newString _ text)
  | newArray _ signature length ih => exact ih.trans (evolves_newArray _ signature length)
  | newClassLoader _ created ih => exact ih.trans (evolves_newClassLoader created)
  | setField _ written ih => exact ih.trans (evolves_setField written)
  | collect _ id ih => exact ih.tail (.beside rfl le_rfl)
  | setFrame _ frame content ih => exact ih.tail (.beside rfl le_rfl)
  | setLocal _ frame name value ih => exact ih.tail (.beside rfl le_rfl)
  | setAssertions _ signature status ih => exact ih.tail (.beside rfl le_rfl)

end Operations

/-- Types and fields have numbers that were handed out, and a number is the one of fields of one
name. -/
structure Numbered (heap : Heap) : Prop where
  types : ∀ type ∈ heap.types, type.info.id ≤ heap.lastId
  fields : ∀ type ∈ heap.types, ∀ field ∈ type.fields, field.1 ≤ heap.lastId
  names : ∀ type ∈ heap.types, ∀ other ∈ heap.types, ∀ field ∈ type.fields,
    ∀ same ∈ other.fields, field.1 = same.1 → field.2 = same.2

section Numbers

variable {allowed : Heap → Option TypeId → Prop} {heap after : Heap}

/-- A declaration adds a field with a new number to types that were loaded. -/
theorem exists_of_mem_addField {id : TypeId} {name : String} {type : LoadedType}
    (member : type ∈ (heap.addField id name).1.types) :
    ∃ old ∈ heap.types, type.info = old.info ∧
      ∀ field ∈ type.fields, field ∈ old.fields ∨ field = (heap.lastId + 1, name) := by
  obtain ⟨old, loaded, rfl⟩ := List.mem_map.mp member
  refine ⟨old, loaded, ?_⟩
  split
  · refine ⟨rfl, fun field declared => ?_⟩
    exact (List.mem_append.mp declared).imp_right List.mem_singleton.mp
  · exact ⟨rfl, fun field declared => .inl declared⟩

theorem numbered_empty : Heap.empty.Numbered where
  types _ member := nomatch member
  fields _ member := nomatch member
  names _ member := nomatch member

private theorem Numbered.load (numbered : heap.Numbered) (signature : String)
    (superclass : Option TypeId) (loader : Option ObjectId) (isEnum : Bool) :
    (heap.load signature superclass loader isEnum).1.Numbered where
  types type member := by
    rcases List.mem_cons.mp member with rfl | old
    · exact le_rfl
    · exact (numbered.types type old).trans (Nat.le_succ _)
  fields type member field declared := by
    rcases List.mem_cons.mp member with rfl | old
    · cases declared
    · exact (numbered.fields type old field declared).trans (Nat.le_succ _)
  names type member other otherMember field declared same declaredToo := by
    rcases List.mem_cons.mp member with rfl | old
    · cases declared
    · rcases List.mem_cons.mp otherMember with rfl | otherOld
      · cases declaredToo
      · exact numbered.names type old other otherOld field declared same declaredToo

private theorem Numbered.addField (numbered : heap.Numbered) (id : TypeId) (name : String) :
    (heap.addField id name).1.Numbered where
  types type member := by
    obtain ⟨old, loaded, same, _⟩ := exists_of_mem_addField member
    rw [same]
    exact (numbered.types old loaded).trans (Nat.le_succ _)
  fields type member field declared := by
    obtain ⟨old, loaded, _, fields⟩ := exists_of_mem_addField member
    rcases fields field declared with before | rfl
    · exact (numbered.fields old loaded field before).trans (Nat.le_succ _)
    · exact le_rfl
  names type member other otherMember field declared same declaredToo equal := by
    obtain ⟨old, loaded, _, fields⟩ := exists_of_mem_addField member
    obtain ⟨otherOld, otherLoaded, _, otherFields⟩ := exists_of_mem_addField otherMember
    rcases fields field declared with before | rfl
    · rcases otherFields same declaredToo with beforeToo | rfl
      · exact numbered.names old loaded otherOld otherLoaded field before same beforeToo equal
      · exact absurd (numbered.fields old loaded field before) (by simp [equal])
    · rcases otherFields same declaredToo with beforeToo | rfl
      · exact absurd (numbered.fields otherOld otherLoaded same beforeToo) (by simp [← equal])
      · rfl

private theorem Numbered.beside (numbered : heap.Numbered) (types : after.types = heap.types)
    (numbers : heap.lastId ≤ after.lastId) : after.Numbered where
  types type member := (numbered.types type (types ▸ member)).trans numbers
  fields type member field declared :=
    (numbered.fields type (types ▸ member) field declared).trans numbers
  names type member other otherMember :=
    numbered.names type (types ▸ member) other (types ▸ otherMember)

theorem Numbered.change (numbered : heap.Numbered) (change : Change allowed heap after) :
    after.Numbered := by
  cases change with
  | load _ signature loader isEnum => exact numbered.load signature _ loader isEnum
  | addField id name => exact numbered.addField id name
  | beside types numbers => exact numbered.beside types numbers

theorem Built.numbered (built : heap.Built allowed) : heap.Numbered :=
  built.evolves.keep (fun change numbered => numbered.change change) numbered_empty

end Numbers

end PauseFlow.Heap
