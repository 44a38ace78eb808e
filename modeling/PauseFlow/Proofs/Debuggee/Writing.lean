import PauseFlow.Proofs.Debuggee.Descent
import PauseFlow.Proofs.Debuggee.Visiting

namespace PauseFlow

private theorem Instance.value_write (object : Instance) (field other : FieldId)
    (value : LiveValue) :
    (object.write field value).value other =
      if other = field then value else object.value other := by
  simp only [write, Instance.value, List.lookup_cons]
  by_cases same : other = field
  · simp [same]
  · rw [if_neg same, beq_eq_false_iff_ne.mpr same]

namespace LoadedType

variable {type : LoadedType}

private theorem mem_of_field? {name : String} {field : FieldId}
    (declared : type.field? name = some field) : (field, name) ∈ type.fields := by
  obtain ⟨entry, found, rfl⟩ := Option.map_eq_some_iff.mp declared
  have named : entry.2 = name := by simpa using List.find?_some found
  exact named ▸ List.mem_of_find?_eq_some found

/-- The type after a field was declared. -/
def declare (type : LoadedType) (field : FieldId) (name : String) : LoadedType :=
  { type with fields := type.fields ++ [(field, name)] }

/-- A declaration comes after the ones that there are. -/
theorem field?_declare (type : LoadedType) (field : FieldId) (name other : String) :
    (type.declare field name).field? other =
      (type.field? other).or (if name = other then some field else none) := by
  simp only [declare, field?, List.find?_append]
  cases type.fields.find? fun entry => entry.2 = other with
  | some entry => rfl
  | none => by_cases same : name = other <;> simp [same]

end LoadedType

namespace Heap

variable {heap : Heap} {id : TypeId} {name : String}

private theorem instance?_store (heap : Heap) (id other : ObjectId) (field : FieldId)
    (value : LiveValue) :
    (heap.store id field value).instance? other = (heap.instance? other).map fun object =>
      if other = id then object.write field value else object := by
  have numbers : ∀ object : Instance,
      (if object.id = id then object.write field value else object).id = object.id := by
    intro object
    split <;> rfl
  simp only [store, instance?, List.find?_map, Function.comp_def, numbers]
  refine Option.map_congr fun object found => ?_
  have same : object.id = other := by simpa using List.find?_some found
  rw [same]

private theorem type?_addField (heap : Heap) (owner id : TypeId) (name : String) :
    (heap.addField owner name).1.type? id = (heap.type? id).map fun type =>
      if id = owner then type.declare (heap.lastId + 1) name else type := by
  have numbers : ∀ type : LoadedType, LoadedType.info (if type.info.id = owner then
      type.declare (heap.lastId + 1) name else type) = type.info := by
    intro type
    split <;> rfl
  change (heap.types.map fun type => if type.info.id = owner then
    type.declare (heap.lastId + 1) name else type).find? _ = _
  simp only [type?, List.find?_map, Function.comp_def, numbers]
  refine Option.map_congr fun type found => ?_
  rw [id_of_type? found]

private theorem type?_addField_self {owner : TypeId} {type : LoadedType}
    (known : heap.type? owner = some type) : (heap.addField owner name).1.type? owner =
      some (type.declare (heap.lastId + 1) name) := by
  rw [type?_addField, known, Option.map_some, if_pos rfl]

private theorem type?_addField_of_ne {owner : TypeId} (different : id ≠ owner) :
    (heap.addField owner name).1.type? id = heap.type? id := by
  rw [type?_addField]
  cases heap.type? id <;> simp [different]

/-- What is nearest is still nearest after a declaration that nothing on the way to it hides. -/
theorem Nearest.addField {owner : TypeId} {other : String} {distance : Nat} {field : FieldId}
    (nearest : heap.Nearest (·.field? other) distance id field)
    (unhidden : name = other → ∀ distance field,
      ¬ heap.Nearest (·.field? name) distance owner field) :
    (heap.addField owner name).1.Nearest (·.field? other) distance id field := by
  induction nearest with
  | @here id type field known passes =>
    by_cases own : id = owner
    · subst own
      exact .here (type?_addField_self known) (by rw [LoadedType.field?_declare, passes]; rfl)
    · exact .here ((type?_addField_of_ne own).trans known) passes
  | @above distance id parent type field known fails next rest ih =>
    by_cases own : id = owner
    · subst own
      have different : name ≠ other := by
        rintro rfl
        exact unhidden rfl _ _ (.above known fails next rest)
      refine .above (type?_addField_self known) ?_ next ih
      rw [LoadedType.field?_declare, fails, if_neg different]
      rfl
    · exact .above ((type?_addField_of_ne own).trans known) fails next ih

private theorem Nearest.exists_declared {distance : Nat} {field : FieldId}
    (nearest : heap.Nearest (·.field? name) distance id field) :
    ∃ type ∈ heap.types, (field, name) ∈ type.fields := by
  induction nearest with
  | here known passes =>
    exact ⟨_, List.mem_of_find?_eq_some known, LoadedType.mem_of_field? passes⟩
  | above _ _ _ _ ih => exact ih

/-- What is nearest stays nearest where no type changes. -/
theorem Nearest.of_types {later : Heap} {Found : Type} {test : LoadedType → Option Found}
    {distance : Nat} {found : Found} (nearest : heap.Nearest test distance id found)
    (same : later.types = heap.types) : later.Nearest test distance id found := by
  have types : ∀ id, later.type? id = heap.type? id := fun id => by rw [type?, same, type?]
  induction nearest with
  | here known passes => exact .here ((types _).trans known) passes
  | above known fails next _ ih => exact .above ((types _).trans known) fails next ih

/-- What a write of a field leaves: the field of an object has the value, the field of the name that
is nearest above its type is this one, and nothing else that was nearest is hidden or written. -/
structure Writes (heap : Heap) (id : ObjectId) (object : Instance) (name : String)
    (value : LiveValue) (field : FieldId) (later : Heap) : Prop where
  instances : ∀ other, later.instance? other = (heap.instance? other).map fun object =>
    if other = id then object.write field value else object
  nearest : ∃ distance, later.Nearest (·.field? name) distance object.typeId field
  unhidden : ∀ {other distance type found}, heap.Nearest (·.field? other) distance type found →
    later.Nearest (·.field? other) distance type found
  apart : ∀ {other distance type}, heap.Nearest (·.field? other) distance type field → other = name

section Writing

variable {id : ObjectId} {object : Instance} {type : LoadedType}

/-- The field is declared already. -/
theorem Numbered.writes_store (numbered : heap.Numbered) {distance : Nat} {field : FieldId}
    (nearest : heap.Nearest (·.field? name) distance object.typeId field) (value : LiveValue) :
    heap.Writes id object name value field (heap.store id field value) where
  instances other := instance?_store heap id other field value
  nearest := ⟨distance, nearest.of_types rfl⟩
  unhidden found := found.of_types rfl
  apart found := by
    obtain ⟨owner, loaded, declared⟩ := nearest.exists_declared
    obtain ⟨otherOwner, otherLoaded, otherDeclared⟩ := found.exists_declared
    exact numbered.names otherOwner otherLoaded owner loaded _ otherDeclared _ declared rfl

/-- The field is declared with the write. Its number is new, and there was nothing to hide. -/
theorem Numbered.writes_addField (numbered : heap.Numbered)
    (known : heap.type? object.typeId = some type)
    (missing : ∀ distance field, ¬ heap.Nearest (·.field? name) distance object.typeId field)
    (value : LiveValue) : heap.Writes id object name value (heap.lastId + 1)
      ((heap.addField object.typeId name).1.store id (heap.lastId + 1) value) where
  instances other :=
    instance?_store (heap.addField object.typeId name).1 id other (heap.lastId + 1) value
  nearest := by
    have undeclared : type.field? name = none :=
      Option.eq_none_iff_forall_ne_some.mpr fun field declared =>
        missing 0 field (.here known declared)
    refine ⟨0, .here (type?_addField_self known) ?_⟩
    rw [LoadedType.field?_declare, undeclared, if_pos rfl]
    rfl
  unhidden found := (found.addField fun _ => missing).of_types rfl
  apart found := by
    obtain ⟨owner, loaded, declared⟩ := found.exists_declared
    exact absurd (numbered.fields owner loaded _ declared) (by simp)

/-- A write comes back where the superclass links end. -/
theorem Numbered.exists_writes (numbered : heap.Numbered)
    (live : heap.instance? id = some object) (known : heap.type? object.typeId = some type)
    (ends : heap.Ends object.typeId) (name : String) (value : LiveValue) :
    ∃ later field, heap.setField id name value = some later ∧
      heap.Writes id object name value field later := by
  simp only [setField, live]
  cases searched : heap.inheritedField name object.typeId with
  | endless => exact absurd (inheritedField_eq_endless_iff.mp searched) ends.not_circles
  | declared field =>
    obtain ⟨distance, nearest⟩ := inheritedField_eq_declared_iff.mp searched
    exact ⟨_, field, rfl, numbered.writes_store nearest value⟩
  | undeclared =>
    refine ⟨_, _, rfl, numbered.writes_addField known (fun distance field nearest => ?_) value⟩
    cases searched.symm.trans (inheritedField_eq_declared_iff.mpr ⟨distance, nearest⟩)

end Writing

end Heap

namespace Query

private theorem readField_some_iff {heap : Heap} {id : ObjectId} {name : String}
    {value : LiveValue} :
    PauseM.onHeap (readField id name) heap = .ok (some value) ↔
      ∃ object field distance, heap.instance? id = some object ∧
        heap.Nearest (·.field? name) distance object.typeId field ∧ object.value field = value := by
  rw [readField_ok_iff]
  constructor
  · rintro ⟨object, field, live, concludes, read⟩
    obtain ⟨field, rfl, same⟩ := Option.map_eq_some_iff.mp read.symm
    have climbed := Heap.climbFrom_eq_iff.mpr concludes
    obtain ⟨distance, nearest⟩ := Heap.climbFrom_eq_some_iff.mp climbed
    exact ⟨object, field, distance, live, nearest, same⟩
  · rintro ⟨object, field, distance, live, nearest, rfl⟩
    exact ⟨object, some field, live,
      Heap.climbFrom_eq_iff.mp (Heap.climbFrom_eq_some_iff.mpr ⟨distance, nearest⟩), rfl⟩

/-- A field that was written is read back, and every other one that could be read is read as
before. -/
theorem readField_setField {heap : Heap} (built : heap.Built fun _ _ => True) {id : ObjectId}
    {object : Instance} (live : heap.instance? id = some object) {type : LoadedType}
    (known : heap.type? object.typeId = some type) (ends : heap.Ends object.typeId)
    (name : String) (value : LiveValue) :
    ∃ later, heap.setField id name value = some later ∧
      PauseM.Gives (readField id name) later (.ok (some value)) ∧
      ∀ other otherName kept, (other, otherName) ≠ (id, name) →
        PauseM.onHeap (readField other otherName) heap = .ok (some kept) →
          PauseM.Gives (readField other otherName) later (.ok (some kept)) := by
  have gives : ∀ {heap id name value}, PauseM.onHeap (readField id name) heap = .ok (some value) →
      PauseM.Gives (readField id name) heap (.ok (some value)) := fun {heap id name _} read =>
    read ▸ (readField_strict id name).composed.gives heap
  obtain ⟨later, field, written, writes⟩ :=
    built.numbered.exists_writes live known ends name value
  refine ⟨later, written, gives (readField_some_iff.mpr ?_), ?_⟩
  · obtain ⟨distance, nearest⟩ := writes.nearest
    refine ⟨object.write field value, field, distance, ?_, nearest, ?_⟩
    · rw [writes.instances, live, Option.map_some, if_pos rfl]
    · rw [Instance.value_write, if_pos rfl]
  · intro other otherName kept different read
    obtain ⟨holder, found, distance, liveOther, nearest, same⟩ := readField_some_iff.mp read
    have unhidden := writes.unhidden nearest
    by_cases own : other = id
    · have apart : found ≠ field := by
        rintro rfl
        exact different (by rw [own, writes.apart nearest])
      refine gives (readField_some_iff.mpr
        ⟨holder.write field value, found, distance, ?_, unhidden, ?_⟩)
      · rw [writes.instances, liveOther, Option.map_some, if_pos own]
      · rw [Instance.value_write, if_neg apart, same]
    · refine gives (readField_some_iff.mpr ⟨holder, found, distance, ?_, unhidden, same⟩)
      rw [writes.instances, liveOther, Option.map_some, if_neg own]

def petType : LoadedType := ⟨⟨1, "LPet;", none, none, false⟩, [(2, "age")]⟩

def parrotType : LoadedType := ⟨⟨3, "LParrot;", none, some 1, false⟩, []⟩

/-- A parrot, whose age is declared by its superclass. -/
def parrotHeap : Heap :=
  let pets := ((Heap.empty.load "LPet;" none none false).1.addField 1 "age").1
  ((pets.load "LParrot;" (some 1) none false).1.newObject 3).1

theorem readField_setField_parrot : ∃ later, parrotHeap.setField 4 "word" (.int 5) = some later ∧
    PauseM.onHeap (readField 4 "word") later = .ok (some (.int 5)) ∧
      PauseM.onHeap (readField 4 "age") later = .ok (some .null) := by
  have ends : parrotHeap.Ends 3 := ⟨[parrotType], 1, .up rfl rfl (.here 1), rfl⟩
  have built : parrotHeap.Built fun _ _ => True :=
    .newObject (.load (.addField (.load .empty trivial _ _) 1 "age") trivial _ _) 3
  have live : parrotHeap.instance? 4 = some ⟨4, 3, [], none, none⟩ := rfl
  have pet : parrotHeap.type? 1 = some petType := rfl
  have parrot : parrotHeap.type? 3 = some parrotType := rfl
  have age : PauseM.onHeap (readField 4 "age") parrotHeap = .ok (some .null) :=
    readField_some_iff.mpr ⟨_, 2, 1, live, .above parrot rfl rfl (.here pet rfl), rfl⟩
  obtain ⟨later, written, own, others⟩ := readField_setField built live rfl ends "word" (.int 5)
  exact ⟨later, written, own.onHeap_eq, (others 4 "age" .null (by decide) age).onHeap_eq⟩

end Query

end PauseFlow
