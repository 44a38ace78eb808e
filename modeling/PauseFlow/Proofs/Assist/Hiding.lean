import PauseFlow.Proofs.Assist.Evaluation

/-! Fields that are hidden. The source names a field as seen from the class that its qualifier is
declared with, while live values are read by name from the runtime type upward. -/
namespace PauseFlow

/-- The source names a field of an object as seen from a type at or above its own: one of the name
that the qualifier is declared with. The types that are passed on the way are given. Of the fields
of the name, the one declared nearest at or above that type counts. -/
structure Heap.Denotes (heap : Heap) (registry : Variables) (qualifier : Var) (name : String)
    (object : Instance) (below : List LoadedType) (seen : LoadedType) (field : FieldId) : Prop where
  declared : ∃ owner, registry.table.nameOf owner = seen.info.typeName ∧
    ((registry.declared qualifier).bound = .instanceOf (.ofClass owner) ∨
      (registry.declared qualifier).bound = .exact (.ofClass owner))
  climbs : heap.Climbs object.typeId below seen.info.id
  known : heap.type? seen.info.id = some seen
  nearest : ∃ distance, heap.Nearest (·.field? name) distance seen.info.id field

namespace Query

/-- A field is read of the nearest type at or above that of the object. That is the field the source
names exactly if none below it has the same name and another value. -/
theorem liveValue_of_hidden {allowed : AbstractValue → Prop} {session : Session}
    {frame : FrameRef} {registry : Variables} {var qualifier : Var} {name : String}
    {ref : ObjectRef} {object : Instance} {below : List LoadedType} {seen : LoadedType}
    {field : FieldId} (built : registry.Built allowed)
    (origin : registry.origin? var = some (.field qualifier name))
    (held : PauseM.onHeap (liveValue frame registry qualifier) session.heap =
      .ok (some (.object ref)))
    (live : session.heap.instance? ref.id = some object)
    (denotes : session.heap.Denotes registry qualifier name object below seen field)
    (answered : session.AnsweredUntil ((liveValue frame registry var).run session).2) :
    ((liveValue frame registry var).run session).1 =
        .ok (some (object.value ((below.findSome? (·.field? name)).getD field))) ∧
      (((liveValue frame registry var).run session).1 = .ok (some (object.value field)) ↔
        ∀ hider, below.findSome? (·.field? name) = some hider →
          object.value hider = object.value field) := by
  obtain ⟨distance, nearest⟩ := denotes.nearest
  have found := Heap.climbFrom_eq_some_iff.mpr (denotes.climbs.nearest nearest)
  have read : ((liveValue frame registry var).run session).1 =
      .ok (some (object.value ((below.findSome? (·.field? name)).getD field))) := by
    have composed : (liveValue frame registry var).Composed := liveValueWithin_composed _ _ _ _
    rw [composed.fst_run answered, liveValue_of_field built.ordered origin, held]
    simp only [Except.bind, Heap.fieldOf, live]
    rw [readField_onHeap live, found]
    rfl
  refine ⟨read, ?_⟩
  rw [read]
  cases hidden : below.findSome? (·.field? name) with
  | none => simp
  | some hider => simp

/-- Animals have an age. -/
def animalType : LoadedType := ⟨⟨1, "LAnimal;", none, none, false⟩, [(2, "age")]⟩

/-- Cats have one of their own, too. -/
def catType : LoadedType := ⟨⟨3, "LCat;", none, some 1, false⟩, [(5, "age")]⟩

/-- A cat of two, which is one as an animal. -/
def cat : Instance := ⟨4, 3, [(5, .int 2), (2, .int 1)], none, none⟩

/-- A frame with the cat in a local. -/
def catHeap : Heap where
  lastId := 5
  types := [catType, animalType]
  instances := [cat]
  frames := [(⟨0, 0⟩, ⟨⟨"LMain;", "run", 1, 0⟩, none, none, [("a", .object ⟨4, "Cat"⟩)]⟩)]
  assertions := []

/-- The local is declared with `Animal`, and the source reads its age. -/
def animalVariables : Variables :=
  (((Variables.ofTable ⟨[.plain "Animal", .plain "Cat"]⟩).request (.localName "a")
    (.ofType (.ofClass ⟨0⟩))).1.request (.field ⟨0⟩ "age") (.ofType (.primitive .int))).1

theorem liveValue_of_hidden_age :
    ((liveValue ⟨0, 0⟩ animalVariables ⟨1⟩).run (.ofHeap catHeap)).1 = .ok (some (.int 2)) ∧
      ((liveValue ⟨0, 0⟩ animalVariables ⟨1⟩).run (.ofHeap catHeap)).1 ≠ .ok (some (.int 1)) := by
  have built : animalVariables.Built fun _ => True := by
    refine .request (.request (.ofTable _) trivial nofun) trivial fun qualifier above => ?_
    cases above
    decide
  have origin : animalVariables.origin? ⟨1⟩ = some (.field ⟨0⟩ "age") := rfl
  have held : PauseM.onHeap (liveValue ⟨0, 0⟩ animalVariables ⟨0⟩) catHeap =
    .ok (some (.object ⟨4, "Cat"⟩)) := rfl
  have denotes : catHeap.Denotes animalVariables ⟨0⟩ "age" cat [catType] animalType 2 :=
    ⟨⟨⟨0⟩, by decide +kernel, .inl rfl⟩, .up rfl rfl (.here 1), rfl, 0, .here rfl rfl⟩
  obtain ⟨read, named⟩ := liveValue_of_hidden built origin held rfl denotes
    (Session.answeredUntil_ofHeap _ _)
  refine ⟨read, fun same => ?_⟩
  exact absurd (named.mp same 5 rfl) (by decide +kernel)

end Query

end PauseFlow
