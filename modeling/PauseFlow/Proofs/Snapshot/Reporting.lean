import PauseFlow.Proofs.Snapshot.Taking

namespace PauseFlow

/-- Whatever the session, an answer has a property. -/
def PauseM.Yields {Failure Answer : Type} (steps : PauseM Failure Answer)
    (property : Answer → Prop) : Prop :=
  ∀ session after answer, steps.run session = (.ok answer, after) → property answer

namespace PauseM.Yields

variable {Failure Answer Next : Type} {property : Next → Prop}

theorem pure {answer : Next} (holds : property answer) :
    (Pure.pure answer : PauseM Failure Next).Yields property := by
  intro session after result ran
  cases ran
  exact holds

theorem bind {steps : PauseM Failure Answer} {next : Answer → PauseM Failure Next}
    (rest : ∀ answer, (next answer).Yields property) : (steps >>= next).Yields property := by
  intro session after result ran
  obtain ⟨answer, middle, _, continued⟩ := exists_of_bind ran
  exact rest answer middle after result continued

end PauseM.Yields

/-- Whatever the filter knows and whatever the session, an answer has a property. -/
def FilteredQuery.Yields {Answer : Type} (query : FilteredQuery Answer) (property : Answer → Prop) :
    Prop :=
  ∀ filter, (query.startingFrom filter).Yields property

namespace FilteredQuery.Yields

variable {Answer Next : Type} {property : Next → Prop}

theorem pure {answer : Next} (holds : property answer) :
    (Pure.pure answer : FilteredQuery Next).Yields property :=
  fun _ => PauseM.Yields.pure holds

theorem lift {query : Query Next} (yields : query.Yields property) :
    (liftM query : FilteredQuery Next).Yields property :=
  fun _ => yields

/-- What the first answer is known to be helps with the second one. -/
theorem bind_of {query : FilteredQuery Answer} {next : Answer → FilteredQuery Next}
    {held : Answer → Prop} (first : query.Yields held)
    (rest : ∀ answer, held answer → (next answer).Yields property) :
    (query >>= next).Yields property := by
  intro filter session after result ran
  rw [run_startingFrom_bind] at ran
  split at ran
  · rename_i answer learnt middle answered
    have held := first filter session middle answer (run_startingFrom answered)
    exact rest answer held learnt middle after result ran
  · cases ran

theorem bind {query : FilteredQuery Answer} {next : Answer → FilteredQuery Next}
    (rest : ∀ answer, (next answer).Yields property) : (query >>= next).Yields property :=
  bind_of (fun _ _ _ _ _ => trivial) fun answer (_ : True) => rest answer

end FilteredQuery.Yields

namespace Snapshot

/-- The derived fields that are read of a type, with the constants they can have. -/
inductive Reports (signature : String) : DerivedField → AbstractValue → Prop where
  | arrayLength (length : Int) (array : signature.toList.head? = some '[') :
      Reports signature .arrayLength (.int length)
  | collectionSize (size : Int) (sized : Signature.typeName signature ∈ sizedCollections) :
      Reports signature .collectionSize (.int size)
  | unboxed {kind : PrimitiveKind} (value : Option PrimitiveValue)
      (boxes : PrimitiveKind.ofBoxName? (Signature.typeName signature) = some kind) :
      Reports signature .unboxed (.primitive kind value)

/-- A derived field comes with one of its constants. -/
def WellReported : Snapshot → Prop
  | .withField signature field content =>
    ∃ constant, content = .constant constant ∧ Reports signature field constant
  | _ => True

private theorem ofEnumCase_wellReported (id : ObjectId) (enumeration : TypeInfo) :
    (ofEnumCase id enumeration).Yields WellReported := by
  refine .bind fun value => ?_
  split
  · exact .bind fun _ => .pure trivial
  · exact .pure trivial

private theorem ofBox_wellReported (id : ObjectId) {signature : String} {kind : PrimitiveKind}
    (boxes : PrimitiveKind.ofBoxName? (Signature.typeName signature) = some kind) :
    (ofBox id signature kind).Yields WellReported := by
  refine .bind fun value => ?_
  dsimp only
  split
  · split
    · rename_i same
      exact .pure ⟨_, rfl, same ▸ .unboxed _ boxes⟩
    · exact .pure trivial
  · exact .pure trivial

private theorem ofCollection_wellReported (id : ObjectId) {signature : String}
    (sized : Signature.typeName signature ∈ sizedCollections) :
    (ofCollection id signature).Yields WellReported := by
  refine .bind fun value => ?_
  split
  · exact .pure ⟨_, rfl, .collectionSize _ sized⟩
  · exact .pure trivial

private theorem ofPlainObject_wellReported (id : ObjectId) (info : TypeInfo) :
    (ofPlainObject id info).Yields WellReported := by
  refine .bind fun enumeration => ?_
  split
  · exact ofEnumCase_wellReported id _
  · split
    · rename_i kind boxes
      exact ofBox_wellReported id boxes
    · split
      · rename_i sized
        exact ofCollection_wellReported id sized
      · exact .pure trivial

private theorem ofVisibleObject_wellReported (id : ObjectId) (info : TypeInfo) :
    (ofVisibleObject id info).Yields WellReported := by
  unfold ofVisibleObject
  split
  · exact .bind fun _ => .pure trivial
  · split
    · rename_i array
      exact .bind fun _ => .pure ⟨_, rfl, .arrayLength _ array⟩
    · exact ofPlainObject_wellReported id info

/-- Each derived field that a value is classified with fits the type and is a constant. -/
theorem classify_wellReported (value : LiveValue) :
    (classify value).Yields fun answer => ∀ snapshot, answer = some snapshot →
      snapshot.WellReported := by
  unfold classify
  split
  · refine .pure fun snapshot taken => ?_
    cases taken
    trivial
  · refine .bind fun info => .bind fun visible => ?_
    split
    · refine .bind_of (.lift (ofVisibleObject_wellReported _ info)) fun snapshot reported => ?_
      exact .pure fun taken same => Option.some.inj same ▸ reported
    · exact .pure fun snapshot taken => by cases taken
  · refine .pure fun snapshot taken => ?_
    obtain ⟨constant, _, rfl⟩ := Option.map_eq_some_iff.mp taken
    trivial

end Snapshot

end PauseFlow
