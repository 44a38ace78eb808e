import PauseFlow.Proofs.Assist.Observation
import PauseFlow.Proofs.Hierarchy.Naming
import PauseFlow.Proofs.Memory.Locality
import PauseFlow.Proofs.Snapshot.Reporting

/-! From an object with a derived field to what is known of the variable that holds it. The
classification of objects and the seeding of the memory agree on which fields there are and on the
constants they can have. -/
namespace PauseFlow

open Memory

namespace AbstractValue

/-- An object that a declaration admits is known exactly once its type is known. -/
theorem meet_notNull_exact {table : ClassTable} {nullability : Nullability} {bound : TypeBound}
    {type : JvmType} (nonNull : nullability ≠ .null) (admits : bound.Holds table type) :
    (reference ⟨nullability, bound, none⟩).meet table (notNull (.exact type)) =
      notNull (.exact type) := by
  have narrowed : bound.meet table (.exact type) = .exact type := by
    cases bound with
    | top => rfl
    | bottom => exact admits.elim
    | exact known =>
      have same : type = known := admits
      simp [TypeBound.meet, same]
    | instanceOf upper =>
      have below : table.isAssignable type upper = true := admits
      simp [TypeBound.meet, below]
  have present : nullability.meet? .notNull = some .notNull := by
    cases nullability with
    | null => exact absurd rfl nonNull
    | notNull => rfl
    | nullable => rfl
  simp [meet, notNull, meetReferences, narrowed, present]

end AbstractValue

section Declarations

variable {table : ClassTable} {signature : String} {field : DerivedField} {constant : AbstractValue}
  {type : JvmType}

/-- A field that was read is declared for a primitive kind, of which its content is a constant. -/
theorem Snapshot.Reports.declared (reports : Snapshot.Reports signature field constant)
    (denotes : Signature.type? table signature = some type) :
    ∃ kind value, constant = .primitive kind value ∧
      field.declaredValue? table (.notNull (.exact type)) = some (.ofType (.primitive kind)) := by
  cases reports with
  | arrayLength length _ => exact ⟨.int, some (.integral length), rfl, rfl⟩
  | collectionSize size _ => exact ⟨.int, some (.integral size), rfl, rfl⟩
  | @unboxed kind value boxes =>
    rw [← Signature.typeName_of_type? denotes] at boxes
    obtain ⟨id, rfl, named⟩ := PrimitiveKind.exists_class_of_boxName boxes
    refine ⟨kind, value, rfl, ?_⟩
    simp [DerivedField.declaredValue?, AbstractValue.notNull, AbstractValue.bound,
      DerivedField.declaredValue?.ofBox, named]

/-- The declaration of an unboxed value made for a box of another class than the type. -/
def DerivedField.IsOfOtherBox (field : DerivedField) (table : ClassTable) (type : JvmType)
    (declared : AbstractValue) : Prop :=
  field = .unboxed ∧ ∃ kind, declared = .ofType (.primitive kind) ∧
    kind.boxName ≠ table.typeName type

/-- An unboxed value is declared for some box, or without knowing the box. -/
theorem DerivedField.declared_unboxed {known declared : AbstractValue}
    (form : DerivedField.unboxed.declaredValue? table known = some declared) :
    declared = .top ∨ ∃ kind, declared = .ofType (.primitive kind) := by
  have ofBox : ∀ id, DerivedField.declaredValue?.ofBox table id = some declared →
      ∃ kind, declared = .ofType (.primitive kind) := by
    intro id boxed
    obtain ⟨kind, _, rfl⟩ := Option.map_eq_some_iff.mp boxed
    exact ⟨kind, rfl⟩
  simp only [DerivedField.declaredValue?] at form
  split at form
  · exact .inr (ofBox _ form)
  · exact .inr (ofBox _ form)
  · exact .inl (Option.some.inj form).symm
  · cases form

theorem PrimitiveKind.boxName_injective {left right : PrimitiveKind}
    (same : left.boxName = right.boxName) : left = right := by
  revert same
  cases left <;> cases right <;> decide

/-- Whatever was known when the field was declared, its declaration admits the content, unless it
is of another box. -/
theorem Snapshot.Reports.meet_declared (reports : Snapshot.Reports signature field constant)
    (denotes : Signature.type? table signature = some type) {known declared : AbstractValue}
    (form : field.declaredValue? table known = some declared) :
    (¬ field.IsOfOtherBox table type declared → declared.meet table constant = constant) ∧
      (field.IsOfOtherBox table type declared → declared.meet table constant = .bottom) := by
  have ofInt : ∀ value : Int, (AbstractValue.ofType (.primitive .int)).meet table (.int value) =
      .int value := fun value => rfl
  cases reports with
  | arrayLength length _ =>
    cases form
    exact ⟨fun _ => ofInt length, fun other => nomatch other.1⟩
  | collectionSize size _ =>
    cases form
    exact ⟨fun _ => ofInt size, fun other => nomatch other.1⟩
  | @unboxed kind value boxes =>
    rw [← Signature.typeName_of_type? denotes] at boxes
    have named : kind.boxName = table.typeName type := by simpa using List.find?_some boxes
    rcases DerivedField.declared_unboxed form with rfl | ⟨declaredKind, rfl⟩
    · refine ⟨fun _ => rfl, fun other => ?_⟩
      obtain ⟨_, _, impossible, _⟩ := other
      cases impossible
    · by_cases same : declaredKind = kind
      · subst same
        refine ⟨fun _ => by simp [AbstractValue.ofType, AbstractValue.meet], fun other => ?_⟩
        obtain ⟨_, again, equal, different⟩ := other
        cases equal
        exact absurd named different
      · refine ⟨fun own => ?_, fun _ => by simp [AbstractValue.ofType, AbstractValue.meet, same]⟩
        refine absurd ⟨rfl, declaredKind, rfl, fun sameName => ?_⟩ own
        exact same (PrimitiveKind.boxName_injective (sameName.trans named.symm))

/-- Derived fields hold no references. -/
theorem DerivedField.not_isReference {known declared : AbstractValue}
    (form : field.declaredValue? table known = some declared) : declared.isReference = false := by
  cases field with
  | arrayLength =>
    cases form
    rfl
  | collectionSize =>
    cases form
    rfl
  | unboxed =>
    rcases DerivedField.declared_unboxed form with rfl | ⟨kind, rfl⟩
    · rfl
    · rfl

end Declarations

namespace Variables

private theorem request_cases (registry : Variables) (origin : Origin) (declared : AbstractValue) :
    (∃ old, registry.find? origin = some old ∧ registry.request origin declared = (registry, old)) ∨
    (registry.find? origin = none ∧
      (registry.request origin declared).1.declared (registry.request origin declared).2 =
        declared) := by
  unfold request
  cases found : registry.find? origin with
  | some old => exact .inl ⟨old, rfl, rfl⟩
  | none =>
    refine .inr ⟨rfl, ?_⟩
    simp [Variables.declared, info?, size]

/-- The variable of an unboxed value was declared when the object was known as another box. -/
def UnboxesOther (registry : Variables) (field : DerivedField) (var : Var) (type : JvmType) :
    Prop :=
  ∃ old, registry.find? (.derived var field) = some old ∧
    field.IsOfOtherBox registry.table type (registry.declared old)

/-- What requesting the field of an object of a known type gives: a variable that this request or
an earlier one has declared. -/
structure Provides (registry wider : Variables) (field : DerivedField) (var fieldVar : Var)
    (type : JvmType) : Prop where
  requested : registry.requestDerived field var (.notNull (.exact type)) = (wider, some fieldVar)
  placed : wider.find? (.derived var field) = some fieldVar
  declared : ∃ known,
    field.declaredValue? registry.table known = some (wider.declared fieldVar)
  ofOther : field.IsOfOtherBox registry.table type (wider.declared fieldVar) ↔
    registry.UnboxesOther field var type
  kept : registry.UnboxesOther field var type → wider = registry

private theorem exists_provides {registry : Variables} {field : DerivedField} {signature : String}
    {constant : AbstractValue} {type : JvmType}
    (reports : Snapshot.Reports signature field constant)
    (denotes : Signature.type? registry.table signature = some type) {var : Var}
    (earlier : ∀ old, registry.find? (.derived var field) = some old →
      ∃ known, field.declaredValue? registry.table known = some (registry.declared old)) :
    ∃ wider fieldVar, registry.Provides wider field var fieldVar type := by
  obtain ⟨kind, value, shape, form⟩ := reports.declared denotes
  have requested : registry.requestDerived field var (.notNull (.exact type)) =
      ((registry.request (.derived var field) (.ofType (.primitive kind))).1,
        some (registry.request (.derived var field) (.ofType (.primitive kind))).2) := by
    rw [requestDerived, if_pos (by simp [AbstractValue.notNull, AbstractValue.isReference]), form]
  have placed := registry.find?_request (.derived var field) (.ofType (.primitive kind))
  rcases registry.request_cases (.derived var field) (.ofType (.primitive kind)) with
    ⟨old, found, same⟩ | ⟨missing, made⟩
  · rw [same] at requested placed
    refine ⟨registry, old, requested, placed, earlier old found,
      ⟨fun other => ⟨old, found, other⟩, ?_⟩, fun _ => rfl⟩
    rintro ⟨again, foundAgain, other⟩
    exact Option.some.inj (foundAgain.symm.trans found) ▸ other
  · have none : ¬ registry.UnboxesOther field var type := by
      rintro ⟨old, found, _⟩
      rw [missing] at found
      cases found
    refine ⟨_, _, requested, placed, ⟨_, made.symm ▸ form⟩, iff_of_false (fun other => ?_) none,
      fun other => absurd other none⟩
    rw [made] at other
    -- A variable made for this object is of its own box.
    have impossible := (reports.meet_declared denotes form).2 other
    simp [shape, AbstractValue.ofType, AbstractValue.meet] at impossible

end Variables

namespace Memory

/-- With one variable, seeding the memory is adding what its snapshot says. -/
theorem ofObservations_single (registry : Variables) (live : LiveValue) (var : Var)
    (snapshot : Snapshot) (cap : Nat) :
    ofObservations registry ⟨[(live, [var])]⟩ ⟨[(live, snapshot)]⟩ cap =
      Seed.observe ⟨registry, .empty⟩ var snapshot := by
  have taken : (Snapshots.mk [(live, snapshot)]).get? live = some snapshot := by
    simp [Snapshots.get?, LiveValue.same]
  have alone : Seed.pairs (Seed.representatives registry ⟨[(live, [var])]⟩) = [] := by
    have candidates : Seed.representatives registry ⟨[(live, [var])]⟩ = [] ∨
        Seed.representatives registry ⟨[(live, [var])]⟩ = [var] := by
      by_cases kept : Seed.comparesByIdentity registry var <;> simp [Seed.representatives, kept]
    rcases candidates with none | one
    · rw [none]
      rfl
    · rw [one]
      rfl
  have united : Seed.observeMember var (some snapshot) ⟨registry, .empty⟩ var =
      Seed.observe ⟨registry, .empty⟩ var snapshot := by
    simp [Seed.observeMember, unite]
  rw [ofObservations, alone]
  simp only [List.foldl_cons, List.foldl_nil, Seed.observeGroup, taken, united]

/-- While nothing is equal and nothing is excluded, only a contradiction is left out. -/
theorem narrow_of_unlinked {memory : Memory} (unlinked : memory.links = .empty)
    (unrestricted : memory.excluded = .empty) (registry : Variables) (var : Var)
    (value : AbstractValue) : memory.narrow registry var value =
      if memory.narrowed registry var value = .bottom then (false, memory)
      else (true, memory.withFact var (memory.narrowed registry var value)) := by
  have own : memory.root var = var := root_of_top (by rw [unlinked]; rfl)
  have allowed : ∀ known, memory.isExcluded var known = false := by
    intro known
    simp [isExcluded, exclusions, unrestricted]
  rcases narrow_cases memory registry var value with ⟨clash, result⟩ | ⟨possible, _, result⟩
  · rw [own, allowed] at clash
    rw [result, if_pos (clash.resolve_right Bool.false_ne_true)]
  · rw [result, own, if_neg possible]

/-- Narrowing a second variable leaves the first one as it is. -/
theorem value_narrow_beside (registry : Variables) {var other : Var} (different : other ≠ var)
    (known value : AbstractValue) :
    let narrowed := ((empty.withFact var known).narrow registry other value).2
    let met := (registry.declared other).meet registry.table value
    narrowed.value registry var = known ∧
      narrowed.value registry other = if met = .bottom then registry.declared other else met := by
  have ofVar : (empty.withFact var known).value registry var = known :=
    (value_withFact empty registry var known var).trans (if_pos rfl)
  have ofOther : (empty.withFact var known).value registry other = registry.declared other :=
    (value_withFact empty registry var known other).trans (if_neg different)
  intro narrowed met
  have meets : (empty.withFact var known).narrowed registry other value = met :=
    congrArg (·.meet registry.table value) ofOther
  have answer : (empty.withFact var known).narrow registry other value =
      if met = .bottom then (false, empty.withFact var known)
      else (true, (empty.withFact var known).withFact other met) := by
    rw [← meets]
    exact narrow_of_unlinked rfl rfl registry other value
  by_cases clash : met = .bottom
  · have kept : narrowed = empty.withFact var known :=
      congrArg Prod.snd (answer.trans (if_pos clash))
    rw [kept, if_pos clash]
    exact ⟨ofVar, ofOther⟩
  · have added : narrowed = (empty.withFact var known).withFact other met :=
      congrArg Prod.snd (answer.trans (if_neg clash))
    rw [added, if_neg clash]
    exact ⟨(value_withFact _ registry other met var).trans ((if_neg different.symm).trans ofVar),
      (value_withFact _ registry other met other).trans (if_pos rfl)⟩

/-- Nothing contradicts the runtime type of an object that the declaration admits. -/
theorem narrow_notNull_exact {registry : Variables} {var : Var} {nullability : Nullability}
    {bound : TypeBound} {type : JvmType}
    (declared : registry.declared var = .reference ⟨nullability, bound, none⟩)
    (nonNull : nullability ≠ .null) (admits : bound.Holds registry.table type) :
    empty.narrow registry var (.notNull (.exact type)) =
      (true, empty.withFact var (.notNull (.exact type))) := by
  have own : empty.narrowed registry var (.notNull (.exact type)) = .notNull (.exact type) := by
    change (registry.declared var).meet registry.table _ = _
    rw [declared, AbstractValue.meet_notNull_exact nonNull admits]
  rw [narrow_of_unlinked rfl rfl, own, if_neg (by simp [AbstractValue.notNull])]

/-- First the variable takes its type, then its field is requested and takes what was read. -/
theorem ofObservations_withField {registry wider : Variables} {var fieldVar : Var}
    {signature : String} {field : DerivedField} {type : JvmType}
    (denotes : Signature.type? registry.table signature = some type)
    (typed : empty.narrow registry var (.notNull (.exact type)) =
      (true, empty.withFact var (.notNull (.exact type))))
    (requested : registry.requestDerived field var (.notNull (.exact type)) =
      (wider, some fieldVar)) (live : LiveValue) (constant : AbstractValue) (cap : Nat) :
    ofObservations registry ⟨[(live, [var])]⟩
      ⟨[(live, .withField signature field (.constant constant))]⟩ cap =
      ⟨wider, ((empty.withFact var (.notNull (.exact type))).narrow wider fieldVar
        constant).2⟩ := by
  let start : Seed := ⟨registry, .empty⟩
  have fits : (start.memory.narrow start.registry var (.notNull (.exact type))).1 = true :=
    congrArg Prod.fst typed
  have narrowed : start.narrow var (.notNull (.exact type)) =
      ⟨registry, empty.withFact var (.notNull (.exact type))⟩ := by
    rw [Seed.narrow, typed]
  have known : (empty.withFact var (.notNull (.exact type))).value registry var =
      .notNull (.exact type) := (value_withFact _ registry var _ var).trans (if_pos rfl)
  rw [ofObservations_single, Seed.observe_withField_of_type denotes fits, narrowed]
  simp only [Seed.derive, known, requested]
  rfl

end Memory

/-- A snapshot of an object with a derived field is taken over as it is. The variable of the field
is found or made, and unless it was declared for another box, its value is the constant that was
read; otherwise it keeps its declaration. In either case the object has its runtime type. -/
theorem Memory.ofObservations_of_classify {registry : Variables} {var : Var} {live : LiveValue}
    {filter : LoaderFilter} {session after : Session} {signature : String} {field : DerivedField}
    {content : Snapshot} {type : JvmType} {nullability : Nullability} {bound : TypeBound}
    (classified : ((Snapshot.classify live).startingFrom filter).run session =
      (.ok (some (.withField signature field content)), after))
    (denotes : Signature.type? registry.table signature = some type)
    (declared : registry.declared var = .reference ⟨nullability, bound, none⟩)
    (nonNull : nullability ≠ .null) (admits : bound.Holds registry.table type)
    (earlier : ∀ old, registry.find? (.derived var field) = some old →
      ∃ known, field.declaredValue? registry.table known = some (registry.declared old))
    (cap : Nat) :
    let result := ofObservations registry ⟨[(live, [var])]⟩
      ⟨[(live, .withField signature field content)]⟩ cap
    ∃ constant fieldVar, content = .constant constant ∧
      registry.requestDerived field var (.notNull (.exact type)) =
        (result.registry, some fieldVar) ∧
      result.registry.find? (.derived var field) = some fieldVar ∧
      result.memory.value result.registry var = .notNull (.exact type) ∧
      (¬ registry.UnboxesOther field var type →
        result.memory.value result.registry fieldVar = constant) ∧
      (registry.UnboxesOther field var type → result.registry = registry ∧
        result.memory.value registry fieldVar = registry.declared fieldVar) := by
  obtain ⟨constant, rfl, reports⟩ :=
    Snapshot.classify_wellReported live filter session after _ classified _ rfl
  obtain ⟨wider, fieldVar, provides⟩ := Variables.exists_provides reports denotes earlier
  obtain ⟨known, form⟩ := provides.declared
  have grows : registry.Grows wider := by
    have growing := registry.grows_requestDerived field var (.notNull (.exact type))
    rwa [provides.requested] at growing
  have different : fieldVar ≠ var := by
    rintro rfl
    have reference : (registry.declared fieldVar).isReference = true := by
      rw [declared]
      rfl
    have other := DerivedField.not_isReference form
    rw [grows.declared (Variables.issued_of_isReference reference), reference] at other
    cases other
  have possible : constant ≠ .bottom := by
    obtain ⟨kind, value, rfl, _⟩ := reports.declared denotes
    nofun
  have observed := ofObservations_withField denotes (narrow_notNull_exact declared nonNull admits)
    provides.requested live constant cap
  obtain ⟨ofVar, ofField⟩ := value_narrow_beside wider different (.notNull (.exact type)) constant
  obtain ⟨fitting, clashing⟩ := reports.meet_declared denotes form
  rw [grows.table] at ofField
  rw [observed]
  refine ⟨constant, fieldVar, rfl, provides.requested, provides.placed, ofVar, fun own => ?_,
    fun other => ?_⟩
  · rw [fitting (provides.ofOther.not.mpr own), if_neg possible] at ofField
    exact ofField
  · rw [clashing (provides.ofOther.mpr other), if_pos rfl] at ofField
    obtain rfl := provides.kept other
    exact ⟨rfl, ofField⟩

/-- The root class with two boxes below it. -/
def boxes : ClassTable :=
  ⟨[.plain ClassTable.objectName,
    { ClassInfo.plain PrimitiveKind.int.boxName with isFinal := true, superclass := some ⟨0⟩ },
    { ClassInfo.plain PrimitiveKind.long.boxName with isFinal := true, superclass := some ⟨0⟩ }]⟩

/-- A variable that can hold any object. -/
def anyObject : Variables := ⟨boxes, [⟨.localName "o", .ofType (.ofClass ⟨0⟩)⟩]⟩

/-- The variables once an object was known as a `long` in its box. -/
def longSeen : Variables :=
  (anyObject.requestDerived .unboxed ⟨0⟩ (.notNull (.exact (.ofClass ⟨2⟩)))).1

/-- An `int` in its box. -/
def boxHeap : Heap where
  lastId := 3
  types := [⟨⟨1, "Ljava/lang/Integer;", none, none, false⟩, [(2, "value")]⟩]
  instances := [⟨3, 1, [(2, .int 42)], none, none⟩]
  frames := []
  assertions := []

def intInBox : Snapshot :=
  .withField "Ljava/lang/Integer;" .unboxed (.constant (.primitive .int (some (.integral 42))))

private theorem classify_boxHeap : ∃ after,
    ((Snapshot.classify (.object ⟨3, ""⟩)).startingFrom (.ofLoader none)).run (.ofHeap boxHeap) =
      (.ok (some intInBox), after) := ⟨_, rfl⟩

private theorem type?_boxHeap : Signature.type? boxes "Ljava/lang/Integer;" =
    some (.ofClass ⟨1⟩) := by decide +kernel

/-- Seen for the first time, the box is known with the number in it. -/
theorem Memory.ofObservations_of_classify_int :
    let result := ofObservations anyObject ⟨[(.object ⟨3, ""⟩, [⟨0⟩])]⟩
      ⟨[(.object ⟨3, ""⟩, intInBox)]⟩ 20
    ∃ fieldVar, result.registry.find? (.derived ⟨0⟩ .unboxed) = some fieldVar ∧
      result.memory.value result.registry ⟨0⟩ = .notNull (.exact (.ofClass ⟨1⟩)) ∧
      result.memory.value result.registry fieldVar = .primitive .int (some (.integral 42)) := by
  obtain ⟨after, classified⟩ := classify_boxHeap
  have unseen : anyObject.find? (.derived ⟨0⟩ .unboxed) = none := by decide
  have below : anyObject.table.isAssignable (.ofClass ⟨1⟩) (.ofClass ⟨0⟩) = true := by
    decide +kernel
  obtain ⟨constant, fieldVar, same, _, placed, ofVar, ofField, _⟩ :=
    ofObservations_of_classify classified type?_boxHeap (show anyObject.declared ⟨0⟩ = _ from rfl)
      (by simp) below (fun old found => nomatch unseen.symm.trans found) 20
  cases same
  exact ⟨fieldVar, placed, ofVar, ofField fun ⟨old, found, _⟩ => nomatch unseen.symm.trans found⟩

/-- Seen after a `long` in its box, the number in the box is not taken over. -/
theorem Memory.ofObservations_of_classify_int_after_long :
    (∃ after, ((Snapshot.classify (.object ⟨3, ""⟩)).startingFrom (.ofLoader none)).run
      (.ofHeap boxHeap) = (.ok (some intInBox), after)) ∧
    Signature.type? longSeen.table "Ljava/lang/Integer;" = some (.ofClass ⟨1⟩) ∧
    longSeen.declared ⟨0⟩ = .ofType (.ofClass ⟨0⟩) ∧
    longSeen.table.isAssignable (.ofClass ⟨1⟩) (.ofClass ⟨0⟩) = true ∧
    longSeen.find? (.derived ⟨0⟩ .unboxed) = some ⟨1⟩ ∧
    DerivedField.unboxed.declaredValue? longSeen.table (.notNull (.exact (.ofClass ⟨2⟩))) =
      some (longSeen.declared ⟨1⟩) ∧
    (ofObservations longSeen ⟨[(.object ⟨3, ""⟩, [⟨0⟩])]⟩ ⟨[(.object ⟨3, ""⟩, intInBox)]⟩
      20).memory.value longSeen ⟨1⟩ ≠ .primitive .int (some (.integral 42)) := by
  refine ⟨classify_boxHeap, ?_, ?_, ?_, ?_, ?_, ?_⟩
  all_goals decide +kernel

end PauseFlow
