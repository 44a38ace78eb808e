import PauseFlow.Proofs.Debuggee.Ancestry
import PauseFlow.Proofs.Snapshot.Batching
import PauseFlow.Proofs.Snapshot.Reporting

/-! Which name the snapshot of an enum case has. The base of all enumerations keeps the name, but it
is read by name from the runtime type upward, so that a field of that name below the base hides
it. -/
namespace PauseFlow

namespace FilteredQuery

variable {Answer Next : Type}

/-- If what follows does not depend on what the filter has learnt, the filter can be left out. -/
theorem startingFrom_bind {query : FilteredQuery Answer} {next : Answer → FilteredQuery Next}
    {results : Answer → Query Next} (filter : LoaderFilter)
    (rest : ∀ answer learnt, (next answer).startingFrom learnt = results answer) :
    (query >>= next).startingFrom filter = query.startingFrom filter >>= results := by
  funext session
  refine (run_startingFrom_bind query next filter session).trans ?_
  refine Eq.trans ?_ (PauseM.run_bind _ _ session).symm
  rcases ran : (query.run.run filter).run session with ⟨⟨_ | _, _⟩, _⟩
  · rw [run_startingFrom ran]
  · rename_i answer _
    rw [run_startingFrom ran]
    dsimp only
    rw [rest]

private theorem startingFrom_lift_bind (query : Query Answer) (next : Answer → FilteredQuery Next)
    (filter : LoaderFilter) : ((liftM query : FilteredQuery Answer) >>= next).startingFrom filter =
      query >>= fun answer => (next answer).startingFrom filter := by
  funext session
  refine (run_startingFrom_bind _ next filter session).trans ?_
  refine Eq.trans ?_ (PauseM.run_bind _ _ session).symm
  rw [run_lift]
  rcases query.run session with ⟨_ | _, _⟩ <;> rfl

end FilteredQuery

private theorem LoaderFilter.accepts_composed (loader : Option ObjectId) (filter : LoaderFilter) :
    ((accepts loader).startingFrom filter).Composed := by
  cases loader with
  | none => exact .pure true
  | some target =>
    by_cases own : filter.frameLoader = some target
    · have runs : (accepts (some target)).startingFrom filter = pure true := by
        funext session
        exact FilteredQuery.run_startingFrom
          ((run_accepts target filter session).trans (if_pos own))
      exact runs ▸ .pure true
    · cases known : filter.chain with
      | some chain =>
        have runs : (accepts (some target)).startingFrom filter =
            pure (decide (target ∈ chain)) := by
          funext session
          have whole := run_accepts target filter session
          simp only [own, if_false, known] at whole
          exact FilteredQuery.run_startingFrom whole
        exact runs ▸ .pure _
      | none =>
        have runs : (accepts (some target)).startingFrom filter =
            (fun chain => decide (target ∈ chain)) <$> readChain filter.frameLoader := by
          funext session
          have whole := run_accepts target filter session
          simp only [own, if_false, known] at whole
          refine Eq.trans ?_ (PauseM.run_map _ _ session).symm
          rcases ran : (readChain filter.frameLoader).run session with ⟨_ | _, _⟩
          all_goals
            rw [ran] at whole
            exact FilteredQuery.run_startingFrom whole
        exact runs ▸ .bind (readChain_strict _).composed fun _ => .pure _

/-- The text of a string object that is live. -/
def Heap.text? (heap : Heap) : LiveValue → Option String
  | .object ref => (heap.instance? ref.id).bind (·.text)
  | _ => none

/-- What is known of a type and of the enumeration that objects of the type are cases of. A case
with a body has a type of its own right below its enumeration. -/
inductive Heap.CaseOf (heap : Heap) (id : TypeId) : TypeInfo → TypeInfo → Prop where
  | plain {type : LoadedType} (known : heap.type? id = some type)
      (isEnum : type.info.isEnum = true) : CaseOf heap id type.info type.info
  | withBody {type enumeration : LoadedType} {superclass : TypeId}
      (known : heap.type? id = some type) (anonymous : type.info.isEnum = false)
      (next : type.info.superclass = some superclass)
      (declared : heap.type? superclass = some enumeration)
      (isEnum : enumeration.info.isEnum = true) : CaseOf heap id type.info enumeration.info

private theorem Heap.CaseOf.known {heap : Heap} {id : TypeId} {info enumeration : TypeInfo}
    (isCase : heap.CaseOf id info enumeration) :
    ∃ type, heap.type? id = some type ∧ type.info = info := by
  cases isCase with
  | plain known _ => exact ⟨_, known, rfl⟩
  | withBody known _ _ _ _ => exact ⟨_, known, rfl⟩

/-- Above a type, over other ones, is the base of all enumerations. It declares the field that the
names of cases are kept in. -/
structure Heap.KeepsName (heap : Heap) (id : TypeId) (below : List LoadedType) (base : LoadedType)
    (field : FieldId) : Prop where
  climbs : heap.Climbs id below base.info.id
  known : heap.type? base.info.id = some base
  isBase : base.info.typeName = "java.lang.Enum"
  declares : base.field? "name" = some field

private theorem Heap.KeepsName.climbFrom {heap : Heap} {id : TypeId} {below : List LoadedType}
    {base : LoadedType} {field : FieldId} (keeps : heap.KeepsName id below base field) :
    heap.climbFrom (·.field? "name") id =
      .ok (some ((below.findSome? (·.field? "name")).getD field)) :=
  climbFrom_eq_some_iff.mpr (keeps.climbs.nearest (.here keeps.known keeps.declares))

namespace Snapshot

variable {heap : Heap} {id : ObjectId} {object : Instance}

private theorem startingFrom_ofObject (id : ObjectId) (filter : LoaderFilter) :
    (ofObject id).startingFrom filter =
      (Query.objectType id >>= Query.typeInfo) >>= fun info =>
        (LoaderFilter.accepts info.loader).startingFrom filter >>= fun visible =>
          if visible then some <$> ofVisibleObject id info else pure none := by
  refine (FilteredQuery.startingFrom_lift_bind _ _ _).trans ?_
  congr 1
  funext info
  refine FilteredQuery.startingFrom_bind filter fun visible learnt => ?_
  split
  · exact FilteredQuery.startingFrom_lift_bind _ _ _
  · rfl

private theorem ofObject_composed (id : ObjectId) (filter : LoaderFilter) :
    ((ofObject id).startingFrom filter).Composed := by
  rw [startingFrom_ofObject]
  refine .bind (typeOf_strict id).composed fun info => .bind (LoaderFilter.accepts_composed _ _) ?_
  intro visible
  split
  · exact .bind (ofVisibleObject_strict id info).composed fun _ => .pure _
  · exact .pure _

/-- An object whose type is accepted is classified as a visible one. -/
theorem ofObject_onHeap {type : LoadedType} {filter : LoaderFilter}
    (live : heap.instance? id = some object) (known : heap.type? object.typeId = some type)
    (accepted : ((LoaderFilter.accepts type.info.loader).startingFrom filter).onHeap heap =
      .ok true) : PauseM.onHeap ((ofObject id).startingFrom filter) heap =
        (PauseM.onHeap (ofVisibleObject id type.info) heap).map some := by
  have typed : PauseM.onHeap (Query.objectType id >>= Query.typeInfo) heap = .ok type.info := by
    refine (Query.Composed.onHeap_bind (.ask _ _) fun _ => .ask _ _).trans ?_
    simp [live, known, Query.orFail, Except.map, Except.bind]
  have shown : ∀ info visible, Query.Composed
      (if visible = true then some <$> ofVisibleObject id info else pure none) := by
    intro info visible
    split
    · exact .bind (ofVisibleObject_strict id info).composed fun _ => .pure _
    · exact .pure _
  rw [startingFrom_ofObject, (typeOf_strict id).composed.onHeap_bind fun info =>
    .bind (LoaderFilter.accepts_composed _ _) (shown info), typed]
  refine ((LoaderFilter.accepts_composed _ _).onHeap_bind (shown _)).trans ?_
  rw [accepted]
  exact (ofVisibleObject_strict id type.info).composed.onHeap_map some

/-- The name of a case is read from the nearest type that has a field of that name. -/
theorem ofEnumCase_onHeap_iff {enumeration : TypeInfo} {field : FieldId} {text : String}
    (live : heap.instance? id = some object)
    (nearest : heap.climbFrom (·.field? "name") object.typeId = .ok (some field)) :
    PauseM.onHeap (ofEnumCase id enumeration) heap =
        .ok (.enumCase enumeration.signature text) ↔
      heap.text? (object.value field) = some text := by
  have named : PauseM.onHeap (ofEnumCase id enumeration) heap =
      match object.value field with
      | .object name => (PauseM.onHeap (Query.stringText name.id) heap).map
          (.enumCase enumeration.signature)
      | _ => .ok (.object enumeration.signature) := by
    refine ((readField_strict id "name").composed.onHeap_bind fun value => ?_).trans ?_
    · split
      · exact .bind (.ask _ _) fun _ => .pure _
      · exact .pure _
    rw [Query.readField_onHeap live, nearest]
    simp only [Except.map, Except.bind, Option.map_some]
    cases object.value field with
    | object name => exact Query.Composed.onHeap_map (.ask _ _) _
    | _ => rfl
  rw [named]
  cases object.value field with
  | object name =>
    simp only [Query.stringText, Query.onHeap_ask, Heap.text?]
    cases heap.instance? name.id with
    | none => simp [Query.orFail, Except.map, Except.bind]
    | some string => cases read : string.text <;>
        simp [Query.orFail, Except.map, Except.bind, read]
  | _ => simp [Heap.text?]

private theorem declaringEnum?_onHeap {typeId : TypeId} {info enumeration : TypeInfo}
    (isCase : heap.CaseOf typeId info enumeration) :
    PauseM.onHeap (declaringEnum? info) heap = .ok (some enumeration) := by
  unfold declaringEnum?
  cases isCase with
  | plain known isEnum => simp [isEnum]
  | withBody known anonymous next declared isEnum =>
    simp only [anonymous, Bool.false_eq_true, if_false, next]
    refine (Query.Composed.onHeap_bind (.ask _ _) fun _ => .pure _).trans ?_
    simp [declared, isEnum, Query.orFail, Except.map, Except.bind]

private theorem ofVisibleObject_onHeap_iff {info enumeration : TypeInfo} {field : FieldId}
    {text : String} (live : heap.instance? id = some object)
    (isCase : heap.CaseOf object.typeId info enumeration)
    (nearest : heap.climbFrom (·.field? "name") object.typeId = .ok (some field)) :
    PauseM.onHeap (ofVisibleObject id info) heap = .ok (.enumCase enumeration.signature text) ↔
      (info.signature ≠ Signature.string ∧ info.signature.toList.head? ≠ some '[') ∧
        heap.text? (object.value field) = some text := by
  have otherwise : ∀ steps : Query Snapshot,
      steps.Yields (· ≠ .enumCase enumeration.signature text) →
      PauseM.onHeap steps heap ≠ .ok (.enumCase enumeration.signature text) :=
    fun steps never named => never (.ofHeap heap) _ _ (Prod.ext named rfl) rfl
  unfold ofVisibleObject
  by_cases string : info.signature = Signature.string
  · rw [if_pos string]
    exact iff_of_false (otherwise _ (.bind fun _ => .pure nofun)) fun plain => plain.1.1 string
  rw [if_neg string]
  by_cases array : info.signature.toList.head? = some '['
  · rw [if_pos array]
    exact iff_of_false (otherwise _ (.bind fun _ => .pure nofun)) fun plain => plain.1.2 array
  rw [if_neg array]
  have plain : PauseM.onHeap (ofPlainObject id info) heap =
      PauseM.onHeap (ofEnumCase id enumeration) heap := by
    refine ((declaringEnum?_strict info).composed.onHeap_bind fun declared => ?_).trans ?_
    · split
      · exact (ofEnumCase_strict id _).composed
      · split
        · exact (ofBox_strict id _ _).composed
        · split
          · exact (ofCollection_strict id _).composed
          · exact .pure _
    · rw [declaringEnum?_onHeap isCase]
      rfl
  rw [plain, ofEnumCase_onHeap_iff live nearest]
  exact ⟨fun named => ⟨⟨string, array⟩, named⟩, fun named => named.2⟩

/-- A case is called what the base of enumerations keeps for it, unless a type below the base has a
field of that name with another text. -/
theorem classify_enumCase_iff {session : Session} {filter : LoaderFilter} {ref : ObjectRef}
    {info enumeration : TypeInfo} {below : List LoadedType} {base : LoadedType} {field : FieldId}
    {text : String} (live : session.heap.instance? ref.id = some object)
    (isCase : session.heap.CaseOf object.typeId info enumeration)
    (keeps : session.heap.KeepsName object.typeId below base field)
    (kept : session.heap.text? (object.value field) = some text)
    (accepted : ((LoaderFilter.accepts info.loader).startingFrom filter).onHeap session.heap =
      .ok true)
    (answered : session.AnsweredUntil
      (((classify (.object ref)).startingFrom filter).run session).2) :
    (((classify (.object ref)).startingFrom filter).run session).1 =
        .ok (some (.enumCase enumeration.signature text)) ↔
      (info.signature ≠ Signature.string ∧ info.signature.toList.head? ≠ some '[') ∧
        ∀ hider, below.findSome? (·.field? "name") = some hider →
          session.heap.text? (object.value hider) = some text := by
  obtain ⟨type, known, rfl⟩ := isCase.known
  have shown := ofObject_onHeap live known accepted
  rw [← (ofObject_composed ref.id filter).fst_run answered] at shown
  have taken : (((classify (.object ref)).startingFrom filter).run session).1 =
      .ok (some (.enumCase enumeration.signature text)) ↔
      PauseM.onHeap (ofVisibleObject ref.id type.info) session.heap =
        .ok (.enumCase enumeration.signature text) := by
    refine Iff.trans (Eq.congr_left shown) ?_
    cases PauseM.onHeap (ofVisibleObject ref.id type.info) session.heap <;> simp [Except.map]
  rw [taken, ofVisibleObject_onHeap_iff live isCase keeps.climbFrom]
  refine and_congr_right fun _ => ?_
  cases hidden : below.findSome? (·.field? "name") with
  | none => simpa using kept
  | some hider => simp

/-- The base of all enumerations. -/
def enumBase : LoadedType := ⟨⟨1, Heap.enumSignature, none, none, false⟩, [(2, "name")]⟩

/-- An enumeration that has a field `name` of its own. -/
def operatorType : LoadedType := ⟨⟨3, "LOperator;", none, some 1, true⟩, [(7, "name")]⟩

/-- A case called `PLUS`. The field of its own says `plus`. -/
def operatorHeap : Heap where
  lastId := 8
  types := [⟨⟨6, Signature.string, none, none, false⟩, []⟩, operatorType, enumBase]
  instances := [⟨4, 3, [(7, .object ⟨8, ""⟩), (2, .object ⟨5, ""⟩)], none, none⟩,
    ⟨8, 6, [], some "plus", none⟩, ⟨5, 6, [], some "PLUS", none⟩]
  frames := []
  assertions := []

theorem classify_enumCase_hiddenName :
    (((classify (.object ⟨4, ""⟩)).startingFrom (.ofLoader none)).run (.ofHeap operatorHeap)).1 ≠
      .ok (some (.enumCase operatorType.info.signature "PLUS")) := by
  have isCase : operatorHeap.CaseOf 3 operatorType.info operatorType.info := .plain rfl rfl
  have keeps : operatorHeap.KeepsName 3 [operatorType] enumBase 2 :=
    ⟨.up rfl rfl (.here 1), rfl, by decide +kernel, rfl⟩
  refine mt (classify_enumCase_iff rfl isCase keeps rfl rfl
    (Session.answeredUntil_ofHeap _ _)).mp fun unhidden => ?_
  exact absurd (unhidden.2 7 rfl) (by decide +kernel)

end Snapshot

end PauseFlow
