import PauseFlow.Proofs.Debuggee.Walking

namespace PauseFlow

/-- The type that a question is about. -/
def Question.type? : Question → Option TypeId
  | .typeInfo id => some id
  | .fieldByName id _ => some id
  | _ => none

/-- A type is on the way up from another one. -/
def Heap.IsAbove (heap : Heap) (id upper : TypeId) : Prop := ∃ below, heap.Climbs id below upper

/-- What the heap says of a type leads on to its superclass. -/
theorem Heap.IsAbove.onward {heap : Heap} {id upper : TypeId} {info : TypeInfo}
    (above : heap.IsAbove id upper)
    (answered : (Query.orFail (heap.type? upper) (.unknownType upper)).map (·.info) = .ok info) :
    ∀ parent ∈ info.superclass, heap.IsAbove id parent := by
  intro parent next
  cases known : heap.type? upper with
  | none =>
    rw [known] at answered
    cases answered
  | some type =>
    rw [known] at answered
    cases answered
    obtain ⟨below, climbs⟩ := above
    exact ⟨_, climbs.snoc known next⟩

/-- Whatever session over the heap they start in, queries only ask, and what they ask, the latest
first, is as described. -/
def Query.Poses {Answer : Type} (query : Query Answer) (heap : Heap)
    (described : List Question → Prop) : Prop :=
  ∀ session : Session, session.heap = heap → ∃ made,
    session.Advances made (query.run session).2 ∧ described (made.map (·.question))

namespace Query.Poses

variable {Answer Next : Type} {heap : Heap} {described wide : List Question → Prop}

theorem pure (answer : Answer) (silent : described []) :
    Query.Poses (Pure.pure answer) heap described :=
  fun session _ => ⟨[], .refl session, silent⟩

theorem mono {query : Query Answer} (poses : query.Poses heap described)
    (wider : ∀ {questions}, described questions → wide questions) : query.Poses heap wide := by
  intro session same
  obtain ⟨made, advances, asked⟩ := poses session same
  exact ⟨made, advances, wider asked⟩

end Query.Poses

/-- What a walk asks, the latest first: nothing twice, and only about types on the way up that it
has not visited before, or for the value of a field. -/
structure Heap.Visits (heap : Heap) (id : TypeId) (visited : List TypeId)
    (questions : List Question) : Prop where
  distinct : questions.Nodup
  upward : ∀ question ∈ questions, ∀ upper, question.type? = some upper →
    upper ∉ visited ∧ heap.IsAbove id upper
  others : ∀ question ∈ questions, question.type? = none →
    ∃ object field, question = .fieldValue object field

namespace Heap.Visits

variable {heap : Heap} {id upper : TypeId} {visited : List TypeId} {asked later : List Question}

private theorem nil : heap.Visits id visited [] where
  distinct := .nil
  upward _ member := nomatch member
  others _ member := nomatch member

private theorem fieldValue (object : ObjectId) (field : FieldId) :
    heap.Visits id visited [.fieldValue object field] where
  distinct := List.nodup_singleton _
  upward question member upper about := by
    rw [List.mem_singleton.mp member] at about
    cases about
  others question member _ := ⟨object, field, List.mem_singleton.mp member⟩

/-- A walk visits a new type, and then others. -/
theorem visit (rest : heap.Visits id (upper :: visited) later) (above : heap.IsAbove id upper)
    (fresh : upper ∉ visited) (about : ∀ question ∈ asked, question.type? = some upper)
    (distinct : asked.Nodup) : heap.Visits id visited (later ++ asked) where
  distinct := by
    refine rest.distinct.append distinct fun question after before => ?_
    exact (rest.upward question after upper (about question before)).1 List.mem_cons_self
  upward question member type named := by
    rcases List.mem_append.mp member with after | before
    · obtain ⟨new, above⟩ := rest.upward question after type named
      exact ⟨mt (List.mem_cons_of_mem upper) new, above⟩
    · cases (about question before).symm.trans named
      exact ⟨fresh, above⟩
  others question member unnamed := by
    rcases List.mem_append.mp member with after | before
    · exact rest.others question after unnamed
    · rw [about question before] at unnamed
      cases unnamed

end Heap.Visits

namespace Query

variable {heap : Heap}

end Query

namespace Query

private theorem readField_of_unknown {heap : Heap} {id : ObjectId} (name : String)
    (missing : heap.instance? id = none) :
    PauseM.onHeap (readField id name) heap = .error (.unknownObject id) := by
  refine (Composed.onHeap_bind (.ask _ _) fun type => .bind walkSteps_strict.composed fun _ =>
    (readFieldWithin_strict _ _ _ _ _).composed).trans ?_
  rw [onHeap_ask, missing]
  rfl

theorem readField_ok_iff {heap : Heap} {id : ObjectId} {name : String}
    {value : Option LiveValue} :
    PauseM.onHeap (readField id name) heap = .ok value ↔
      ∃ object field, heap.instance? id = some object ∧
        heap.Concludes (·.field? name) object.typeId (.ok field) ∧
          value = field.map object.value := by
  cases live : heap.instance? id with
  | none =>
    rw [readField_of_unknown name live]
    simp
  | some object =>
    have read : (heap.climbFrom (·.field? name) object.typeId).map (Option.map object.value) =
        .ok value ↔ ∃ field, heap.climbFrom (·.field? name) object.typeId = .ok field ∧
          value = field.map object.value := by
      cases heap.climbFrom (·.field? name) object.typeId <;> simp [Except.map, eq_comm]
    rw [readField_onHeap live, read]
    simp only [Heap.climbFrom_eq_iff]
    exact ⟨fun ⟨field, concludes, same⟩ => ⟨object, field, rfl, concludes, same⟩,
      fun ⟨_, field, same, concludes, read⟩ => by cases same; exact ⟨field, concludes, read⟩⟩

end Query

end PauseFlow
