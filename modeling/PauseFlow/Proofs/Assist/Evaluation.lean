import PauseFlow.Assist.LiveVariables
import PauseFlow.Proofs.Debuggee.Ancestry
import PauseFlow.Proofs.Variable.Qualification

namespace PauseFlow

namespace Heap

/-- A field of what a variable holds: what reading it gives for a live object, and nothing for an
object that is gone and for what is no object. -/
def fieldOf (heap : Heap) (name : String) : Option LiveValue → Except Fault (Option LiveValue)
  | some (.object object) =>
    match heap.instance? object.id with
    | some _ => PauseM.onHeap (Query.readField object.id name) heap
    | none => .ok none
  | _ => .ok none

variable {heap : Heap}

/-- A walk fails only at a type that is not known. -/
theorem unknownType_of_climb {Found : Type} {test : LoadedType → Option Found} {steps : Nat}
    {visited : List TypeId} {start : Option TypeId} {fault : Fault}
    (failed : heap.climb test steps visited start = .error fault) :
    ∃ id, fault = .unknownType id := by
  fun_induction heap.climb test steps visited start with
  | case1 => cases failed
  | case2 => cases failed
  | case3 => cases failed
  | case4 steps visited id =>
    cases failed
    exact ⟨id, rfl⟩
  | case5 => cases failed
  | case6 _ _ _ _ _ _ _ ih => exact ih failed

end Heap

namespace Query

variable {heap : Heap} {frame : FrameRef} {registry : Variables} {var qualifier : Var}

private theorem fieldOfLive_composed (object : ObjectId) (name : String) :
    (fieldOfLive object name).Composed := by
  refine .tryCatch (readField_strict object name).composed fun fault => ?_
  split
  · exact .pure _
  · exact .throw _

theorem liveValueWithin_composed (frame : FrameRef) (registry : Variables) (steps : Nat)
    (var : Var) : (liveValueWithin frame registry steps var).Composed := by
  induction steps generalizing var with
  | zero => exact .pure _
  | succ steps ih =>
    unfold liveValueWithin
    split
    · exact .ask _ _
    · exact .bind (.ask _ _) fun _ => .pure _
    · refine .bind (ih _) fun value => ?_
      split
      · exact fieldOfLive_composed _ _
      · exact .pure _
    · exact .pure _

/-- A live object is not reported as collected. -/
theorem unknownType_of_readField {id : ObjectId} {object : Instance} {name : String} {fault : Fault}
    (live : heap.instance? id = some object)
    (failed : PauseM.onHeap (readField id name) heap = .error fault) :
    ∃ type, fault = .unknownType type := by
  rw [readField_onHeap live] at failed
  cases climbed : heap.climbFrom (·.field? name) object.typeId with
  | ok found => simp [climbed, Except.map] at failed
  | error cause =>
    simp only [climbed, Except.map, Except.error.injEq] at failed
    exact failed ▸ Heap.unknownType_of_climb climbed

private theorem fieldOfLive_onHeap (object : ObjectRef) (name : String) :
    PauseM.onHeap (fieldOfLive object.id name) heap =
      heap.fieldOf name (some (.object object)) := by
  have caught : ∀ fault : Fault, Query.Composed
      (if fault.isCollected then pure none else throw fault : Query (Option LiveValue)) := by
    intro fault
    split
    · exact .pure _
    · exact .throw _
  refine ((readField_strict object.id name).composed.onHeap_tryCatch caught).trans ?_
  cases live : heap.instance? object.id with
  | none =>
    have gone : PauseM.onHeap (readField object.id name) heap =
        .error (.unknownObject object.id) := by
      refine (Composed.onHeap_bind (.ask _ _) fun _ => .bind walkSteps_strict.composed fun _ =>
        (readFieldWithin_strict _ _ _ _ _).composed).trans ?_
      simp [live, orFail, Except.map, Except.bind]
    simp only [gone, Heap.fieldOf, live]
    rfl
  | some holder =>
    simp only [Heap.fieldOf, live]
    cases read : PauseM.onHeap (readField object.id name) heap with
    | ok value => rfl
    | error fault =>
      obtain ⟨type, rfl⟩ := unknownType_of_readField live read
      rfl

private theorem hangsOff_of_origin? {name : String}
    (origin : registry.origin? var = some (.field qualifier name)) :
    registry.HangsOff var qualifier := by
  obtain ⟨info, known, same⟩ := Option.map_eq_some_iff.mp origin
  exact ⟨info, known, by rw [same]; rfl⟩

/-- More steps than there are older variables make no difference. -/
theorem liveValueWithin_of_lt (ordered : registry.Ordered) {steps more : Nat}
    (enough : var.index < steps) (plenty : var.index < more) :
    liveValueWithin frame registry steps var = liveValueWithin frame registry more var := by
  induction steps generalizing var more with
  | zero => cases enough
  | succ steps ih =>
    obtain ⟨more, rfl⟩ := Nat.exists_eq_succ_of_ne_zero (Nat.ne_of_gt (Nat.zero_lt_of_lt plenty))
    unfold liveValueWithin
    split
    · rfl
    · rfl
    · rename_i qualifier name origin
      have older := ordered _ _ (hangsOff_of_origin? origin)
      have same : liveValueWithin frame registry steps qualifier =
          liveValueWithin frame registry more qualifier := ih (by omega) (by omega)
      rw [same]
    · rfl

private theorem liveValue_eq (ordered : registry.Ordered) {origin : Origin}
    (known : registry.origin? var = some origin) :
    liveValue frame registry var = liveValueWithin frame registry (var.index + 1) var := by
  obtain ⟨info, found, _⟩ := Option.map_eq_some_iff.mp known
  exact liveValueWithin_of_lt ordered (Variables.issued_iff.mpr ⟨info, found⟩)
    (Nat.lt_succ_self _)

/-- A field is read of what its qualifier holds. -/
theorem liveValue_of_field (ordered : registry.Ordered) {name : String}
    (origin : registry.origin? var = some (.field qualifier name)) :
    PauseM.onHeap (liveValue frame registry var) heap =
      (PauseM.onHeap (liveValue frame registry qualifier) heap).bind (heap.fieldOf name) := by
  have older := ordered _ _ (hangsOff_of_origin? origin)
  have issued : var.index < registry.size := (hangsOff_of_origin? origin).issued
  rw [liveValue_eq ordered origin, liveValue,
    liveValueWithin_of_lt ordered (older.trans issued) older, liveValueWithin, origin]
  refine ((liveValueWithin_composed _ _ _ _).onHeap_bind fun value => ?_).trans ?_
  · split
    · exact fieldOfLive_composed _ _
    · exact .pure _
  congr 1
  funext value
  split
  · exact fieldOfLive_onHeap _ _
  · rename_i other
    unfold Heap.fieldOf
    split
    · exact absurd rfl (other _)
    · rfl

end Query

namespace Aliases

end Aliases

end PauseFlow
