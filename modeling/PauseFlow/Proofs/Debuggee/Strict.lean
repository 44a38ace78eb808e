import PauseFlow.Debuggee.Superclass
import PauseFlow.Proofs.Debuggee.Conduct

namespace PauseFlow

/-- What is asked on the way to the value of a field. -/
def Question.isOfField : Question → Bool
  | .objectType _ => true
  | .typeInfo _ => true
  | .fieldByName _ _ => true
  | .fieldValue _ _ => true
  | _ => false

namespace Query

/-- Certain questions are asked, one after the other, until one of them fails. -/
inductive Strict (asks : Question → Prop) : {Answer : Type} → Query Answer → Prop where
  | pure {Answer : Type} (answer : Answer) : Strict asks (Pure.pure answer : Query Answer)
  | ask {Answer : Type} {question : Question} (asked : asks question)
      (answer : Heap → Except Fault Answer) : Strict asks (Query.ask question answer)
  | look {Answer : Type} (next : Heap → Query Answer) (rest : ∀ heap, Strict asks (next heap)) :
      Strict asks (MonadStateOf.get >>= fun session : Session => next session.heap)
  | bind {Answer Next : Type} {query : Query Answer} {next : Answer → Query Next}
      (first : Strict asks query) (rest : ∀ answer, Strict asks (next answer)) :
      Strict asks (query >>= next)

namespace Strict

variable {asks wide : Question → Prop} {Answer Next : Type} {query : Query Answer}

theorem map (value : Answer → Next) (strict : query.Strict asks) :
    Strict asks (value <$> query) :=
  strict.bind fun answer => .pure (value answer)

theorem mono (strict : query.Strict asks) (within : ∀ {question}, asks question → wide question) :
    query.Strict wide := by
  induction strict with
  | pure answer => exact .pure answer
  | ask asked answer => exact .ask (within asked) answer
  | look next rest ih => exact .look next ih
  | bind first rest ihFirst ihRest => exact .bind ihFirst ihRest

/-- No fault is forgiven. -/
theorem follows (strict : query.Strict asks) : query.Follows (.strict asks) := by
  induction strict with
  | pure answer => exact PauseM.Follows.pure answer
  | ask asked answer => exact PauseM.Follows.ask asked answer
  | look next rest ih => exact PauseM.Follows.bind .get fun session => ih session.heap
  | bind first rest ihFirst ihRest => exact PauseM.Follows.bind ihFirst ihRest

end Strict

theorem walkSteps_strict : walkSteps.Strict (·.isOfField) :=
  .look (fun heap => pure (heap.types.length + 1)) fun _ => .pure _

theorem findSupertypeWithin_strict (name : String) (steps : Nat) (visited : List TypeId)
    (next : Option TypeId) :
    (findSupertypeWithin name steps visited next).Strict (·.isOfField) := by
  fun_induction findSupertypeWithin name steps visited next with
  | case1 => exact .pure _
  | case2 => exact .pure _
  | case3 => exact .pure _
  | case4 steps visited id fresh ih =>
    refine .bind (.ask (by rfl) _) fun info => ?_
    split
    · exact .pure _
    · exact ih info

theorem findSupertype_strict (id : TypeId) (name : String) :
    (findSupertype id name).Strict (·.isOfField) :=
  .bind walkSteps_strict fun _ => findSupertypeWithin_strict _ _ _ _

theorem readFieldWithin_strict (object : ObjectId) (name : String) (steps : Nat)
    (visited : List TypeId) (next : Option TypeId) :
    (readFieldWithin object name steps visited next).Strict (·.isOfField) := by
  fun_induction readFieldWithin object name steps visited next with
  | case1 => exact .pure _
  | case2 => exact .pure _
  | case3 => exact .pure _
  | case4 steps visited id fresh ih =>
    refine .bind (.ask (by rfl) _) fun field => ?_
    split
    · exact .map _ (.ask (by rfl) _)
    · exact .bind (.ask (by rfl) _) fun info => ih info

theorem readField_strict (object : ObjectId) (name : String) :
    (readField object name).Strict (·.isOfField) :=
  .bind (.ask (by rfl) _) fun _ => .bind walkSteps_strict fun _ => readFieldWithin_strict _ _ _ _ _

end Query

end PauseFlow
