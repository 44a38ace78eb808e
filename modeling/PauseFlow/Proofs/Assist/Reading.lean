import PauseFlow.Assist.LiveVariables
import PauseFlow.Proofs.Debuggee.Strict

namespace PauseFlow

/-- Go on without a value when an object is gone while a field of it is read. -/
def Conduct.resolving : Conduct where
  asks _ := True
  forgives question fault := question.isOfField ∧ fault.isCollected

namespace Query

open PauseM.Follows

private theorem fieldOfLive_follows (object : ObjectId) (name : String) :
    (fieldOfLive object name).Follows .resolving := by
  refine (readField_strict object name).follows.tryCatch
    (Conduct.within_strict fun _ => trivial) fun fault => ?_
  by_cases collected : fault.isCollected
  · exact .inl ⟨fun asks => ⟨asks, collected⟩, by simpa [collected] using .pure none⟩
  · exact .inr (by simp [collected])

private theorem liveValueWithin_follows (frame : FrameRef) (registry : Variables) (steps : Nat)
    (var : Var) : (liveValueWithin frame registry steps var).Follows .resolving := by
  induction steps generalizing var with
  | zero => exact .pure _
  | succ steps ih =>
    unfold liveValueWithin
    split
    · exact .ask trivial _
    · exact .bind (.ask trivial _) fun _ => .pure _
    · refine .bind (ih _) fun value => ?_
      split
      · exact fieldOfLive_follows _ _
      · exact .pure _
    · exact .pure _

private theorem assertionsDisabled_follows (frame : FrameRef) :
    (assertionsDisabled frame).Follows .resolving :=
  .bind (.ask trivial _) fun _ => .bind (.ask trivial _) fun _ => .pure _

end Query

namespace Aliases

open PauseM.Follows

private theorem valueOf_follows (frame : FrameRef) (registry : Variables) (var : Var) :
    (valueOf frame registry var).Follows .resolving := by
  unfold valueOf
  split
  · exact .map _ (Query.assertionsDisabled_follows frame)
  · exact Query.liveValueWithin_follows frame registry _ var

private theorem resolveAll_follows (frame : FrameRef) (registry : Variables) (aliases : Aliases)
    (vars : List Var) : (resolveAll frame registry aliases vars).Follows .resolving := by
  induction vars generalizing aliases with
  | nil => exact .pure _
  | cons var rest ih =>
    refine .bind (valueOf_follows frame registry var) fun value => ?_
    split
    · exact ih _
    · exact ih _
    · exact ih _

theorem resolve_follows (frame : FrameRef) (registry : Variables) :
    (resolve frame registry).Follows .resolving :=
  resolveAll_follows frame registry _ _

end Aliases

end PauseFlow
