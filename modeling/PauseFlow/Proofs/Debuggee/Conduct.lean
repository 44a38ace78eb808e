import PauseFlow.Assist.Failure
import PauseFlow.Proofs.Debuggee.Asking

/-! How steps of a pause deal with faults. Steps with a conduct ask certain questions only. They go
on after a fault if the conduct forgives it, and otherwise they fail with it at once. -/
namespace PauseFlow

/-- What steps may ask, and the faults after which they may go on. -/
structure Conduct where
  asks : Question → Prop
  forgives : Question → Fault → Prop

namespace Conduct

/-- Ask certain questions and go on after no fault. -/
def strict (asks : Question → Prop) : Conduct := ⟨asks, fun _ _ => False⟩

/-- A query after which the steps go on. -/
def Allows (conduct : Conduct) (record : QueryRecord) : Prop :=
  conduct.asks record.question ∧
    ∀ fault, record.fault = some fault → conduct.forgives record.question fault

/-- The latest query ended in a fault; after those before it the steps went on. -/
def Blames (conduct : Conduct) (made : List QueryRecord) (fault : Fault) : Prop :=
  ∃ last earlier, made = last :: earlier ∧ conduct.asks last.question ∧
    last.fault = some fault ∧ ∀ record ∈ earlier, conduct.Allows record

/-- One conduct allows less than another one. -/
structure Within (narrow wide : Conduct) : Prop where
  asks : ∀ {question}, narrow.asks question → wide.asks question
  forgives : ∀ {question fault}, narrow.asks question → narrow.forgives question fault →
    wide.forgives question fault

theorem within_strict {asks : Question → Prop} {conduct : Conduct}
    (asked : ∀ {question}, asks question → conduct.asks question) :
    (strict asks).Within conduct where
  asks := asked
  forgives _ forgiven := forgiven.elim

variable {narrow wide : Conduct}

theorem Within.allows (within : narrow.Within wide) {record : QueryRecord}
    (allowed : narrow.Allows record) : wide.Allows record :=
  ⟨within.asks allowed.1, fun fault failed => within.forgives allowed.1 (allowed.2 fault failed)⟩

theorem Within.blames (within : narrow.Within wide) {made : List QueryRecord} {fault : Fault}
    (blames : narrow.Blames made fault) : wide.Blames made fault := by
  obtain ⟨last, earlier, made, asked, failed, allowed⟩ := blames
  exact ⟨last, earlier, made, within.asks asked, failed,
    fun record member => within.allows (allowed record member)⟩

/-- A fault that ended steps is forgiven by steps around them. -/
theorem Blames.forgiven (within : narrow.Within wide) {made : List QueryRecord} {fault : Fault}
    (blames : narrow.Blames made fault)
    (forgives : ∀ {question}, narrow.asks question → wide.forgives question fault) :
    ∀ record ∈ made, wide.Allows record := by
  obtain ⟨last, earlier, rfl, asked, failed, allowed⟩ := blames
  intro record member
  rcases List.mem_cons.mp member with rfl | before
  · refine ⟨within.asks asked, fun cause caused => ?_⟩
    rw [← Option.some.inj (failed.symm.trans caused)]
    exact forgives asked
  · exact within.allows (allowed record before)

theorem Blames.append {conduct : Conduct} {first later : List QueryRecord} {fault : Fault}
    (start : ∀ record ∈ first, conduct.Allows record) (blames : conduct.Blames later fault) :
    conduct.Blames (later ++ first) fault := by
  obtain ⟨last, earlier, rfl, asked, failed, allowed⟩ := blames
  exact ⟨last, earlier ++ first, rfl, asked, failed, List.forall_mem_append.mpr ⟨allowed, start⟩⟩

end Conduct

/-- Failures among which those of queries can be found. -/
class OfFault (Failure : Type) where
  ofFault : Fault → Failure

instance : OfFault Fault := ⟨id⟩

instance : OfFault AssistFailure := ⟨.remote⟩

/-- How the queries made fit the answer of steps that may also fail in ways of their own. -/
def Conduct.Accounts {Failure Answer : Type} [OfFault Failure] (conduct : Conduct)
    (refuses : Failure → Prop) (made : List QueryRecord) : Except Failure Answer → Prop
  | .ok _ => ∀ record ∈ made, conduct.Allows record
  | .error failure =>
    (refuses failure ∧ ∀ record ∈ made, conduct.Allows record) ∨
      ∃ fault, failure = OfFault.ofFault fault ∧ conduct.Blames made fault

/-- Whatever the session, the steps only make queries, and these account for the answer. -/
def PauseM.Follows {Failure Answer : Type} [OfFault Failure] (steps : PauseM Failure Answer)
    (conduct : Conduct) (refuses : Failure → Prop) : Prop :=
  ∀ session, ∃ made, session.Asks made (steps.run session).2 ∧
    conduct.Accounts refuses made (steps.run session).1

/-- Queries only fail with the fault of one of them. -/
abbrev Query.Follows {Answer : Type} (query : Query Answer) (conduct : Conduct) : Prop :=
  PauseM.Follows query conduct fun _ => False

section Rules

variable {Failure Answer Next : Type} {conduct : Conduct}

theorem PauseM.run_bind (steps : PauseM Failure Answer) (next : Answer → PauseM Failure Next)
    (session : Session) : (steps >>= next).run session =
      match steps.run session with
      | (.ok answer, after) => (next answer).run after
      | (.error failure, after) => (.error failure, after) := by
  change ExceptT.bindCont next (steps.run session).1 (steps.run session).2 = _
  rcases steps.run session with ⟨_ | _, _⟩ <;> rfl

theorem PauseM.run_map (value : Answer → Next) (steps : PauseM Failure Answer) (session : Session) :
    (value <$> steps).run session =
      match steps.run session with
      | (.ok answer, after) => (.ok (value answer), after)
      | (.error failure, after) => (.error failure, after) :=
  run_bind steps (fun answer => pure (value answer)) session

theorem PauseM.exists_of_bind {steps : PauseM Failure Answer} {next : Answer → PauseM Failure Next}
    {session after : Session} {result : Next}
    (ran : (steps >>= next).run session = (.ok result, after)) :
    ∃ answer middle, steps.run session = (.ok answer, middle) ∧
      (next answer).run middle = (.ok result, after) := by
  rw [run_bind] at ran
  split at ran
  · rename_i answer middle first
    exact ⟨answer, middle, first, ran⟩
  · cases ran

theorem PauseM.run_tryCatch (steps : PauseM Failure Answer)
    (handler : Failure → PauseM Failure Answer) (session : Session) :
    (tryCatch steps handler).run session =
      match steps.run session with
      | (.ok answer, after) => (.ok answer, after)
      | (.error failure, after) => (handler failure).run after := by
  change (match (steps.run session).1 with
    | .ok answer => Pure.pure (Except.ok answer)
    | .error failure => handler failure : StateM Session (Except Failure Answer))
      (steps.run session).2 = _
  rcases steps.run session with ⟨_ | _, _⟩ <;> rfl

theorem Assist.run_lift (query : Query Answer) (session : Session) :
    (liftM query : Assist Answer).run session =
      match query.run session with
      | (.ok answer, after) => (.ok answer, after)
      | (.error fault, after) => (.error (.remote fault), after) := by
  rcases ran : query.run session with ⟨_ | _, _⟩
  all_goals
    simp only [liftM, monadLift, MonadLift.monadLift, ExceptT.run_mk]
    simp only [bind, StateT.bind, ran]
    rfl

theorem Assist.exists_of_lift {query : Query Answer} {session after : Session} {answer : Answer}
    (ran : (liftM query : Assist Answer).run session = (.ok answer, after)) :
    query.run session = (.ok answer, after) := by
  rw [run_lift] at ran
  split at ran
  · rename_i answered
    cases ran
    exact answered
  · cases ran

theorem Query.exists_record_of_ask {question : Question} {answer : Heap → Except Fault Answer}
    {session after : Session} {result : Except Fault Answer}
    (ran : (Query.ask question answer).run session = (result, after)) :
    ∃ record : QueryRecord, session.Asks [record] after ∧ record.question = question := by
  obtain ⟨record, asked, same, _⟩ := session.asks_ask question answer
  have ended : session.ask question answer = (result, after) := ran
  rw [ended] at asked
  exact ⟨record, asked, same⟩

namespace PauseM.Follows

variable [OfFault Failure] {refuses : Failure → Prop}

/-- Steps succeed after queries that are allowed, or they fail in a way of their own, or with the
fault of the latest query. -/
theorem cases {steps : PauseM Failure Answer} (follows : steps.Follows conduct refuses)
    (session : Session) : ∃ made after, session.Asks made after ∧
      ((∃ answer, steps.run session = (.ok answer, after) ∧
          ∀ record ∈ made, conduct.Allows record) ∨
        (∃ failure, steps.run session = (.error failure, after) ∧ refuses failure ∧
          ∀ record ∈ made, conduct.Allows record) ∨
        ∃ fault, steps.run session = (.error (OfFault.ofFault fault), after) ∧
          conduct.Blames made fault) := by
  obtain ⟨made, asked, accounts⟩ := follows session
  refine ⟨made, _, asked, ?_⟩
  cases answer : (steps.run session).1 with
  | ok value =>
    rw [answer] at accounts
    exact .inl ⟨value, Prod.ext answer rfl, accounts⟩
  | error failure =>
    rw [answer] at accounts
    rcases accounts with ⟨refused, allowed⟩ | ⟨fault, same, blames⟩
    · exact .inr (.inl ⟨failure, Prod.ext answer rfl, refused, allowed⟩)
    · exact .inr (.inr ⟨fault, Prod.ext (answer.trans (congrArg _ same)) rfl, blames⟩)

theorem pure (answer : Answer) :
    (Pure.pure answer : PauseM Failure Answer).Follows conduct refuses := fun session =>
  ⟨[], .refl session, fun _ member => nomatch member⟩

theorem get : (MonadStateOf.get : PauseM Failure Session).Follows conduct refuses := fun session =>
  ⟨[], .refl session, fun _ member => nomatch member⟩

theorem throw {failure : Failure} (refused : refuses failure) :
    (MonadExcept.throw failure : PauseM Failure Answer).Follows conduct refuses := fun session =>
  ⟨[], .refl session, .inl ⟨refused, fun _ member => nomatch member⟩⟩

theorem throw_bind {failure : Failure} {next : Answer → PauseM Failure Next}
    (refused : refuses failure) :
    (MonadExcept.throw failure >>= next).Follows conduct refuses := fun session =>
  ⟨[], .refl session, .inl ⟨refused, fun _ member => nomatch member⟩⟩

/-- After steps that went well, others go on. -/
theorem onward {steps : PauseM Failure Answer} (follows : steps.Follows conduct refuses)
    {before middle : Session} {made : List QueryRecord} (asked : before.Asks made middle)
    (allowed : ∀ record ∈ made, conduct.Allows record) :
    ∃ made, before.Asks made (steps.run middle).2 ∧
      conduct.Accounts refuses made (steps.run middle).1 := by
  obtain ⟨later, after, rest, ⟨answer, ran, fine⟩ | ⟨failure, ran, refused, fine⟩ |
    ⟨fault, ran, blames⟩⟩ := follows.cases middle
  -- The journal has the latest query first, so the later queries stand before the earlier ones.
  all_goals rw [ran]; refine ⟨later ++ made, asked.trans rest, ?_⟩
  · exact List.forall_mem_append.mpr ⟨fine, allowed⟩
  · exact .inl ⟨refused, List.forall_mem_append.mpr ⟨fine, allowed⟩⟩
  · exact .inr ⟨fault, rfl, blames.append allowed⟩

theorem bind {steps : PauseM Failure Answer} {next : Answer → PauseM Failure Next}
    (first : steps.Follows conduct refuses)
    (rest : ∀ answer, (next answer).Follows conduct refuses) :
    (steps >>= next).Follows conduct refuses := by
  intro session
  rw [run_bind]
  obtain ⟨made, after, asked, ⟨answer, ran, allowed⟩ | ⟨failure, ran, refused, allowed⟩ |
    ⟨fault, ran, blames⟩⟩ := first.cases session
  all_goals rw [ran]
  · exact (rest answer).onward asked allowed
  · exact ⟨made, asked, .inl ⟨refused, allowed⟩⟩
  · exact ⟨made, asked, .inr ⟨fault, rfl, blames⟩⟩

theorem map {steps : PauseM Failure Answer} (value : Answer → Next)
    (follows : steps.Follows conduct refuses) : (value <$> steps).Follows conduct refuses :=
  follows.bind fun answer => .pure (value answer)

end PauseM.Follows

theorem Query.Follows.cases {query : Query Answer} (follows : query.Follows conduct)
    (session : Session) : ∃ made after, session.Asks made after ∧
      ((∃ answer, query.run session = (.ok answer, after) ∧
          ∀ record ∈ made, conduct.Allows record) ∨
        ∃ fault, query.run session = (.error fault, after) ∧ conduct.Blames made fault) := by
  obtain ⟨made, after, asked, fine | refused | failed⟩ := PauseM.Follows.cases follows session
  · exact ⟨made, after, asked, .inl fine⟩
  · obtain ⟨_, _, impossible, _⟩ := refused
    exact impossible.elim
  · exact ⟨made, after, asked, .inr failed⟩

namespace PauseM.Follows

/-- A query whose question may be asked passes every fault on. -/
theorem ask {question : Question} (asks : conduct.asks question)
    (answer : Heap → Except Fault Answer) : (Query.ask question answer).Follows conduct := by
  intro session
  obtain ⟨record, asked, same, answered⟩ := session.asks_ask question answer
  refine ⟨[record], asked, ?_⟩
  change conduct.Accounts _ [record] (session.ask question answer).1
  cases result : (session.ask question answer).1 with
  | ok value =>
    intro one member
    rw [List.mem_singleton.mp member]
    refine ⟨same ▸ asks, fun fault failed => ?_⟩
    exact absurd ((answered fault).mp failed) (by simp [result])
  | error fault =>
    exact .inr ⟨fault, rfl, record, [], rfl, same ▸ asks, (answered fault).mpr result,
      fun _ member => nomatch member⟩

/-- Faults are caught: steps go on after those that are forgiven, and pass the others on. -/
theorem tryCatch {narrow : Conduct} {query : Query Answer} {handler : Fault → Query Answer}
    (follows : query.Follows narrow) (within : narrow.Within conduct)
    (handled : ∀ fault, ((∀ {question}, narrow.asks question → conduct.forgives question fault) ∧
      (handler fault).Follows conduct) ∨ handler fault = MonadExcept.throw fault) :
    (MonadExcept.tryCatch query handler).Follows conduct := by
  intro session
  rw [PauseM.run_tryCatch]
  obtain ⟨made, after, asked, ⟨answer, ran, allowed⟩ | ⟨fault, ran, blames⟩⟩ :=
    follows.cases session
  all_goals rw [ran]; dsimp only
  · exact ⟨made, asked, fun record member => within.allows (allowed record member)⟩
  · rcases handled fault with ⟨forgives, follows⟩ | rethrown
    · exact follows.onward asked (blames.forgiven within forgives)
    · rw [rethrown]
      exact ⟨made, asked, Or.inr ⟨fault, rfl, within.blames blames⟩⟩

/-- Queries as steps of the assist. -/
theorem lift {query : Query Answer} {refuses : AssistFailure → Prop}
    (follows : query.Follows conduct) :
    (liftM query : Assist Answer).Follows conduct refuses := by
  intro session
  rw [Assist.run_lift]
  obtain ⟨made, after, asked, ⟨answer, ran, allowed⟩ | ⟨fault, ran, blames⟩⟩ :=
    follows.cases session
  all_goals rw [ran]
  · exact ⟨made, asked, allowed⟩
  · exact ⟨made, asked, .inr ⟨fault, rfl, blames⟩⟩

end PauseM.Follows

end Rules

end PauseFlow
