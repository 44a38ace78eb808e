import PauseFlow.Proofs.Debuggee.Quiet

/-! Queries that are answered. As long as the connection is kept and no query is made to fail,
queries read the heap, and what follows on them can be computed from it, also where faults are
caught. The user may cancel and edit meanwhile. -/
namespace PauseFlow

namespace Session

/-- The connection is kept, and no query from one session to a later one is made to fail. -/
structure AnsweredUntil (before after : Session) : Prop where
  connected : ∀ last, before.lastServed = some last → after.queries ≤ last
  unspoilt : ∀ number, before.queries < number → number ≤ after.queries →
    ∀ fault, .fault fault ∉ before.disturbancesAt number

variable {before middle after : Session} {made : List QueryRecord}

private theorem AnsweredUntil.start (answered : before.AnsweredUntil after)
    (rest : middle.Advances made after) : before.AnsweredUntil middle where
  connected last lost := rest.queries_le.trans (answered.connected last lost)
  unspoilt number above below := answered.unspoilt number above (below.trans rest.queries_le)

private theorem AnsweredUntil.rest (answered : before.AnsweredUntil after)
    (start : before.Advances made middle) : middle.AnsweredUntil after where
  connected last lost := answered.connected last (start.lastServed ▸ lost)
  unspoilt number above below := by
    have kept := answered.unspoilt number (start.queries_le.trans_lt above) below
    rw [disturbancesAt, start.schedule]
    exact kept

theorem answeredUntil_ofHeap (heap : Heap) (after : Session) :
    (ofHeap heap).AnsweredUntil after where
  connected last lost := by cases lost
  unspoilt _ _ _ _ spoilt := nomatch spoilt

/-- Without a fault among them, disturbances leave the answer of a query alone. -/
theorem foldl_replaceAnswer {Answer : Type} {disturbances : List Disturbance}
    (unspoilt : ∀ fault, .fault fault ∉ disturbances) (served : Except Fault Answer) :
    disturbances.foldl Disturbance.replaceAnswer served = served := by
  induction disturbances with
  | nil => rfl
  | cons disturbance rest ih =>
    have later := fun fault member => unspoilt fault (List.mem_cons_of_mem disturbance member)
    cases disturbance with
    | fault cause => exact absurd List.mem_cons_self (unspoilt cause)
    | cancel => exact ih later
    | edit => exact ih later

/-- An answer that comes out is the one that went in. -/
theorem served_of_foldl_replaceAnswer {Answer : Type} {disturbances : List Disturbance}
    {served : Except Fault Answer} {value : Answer}
    (kept : disturbances.foldl Disturbance.replaceAnswer served = .ok value) :
    served = .ok value := by
  induction disturbances generalizing served with
  | nil => exact kept
  | cons disturbance rest ih =>
    have before := ih kept
    cases disturbance with
    | fault cause => cases before
    | cancel => exact before
    | edit => exact before

private theorem fst_ask_of_answeredUntil {Answer : Type} {session : Session} {question : Question}
    {answer : Heap → Except Fault Answer}
    (answered : session.AnsweredUntil (session.ask question answer).2) :
    (session.ask question answer).1 = answer session.heap := by
  obtain ⟨record, asked, _⟩ := session.asks_ask question answer
  have counted : (session.ask question answer).2.queries = session.queries + 1 := by
    rw [queries, asked.journal]
    rfl
  have kept : session.lastServed.any (· < session.queries + 1) = false := by
    cases lost : session.lastServed with
    | none => rfl
    | some last =>
      have served := answered.connected last lost
      rw [counted] at served
      simpa using served
  have unspoilt := answered.unspoilt (session.queries + 1) (Nat.lt_succ_self _) counted.ge
  simp only [ask, kept]
  exact foldl_replaceAnswer unspoilt _

/-- A query that succeeds is answered from the heap. -/
theorem answer_of_ask {Answer : Type} {session : Session} {question : Question}
    {answer : Heap → Except Fault Answer} {value : Answer}
    (succeeded : (session.ask question answer).1 = .ok value) :
    answer session.heap = .ok value := by
  simp only [ask] at succeeded
  have served := served_of_foldl_replaceAnswer succeeded
  split at served
  · cases served
  · exact served

end Session

/-- On every session over the heap the steps only make queries. If these are answered, the steps
give the answer. -/
def PauseM.Gives {Failure Answer : Type} (steps : PauseM Failure Answer) (heap : Heap)
    (answer : Except Failure Answer) : Prop :=
  ∀ session : Session, session.heap = heap → ∃ made,
    session.Advances made (steps.run session).2 ∧
      (session.AnsweredUntil (steps.run session).2 → (steps.run session).1 = answer)

namespace PauseM.Gives

variable {Failure Answer Next : Type} {heap : Heap}

theorem onHeap_eq {steps : PauseM Failure Answer} {answer : Except Failure Answer}
    (gives : steps.Gives heap answer) : steps.onHeap heap = answer := by
  obtain ⟨_, _, certain⟩ := gives (.ofHeap heap) rfl
  exact certain (Session.answeredUntil_ofHeap heap _)

theorem pure (answer : Answer) :
    (Pure.pure answer : PauseM Failure Answer).Gives heap (.ok answer) :=
  fun session _ => ⟨[], .refl session, fun _ => rfl⟩

/-- What follows on an answer goes on from a session over the same heap. -/
theorem onward {steps : PauseM Failure Next} {result : Except Failure Next}
    (gives : steps.Gives heap result) {before middle : Session} {made : List QueryRecord}
    (same : before.heap = heap) (start : before.Advances made middle) :
    ∃ made, before.Advances made (steps.run middle).2 ∧
      (before.AnsweredUntil (steps.run middle).2 → (steps.run middle).1 = result) := by
  obtain ⟨later, onward, certain⟩ := gives middle (start.heap.trans same)
  exact ⟨_, start.trans onward, fun answered => certain (answered.rest start)⟩

theorem bind {steps : PauseM Failure Answer} {next : Answer → PauseM Failure Next}
    {answer : Except Failure Answer} {results : Answer → Except Failure Next}
    (first : steps.Gives heap answer) (rest : ∀ answer, (next answer).Gives heap (results answer)) :
    (steps >>= next).Gives heap (answer.bind results) := by
  intro session same
  obtain ⟨made, start, given⟩ := first session same
  rw [run_bind]
  rcases ran : steps.run session with ⟨failure | result, middle⟩
  all_goals rw [ran] at start given
  · refine ⟨made, start, fun answered => ?_⟩
    rw [← given answered]
    rfl
  · obtain ⟨later, advances, certain⟩ := (rest result).onward same start
    obtain ⟨_, onward, _⟩ := rest result middle (start.heap.trans same)
    refine ⟨later, advances, fun answered => ?_⟩
    rw [← given (answered.start onward)]
    exact certain answered

theorem tryCatch {steps : PauseM Failure Answer} {handler : Failure → PauseM Failure Answer}
    {answer : Except Failure Answer} {results : Failure → Except Failure Answer}
    (first : steps.Gives heap answer)
    (handled : ∀ failure, (handler failure).Gives heap (results failure)) :
    (MonadExcept.tryCatch steps handler).Gives heap (answer.tryCatch results) := by
  intro session same
  obtain ⟨made, start, given⟩ := first session same
  rw [run_tryCatch]
  rcases ran : steps.run session with ⟨failure | result, middle⟩
  all_goals rw [ran] at start given
  · obtain ⟨later, advances, certain⟩ := (handled failure).onward same start
    obtain ⟨_, onward, _⟩ := handled failure middle (start.heap.trans same)
    refine ⟨later, advances, fun answered => ?_⟩
    rw [← given (answered.start onward)]
    exact certain answered
  · refine ⟨made, start, fun answered => ?_⟩
    rw [← given answered]
    rfl

end PauseM.Gives

namespace Query

/-- Queries put together from single queries, looks at the heap and the catching of faults. -/
inductive Composed : {Answer : Type} → Query Answer → Prop where
  | pure {Answer : Type} (answer : Answer) : Composed (Pure.pure answer : Query Answer)
  | throw {Answer : Type} (fault : Fault) : Composed (MonadExcept.throw fault : Query Answer)
  | ask {Answer : Type} (question : Question) (answer : Heap → Except Fault Answer) :
      Composed (Query.ask question answer)
  | look {Answer : Type} (next : Heap → Query Answer) (rest : ∀ heap, Composed (next heap)) :
      Composed (MonadStateOf.get >>= fun session : Session => next session.heap)
  | bind {Answer Next : Type} {query : Query Answer} {next : Answer → Query Next}
      (first : Composed query) (rest : ∀ answer, Composed (next answer)) :
      Composed (query >>= next)
  | tryCatch {Answer : Type} {query : Query Answer} {handler : Fault → Query Answer}
      (first : Composed query) (handled : ∀ fault, Composed (handler fault)) :
      Composed (MonadExcept.tryCatch query handler)

variable {asks : Question → Prop} {Answer Next : Type} {query : Query Answer} {heap : Heap}

theorem Strict.composed (strict : query.Strict asks) : query.Composed := by
  induction strict with
  | pure answer => exact .pure answer
  | ask _ answer => exact .ask _ answer
  | look next rest ih => exact .look next ih
  | bind first rest ihFirst ihRest => exact .bind ihFirst ihRest

/-- What a query answers, if the queries it makes are answered, depends on the heap alone. -/
theorem Composed.gives (composed : query.Composed) (heap : Heap) :
    PauseM.Gives query heap (PauseM.onHeap query heap) := by
  -- The answer that the induction finds is the one on the session that only has the heap.
  suffices known : ∃ answer, PauseM.Gives query heap answer by
    obtain ⟨answer, gives⟩ := known
    rwa [gives.onHeap_eq]
  induction composed with
  | pure answer => exact ⟨_, .pure answer⟩
  | throw fault => exact ⟨.error fault, fun session _ => ⟨[], .refl session, fun _ => rfl⟩⟩
  | ask question answer =>
    refine ⟨answer heap, fun session same => ?_⟩
    obtain ⟨record, asked, _⟩ := session.asks_ask question answer
    exact ⟨[record], asked.toAdvances,
      fun answered => (Session.fst_ask_of_answeredUntil answered).trans (congrArg answer same)⟩
  | look next rest ih =>
    obtain ⟨answer, gives⟩ := ih heap
    refine ⟨answer, fun session same => ?_⟩
    have looked := gives session same
    rw [← same] at looked
    exact looked
  | bind first rest ihFirst ihRest =>
    obtain ⟨answer, gives⟩ := ihFirst
    choose results continued using ihRest
    exact ⟨_, gives.bind continued⟩
  | tryCatch first handled ihFirst ihHandled =>
    obtain ⟨answer, gives⟩ := ihFirst
    choose results continued using ihHandled
    exact ⟨_, gives.tryCatch continued⟩

theorem Composed.fst_run (composed : query.Composed) {session : Session}
    (answered : session.AnsweredUntil (query.run session).2) :
    (query.run session).1 = PauseM.onHeap query session.heap := by
  obtain ⟨_, _, certain⟩ := composed.gives session.heap session rfl
  exact certain answered

theorem Composed.heap_of_run (composed : query.Composed) {session after : Session}
    {answer : Except Fault Answer} (ran : query.run session = (answer, after)) :
    after.heap = session.heap := by
  obtain ⟨_, advances, _⟩ := composed.gives session.heap session rfl
  rw [ran] at advances
  exact advances.heap

@[simp] theorem onHeap_pure (answer : Answer) :
    PauseM.onHeap (pure answer : Query Answer) heap = .ok answer := rfl

@[simp] theorem onHeap_ask (question : Question) (answer : Heap → Except Fault Answer) :
    PauseM.onHeap (ask question answer) heap = answer heap := rfl

theorem Composed.onHeap_bind (first : query.Composed) {next : Answer → Query Next}
    (rest : ∀ answer, (next answer).Composed) :
    PauseM.onHeap (query >>= next) heap =
      (PauseM.onHeap query heap).bind fun answer => PauseM.onHeap (next answer) heap :=
  ((first.gives heap).bind fun answer => (rest answer).gives heap).onHeap_eq

theorem Composed.onHeap_map (first : query.Composed) (value : Answer → Next) :
    PauseM.onHeap (value <$> query) heap = (PauseM.onHeap query heap).map value := by
  refine (first.onHeap_bind fun answer => .pure (value answer)).trans ?_
  cases PauseM.onHeap query heap <;> rfl

theorem Composed.onHeap_tryCatch (first : query.Composed) {handler : Fault → Query Answer}
    (handled : ∀ fault, (handler fault).Composed) :
    PauseM.onHeap (MonadExcept.tryCatch query handler) heap =
      (PauseM.onHeap query heap).tryCatch fun fault => PauseM.onHeap (handler fault) heap :=
  ((first.gives heap).tryCatch fun fault => (handled fault).gives heap).onHeap_eq

/-- A strict query that succeeds, whatever happened meanwhile, answers what the heap says. -/
theorem Strict.onHeap_of_run (strict : query.Strict asks) {session after : Session}
    {answer : Answer} (ran : query.run session = (.ok answer, after)) :
    PauseM.onHeap query session.heap = .ok answer := by
  induction strict generalizing session after with
  | pure value =>
    cases ran
    rfl
  | ask _ answers => exact Session.answer_of_ask (congrArg Prod.fst ran)
  | look next rest ih => exact ih session.heap ran
  | bind first rest ihFirst ihRest =>
    obtain ⟨value, middle, started, continued⟩ := PauseM.exists_of_bind ran
    have later := ihRest value continued
    rw [first.composed.heap_of_run started] at later
    rw [first.composed.onHeap_bind fun value => (rest value).composed, ihFirst started]
    exact later

end Query

end PauseFlow
