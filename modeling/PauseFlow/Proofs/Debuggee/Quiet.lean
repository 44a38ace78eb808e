import PauseFlow.Proofs.Debuggee.Strict

namespace PauseFlow

namespace Session

/-- The connection is kept and nothing happens at the queries from one session to a later one. -/
structure QuietUntil (before after : Session) : Prop where
  connected : ∀ last, before.lastServed = some last → after.queries ≤ last
  undisturbed : ∀ number, before.queries < number → number ≤ after.queries →
    before.disturbancesAt number = []

/-- Queries lead from one session to a later one. If nothing happened at them, the outcome is
certain. -/
structure Leads (before after : Session) (outcome : Prop) : Prop where
  advances : ∃ made, before.Advances made after
  certain : before.QuietUntil after → outcome ∧ after.cancelled = before.cancelled

variable {before middle after : Session} {made : List QueryRecord} {outcome later : Prop}

theorem Advances.queries_le (advances : before.Advances made after) :
    before.queries ≤ after.queries := by
  rw [queries, queries, advances.journal, List.length_append]
  exact Nat.le_add_left _ _

private theorem QuietUntil.start (quiet : before.QuietUntil after)
    (rest : middle.Advances made after) : before.QuietUntil middle where
  connected last lost := rest.queries_le.trans (quiet.connected last lost)
  undisturbed number above below := quiet.undisturbed number above (below.trans rest.queries_le)

private theorem QuietUntil.rest (quiet : before.QuietUntil after)
    (start : before.Advances made middle) : middle.QuietUntil after where
  connected last lost := quiet.connected last (start.lastServed ▸ lost)
  undisturbed number above below := by
    have silent := quiet.undisturbed number (start.queries_le.trans_lt above) below
    rw [disturbancesAt, start.schedule]
    exact silent

theorem quietUntil_ofHeap (heap : Heap) (after : Session) : (ofHeap heap).QuietUntil after where
  connected last lost := by cases lost
  undisturbed _ _ _ := rfl

theorem Leads.heap (leads : before.Leads after outcome) : after.heap = before.heap := by
  obtain ⟨made, advances⟩ := leads.advances
  exact advances.heap

theorem Leads.refl (session : Session) (certain : outcome) : session.Leads session outcome where
  advances := ⟨[], .refl session⟩
  certain _ := ⟨certain, rfl⟩

theorem Leads.imp (leads : before.Leads after outcome) (follows : outcome → later) :
    before.Leads after later where
  advances := leads.advances
  certain quiet := ⟨follows (leads.certain quiet).1, (leads.certain quiet).2⟩

theorem Leads.and_cancelled_eq (leads : before.Leads after outcome) :
    before.Leads after (outcome ∧ after.cancelled = before.cancelled) where
  advances := leads.advances
  certain quiet := ⟨leads.certain quiet, (leads.certain quiet).2⟩

/-- What is certain of two parts is certain of the whole. -/
theorem Leads.trans (first : before.Leads middle outcome) (rest : middle.Leads after later) :
    before.Leads after (outcome ∧ later) := by
  obtain ⟨made, start⟩ := first.advances
  obtain ⟨made, onward⟩ := rest.advances
  refine ⟨⟨_, start.trans onward⟩, fun quiet => ?_⟩
  have firstPart := first.certain (quiet.start onward)
  have secondPart := rest.certain (quiet.rest start)
  exact ⟨⟨firstPart.1, secondPart.1⟩, secondPart.2.trans firstPart.2⟩

/-- A query at which nothing happens is answered from the heap. -/
theorem leads_ask {Answer : Type} (session : Session) (question : Question)
    (answer : Heap → Except Fault Answer) : session.Leads (session.ask question answer).2
      ((session.ask question answer).1 = answer session.heap) := by
  obtain ⟨record, asked, _⟩ := session.asks_ask question answer
  refine ⟨⟨_, asked.toAdvances⟩, fun quiet => ?_⟩
  have counted : (session.ask question answer).2.queries = session.queries + 1 := by
    rw [queries, asked.journal]
    rfl
  have silent : session.disturbancesAt (session.queries + 1) = [] :=
    quiet.undisturbed _ (Nat.lt_succ_self _) counted.ge
  have served : session.lastServed.any (· < session.queries + 1) = false := by
    cases lost : session.lastServed with
    | none => rfl
    | some last =>
      have kept := quiet.connected last lost
      rw [counted] at kept
      simpa using kept
  simp only [Session.ask, silent, served]
  exact ⟨rfl, rfl⟩

end Session

/-- On every session over the heap the steps only make queries, and if nothing happens at them
they give the answer. -/
def PauseM.Reads {Failure Answer : Type} (steps : PauseM Failure Answer) (heap : Heap)
    (answer : Except Failure Answer) : Prop :=
  ∀ session : Session, session.heap = heap →
    session.Leads (steps.run session).2 ((steps.run session).1 = answer)

/-- What steps answer over a heap if nothing else happens. -/
def PauseM.onHeap {Failure Answer : Type} (steps : PauseM Failure Answer) (heap : Heap) :
    Except Failure Answer :=
  (steps.run (.ofHeap heap)).1

namespace PauseM.Reads

variable {Failure Answer Next : Type} {heap : Heap}

theorem pure (answer : Answer) :
    (Pure.pure answer : PauseM Failure Answer).Reads heap (.ok answer) :=
  fun session _ => .refl session rfl

private theorem onHeap_eq {steps : PauseM Failure Answer} {answer : Except Failure Answer}
    (reads : steps.Reads heap answer) : steps.onHeap heap = answer :=
  ((reads (.ofHeap heap) rfl).certain (Session.quietUntil_ofHeap heap _)).1

theorem bind {steps : PauseM Failure Answer} {next : Answer → PauseM Failure Next}
    {answer : Except Failure Answer} {results : Answer → Except Failure Next}
    (first : steps.Reads heap answer) (rest : ∀ answer, (next answer).Reads heap (results answer)) :
    (steps >>= next).Reads heap (answer.bind results) := by
  intro session same
  have start := first session same
  rw [run_bind]
  rcases ran : steps.run session with ⟨failure | result, middle⟩
  all_goals rw [ran] at start
  · exact start.imp fun failed => failed ▸ rfl
  · have onward := rest result middle (start.heap.trans same)
    refine (start.trans onward).imp fun ⟨answered, continued⟩ => ?_
    rw [continued, ← answered]
    rfl

end PauseM.Reads

/-- What a strict query answers depends on the heap alone. -/
theorem Query.Strict.reads {asks : Question → Prop} {Answer : Type} {query : Query Answer}
    (strict : query.Strict asks) (heap : Heap) :
    PauseM.Reads query heap (PauseM.onHeap query heap) := by
  -- The answer that the induction finds is the one on the session that only has the heap.
  suffices known : ∃ answer, PauseM.Reads query heap answer by
    obtain ⟨answer, reads⟩ := known
    rwa [reads.onHeap_eq]
  induction strict with
  | pure answer => exact ⟨_, .pure answer⟩
  | @ask _ question _ answer =>
    refine ⟨answer heap, fun session same => ?_⟩
    rw [← same]
    exact session.leads_ask question answer
  | look next rest ih =>
    obtain ⟨answer, reads⟩ := ih heap
    refine ⟨answer, fun session same => ?_⟩
    have looked := reads session same
    rw [← same] at looked
    exact looked
  | bind first rest ihFirst ihRest =>
    obtain ⟨answer, reads⟩ := ihFirst
    choose results continued using ihRest
    exact ⟨_, reads.bind continued⟩

end PauseFlow
