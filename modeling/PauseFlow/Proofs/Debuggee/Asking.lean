import Mathlib.Data.UInt
import PauseFlow.Debuggee.Session

namespace PauseFlow

/-- How many edits happened at a query. -/
def QueryRecord.edits (record : QueryRecord) : Nat := record.disturbances.count .edit

/-- Whether the user cancelled at a query. -/
def QueryRecord.isCancelled (record : QueryRecord) : Bool := record.disturbances.contains .cancel

namespace Session

/-- How many edits are scheduled for queries that are still to be made. -/
def editsAhead (session : Session) : Nat :=
  session.schedule.countP fun entry => session.queries < entry.1 && entry.2 = .edit

/-- From one session to a later one by queries, listed the latest first. -/
structure Advances (before : Session) (made : List QueryRecord) (after : Session) : Prop where
  journal : after.journal = made ++ before.journal
  heap : after.heap = before.heap
  lastServed : after.lastServed = before.lastServed
  schedule : after.schedule = before.schedule
  cancelled : after.cancelled = (before.cancelled || made.any (·.isCancelled))
  edits : after.edits = before.edits + .ofNat (made.map (·.edits)).sum
  editsAhead : before.editsAhead = (made.map (·.edits)).sum + after.editsAhead

theorem Advances.refl (session : Session) : session.Advances [] session where
  journal := rfl
  heap := rfl
  lastServed := rfl
  schedule := rfl
  cancelled := by simp
  edits := by simp
  editsAhead := by simp

theorem Advances.trans {before middle after : Session} {first later : List QueryRecord}
    (start : before.Advances first middle) (rest : middle.Advances later after) :
    before.Advances (later ++ first) after where
  journal := by rw [rest.journal, start.journal, List.append_assoc]
  heap := rest.heap.trans start.heap
  lastServed := rest.lastServed.trans start.lastServed
  schedule := rest.schedule.trans start.schedule
  cancelled := by
    rw [rest.cancelled, start.cancelled, List.any_append, Bool.or_assoc]
    congr 1
    exact Bool.or_comm _ _
  edits := by
    rw [rest.edits, start.edits, List.map_append, List.sum_append, Nat.add_comm, UInt64.ofNat_add,
      UInt64.add_assoc]
  editsAhead := by
    rw [start.editsAhead, rest.editsAhead, List.map_append, List.sum_append]
    omega

/-- Who is not cancelled in the end never was. -/
theorem Advances.not_cancelled {before after : Session} {made : List QueryRecord}
    (advances : before.Advances made after) (running : after.cancelled = false) :
    before.cancelled = false ∧ ∀ record ∈ made, .cancel ∉ record.disturbances := by
  rw [advances.cancelled, Bool.or_eq_false_iff, List.any_eq_false] at running
  exact ⟨running.1, fun record member => by
    simpa [QueryRecord.isCancelled] using running.2 record member⟩

/-- The number of edits wraps, but with few edits ahead it is the same only if there was none. -/
theorem Advances.not_edited {before after : Session} {made : List QueryRecord}
    (advances : before.Advances made after) (few : before.editsAhead < 2 ^ 64)
    (same : after.edits = before.edits) : ∀ record ∈ made, .edit ∉ record.disturbances := by
  have ahead := advances.editsAhead
  have small : (made.map (·.edits)).sum < 2 ^ 64 := by omega
  have wrapped : UInt64.ofNat (made.map (·.edits)).sum = 0 := by
    have edits := advances.edits
    rw [same] at edits
    simpa using edits
  have none : (made.map (·.edits)).sum = 0 := by
    rw [← UInt64.toNat_ofNat_of_lt' small, wrapped]
    rfl
  intro record member edited
  have counted : record.edits = 0 :=
    List.sum_eq_zero_iff_forall_eq_nat.mp none _ (List.mem_map_of_mem member)
  exact List.count_eq_zero.mp counted edited

theorem Advances.of_acquireRead {before after : Session} {made : List QueryRecord}
    (advances : before.acquireRead.Advances made after) : before.Advances made after :=
  { advances with }

theorem Advances.of_releaseRead {before after : Session} {made : List QueryRecord}
    (advances : before.releaseRead.Advances made after) : before.Advances made after :=
  { advances with }

/-- From one session to a later one by queries that are made with the read access held before,
which is held afterwards. -/
structure Asks (before : Session) (made : List QueryRecord) (after : Session) : Prop
    extends Advances before made after where
  readers : after.readers = before.readers
  held : ∀ record ∈ made, record.readers = before.readers

theorem Asks.refl (session : Session) : session.Asks [] session where
  toAdvances := .refl session
  readers := rfl
  held record member := by cases member

theorem Asks.trans {before middle after : Session} {first later : List QueryRecord}
    (start : before.Asks first middle) (rest : middle.Asks later after) :
    before.Asks (later ++ first) after where
  toAdvances := start.toAdvances.trans rest.toAdvances
  readers := rest.readers.trans start.readers
  held := List.forall_mem_append.mpr
    ⟨fun record member => (rest.held record member).trans start.readers, start.held⟩

private theorem foldl_disturb (disturbances : List Disturbance) (session : Session) :
    disturbances.foldl disturb session =
      { session with
        edits := session.edits + .ofNat (disturbances.count .edit)
        cancelled := session.cancelled || disturbances.contains .cancel } := by
  induction disturbances generalizing session with
  | nil => simp
  | cons disturbance rest ih =>
    rw [List.foldl_cons, ih]
    cases disturbance with
    | fault cause => simp [disturb]
    | cancel => simp [disturb, cancel]
    | edit => simp [disturb, edit, UInt64.ofNat_add, UInt64.add_assoc, UInt64.add_comm 1]

/-- An edit that is ahead happens at the next query or stays ahead. -/
theorem editsAhead_eq (session : Session) : session.editsAhead =
    (session.disturbancesAt (session.queries + 1)).count .edit +
      session.schedule.countP fun entry => session.queries + 1 < entry.1 && entry.2 = .edit := by
  unfold editsAhead disturbancesAt
  induction session.schedule with
  | nil => rfl
  | cons entry rest ih =>
    obtain ⟨number, disturbance⟩ := entry
    simp only [List.countP_cons, List.filter_cons, ih]
    rcases Nat.lt_trichotomy number (session.queries + 1) with before | now | after
    · simp [show ¬ session.queries < number by omega, show number ≠ session.queries + 1 by omega,
        show ¬ session.queries + 1 < number by omega]
    · subst now
      by_cases same : disturbance = .edit <;> simp [same]
      omega
    · by_cases same : disturbance = .edit <;>
        simp [show session.queries < number by omega, show number ≠ session.queries + 1 by omega,
          after, same]
      omega

/-- A query is one step on, and its record says how it was answered. -/
theorem asks_ask {Answer : Type} (session : Session) (question : Question)
    (answer : Heap → Except Fault Answer) : ∃ record : QueryRecord,
    session.Asks [record] (session.ask question answer).2 ∧ record.question = question ∧
      ∀ fault, record.fault = some fault ↔ (session.ask question answer).1 = .error fault := by
  unfold ask
  dsimp only
  rw [foldl_disturb]
  refine ⟨_, ⟨⟨rfl, rfl, rfl, rfl, ?_, ?_, ?_⟩, rfl, ?_⟩, rfl, fun fault => ?_⟩
  · simp [QueryRecord.isCancelled]
  · simp [QueryRecord.edits]
  · rw [editsAhead_eq]
    simp only [QueryRecord.edits, List.map_cons, List.map_nil, List.sum_cons, List.sum_nil]
    rfl
  · intro record member
    rw [List.mem_singleton.mp member]
  · dsimp only
    split
    · rename_i cause failed
      rw [failed, Option.some.injEq, Except.error.injEq]
    · rename_i value answered
      rw [answered]
      exact ⟨nofun, nofun⟩

end Session

end PauseFlow
