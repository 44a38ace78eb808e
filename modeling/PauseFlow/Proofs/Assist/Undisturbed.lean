import PauseFlow.Proofs.Assist.Stages
import PauseFlow.Proofs.Flow.Hints

/-! Verdicts only come out of a pause that nothing disturbed: nobody cancelled, nothing was edited
since the code was analysed, and every query was answered, apart from objects that were gone. -/
namespace PauseFlow

/-- A field could not be read for a variable, or a value could not be classified, since an object
was gone. Variables are resolved with read access, values are classified without it. -/
def QueryRecord.LostObject (record : QueryRecord) : Prop :=
  ∃ fault, record.fault = some fault ∧ fault.isCollected ∧
    if record.readers = 0 then record.question.isOfValue else record.question.isOfField

/-- Nothing happened at the queries made, the latest first, that could make verdicts stale. -/
structure Session.Undisturbed (session : Session) (frame : FrameRef) (made : List QueryRecord) :
    Prop where
  notCancelled : session.cancelled = false
  noCancel : ∀ record ∈ made, .cancel ∉ record.disturbances
  /-- Edits at the first query are seen when the code is analysed after it. -/
  noEdit : ∃ first later, made = later ++ [first] ∧ first.question = .location frame ∧
    ∀ record ∈ later, .edit ∉ record.disturbances
  answered : ∀ record ∈ made, record.fault = none ∨ record.LostObject

/-- A failure is the fault of the latest query, or the pause is in no class. -/
inductive AssistFailure.ExplainedBy : AssistFailure → List QueryRecord → Prop where
  | remote {fault : Fault} {last : QueryRecord} {earlier : List QueryRecord}
      (failed : last.fault = some fault) : ExplainedBy (.remote fault) (last :: earlier)
  | invalidLocation (signature : String) {made : List QueryRecord} :
      ExplainedBy (.invalidLocation signature) made

theorem AssistFailure.ExplainedBy.append {made : List QueryRecord} {failure : AssistFailure}
    (explained : failure.ExplainedBy made) (earlier : List QueryRecord) :
    failure.ExplainedBy (made ++ earlier) := by
  cases explained with
  | remote failed => exact .remote failed
  | invalidLocation signature => exact .invalidLocation signature

private theorem Conduct.Blames.explains {conduct : Conduct} {made : List QueryRecord}
    {fault : Fault}
    (blames : conduct.Blames made fault) : AssistFailure.ExplainedBy (.remote fault) made := by
  obtain ⟨last, earlier, rfl, _, failed, _⟩ := blames
  exact .remote failed

/-- A query after which steps went on was answered, if they forgive nothing but lost objects. -/
theorem Conduct.Allows.answered {conduct : Conduct} {record : QueryRecord}
    (allows : conduct.Allows record)
    (lost : ∀ fault, conduct.forgives record.question fault → fault.isCollected ∧
      if record.readers = 0 then record.question.isOfValue else record.question.isOfField) :
    record.fault = none ∨ record.LostObject := by
  cases failed : record.fault with
  | none => exact .inl rfl
  | some fault => exact .inr ⟨fault, failed, lost fault (allows.2 fault failed)⟩

/-- The stages after a pause was resolved. -/
def ResolvedPause.finish (resolved : ResolvedPause) (settings : Settings) :
    Assist (Option Verdicts) := do
  let observed ← tryCatch (some <$> resolved.observe) fun
    | .cancelled => pure none
    | failure => throw failure
  match observed with
  | none => return none
  | some observed => Assist.withReadAccess (Assist.conclude observed settings)

private theorem ResolvedPause.finish_run (resolved : ResolvedPause) (settings : Settings)
    {session : Session} (free : session.readers = 0) : ∃ made answer after,
      (resolved.finish settings).run session = (answer, after) ∧ session.Advances made after ∧
      (∀ verdicts, answer = .ok (some verdicts) → after.cancelled = false ∧
        (resolved.guard.check after.edits).1 = .fresh ∧
        ∀ record ∈ made, record.readers = 0 ∧ Conduct.snapshotting.Allows record) ∧
      ∀ failure, answer = .error failure → failure.ExplainedBy made := by
  obtain ⟨made, middle, asked, batch⟩ :=
    (Snapshots.fetch_follows resolved.frame resolved.aliases).cases session
  unfold finish
  rw [PauseM.run_bind, PauseM.run_tryCatch, PauseM.run_map, resolved.observe_run free]
  rcases batch with ⟨snapshots, ran, allowed⟩ | ⟨failure, ran, rfl, _⟩ | ⟨fault, ran, blames⟩
  all_goals rw [ran]
  · obtain ⟨verdicts, concluded, reliable⟩ :=
      Assist.conclude_run ⟨resolved, snapshots⟩ settings middle.acquireRead
    refine ⟨made, .ok verdicts, middle.acquireRead.releaseRead, ?_, ?_, ?_, nofun⟩
    · exact congrArg (fun ended => (ended.1, ended.2.releaseRead)) concluded
    · exact { asked.toAdvances with }
    · rintro _ ⟨⟩
      obtain ⟨running, fresh⟩ := reliable rfl
      exact ⟨running, fresh, fun record member => ⟨(asked.held record member).trans free,
        allowed record member⟩⟩
  · exact ⟨made, .ok none, middle, rfl, asked.toAdvances, nofun, nofun⟩
  · refine ⟨made, .error (.remote fault), middle, rfl, asked.toAdvances, nofun, ?_⟩
    rintro _ ⟨⟩
    exact blames.explains

/-- Verdicts that come out after a resolution do so only if the whole pause was undisturbed. -/
theorem ResolvedPause.finish_undisturbed {host : Host} {frame : FrameRef}
    {element : Option SourceElement} {session resolving : Session} {made : List QueryRecord}
    {resolved : ResolvedPause} (settings : Settings) (free : session.readers = 0)
    (few : session.editsAhead < 2 ^ 64) (asked : session.acquireRead.Asks made resolving)
    (allowed : ∀ record ∈ made, Conduct.resolving.Allows record)
    (ran : (resolve host frame element).run session.acquireRead =
      (.ok (some resolved), resolving)) :
    ∃ late answer after, (resolved.finish settings).run resolving.releaseRead = (answer, after) ∧
      after.journal = late ++ made ++ session.journal ∧
      (∀ verdicts, answer = .ok (some verdicts) → session.Undisturbed frame (late ++ made)) ∧
      ∀ failure, answer = .error failure → failure.ExplainedBy (late ++ made) := by
  have released : resolving.releaseRead.readers = 0 := by
    simp [Session.releaseRead, asked.readers, Session.acquireRead, free]
  obtain ⟨late, answer, after, finished, advances, reliable, explained⟩ :=
    resolved.finish_run settings released
  have whole : session.Advances (late ++ made) after :=
    asked.toAdvances.of_acquireRead.trans advances.of_releaseRead
  refine ⟨late, answer, after, finished, whole.journal, ?_,
    fun failure failed => (explained failure failed).append made⟩
  intro verdicts succeeded
  obtain ⟨running, fresh, observed⟩ := reliable verdicts succeeded
  refine ⟨(whole.not_cancelled running).1, (whole.not_cancelled running).2, ?_, ?_⟩
  · -- The guard was captured right after the first query, and only later edits make it stale.
    obtain ⟨first, later, middle, rfl, located, reached, rest, captured⟩ :=
      exists_first_of_resolve asked ran
    have onward : middle.Advances (late ++ later) after := rest.trans advances.of_releaseRead
    have fewer : middle.editsAhead < 2 ^ 64 := by
      have ahead := reached.of_acquireRead.editsAhead
      omega
    rw [captured] at fresh
    exact ⟨first, late ++ later, (List.append_assoc ..).symm, located,
      onward.not_edited fewer (FreshnessGuard.eq_of_fresh fresh)⟩
  · refine List.forall_mem_append.mpr ⟨fun record member => ?_, fun record member => ?_⟩
    · obtain ⟨unlocked, allows⟩ := observed record member
      exact allows.answered fun fault forgiven => ⟨forgiven.2, by rw [if_pos unlocked, forgiven.1]⟩
    · have locked : record.readers ≠ 0 := by
        simp [asked.held record member, Session.acquireRead]
      exact (allowed record member).answered fun fault forgiven =>
        ⟨forgiven.2, by rw [if_neg locked, forgiven.1]⟩

/-- Verdicts only come out if the assist is switched on and the pause was undisturbed. Failures
are the fault of a query or a pause in no class; no cancellation and no read access that is held
shows as a failure. -/
theorem Assist.atPause_undisturbed (host : Host) (frame : FrameRef)
    (element : Option SourceElement) (settings : Settings) {session : Session}
    (free : session.readers = 0) (few : session.editsAhead < 2 ^ 64) : ∃ made answer after,
      (atPause host frame element settings).run session = (answer, after) ∧
      after.journal = made ++ session.journal ∧
      (∀ verdicts, answer = .ok (some verdicts) →
        settings.enabled ∧ session.Undisturbed frame made) ∧
      ∀ failure, answer = .error failure → failure.ExplainedBy made := by
  unfold atPause
  split
  · exact ⟨[], .ok none, session, rfl, rfl, nofun, nofun⟩
  · rename_i enabled
    obtain ⟨made, resolving, asked, resolution⟩ :=
      (ResolvedPause.resolve_follows host frame element).cases session.acquireRead
    rw [PauseM.run_bind, withReadAccess_run]
    rcases resolution with ⟨result, ran, allowed⟩ | ⟨_, ran, ⟨signature, rfl⟩, _⟩ |
      ⟨fault, ran, blames⟩
    all_goals rw [ran]
    · cases result with
      | none => exact ⟨made, .ok none, _, rfl, asked.journal, nofun, nofun⟩
      | some resolved =>
        obtain ⟨late, answer, after, finished, journal, reliable, explained⟩ :=
          ResolvedPause.finish_undisturbed settings free few asked allowed ran
        exact ⟨late ++ made, answer, after, finished, journal, fun verdicts succeeded =>
          ⟨by simpa using enabled, reliable verdicts succeeded⟩, explained⟩
    · refine ⟨made, _, _, rfl, asked.journal, nofun, ?_⟩
      rintro _ ⟨⟩
      exact .invalidLocation signature
    · refine ⟨made, _, _, rfl, asked.journal, nofun, ?_⟩
      rintro _ ⟨⟩
      exact blames.explains

/-- The editor knows the loop, which begins at the anchor. -/
def cellHost : Host where
  isIndexing := false
  languages := Host.builtInLanguages
  classTable _ := .small
  buildFlow _ _ := some (cellLoop.bindAnchor ⟨0⟩ ⟨0⟩, Memory.cells)

def cellElement : SourceElement := ⟨"java", true, "Main", 1, some ⟨0⟩, some ⟨0⟩⟩

/-- A frame with one cell, of a type that declares no field. -/
def cellHeap : Heap where
  lastId := 2
  types := [⟨⟨1, "LCell;", none, none, false⟩, []⟩]
  instances := [⟨2, 1, [], none, none⟩]
  frames := [(⟨0, 0⟩, ⟨⟨"LMain;", "run", 1, 0⟩, none, none, [("cell", .object ⟨2, ""⟩)]⟩)]
  assertions := []

/-- An edit at the query for the location, and a cell that is gone when its field is read. -/
def cellPause : Session :=
  ((Session.ofHeap cellHeap).scheduleAfter 1 .edit).scheduleAfter 4
    (.fault (.commandFailed Fault.collectedCode))

theorem Assist.atPause_undisturbed_cell : ∃ verdicts after,
    (atPause cellHost ⟨0, 0⟩ (some cellElement) .default).run cellPause =
      (.ok (some verdicts), after) ∧ cellPause.Undisturbed ⟨0, 0⟩ after.journal := by
  obtain ⟨made, answer, after, ran, journal, reliable, _⟩ :=
    atPause_undisturbed cellHost ⟨0, 0⟩ (some cellElement) .default
      (show cellPause.readers = 0 from rfl) (by decide +kernel)
  have shown : ((atPause cellHost ⟨0, 0⟩ (some cellElement) .default).run
      cellPause).1.toOption.join.isSome := by decide +kernel
  rw [ran] at shown
  obtain ⟨verdicts, same⟩ := Option.isSome_iff_exists.mp shown
  have succeeded : answer = .ok (some verdicts) := by
    cases answer with
    | ok result => exact congrArg _ (by simpa [Except.toOption] using same)
    | error failure => simp [Except.toOption] at same
  subst succeeded
  have all : after.journal = made := by rw [journal]; exact List.append_nil made
  exact ⟨verdicts, after, ran, all ▸ (reliable verdicts rfl).2⟩

end PauseFlow
