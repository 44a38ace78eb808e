import PauseFlow.Assist.Stages
import PauseFlow.Proofs.Snapshot.Taking

namespace PauseFlow

namespace ResolvedPause

open PauseM.Follows

/-- The pause is in no class. -/
def IsLocationFailure (failure : AssistFailure) : Prop :=
  ∃ signature, failure = .invalidLocation signature

private theorem ofFlow_follows (frame : FrameRef) (anchor : Anchor) (graph : FlowGraph)
    (registry : Variables) :
    (ofFlow frame anchor graph registry).Follows .resolving IsLocationFailure := by
  refine .bind .get fun session => ?_
  dsimp only
  split
  · refine .bind (.lift (Aliases.resolve_follows frame registry)) fun aliases => ?_
    split
    · exact .pure _
    · exact .pure _
  · exact .pure _

private theorem matchesLocation_follows (element : SourceElement) (location : Location) :
    (liftExcept (element.matchesLocation location) : Assist Bool).Follows .resolving
      IsLocationFailure := by
  unfold SourceElement.matchesLocation
  split
  · exact .pure _
  · exact .throw ⟨_, rfl⟩

/-- Resolution only fails in a way of its own when the pause is in no class. -/
theorem resolve_follows (host : Host) (frame : FrameRef) (element : Option SourceElement) :
    (resolve host frame element).Follows .resolving IsLocationFailure := by
  unfold resolve
  split
  · split
    · exact .pure _
    · refine .bind (.lift (.ask trivial _)) fun location => ?_
      refine .bind (matchesLocation_follows _ _) fun matched => ?_
      split
      · exact .pure _
      · split
        · split
          · split
            · exact ofFlow_follows _ _ _ _
            · exact .pure _
          · exact .pure _
        · exact .pure _
  · exact .pure _

/-- The guard of a resolved pause compares with the edits at the time of its capture. -/
theorem guard_of_ofFlow {frame : FrameRef} {anchor : Anchor} {graph : FlowGraph}
    {registry : Variables} {session after : Session} {resolved : ResolvedPause}
    (ran : (ofFlow frame anchor graph registry).run session = (.ok (some resolved), after)) :
    resolved.guard = .capture session.edits := by
  unfold ofFlow at ran
  obtain ⟨_, _, got, ran⟩ := PauseM.exists_of_bind ran
  cases got
  split at ran
  · obtain ⟨aliases, middle, _, ran⟩ := PauseM.exists_of_bind ran
    split at ran
    · cases ran
    · cases ran
      rfl
  · cases ran

private theorem session_of_matchesLocation {element : SourceElement} {location : Location}
    {matched : Bool} {before after : Session}
    (ran : (liftExcept (element.matchesLocation location) : Assist Bool).run before =
      (.ok matched, after)) : before = after := by
  cases answer : element.matchesLocation location with
  | ok value =>
    rw [answer] at ran
    cases ran
    rfl
  | error failure =>
    rw [answer] at ran
    cases ran

/-- A pause is resolved by one query for its location, and queries of its flow after that. -/
theorem exists_ofFlow_of_resolve {host : Host} {frame : FrameRef} {element : Option SourceElement}
    {session after : Session} {resolved : ResolvedPause}
    (ran : (resolve host frame element).run session = (.ok (some resolved), after)) :
    ∃ location middle anchor graph registry,
      (Query.location frame).run session = (.ok location, middle) ∧
        (ofFlow frame anchor graph registry).run middle = (.ok (some resolved), after) := by
  unfold resolve at ran
  split at ran
  · split at ran
    · cases ran
    · obtain ⟨location, middle, located, ran⟩ := PauseM.exists_of_bind ran
      obtain ⟨matched, _, decided, ran⟩ := PauseM.exists_of_bind ran
      cases session_of_matchesLocation decided
      split at ran
      · cases ran
      · split at ran
        · split at ran
          · split at ran
            · exact ⟨location, _, _, _, _, Assist.exists_of_lift located, ran⟩
            · cases ran
          · cases ran
        · cases ran
  · cases ran

/-- When a pause is resolved, the first query was for its location, and the guard compares with the
edits right after it. -/
theorem exists_first_of_resolve {host : Host} {frame : FrameRef}
    {element : Option SourceElement} {session after : Session} {made : List QueryRecord}
    {resolved : ResolvedPause} (asked : session.Asks made after)
    (ran : (resolve host frame element).run session = (.ok (some resolved), after)) :
    ∃ first later middle, made = later ++ [first] ∧ first.question = .location frame ∧
      session.Advances [first] middle ∧ middle.Advances later after ∧
      resolved.guard = .capture middle.edits := by
  obtain ⟨location, middle, anchor, graph, registry, located, flowed⟩ :=
    exists_ofFlow_of_resolve ran
  obtain ⟨first, reached, question⟩ := Query.exists_record_of_ask located
  obtain ⟨later, _, rest, ⟨_, same, _⟩ | ⟨_, same, _⟩ | ⟨_, same, _⟩⟩ :=
    (ofFlow_follows frame anchor graph registry).cases middle
  all_goals cases flowed.symm.trans same
  refine ⟨first, later, middle, ?_, question, reached.toAdvances, rest.toAdvances,
    guard_of_ofFlow flowed⟩
  have journal : made ++ session.journal = (later ++ [first]) ++ session.journal := by
    rw [← asked.journal, (reached.trans rest).journal]
  exact List.append_cancel_right journal

end ResolvedPause

namespace ResolvedPause

/-- Without read access, observation is nothing but the batch of snapshots. -/
theorem observe_run (resolved : ResolvedPause) {session : Session} (free : session.readers = 0) :
    resolved.observe.run session =
      match (Snapshots.fetch resolved.frame resolved.aliases).run session with
      | (.ok snapshots, after) => (.ok ⟨resolved, snapshots⟩, after)
      | (.error failure, after) => (.error failure, after) := by
  have allowed : Assist.refuseReadAccess.run session = (.ok (), session) := by
    unfold Assist.refuseReadAccess
    rw [PauseM.run_bind]
    change (if session.isReadAccessHeld then throw .readAccessHeld else pure () : Assist Unit).run
      session = _
    rw [if_neg (by simp [Session.isReadAccessHeld, free])]
    rfl
  unfold observe
  rw [PauseM.run_bind, allowed]
  dsimp only
  rw [PauseM.run_bind]
  rcases (Snapshots.fetch resolved.frame resolved.aliases).run session with ⟨_ | _, _⟩ <;> rfl

end ResolvedPause

/-- The conclusion makes no queries, and verdicts only come out as long as the sources are
unchanged and nobody has cancelled. -/
theorem Assist.conclude_run (observed : ObservedPause) (settings : Settings) (session : Session) :
    ∃ verdicts, (conclude observed settings).run session = (.ok verdicts, session) ∧
      (verdicts.isSome → session.cancelled = false ∧
        (observed.resolved.guard.check session.edits).1 = .fresh) := by
  have got : (get : Assist Session).run session = (.ok session, session) := rfl
  unfold conclude
  rw [PauseM.run_bind, got]
  dsimp only
  cases seeding : observed.seed settings session.edits with
  | none => exact ⟨none, rfl, nofun⟩
  | some seeded =>
    have fresh : (observed.resolved.guard.check session.edits).1 = .fresh := by
      unfold ObservedPause.seed at seeding
      dsimp only at seeding
      split at seeding
      · cases seeding
      · rename_i checked
        rw [checked]
    dsimp only
    split
    · exact ⟨none, rfl, nofun⟩
    · rename_i running
      exact ⟨_, rfl, fun _ => ⟨Bool.eq_false_iff.mpr running, fresh⟩⟩

theorem Assist.withReadAccess_run {Failure Answer : Type} (steps : PauseM Failure Answer)
    (session : Session) : (withReadAccess steps).run session =
      ((steps.run session.acquireRead).1, (steps.run session.acquireRead).2.releaseRead) :=
  rfl

/-- What was captured is fresh only as long as the number of edits is the same. -/
theorem FreshnessGuard.eq_of_fresh {stamp edits : UInt64}
    (fresh : ((capture stamp).check edits).1 = .fresh) : edits = stamp := by
  unfold capture check at fresh
  by_contra different
  simp [different] at fresh

end PauseFlow
