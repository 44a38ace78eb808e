import PauseFlow.Proofs.Assist.Undisturbed

namespace PauseFlow

namespace ResolvedPause

/-- Under read access, observation fails before its first query. -/
theorem observe_run_of_held (resolved : ResolvedPause) {session : Session}
    (held : 0 < session.readers) :
    resolved.observe.run session = (.error .readAccessHeld, session) := by
  have refused : Assist.refuseReadAccess.run session = (.error .readAccessHeld, session) := by
    unfold Assist.refuseReadAccess
    rw [PauseM.run_bind]
    change (if session.isReadAccessHeld then throw .readAccessHeld else pure () : Assist Unit).run
      session = _
    rw [if_pos (by simpa [Session.isReadAccessHeld] using held)]
    rfl
  unfold observe
  rw [PauseM.run_bind, refused]

/-- Whatever observation asks, it asks with the read access of its caller, that is none. -/
theorem exists_asks_of_observe (resolved : ResolvedPause) (session : Session) :
    ∃ made, session.Asks made (resolved.observe.run session).2 ∧
      (0 < session.readers → made = []) := by
  rcases Nat.eq_zero_or_pos session.readers with free | held
  · obtain ⟨made, asked, _⟩ := Snapshots.fetch_follows resolved.frame resolved.aliases session
    refine ⟨made, ?_, fun held => by omega⟩
    rw [resolved.observe_run free]
    rcases ran : (Snapshots.fetch resolved.frame resolved.aliases).run session with ⟨_ | _, _⟩
    all_goals rwa [ran] at asked
  · rw [resolved.observe_run_of_held held]
    exact ⟨[], .refl session, fun _ => rfl⟩

private theorem session_of_conclude (observed : ObservedPause) (settings : Settings)
    (session : Session) :
    ((Assist.withReadAccess (Assist.conclude observed settings)).run session).2 = session := by
  obtain ⟨_, concluded, _⟩ := Assist.conclude_run observed settings session.acquireRead
  rw [Assist.withReadAccess_run, concluded]
  rfl

/-- Nothing is asked or kept after observation, however that ended. -/
theorem session_of_finish (resolved : ResolvedPause) (settings : Settings) (session : Session) :
    ((resolved.finish settings).run session).2 = (resolved.observe.run session).2 := by
  unfold finish
  rw [PauseM.run_bind, PauseM.run_tryCatch, PauseM.run_map]
  rcases resolved.observe.run session with ⟨failure | observed, after⟩
  · cases failure <;> rfl
  · exact session_of_conclude observed settings after

private theorem finish_run_of_held (resolved : ResolvedPause) (settings : Settings)
    {session : Session} (held : 0 < session.readers) :
    (resolved.finish settings).run session = (.error .readAccessHeld, session) := by
  unfold finish
  rw [PauseM.run_bind, PauseM.run_tryCatch, PauseM.run_map, resolved.observe_run_of_held held]
  rfl

end ResolvedPause

namespace Assist

/-- The resolution of a pause, with the read access it takes. -/
def resolution (host : Host) (frame : FrameRef) (element : Option SourceElement) :
    Assist (Option ResolvedPause) :=
  withReadAccess (ResolvedPause.resolve host frame element)

/-- Resolution gives back the read access that all its queries are made with. -/
theorem exists_asks_of_resolution (host : Host) (frame : FrameRef)
    (element : Option SourceElement) (session : Session) :
    ∃ made, session.Advances made ((resolution host frame element).run session).2 ∧
      ((resolution host frame element).run session).2.readers = session.readers ∧
      ∀ record ∈ made, record.readers = session.readers + 1 := by
  obtain ⟨made, asked, _⟩ :=
    ResolvedPause.resolve_follows host frame element session.acquireRead
  exact ⟨made, { asked.toAdvances.of_acquireRead with }, congrArg (· - 1) asked.readers,
    asked.held⟩

/-- A pause is resolved, and goes on only with what was resolved. -/
theorem atPause_run (host : Host) (frame : FrameRef) (element : Option SourceElement)
    {settings : Settings} (enabled : settings.enabled = true) (session : Session) :
    (atPause host frame element settings).run session =
      match (resolution host frame element).run session with
      | (.ok (some resolved), after) => (resolved.finish settings).run after
      | (.ok none, after) => (.ok none, after)
      | (.error failure, after) => (.error failure, after) := by
  unfold atPause
  rw [enabled, if_neg (by simp), PauseM.run_bind, ← resolution]
  rcases (resolution host frame element).run session with ⟨_ | _ | _, _⟩ <;> rfl

/-- How a pause handles read access, given the queries made, the latest first: the early ones until
it was resolved, the late ones after that. -/
structure KeepsReadAccess (host : Host) (frame : FrameRef) (element : Option SourceElement)
    (settings : Settings) (session : Session) (early late : List QueryRecord) : Prop where
  returned : ((atPause host frame element settings).run session).2.readers = session.readers
  journal : ((atPause host frame element settings).run session).2.journal =
    late ++ (early ++ session.journal)
  /-- One access more than the caller holds, so at least one. -/
  locked : ∀ record ∈ early, record.readers = session.readers + 1
  unlocked : ∀ record ∈ late, record.readers = 0
  disabled : settings.enabled = false → early = [] ∧ late = []
  resolving : settings.enabled = true →
    ((resolution host frame element).run session).2.journal = early ++ session.journal
  unresolved : (∀ resolved, ((resolution host frame element).run session).1 ≠ .ok (some resolved)) →
    late = []
  refused : settings.enabled = true → ∀ resolved after,
    (resolution host frame element).run session = (.ok (some resolved), after) →
    0 < session.readers →
      (atPause host frame element settings).run session = (.error .readAccessHeld, after)
  /-- Nothing is asked after observation, whether that succeeded or failed. -/
  observed : settings.enabled = true → ∀ resolved after,
    (resolution host frame element).run session = (.ok (some resolved), after) →
      ((atPause host frame element settings).run session).2 = (resolved.observe.run after).2

section Stages

variable {host : Host} {frame : FrameRef} {element : Option SourceElement} {settings : Settings}
  {session after : Session}

private theorem keepsReadAccess_of_disabled (disabled : settings.enabled ≠ true) :
    KeepsReadAccess host frame element settings session [] [] := by
  have same : ((atPause host frame element settings).run session).2 = session := by
    unfold atPause
    rw [if_pos (by simpa using disabled)]
    rfl
  exact {
    returned := by rw [same]
    journal := by rw [same]; rfl
    locked := nofun
    unlocked := nofun
    disabled := fun _ => ⟨rfl, rfl⟩
    resolving := fun enabled => absurd enabled disabled
    unresolved := fun _ => rfl
    refused := fun enabled => absurd enabled disabled
    observed := fun enabled => absurd enabled disabled }

private theorem keepsReadAccess_of_unresolved (enabled : settings.enabled = true)
    (unresolved : ∀ resolved, ((resolution host frame element).run session).1 ≠
      .ok (some resolved)) :
    ∃ early, KeepsReadAccess host frame element settings session early [] := by
  obtain ⟨early, asked, returned, locked⟩ := exists_asks_of_resolution host frame element session
  have same : ((atPause host frame element settings).run session).2 =
      ((resolution host frame element).run session).2 := by
    rw [atPause_run host frame element enabled]
    split
    · rename_i resolved _ ran
      exact absurd (congrArg Prod.fst ran) (unresolved resolved)
    · rename_i ran
      rw [ran]
    · rename_i ran
      rw [ran]
  exact ⟨early, {
    returned := by rw [same, returned]
    journal := by rw [same, asked.journal]; rfl
    locked := locked
    unlocked := nofun
    disabled := fun off => absurd (enabled.symm.trans off) nofun
    resolving := fun _ => asked.journal
    unresolved := fun _ => rfl
    refused := fun _ resolved _ ran => absurd (congrArg Prod.fst ran) (unresolved resolved)
    observed := fun _ resolved _ ran => absurd (congrArg Prod.fst ran) (unresolved resolved) }⟩

private theorem keepsReadAccess_of_resolved (enabled : settings.enabled = true)
    {resolved : ResolvedPause}
    (ran : (resolution host frame element).run session = (.ok (some resolved), after)) :
    ∃ early late, KeepsReadAccess host frame element settings session early late := by
  obtain ⟨early, asked, returned, locked⟩ := exists_asks_of_resolution host frame element session
  rw [ran] at asked returned
  obtain ⟨late, observing, silent⟩ := resolved.exists_asks_of_observe after
  have onward : (atPause host frame element settings).run session =
      (resolved.finish settings).run after := by
    rw [atPause_run host frame element enabled, ran]
  have ended : ((atPause host frame element settings).run session).2 =
      (resolved.observe.run after).2 := by
    rw [onward, resolved.session_of_finish]
  exact ⟨early, late, {
    returned := by rw [ended, observing.readers, returned]
    journal := by rw [ended, observing.journal, asked.journal]
    locked := locked
    unlocked := fun record member => by
      rw [observing.held record member]
      by_contra held
      rw [silent (Nat.pos_of_ne_zero held)] at member
      cases member
    disabled := fun off => absurd (enabled.symm.trans off) nofun
    resolving := fun _ => by rw [ran, asked.journal]
    unresolved := fun none => absurd (by rw [ran]) (none resolved)
    refused := fun _ _ _ again held => by
      cases ran.symm.trans again
      rw [onward, resolved.finish_run_of_held settings (returned.symm ▸ held)]
    observed := fun _ _ _ again => by
      cases ran.symm.trans again
      exact ended }⟩

end Stages

/-- Every pause keeps to its read access, whatever its heap, its queries and what happens at them,
and however much its caller holds. -/
theorem atPause_keepsReadAccess (host : Host) (frame : FrameRef) (element : Option SourceElement)
    (settings : Settings) (session : Session) :
    ∃ early late, KeepsReadAccess host frame element settings session early late := by
  by_cases enabled : settings.enabled = true
  · by_cases found : ∃ resolved,
        ((resolution host frame element).run session).1 = .ok (some resolved)
    · obtain ⟨resolved, found⟩ := found
      exact keepsReadAccess_of_resolved enabled (Prod.ext found rfl)
    · obtain ⟨early, keeps⟩ := keepsReadAccess_of_unresolved enabled (not_exists.mp found)
      exact ⟨early, [], keeps⟩
  · exact ⟨[], [], keepsReadAccess_of_disabled enabled⟩

/-- In the loop over cells, a caller with read access gets nowhere after the resolution. -/
example : (match ((atPause cellHost ⟨0, 0⟩ (some cellElement) .default).run
    cellPause.acquireRead).1 with | .error .readAccessHeld => true | _ => false) = true := by
  decide +kernel

end Assist

end PauseFlow
