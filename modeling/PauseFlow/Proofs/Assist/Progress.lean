import PauseFlow.Proofs.Assist.Exactness

namespace PauseFlow

open Memory

/-- The variable holds the value of its group, which is as the snapshot says. -/
structure Sighting.TrueOf {table : ClassTable} (world : World table) (final : Variables)
    (env : Environment) (sighting : Sighting) : Prop where
  same : env sighting.var = env sighting.first
  snapshot : ∀ snapshot, sighting.snapshot = some snapshot →
    snapshot.TrueOf world final env sighting.var

/-- What a sighting is about: the classes that it joins and the derived fields of its variable. -/
def Sighting.Touches (sighting : Sighting) (final : Variables) (memory : Memory) (other : Var) :
    Prop :=
  memory.areEqual sighting.var other = true ∨ memory.areEqual sighting.first other = true ∨
    final.Belongs other sighting.var

namespace Seed

section Persistence

variable {final : Variables} {region : Var → Prop} {old new : Seed}

/-- A snapshot stays exact if its variable still says the same and its derived fields are outside
of what changed. -/
theorem Confined.exact (confined : Confined region old new) (ordered : final.Ordered)
    (grows : Variables.Grows new.registry final) {snapshot : Snapshot} {var : Var}
    (exact : snapshot.Exact old.registry old.memory var)
    (same : ∀ value, snapshot.Says new.registry.table value →
      new.memory.value new.registry var = value)
    (outside : ∀ other, final.Belongs other var → other ≠ var → ¬ region other) :
    snapshot.Exact new.registry new.memory var := by
  have table := confined.grows.table
  induction snapshot generalizing var with
  | constant value => exact ⟨same, trivial⟩
  | string text => exact ⟨same, trivial⟩
  | object signature => exact ⟨same, trivial⟩
  | enumCase signature name => exact ⟨same, trivial⟩
  | withField signature field value ih =>
    refine ⟨same, fun type known suits => ?_⟩
    rw [table] at known suits
    obtain ⟨fieldVar, placed, exactField⟩ := exact.2 type known suits
    have again := confined.grows.find? placed
    have link := Variables.derivesFrom_of_find? (grows.find? again)
    have younger := link.index_lt ordered
    have free : ∀ other, final.Belongs other fieldVar → ¬ region other := by
      intro other belongs
      have older := belongs.index_le ordered
      apply outside other (belongs.tail link)
      intro same
      subst same
      omega
    refine ⟨fieldVar, again, ih exactField (fun known valueKnown => ?_)
      (fun other belongs _ => free other belongs)⟩
    rw [table] at valueKnown
    rw [confined.value (Variables.issued_of_find? placed) (free fieldVar .refl)]
    exact exactField.value_eq valueKnown

end Persistence

section Seeing

variable {table : ClassTable} {world : World table} {env : Environment} {final : Variables}
  {seed : Seed} {sighting : Sighting}

private theorem Faithful.see (legal : table.Legal)
    (declared : ∀ var, (final.declared var).Contains world (env var))
    (faithful : seed.Faithful world env) (issued : seed.registry.Issued sighting.var)
    (grows : Variables.Grows (seed.see sighting).registry final)
    (truth : sighting.TrueOf world final env) :
    seed.Sees sighting ∧ (seed.see sighting).Faithful world env := by
  obtain ⟨accepted, joined⟩ := faithful.join legal truth.same
  rw [see_of_unite accepted] at grows ⊢
  cases taken : sighting.snapshot with
  | none =>
    exact ⟨⟨accepted, forall_of_eq_none taken⟩, joined⟩
  | some snapshot =>
    rw [taken] at grows
    obtain ⟨observes, after⟩ :=
      joined.observe legal declared issued grows (truth.snapshot snapshot taken)
    exact ⟨⟨accepted, forall_of_eq_some taken observes⟩, after⟩

/-- Observing what is true of many variables succeeds and stays true. -/
theorem Faithful.seesAll (legal : table.Legal)
    (declared : ∀ var, (final.declared var).Contains world (env var)) {sightings : List Sighting}
    (faithful : seed.Faithful world env)
    (issued : ∀ sighting ∈ sightings, seed.registry.Issued sighting.var)
    (grows : Variables.Grows (sightings.foldl Seed.see seed).registry final)
    (truth : ∀ sighting ∈ sightings, sighting.TrueOf world final env) :
    seed.SeesAll sightings ∧ (sightings.foldl Seed.see seed).Faithful world env := by
  induction sightings generalizing seed with
  | nil => exact ⟨trivial, faithful⟩
  | cons sighting rest ih =>
    rw [List.foldl_cons] at grows ⊢
    obtain ⟨sees, after⟩ := faithful.see legal declared (issued sighting (by simp))
      ((grows_foldl_see _ rest).trans grows) (truth sighting (by simp))
    obtain ⟨seesRest, done⟩ := ih after
      (fun other member => (grows_see seed sighting).issued (issued other (by simp [member])))
      grows (fun other member => truth other (by simp [member]))
    exact ⟨⟨sees, seesRest⟩, done⟩

/-- What seeing a variable leaves: it shares the class of the first variable of its group, and its
snapshot is exact. -/
structure Shows (final : Variables) (sighting : Sighting) (old new : Seed) : Prop where
  confined : Confined (sighting.Touches final old.memory) old new
  joined : new.memory.areEqual sighting.var sighting.first = true
  lonely : ∀ {var}, var ≠ sighting.var → var ≠ sighting.first → old.memory.Lonely var →
    new.memory.Lonely var
  exact : ∀ snapshot, sighting.snapshot = some snapshot →
    snapshot.Exact new.registry new.memory sighting.var

/-- The variable shares the class of whatever a sighting touches, derived fields apart. -/
theorem Shows.areEqual {old new : Seed} (shows : Shows final sighting old new) {other : Var}
    (touched : old.memory.areEqual sighting.var other = true ∨
      old.memory.areEqual sighting.first other = true) :
    new.memory.areEqual sighting.var other = true := by
  rcases touched with inVar | inFirst
  · exact shows.confined.equal inVar
  · exact areEqual_trans shows.joined (shows.confined.equal inFirst)

private theorem touches_of_join (wellFormed : WellFormed seed.memory)
    (accepted : (seed.memory.unite seed.registry sighting.var sighting.first).1 = true) {other : Var}
    (same : (seed.join sighting).memory.areEqual sighting.var other = true) :
    sighting.Touches final seed.memory other := by
  rcases (areEqual_unite_iff wellFormed accepted _ _).mp same with old | ⟨_, inFirst⟩ | ⟨_, inVar⟩
  · exact .inl old
  · exact .inr (.inl inFirst)
  · exact .inl inVar

private theorem Faithful.shows (legal : table.Legal)
    (declared : ∀ var, (final.declared var).Contains world (env var)) (ordered : final.Ordered)
    (faithful : seed.Faithful world env) (issued : seed.registry.Issued sighting.var)
    (grows : Variables.Grows (seed.see sighting).registry final)
    (truth : sighting.TrueOf world final env) (plain : final.Plain sighting.first)
    (below : ∀ other, final.Belongs other sighting.var → seed.memory.Untouched other)
    (expects : ∀ snapshot, sighting.snapshot = some snapshot → ∀ value,
      snapshot.Says seed.registry.table value →
      (seed.join sighting).Expects sighting.var value) :
    Shows final sighting seed (seed.see sighting) := by
  have wellFormed := faithful.wellFormed
  obtain ⟨accepted, joined⟩ := faithful.join legal truth.same
  have merged : (seed.join sighting).memory.areEqual sighting.var sighting.first = true :=
    (areEqual_unite_iff wellFormed accepted _ _).mpr
      (.inr (.inl ⟨areEqual_refl _ _, areEqual_refl _ _⟩))
  have confined : Confined (sighting.Touches final seed.memory) seed (seed.join sighting) := by
    apply (confined_join wellFormed accepted).mono
    intro other inside
    rcases inside with inVar | inFirst
    · exact .inl inVar
    · exact .inr (.inl inFirst)
  have lonely : ∀ {var}, var ≠ sighting.var → var ≠ sighting.first → seed.memory.Lonely var →
      (seed.join sighting).memory.Lonely var :=
    fun notVar notFirst alone => alone.unite wellFormed accepted notVar notFirst
  rw [see_of_unite accepted] at grows ⊢
  cases taken : sighting.snapshot with
  | none =>
    exact ⟨confined, merged, lonely, forall_of_eq_none taken⟩
  | some snapshot =>
    rw [taken] at grows
    have free : ∀ other, final.Belongs other sighting.var → other ≠ sighting.var →
        (seed.join sighting).memory.Untouched other := by
      intro other belongs different
      apply (below other belongs).unite wellFormed accepted different
      intro same
      subst same
      exact different (belongs.eq_of_plain plain)
    have recorded := joined.records legal declared ordered issued grows
      (truth.snapshot snapshot taken) free (expects snapshot taken)
    have equal := areEqual_observe (seed.join sighting) sighting.var snapshot
    refine ⟨confined.trans (recorded.confined.mono fun inside => ?_), ?_,
      fun notVar notFirst alone other same => ?_, forall_of_eq_some taken recorded.exact⟩
    · rcases inside with same | belongs
      · exact touches_of_join wellFormed accepted same
      · exact .inr (.inr belongs)
    · exact (equal _ _).trans merged
    · rw [equal] at same
      exact lonely notVar notFirst alone other same

/-- The first variable of a group is known by what is declared of it alone. -/
theorem Faithful.expects_of_first (faithful : seed.Faithful world env)
    (free : seed.memory.Untouched sighting.var) (first : sighting.var = sighting.first)
    (value : AbstractValue) : (seed.join sighting).Expects sighting.var value := by
  refine .inl ?_
  have same : (seed.join sighting).memory = seed.memory := by
    simp [Seed.join, Memory.unite, first]
  rw [same, free.value_eq faithful.wellFormed]
  exact declared_or_top faithful.built sighting.var

/-- A later variable of a group takes over what is known of the first one. -/
theorem Faithful.expects_of_later (legal : table.Legal) (faithful : seed.Faithful world env)
    (truth : sighting.TrueOf world final env) (free : seed.memory.Untouched sighting.var)
    (later : sighting.var ≠ sighting.first) {snapshot : Snapshot}
    (taken : sighting.snapshot = some snapshot)
    (exact : snapshot.Exact seed.registry seed.memory sighting.first) {value : AbstractValue}
    (told : snapshot.Says seed.registry.table value) :
    (seed.join sighting).Expects sighting.var value := by
  refine .inr ?_
  obtain ⟨accepted, _⟩ := faithful.join legal truth.same
  have apart : seed.memory.areEqual sighting.var sighting.first ≠ true :=
    fun same => later (free.lonely _ same).symm
  have known := exact.value_eq told
  have holds := faithful.satisfied.known sighting.first
  have fits := faithful.satisfied.declared sighting.var
  have here : snapshot.Says table value := faithful.sameTable ▸ told
  have pinned := here.pinned (truth.snapshot snapshot taken)
  rw [known, ← truth.same] at holds
  apply (value_unite_left faithful.wellFormed accepted apart).trans
  rw [Memory.overlap, known, free.value_eq faithful.wellFormed]
  obtain ⟨rfl, built, _, _⟩ := faithful
  exact AbstractValue.meet_declared_pinned (declared_or_top built _) pinned fits holds

end Seeing

/-- No variable is seen before the first variable of its group. -/
def Led (sightings : List Sighting) : Prop :=
  ∀ seen sighting pending, sightings = seen ++ sighting :: pending →
    ∃ earlier ∈ seen ++ [sighting], earlier.var = sighting.first

/-- Sightings of plain variables, each seen once, where variables of one value are of one group. -/
structure Consistent (env : Environment) (final : Variables) (sightings : List Sighting) :
    Prop where
  once : (sightings.map Sighting.var).Nodup
  plain : ∀ sighting ∈ sightings, final.Plain sighting.var
  agree : ∀ left ∈ sightings, ∀ right ∈ sightings, env left.var = env right.var →
    left.first = right.first ∧ left.snapshot = right.snapshot
  led : Led sightings

/-- Some sightings were seen, and nothing is said of the pending ones. -/
structure Progress {table : ClassTable} (world : World table) (env : Environment)
    (final : Variables) (seen pending : List Sighting) (seed : Seed) : Prop where
  faithful : seed.Faithful world env
  issued : ∀ sighting ∈ seen ++ pending, seed.registry.Issued sighting.var
  joined : ∀ sighting ∈ seen, seed.memory.areEqual sighting.var sighting.first = true
  exact : ∀ sighting ∈ seen, ∀ snapshot, sighting.snapshot = some snapshot →
    snapshot.Exact seed.registry seed.memory sighting.var
  lonely : ∀ var, (∀ sighting ∈ seen, sighting.var ≠ var) → seed.memory.Lonely var
  untouched : ∀ sighting ∈ pending, ∀ other, final.Belongs other sighting.var →
    seed.memory.Untouched other

section Advancing

variable {table : ClassTable} {world : World table} {env : Environment} {final : Variables}
  {seed : Seed} {sighting earlier : Sighting} {seen pending : List Sighting}

private theorem Consistent.ne_of_later (consistent : Consistent env final (seen ++ pending))
    (before : earlier ∈ seen) (after : sighting ∈ pending) : earlier.var ≠ sighting.var := by
  have once := consistent.once
  rw [List.map_append] at once
  intro same
  exact List.disjoint_of_nodup_append once (List.mem_map_of_mem before)
    (same ▸ List.mem_map_of_mem after)

/-- A variable that is seen belongs to no other one that is seen. -/
theorem Consistent.not_belongs (consistent : Consistent env final (seen ++ pending))
    (before : earlier ∈ seen) (after : sighting ∈ pending) {other : Var}
    (inEarlier : final.Belongs other earlier.var) : ¬ final.Belongs other sighting.var := by
  intro inLater
  exact consistent.ne_of_later before after (inEarlier.unique inLater
    (consistent.plain earlier (by simp [before])) (consistent.plain sighting (by simp [after])))

private theorem Consistent.plain_first
    (consistent : Consistent env final (seen ++ sighting :: pending)) :
    final.Plain sighting.first := by
  obtain ⟨leader, member, same⟩ := consistent.led seen sighting pending rfl
  rw [← same]
  apply consistent.plain leader
  rcases List.mem_append.mp member with before | here
  · simp [before]
  · simp [List.mem_singleton.mp here]

/-- The next variable is narrowed to nothing that its class does not say already. -/
theorem Progress.expects (legal : table.Legal)
    (consistent : Consistent env final (seen ++ sighting :: pending))
    (progress : Progress world env final seen (sighting :: pending) seed)
    (truth : sighting.TrueOf world final env) {snapshot : Snapshot}
    (taken : sighting.snapshot = some snapshot) {value : AbstractValue}
    (told : snapshot.Says seed.registry.table value) :
    (seed.join sighting).Expects sighting.var value := by
  have free := progress.untouched sighting (by simp) sighting.var .refl
  obtain ⟨leader, member, same⟩ := consistent.led seen sighting pending rfl
  rcases List.mem_append.mp member with before | here
  · have later : sighting.var ≠ sighting.first := by
      rw [← same]
      exact (consistent.ne_of_later before (by simp)).symm
    have equal : env leader.var = env sighting.var := by rw [same, truth.same]
    obtain ⟨_, sameSnapshot⟩ :=
      consistent.agree leader (by simp [before]) sighting (by simp) equal
    have exact := progress.exact leader before snapshot (sameSnapshot.trans taken)
    rw [same] at exact
    exact progress.faithful.expects_of_later legal truth free later taken exact told
  · rw [List.mem_singleton.mp here] at same
    exact progress.faithful.expects_of_first free same value

/-- A sighting touches nothing that belongs to a variable seen later. -/
theorem Progress.not_touches_of_pending
    (consistent : Consistent env final (seen ++ sighting :: pending))
    (progress : Progress world env final seen (sighting :: pending) seed) {later : Sighting}
    (after : later ∈ pending) {other : Var} (belongs : final.Belongs other later.var) :
    ¬ sighting.Touches final seed.memory other := by
  have consistentHere : Consistent env final ((seen ++ [sighting]) ++ pending) := by
    rwa [List.append_assoc]
  have free := progress.untouched later (by simp [after]) other belongs
  have apart : ∀ earlier ∈ seen ++ [sighting], earlier.var ≠ other := by
    rintro earlier member rfl
    exact consistentHere.not_belongs member after .refl belongs
  intro touched
  rcases touched with inVar | inFirst | inside
  · exact apart sighting (by simp) (free.lonely _ (areEqual_symm inVar))
  · obtain ⟨leader, member, same⟩ := consistent.led seen sighting pending rfl
    exact apart leader member (same.trans (free.lonely _ (areEqual_symm inFirst)))
  · exact consistentHere.not_belongs (by simp) after inside belongs

/-- A sighting touches no derived field of a variable seen earlier. -/
theorem Progress.not_touches_of_seen
    (consistent : Consistent env final (seen ++ sighting :: pending))
    (progress : Progress world env final seen (sighting :: pending) seed)
    (before : earlier ∈ seen) {other : Var} (belongs : final.Belongs other earlier.var)
    (different : other ≠ earlier.var) : ¬ sighting.Touches final seed.memory other := by
  have derived : ∀ {member : Var}, final.Plain member → member ≠ other := by
    rintro member plain rfl
    exact different (belongs.eq_of_plain plain)
  have lonely : seed.memory.Lonely other := progress.lonely other fun member inSeen =>
    derived (consistent.plain member (by simp [inSeen]))
  intro touched
  rcases touched with inVar | inFirst | inside
  · exact derived (consistent.plain sighting (by simp)) (lonely _ (areEqual_symm inVar))
  · exact derived consistent.plain_first (lonely _ (areEqual_symm inFirst))
  · exact consistent.not_belongs before (by simp) belongs inside

/-- An earlier variable still says what its snapshot says, also when its class was narrowed again. -/
theorem Progress.exact_of_seen
    (consistent : Consistent env final (seen ++ sighting :: pending))
    (progress : Progress world env final seen (sighting :: pending) seed) {new : Seed}
    (after : new.Faithful world env) (shows : Shows final sighting seed new)
    (ordered : final.Ordered) (grows : Variables.Grows new.registry final)
    (before : earlier ∈ seen) {snapshot : Snapshot} (taken : earlier.snapshot = some snapshot) :
    snapshot.Exact new.registry new.memory earlier.var := by
  have exact := progress.exact earlier before snapshot taken
  refine shows.confined.exact ordered grows exact (fun value told => ?_)
    (fun other belongs different =>
      progress.not_touches_of_seen consistent before belongs different)
  by_cases touched : sighting.Touches final seed.memory earlier.var
  · have outside : ¬ final.Belongs earlier.var sighting.var :=
      consistent.not_belongs before (by simp) .refl
    have same : new.memory.areEqual sighting.var earlier.var = true := by
      rcases touched with inVar | inFirst | inside
      · exact shows.areEqual (.inl inVar)
      · exact shows.areEqual (.inr inFirst)
      · exact absurd inside outside
    have equal := after.satisfied.equal same
    obtain ⟨_, sameSnapshot⟩ :=
      consistent.agree sighting (by simp) earlier (by simp [before]) equal
    have recorded := shows.exact snapshot (sameSnapshot.trans taken)
    rw [← value_eq_of_areEqual same]
    exact recorded.value_eq told
  · rw [shows.confined.grows.table] at told
    rw [shows.confined.value (progress.issued earlier (by simp [before])) touched]
    exact exact.value_eq told

private theorem Progress.see (legal : table.Legal)
    (declared : ∀ var, (final.declared var).Contains world (env var)) (ordered : final.Ordered)
    (consistent : Consistent env final (seen ++ sighting :: pending))
    (progress : Progress world env final seen (sighting :: pending) seed)
    (truth : sighting.TrueOf world final env)
    (grows : Variables.Grows (seed.see sighting).registry final) :
    Progress world env final (seen ++ [sighting]) pending (seed.see sighting) := by
  have issued := progress.issued sighting (by simp)
  obtain ⟨_, after⟩ := progress.faithful.see legal declared issued grows truth
  have shows := progress.faithful.shows legal declared ordered issued grows truth
    consistent.plain_first (progress.untouched sighting (by simp))
    (fun snapshot taken value told => progress.expects legal consistent truth taken told)
  refine ⟨after, fun member inAll => ?_, fun member inSeen => ?_, fun member inSeen => ?_,
    fun var outside => ?_, fun later inPending other belongs => ?_⟩
  · rw [List.append_assoc] at inAll
    exact shows.confined.grows.issued (progress.issued member inAll)
  · rcases List.mem_append.mp inSeen with before | here
    · exact shows.confined.equal (progress.joined member before)
    · rw [List.mem_singleton.mp here]
      exact shows.joined
  · intro snapshot taken
    rcases List.mem_append.mp inSeen with before | here
    · exact progress.exact_of_seen consistent after shows ordered grows before taken
    · rw [List.mem_singleton.mp here] at taken ⊢
      exact shows.exact snapshot taken
  · obtain ⟨leader, member, same⟩ := consistent.led seen sighting pending rfl
    refine shows.lonely (outside sighting (by simp)).symm ?_
      (progress.lonely var fun member inSeen => outside member (by simp [inSeen]))
    rw [← same]
    exact (outside leader member).symm
  · exact shows.confined.untouched
      (progress.not_touches_of_pending consistent inPending belongs)
      (progress.untouched later (by simp [inPending]) other belongs)

/-- After all sightings every one of them is exact. -/
theorem Progress.run (legal : table.Legal)
    (declared : ∀ var, (final.declared var).Contains world (env var)) (ordered : final.Ordered)
    (consistent : Consistent env final (seen ++ pending))
    (progress : Progress world env final seen pending seed)
    (truth : ∀ sighting ∈ pending, sighting.TrueOf world final env)
    (grows : Variables.Grows (pending.foldl Seed.see seed).registry final) :
    Progress world env final (seen ++ pending) [] (pending.foldl Seed.see seed) := by
  induction pending generalizing seed seen with
  | nil =>
    rw [List.append_nil]
    exact progress
  | cons sighting rest ih =>
    rw [List.foldl_cons] at grows ⊢
    have next := progress.see legal declared ordered consistent (truth sighting (by simp))
      ((grows_foldl_see _ rest).trans grows)
    rw [List.append_cons] at consistent ⊢
    exact ih consistent next (fun member inRest => truth member (by simp [inRest])) grows

theorem progress_start {registry : Variables} (table : registry.table = table)
    (built : registry.Built AbstractValue.Declared)
    (declared : ∀ var, (registry.declared var).Contains world (env var))
    (issued : ∀ sighting ∈ pending, registry.Issued sighting.var) :
    Progress world env final [] pending ⟨registry, .empty⟩ where
  faithful := ⟨table, built, wellFormed_empty, satisfies_empty declared⟩
  issued := issued
  joined := by simp
  exact := by simp
  lonely var _ := (untouched_empty var).lonely
  untouched _ _ other _ := untouched_empty other

end Advancing

end Seed

end PauseFlow
