import PauseFlow.Proofs.Assist.Progress
import PauseFlow.Proofs.Hierarchy.Growth

namespace PauseFlow

open Memory

/-- The values of a paused program and what a debugger saw of them. Groups have different live
values, which are those of their variables; the variables are no derived fields, and snapshots are
true. -/
structure Observed {table : ClassTable} (world : World table) (env : Environment)
    (registry final : Variables) (aliases : Aliases) (snapshots : Snapshots) : Prop where
  declared : ∀ var, (final.declared var).Contains world (env var)
  keys : aliases.groups.Pairwise fun left right => left.1.same right.1 = false
  once : (aliases.groups.flatMap (·.2)).Nodup
  issued : ∀ group ∈ aliases.groups, ∀ var ∈ group.2, registry.Issued var
  plain : ∀ group ∈ aliases.groups, ∀ var ∈ group.2, registry.Plain var
  denotes : ∀ group ∈ aliases.groups, ∀ var ∈ group.2, group.1.Denotes (env var)
  snapshots : ∀ group ∈ aliases.groups, ∀ snapshot, snapshots.get? group.1 = some snapshot →
    ∀ var ∈ group.2, snapshot.TrueOf world final env var

/-- What is known after an observation: values that satisfy the memory, classes that are the
groups, and values that are as exact as the snapshots. -/
structure Seed.Reflects {table : ClassTable} (seed : Seed) (world : World table)
    (env : Environment) (aliases : Aliases) (snapshots : Snapshots) : Prop where
  satisfied : Satisfies world seed.registry seed.memory env
  together : ∀ group ∈ aliases.groups, ∀ first, group.2.head? = some first → ∀ var ∈ group.2,
    seed.memory.areEqual var first = true
  separate : aliases.groups.Pairwise fun left right => ∀ var ∈ left.2, ∀ other ∈ right.2,
    seed.memory.areEqual var other = false
  different : ∀ pair ∈ seed.memory.distinctPairs, env pair.1 ≠ env pair.2
  exact : ∀ group ∈ aliases.groups, ∀ snapshot, snapshots.get? group.1 = some snapshot →
    ∀ var ∈ group.2, snapshot.Exact seed.registry seed.memory var

section Sightings

variable {aliases : Aliases} {snapshots : Snapshots} {sighting : Sighting}

theorem Aliases.mem_sightings_iff : sighting ∈ aliases.sightings snapshots ↔
    ∃ group ∈ aliases.groups, group.2.head? = some sighting.first ∧ sighting.var ∈ group.2 ∧
      sighting.snapshot = snapshots.get? group.1 := by
  rw [sightings, List.mem_flatMap]
  apply exists_congr
  intro group
  apply and_congr_right
  intro _
  cases group.2 with
  | nil => simp
  | cons first rest =>
    rw [List.mem_map]
    constructor
    · intro given
      obtain ⟨var, member, rfl⟩ := given
      exact ⟨rfl, member, rfl⟩
    · intro given
      obtain ⟨sameFirst, member, sameSnapshot⟩ := given
      obtain ⟨lead, snapshot, var⟩ := sighting
      cases sameFirst
      cases sameSnapshot
      exact ⟨var, member, rfl⟩

private theorem Aliases.exists_sighting (aliases : Aliases) (snapshots : Snapshots)
    {group : LiveValue × List Var} (member : group ∈ aliases.groups) {var : Var}
    (inGroup : var ∈ group.2) : ∃ sighting ∈ aliases.sightings snapshots,
      group.2.head? = some sighting.first ∧ sighting.snapshot = snapshots.get? group.1 ∧
        sighting.var = var := by
  obtain ⟨first, leads⟩ := Option.isSome_iff_exists.mp
    (List.isSome_head?.mpr (List.ne_nil_of_mem inGroup))
  exact ⟨⟨first, snapshots.get? group.1, var⟩,
    mem_sightings_iff.mpr ⟨group, member, leads, inGroup, rfl⟩, leads, rfl, rfl⟩

private theorem Aliases.map_var_sightings (aliases : Aliases) (snapshots : Snapshots) :
    (aliases.sightings snapshots).map Sighting.var = aliases.groups.flatMap (·.2) := by
  rw [sightings, List.map_flatMap]
  congr 1
  funext group
  cases group.2 with
  | nil => rfl
  | cons first rest =>
    rw [List.map_map]
    exact List.map_id _

private theorem Seed.led_nil : Seed.Led [] := by
  intro seen sighting pending split
  exact absurd split.symm (by simp)

theorem Seed.Led.append {first second : List Sighting} (inFirst : Seed.Led first)
    (inSecond : Seed.Led second) : Seed.Led (first ++ second) := by
  intro seen sighting pending split
  rcases List.append_eq_append_iff.mp split with ⟨middle, rfl, later⟩ | ⟨middle, rfl, later⟩
  · obtain ⟨leader, member, same⟩ := inSecond middle sighting pending later
    refine ⟨leader, ?_, same⟩
    rw [List.append_assoc]
    exact List.mem_append_right first member
  · cases middle with
    | nil =>
      obtain ⟨leader, member, same⟩ := inSecond [] sighting pending later.symm
      exact ⟨leader, List.mem_append_right seen member, same⟩
    | cons head rest =>
      cases later
      exact inFirst seen sighting rest rfl

private theorem Seed.led_group (first : Var) (snapshot : Option Snapshot) (rest : List Var) :
    Seed.Led ((first :: rest).map fun var => ⟨first, snapshot, var⟩) := by
  intro seen sighting pending split
  cases seen with
  | nil =>
    cases split
    exact ⟨_, List.mem_singleton.mpr rfl, rfl⟩
  | cons head others =>
    have lead : sighting ∈ (first :: rest).map fun var => ⟨first, snapshot, var⟩ := by
      rw [split]
      simp
    obtain ⟨var, _, rfl⟩ := List.mem_map.mp lead
    have here : head = ⟨first, snapshot, first⟩ := (List.cons.inj split).1.symm
    exact ⟨head, List.mem_cons_self, by rw [here]⟩

private theorem Aliases.led_sightings (aliases : Aliases) (snapshots : Snapshots) :
    Seed.Led (aliases.sightings snapshots) := by
  obtain ⟨groups⟩ := aliases
  rw [sightings]
  induction groups with
  | nil => exact Seed.led_nil
  | cons group rest ih =>
    rw [List.flatMap_cons]
    refine Seed.Led.append ?_ ih
    cases group.2 with
    | nil => exact Seed.led_nil
    | cons first others => exact Seed.led_group first _ others

end Sightings

section Groups

variable {table : ClassTable} {world : World table} {env : Environment}
  {registry final : Variables} {aliases : Aliases} {snapshots : Snapshots}

/-- Variables of one value are of one group. -/
theorem Observed.group_unique (observed : Observed world env registry final aliases snapshots)
    {left right : LiveValue × List Var} (leftListed : left ∈ aliases.groups)
    (rightListed : right ∈ aliases.groups) {var other : Var} (inLeft : var ∈ left.2)
    (inRight : other ∈ right.2) (equal : env var = env other) : left = right := by
  by_contra different
  have symmetric : Std.Symm fun left right : LiveValue × List Var =>
      left.1.same right.1 = false := by
    refine ⟨fun first second apart => ?_⟩
    rw [LiveValue.same, decide_eq_false_iff_not] at apart ⊢
    exact Ne.symm apart
  have apart := observed.keys.forall leftListed rightListed different
  have denotes := observed.denotes left leftListed var inLeft
  rw [equal] at denotes
  rw [LiveValue.same_of_denotes denotes (observed.denotes right rightListed other inRight)] at apart
  cases apart

/-- Variables of different groups have different values. -/
theorem Observed.pairwise (observed : Observed world env registry final aliases snapshots) :
    aliases.groups.Pairwise fun left right => ∀ var ∈ left.2, ∀ other ∈ right.2,
      env var ≠ env other := by
  apply observed.keys.imp_of_mem
  intro left right leftListed rightListed apart var inLeft other inRight equal
  have same := observed.group_unique leftListed rightListed inLeft inRight equal
  rw [same, LiveValue.same, decide_eq_false_iff_not] at apart
  exact apart rfl

private theorem Observed.consistent (observed : Observed world env registry final aliases snapshots)
    (grows : Variables.Grows registry final) :
    Seed.Consistent env final (aliases.sightings snapshots) where
  once := by
    rw [aliases.map_var_sightings]
    exact observed.once
  plain sighting listed := by
    obtain ⟨group, member, _, inGroup, _⟩ := Aliases.mem_sightings_iff.mp listed
    exact grows.plain (observed.issued group member _ inGroup)
      (observed.plain group member _ inGroup)
  agree left leftListed right rightListed equal := by
    obtain ⟨group, member, first, inGroup, taken⟩ := Aliases.mem_sightings_iff.mp leftListed
    obtain ⟨other, others, again, inOther, takenOther⟩ := Aliases.mem_sightings_iff.mp rightListed
    have same := observed.group_unique member others inGroup inOther equal
    subst same
    exact ⟨Option.some.inj (first.symm.trans again), taken.trans takenOther.symm⟩
  led := aliases.led_sightings snapshots

private theorem Observed.trueOf (observed : Observed world env registry final aliases snapshots)
    {sighting : Sighting} (listed : sighting ∈ aliases.sightings snapshots) :
    sighting.TrueOf world final env := by
  obtain ⟨group, member, first, inGroup, taken⟩ := Aliases.mem_sightings_iff.mp listed
  refine ⟨?_, fun snapshot same => ?_⟩
  · exact LiveValue.eq_of_denotes (observed.denotes group member _ inGroup)
      (observed.denotes group member _ (List.mem_of_head? first))
  · exact observed.snapshots group member snapshot (taken.symm.trans same) _ inGroup

end Groups

namespace Seed

section Separation

variable {table : ClassTable} {world : World table} {env : Environment} {registry : Variables}
  {old memory : Memory}

theorem mem_pairs {vars : List Var} {related : Var → Var → Prop} (all : vars.Pairwise related)
    {pair : Var × Var} (listed : pair ∈ pairs vars) : related pair.1 pair.2 ∧ pair.1 ∈ vars := by
  induction vars with
  | nil => cases listed
  | cons first rest ih =>
    rw [List.pairwise_cons] at all
    rcases List.mem_append.mp listed with here | later
    · obtain ⟨second, member, rfl⟩ := List.mem_map.mp here
      exact ⟨all.1 second member, List.mem_cons_self⟩
    · obtain ⟨holds, member⟩ := ih all.2 later
      exact ⟨holds, List.mem_cons_of_mem first member⟩

/-- What separating pairs of different values keeps: only the recorded pairs change. -/
structure Separated (world : World table) (registry : Variables) (env : Environment)
    (old new : Memory) : Prop where
  satisfied : Satisfies world registry new env
  wellFormed : WellFormed new
  links : new.links = old.links
  facts : new.facts = old.facts

private theorem Separated.separate (separated : Separated world registry env old memory)
    {left right : Var} (different : env left ≠ env right) :
    (memory.separate registry left right).1 = true ∧
      Separated world registry env old (memory.separate registry left right).2 := by
  obtain ⟨accepted, satisfied⟩ := separated.satisfied.separate separated.wellFormed different
  have wellFormed : WellFormed (memory.separate registry left right).2 :=
    separated.wellFormed.separate left right
  rcases separate_cases memory registry left right with ⟨_, result⟩ | ⟨_, result⟩
  · rw [result] at accepted
    cases accepted
  · rw [result] at satisfied wellFormed ⊢
    exact ⟨rfl, satisfied, wellFormed, separated.links, separated.facts⟩

private theorem Separated.separatePair (separated : Separated world registry env old memory)
    {pair : Var × Var} (different : env pair.1 ≠ env pair.2)
    (discrete : (env pair.1).sort.isFloating = false) (cap counted : Nat) :
    Separated world registry env old (separatePair registry cap (counted, memory) pair).2 := by
  unfold Seed.separatePair
  split
  · exact separated
  · simp only
    split
    · exact separated
    · have identity : ¬ (memory.value registry pair.1).isFloating = true := by
        intro floating
        have contradiction :=
          AbstractValue.isFloating_of_contains floating (separated.satisfied.known pair.1)
        rw [discrete] at contradiction
        cases contradiction
      rw [Memory.assume, if_neg identity]
      exact (separated.separate different).2

private theorem Separated.foldl {listed : List (Var × Var)} (cap counted : Nat)
    (separated : Separated world registry env old memory)
    (different : ∀ pair ∈ listed, env pair.1 ≠ env pair.2)
    (discrete : ∀ pair ∈ listed, (env pair.1).sort.isFloating = false) :
    Separated world registry env old
      (listed.foldl (Seed.separatePair registry cap) (counted, memory)).2 := by
  induction listed generalizing counted memory with
  | nil => exact separated
  | cons pair rest ih =>
    have next := separated.separatePair (different pair (by simp)) (discrete pair (by simp)) cap
      counted
    exact ih _ next (fun other member => different other (by simp [member]))
      (fun other member => discrete other (by simp [member]))

private theorem Separated.root_eq (separated : Separated world registry env old memory)
    (var : Var) : memory.root var = old.root var := by
  rw [root, root, separated.links]

private theorem Separated.areEqual_eq (separated : Separated world registry env old memory)
    (left right : Var) : memory.areEqual left right = old.areEqual left right := by
  rw [areEqual, areEqual, separated.root_eq, separated.root_eq]

private theorem Separated.value_eq (separated : Separated world registry env old memory)
    (var : Var) : memory.value registry var = old.value registry var := by
  rw [Memory.value, Memory.value, classValue, classValue, separated.root_eq, separated.facts]

private theorem Separated.confined (separated : Separated world registry env old memory) :
    Confined (fun _ => False) ⟨registry, old⟩ ⟨registry, memory⟩ where
  grows := .refl registry
  equal {left right} same := (separated.areEqual_eq left right).trans same
  value _ _ := separated.value_eq _
  untouched _ free := by
    refine ⟨?_, fun other same => free.lonely other ((separated.areEqual_eq _ _).symm.trans same)⟩
    rw [separated.facts]
    exact free.unknown

end Separation

section Representatives

variable {table : ClassTable} {world : World table} {env : Environment}
  {registry final : Variables} {aliases : Aliases} {snapshots : Snapshots}

/-- References are compared by identity, numbers are not. -/
theorem isFloating_of_comparesByIdentity {var : Var}
    (identity : comparesByIdentity registry var = true)
    (declared : (registry.declared var).Contains world (env var)) :
    (env var).sort.isFloating = false := by
  rw [comparesByIdentity, Bool.and_eq_true] at identity
  cases form : registry.declared var with
  | bottom => simp [form, AbstractValue.isReference] at identity
  | top => simp [form, AbstractValue.isReference] at identity
  | primitive kind value => simp [form, AbstractValue.isReference] at identity
  | reference fact =>
    rw [form] at declared
    have sorted : (AbstractValue.reference fact).sort? = some .reference := rfl
    rw [AbstractValue.sort_of_contains sorted declared]
    rfl

/-- The first variables of different groups have different values. -/
theorem representatives_pairwise
    (observed : Observed world env registry final aliases snapshots) :
    (representatives registry aliases).Pairwise fun left right => env left ≠ env right := by
  refine List.Pairwise.filter _ (List.pairwise_filterMap.mpr ?_)
  apply observed.pairwise.imp
  intro left right apart var inLeft other inRight
  exact apart var (List.mem_of_head? inLeft) other (List.mem_of_head? inRight)

end Representatives

section Reflection

variable {table : ClassTable} {world : World table} {env : Environment} {registry : Variables}
  {aliases : Aliases} {snapshots : Snapshots} {base : Seed} {memory : Memory}

/-- Separating groups after all variables were seen gives up nothing of what was seen. -/
theorem Separated.reflects (separated : Separated world base.registry env base.memory memory)
    (observed : Observed world env registry base.registry aliases snapshots)
    (ordered : base.registry.Ordered)
    (progress : Progress world env base.registry (aliases.sightings snapshots) [] base) :
    Reflects ⟨base.registry, memory⟩ world env aliases snapshots where
  satisfied := separated.satisfied
  together group member first leads var inGroup := by
    obtain ⟨sighting, seen, again, _, rfl⟩ :=
      aliases.exists_sighting snapshots member inGroup
    rw [Option.some.inj (leads.symm.trans again)]
    exact (separated.areEqual_eq _ _).trans (progress.joined sighting seen)
  separate := by
    apply observed.pairwise.imp
    intro left right apart var inLeft other inRight
    apply Bool.eq_false_iff.mpr
    intro same
    exact apart var inLeft other inRight (separated.satisfied.equal same)
  different pair recorded := by
    have present := (OrderedMap.mem_keys_iff _ pair).mp recorded
    have proper := separated.wellFormed.proper pair present
    apply separated.satisfied.ne_of_apart separated.wellFormed
    rw [Memory.Apart, sorted_of_lt proper]
    exact present
  exact group member snapshot taken var inGroup := by
    obtain ⟨sighting, seen, _, same, rfl⟩ :=
      aliases.exists_sighting snapshots member inGroup
    have exact := progress.exact sighting seen snapshot (same.trans taken)
    apply separated.confined.exact ordered (.refl _) exact
    · intro value told
      exact (separated.value_eq _).trans (exact.value_eq told)
    · intro other belongs different impossible
      exact impossible

end Reflection

end Seed

/-- The small hierarchy with an enumeration of two colors. -/
def smallWithColors : ClassTable :=
  ClassTable.small.grow { ClassInfo.enumeration "zoo.Color" ["RED", "BLUE"] with
    superclass := some ⟨0⟩ }

private theorem legal_smallWithColors : smallWithColors.Legal := by
  apply ClassTable.legal_small.grow
  constructor
  · intro id known found
    rcases ClassTable.get?_small found with ⟨rfl, rfl⟩ | ⟨rfl, rfl⟩ | ⟨rfl, rfl⟩ <;> decide
  · intro upper above
    cases above
    exact ⟨_, rfl, rfl, rfl⟩
  · intro upper listed
    cases listed
  · intro interface
    cases interface
  · intro root
    exact absurd root (by decide)

/-- Three variables of arrays and one of a color. -/
def scene : Variables where
  table := smallWithColors
  infos := [⟨.localName "first", .ofType (.arrayOf (.primitive .int))⟩,
    ⟨.localName "again", .ofType (.arrayOf (.primitive .int))⟩,
    ⟨.localName "other", .ofType (.arrayOf (.primitive .int))⟩,
    ⟨.localName "color", .ofType (.ofClass ⟨3⟩)⟩]

/-- Object 9 is the color, all others are arrays. -/
def sceneWorld : World scene.table where
  typeOf id := if id = 9 then .ofClass ⟨3⟩ else .arrayOf (.primitive .int)
  contentOf id := if id = 9 then some (.enumCase ⟨3⟩ "RED") else none
  runtimeType id := by
    split
    · exact ⟨_, rfl, rfl⟩
    · trivial
  uniqueCase {left right _ _} inLeft inRight := by
    simp only [Option.ite_none_right_eq_some] at inLeft inRight
    exact inLeft.1.trans inRight.1.symm

/-- The first two variables hold one array. -/
def sceneAliases : Aliases :=
  ⟨[(.object ⟨7, "int[]"⟩, [⟨0⟩, ⟨1⟩]), (.object ⟨8, "int[]"⟩, [⟨2⟩]),
    (.object ⟨9, "zoo.Color"⟩, [⟨3⟩])]⟩

/-- The shared array has three elements, and the color is red. -/
def sceneSnapshots : Snapshots :=
  ⟨[(.object ⟨7, "int[]"⟩, .withField "[I" .arrayLength
      (.constant (.primitive .int (some (.integral 3))))),
    (.object ⟨9, "zoo.Color"⟩, .enumCase "Lzoo/Color;" "RED")]⟩

def sceneWithLengths : Variables where
  table := smallWithColors
  infos := scene.infos ++ [⟨.derived ⟨0⟩ .arrayLength, .ofType (.primitive .int)⟩,
    ⟨.derived ⟨1⟩ .arrayLength, .ofType (.primitive .int)⟩]

private theorem registry_ofObservations_scene :
    (Memory.ofObservations scene sceneAliases sceneSnapshots 5).registry = sceneWithLengths := by
  decide +kernel

def sceneEnvironment (var : Var) : RuntimeValue :=
  match var.index with
  | 0 => .object 7
  | 1 => .object 7
  | 2 => .object 8
  | 3 => .object 9
  | 4 => .primitive .int (.integral 3) rfl
  | 5 => .primitive .int (.integral 3) rfl
  | _ => .null

private theorem declared_scene (var : Var) :
    (sceneWithLengths.declared var).Contains sceneWorld (sceneEnvironment var) := by
  match var with
  | ⟨0⟩ => exact ⟨by simp, ClassTable.isAssignable_refl _ _, by simp⟩
  | ⟨1⟩ => exact ⟨by simp, ClassTable.isAssignable_refl _ _, by simp⟩
  | ⟨2⟩ => exact ⟨by simp, ClassTable.isAssignable_refl _ _, by simp⟩
  | ⟨3⟩ => exact ⟨by simp, ClassTable.isAssignable_refl _ _, by simp⟩
  | ⟨4⟩ => exact ⟨rfl, by simp⟩
  | ⟨5⟩ => exact ⟨rfl, by simp⟩
  | ⟨_ + 6⟩ => exact AbstractValue.contains_top _

private theorem built_scene : scene.Built AbstractValue.Declared := by
  have add : ∀ {registry : Variables} (name : String) (type : JvmType),
      registry.Built AbstractValue.Declared →
        (registry.request (.localName name) (.ofType type)).1.Built AbstractValue.Declared :=
    fun name type built => built.request (.ofType _) (by simp [Origin.qualifier?])
  exact add "color" _ (add "other" _ (add "again" _ (add "first" _ (.ofTable smallWithColors))))

private theorem plain_scene (var : Var) : scene.Plain var := by
  rintro upper ⟨info, field, found, origin⟩
  match var with
  | ⟨0⟩ => cases found; cases origin
  | ⟨1⟩ => cases found; cases origin
  | ⟨2⟩ => cases found; cases origin
  | ⟨3⟩ => cases found; cases origin
  | ⟨_ + 4⟩ => cases found

private theorem constant?_arrayLength {var fieldVar : Var}
    (found : sceneWithLengths.find? (.derived var .arrayLength) = some fieldVar) :
    (sceneEnvironment fieldVar).constant? = some (.primitive .int (some (.integral 3))) := by
  obtain ⟨info, known, origin⟩ := Variables.info?_of_find? found
  match fieldVar with
  | ⟨0⟩ => cases known; cases origin
  | ⟨1⟩ => cases known; cases origin
  | ⟨2⟩ => cases known; cases origin
  | ⟨3⟩ => cases known; cases origin
  | ⟨4⟩ => rfl
  | ⟨5⟩ => rfl
  | ⟨_ + 6⟩ => cases known

private theorem observed_scene : Observed sceneWorld sceneEnvironment scene sceneWithLengths
    sceneAliases sceneSnapshots where
  declared := declared_scene
  keys := by decide
  once := by decide
  issued := by simp [sceneAliases, Variables.Issued, Variables.size, scene]
  plain _ _ var _ := plain_scene var
  denotes := by simp [sceneAliases, LiveValue.Denotes, sceneEnvironment]
  snapshots := by
    have resolves : sceneWorld.Resolves "[I" 7 := by
      intro type known
      have int : Signature.type? scene.table "[I" = some (.arrayOf (.primitive .int)) := by decide
      exact Option.some.inj (int.symm.trans known)
    have color : Signature.type? scene.table "Lzoo/Color;" = some (.ofClass ⟨3⟩) := by
      decide +kernel
    intro group listed snapshot taken var inGroup
    simp only [sceneAliases, List.mem_cons, List.not_mem_nil, or_false] at listed
    rcases listed with rfl | rfl | rfl
    · have same : snapshot = .withField "[I" .arrayLength
          (.constant (.primitive .int (some (.integral 3)))) := (Option.some.inj taken).symm
      subst same
      simp only [List.mem_cons, List.not_mem_nil, or_false] at inGroup
      rcases inGroup with rfl | rfl
      · exact ⟨7, rfl, resolves, fun _ found => constant?_arrayLength found⟩
      · exact ⟨7, rfl, resolves, fun _ found => constant?_arrayLength found⟩
    · cases taken
    · obtain rfl : snapshot = .enumCase "Lzoo/Color;" "RED" := (Option.some.inj taken).symm
      obtain rfl := List.mem_singleton.mp inGroup
      refine ⟨9, rfl, fun type known => ?_, fun owner known _ => ?_⟩
      · exact Option.some.inj (color.symm.trans known)
      · cases color.symm.trans known
        rfl

/-- The memory seeded from a paused program is true and as exact as the snapshots. Nothing that
was observed is left out: every merge and every narrowing succeeds. -/
theorem Memory.ofObservations_reflects {registry : Variables} {aliases : Aliases}
    {snapshots : Snapshots} {cap : Nat} {env : Environment} {world : World registry.table}
    (legal : registry.table.Legal) (built : registry.Built AbstractValue.Declared)
    (observed : Observed world env registry
      (Memory.ofObservations registry aliases snapshots cap).registry aliases snapshots) :
    Seed.SeesAll ⟨registry, .empty⟩ (aliases.sightings snapshots) ∧
      (Memory.ofObservations registry aliases snapshots cap).Reflects world env aliases
        snapshots := by
  rw [Memory.ofObservations, Seed.foldl_observeGroup] at observed ⊢
  have grows := Seed.grows_foldl_see ⟨registry, .empty⟩ (aliases.sightings snapshots)
  generalize reached : (aliases.sightings snapshots).foldl Seed.see ⟨registry, .empty⟩ = base
    at observed grows ⊢
  change Observed world env registry base.registry aliases snapshots at observed
  have within := Seed.declared_of_grows grows observed.declared
  have truth : ∀ sighting ∈ aliases.sightings snapshots,
      sighting.TrueOf world base.registry env := fun sighting seen => observed.trueOf seen
  have issued : ∀ sighting ∈ aliases.sightings snapshots, registry.Issued sighting.var := by
    intro sighting seen
    obtain ⟨group, member, _, inGroup, _⟩ := Aliases.mem_sightings_iff.mp seen
    exact observed.issued group member _ inGroup
  have start : Seed.Progress world env base.registry [] (aliases.sightings snapshots)
      ⟨registry, .empty⟩ := Seed.progress_start rfl built within issued
  have arrives : Variables.Grows
      ((aliases.sightings snapshots).foldl Seed.see ⟨registry, .empty⟩).registry base.registry := by
    rw [reached]
    exact .refl _
  obtain ⟨sees, faithful⟩ :=
    start.faithful.seesAll legal observed.declared issued arrives truth
  rw [reached] at faithful
  have ordered := faithful.built.ordered
  have progress := Seed.Progress.run legal observed.declared ordered (observed.consistent grows)
    start truth arrives
  rw [reached] at progress
  have apart := Seed.representatives_pairwise observed
  have separated := Seed.Separated.foldl cap 0
    ⟨faithful.satisfied, faithful.wellFormed, rfl, rfl⟩
    (fun pair listed => (Seed.mem_pairs apart listed).1)
    (fun pair listed => Seed.isFloating_of_comparesByIdentity
      (List.mem_filter.mp (Seed.mem_pairs apart listed).2).2 (within pair.1))
  exact ⟨sees, separated.reflects observed ordered progress⟩

/-- The color is known to be red. -/
theorem ofObservations_reflects_scene :
    let seed := Memory.ofObservations scene sceneAliases sceneSnapshots 5
    seed.Reflects sceneWorld sceneEnvironment sceneAliases sceneSnapshots ∧
      seed.memory.value seed.registry ⟨3⟩ = .enumConstant ⟨3⟩ "RED" := by
  intro seed
  have observed := observed_scene
  rw [← registry_ofObservations_scene] at observed
  have reflects := (Memory.ofObservations_reflects legal_smallWithColors built_scene observed).2
  have exact := reflects.exact (.object ⟨9, "zoo.Color"⟩, [⟨3⟩]) (by simp [sceneAliases])
    (.enumCase "Lzoo/Color;" "RED") rfl ⟨3⟩ (by simp)
  refine ⟨reflects, exact.value_eq (.enumCase ?_ ?_)⟩
  · rw [registry_ofObservations_scene]
    decide +kernel
  · rw [registry_ofObservations_scene]
    exact ⟨_, rfl, rfl, by decide⟩

end PauseFlow
