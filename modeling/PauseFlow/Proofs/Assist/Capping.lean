import Mathlib.Data.List.FinRange
import Mathlib.Data.List.ProdSigma
import PauseFlow.Proofs.Assist.Seeding

namespace PauseFlow

open Memory

/-- No variable is in two groups. -/
def Aliases.Disjoint (aliases : Aliases) : Prop :=
  aliases.groups.Pairwise fun left right => left.2.Disjoint right.2

namespace AbstractValue

private theorem isReference_meetReferences {table : ClassTable} {left right : ReferenceFact}
    (possible : meetReferences table left right ≠ .bottom) :
    (meetReferences table left right).isReference = true := by
  revert possible
  simp only [meetReferences]
  split
  · simp
  · split
    · simp
    · split
      · split <;> simp [null, isReference]
      · split
        · split <;> simp [null, isReference]
        · simp [isReference]

/-- What fits a reference is one. -/
theorem isReference_meet {table : ClassTable} {left right : AbstractValue}
    (either : left.isReference = true ∨ right.isReference = true)
    (possible : left.meet table right ≠ .bottom) : (left.meet table right).isReference = true := by
  cases left with
  | bottom => exact absurd rfl possible
  | top =>
    cases right with
    | reference fact => rfl
    | bottom => exact absurd rfl possible
    | top => simp [isReference] at either
    | primitive kind value => simp [isReference] at either
  | primitive kind value =>
    cases right with
    | reference fact => exact absurd rfl possible
    | bottom => exact absurd rfl possible
    | top => simp [isReference] at either
    | primitive other known => simp [isReference] at either
  | reference fact =>
    cases right with
    | reference other => exact isReference_meetReferences possible
    | bottom => exact absurd rfl possible
    | top => rfl
    | primitive kind value => exact absurd rfl possible

private theorem isFloating_of_isReference {value : AbstractValue}
    (reference : value.isReference = true) : value.isFloating = false := by
  cases value with
  | reference fact => rfl
  | bottom => cases reference
  | top => cases reference
  | primitive kind known => cases reference

end AbstractValue

namespace Seed

/-- The variables and the memory after all groups were observed. -/
def gathered (registry : Variables) (aliases : Aliases) (snapshots : Snapshots) : Seed :=
  aliases.groups.foldl (observeGroup snapshots) ⟨registry, .empty⟩

/-- A property that narrowing and requesting a derived field keep is kept by an observation. -/
theorem observe_induction {property : Seed → Prop}
    (narrow : ∀ {seed : Seed} (var : Var) (value : AbstractValue),
      property seed → property (seed.narrow var value))
    (derive : ∀ {seed : Seed} (field : DerivedField) (var : Var),
      property seed → property (seed.derive field var).1)
    {seed : Seed} (holds : property seed) (var : Var) (snapshot : Snapshot) :
    property (seed.observe var snapshot) := by
  have typed : ∀ {seed : Seed} (var : Var) (signature : String), property seed →
      property (seed.narrowToSignature var signature).1 := by
    intro seed var signature holds
    unfold narrowToSignature
    cases Signature.type? seed.registry.table signature with
    | none => exact holds
    | some type => exact narrow var (.notNull (.exact type)) holds
  induction snapshot generalizing seed var with
  | constant value => exact narrow var value holds
  | string text =>
    simp only [observe]
    split
    · exact narrow var _ holds
    · exact holds
  | object signature => exact typed var signature holds
  | enumCase signature name =>
    have after := typed var signature holds
    simp only [observe]
    split
    · exact narrow var _ after
    · exact after
  | withField signature field value ih =>
    have after := typed var signature holds
    have requested := derive field var after
    simp only [observe]
    split
    · split
      · rename_i fieldVar _
        exact ih requested fieldVar
      · exact requested
    · exact after

/-- A property that observations and accepted merges keep is kept by a sighting. -/
theorem see_induction {property : Seed → Prop}
    (narrow : ∀ {seed : Seed} (var : Var) (value : AbstractValue),
      property seed → property (seed.narrow var value))
    (derive : ∀ {seed : Seed} (field : DerivedField) (var : Var),
      property seed → property (seed.derive field var).1)
    {seed : Seed} {sighting : Sighting} (holds : property seed)
    (join : (seed.memory.unite seed.registry sighting.var sighting.first).1 = true →
      property (seed.join sighting)) : property (seed.see sighting) := by
  by_cases accepted : (seed.memory.unite seed.registry sighting.var sighting.first).1 = true
  · rw [see_of_unite accepted]
    split
    · exact observe_induction narrow derive (join accepted) _ _
    · exact join accepted
  · rwa [see_of_refused accepted]

/-- What observing groups of variables leaves: classes within the groups, no pairs, and references
where references are declared. -/
structure Gathers (registry : Variables) (aliases : Aliases) (seed : Seed) : Prop where
  grows : Variables.Grows registry seed.registry
  wellFormed : WellFormed seed.memory
  unpaired : seed.memory.apart = .empty
  within : ∀ {left right : Var}, seed.memory.areEqual left right = true →
    left = right ∨ ∃ group ∈ aliases.groups, left ∈ group.2 ∧ right ∈ group.2
  reference : ∀ {var : Var}, (registry.declared var).isReference = true →
    (seed.memory.value seed.registry var).isReference = true

section Gathers

variable {registry : Variables} {aliases : Aliases} {snapshots : Snapshots} {seed : Seed}

private theorem gathers_start (registry : Variables) (aliases : Aliases) :
    Gathers registry aliases ⟨registry, .empty⟩ where
  grows := .refl registry
  wellFormed := wellFormed_empty
  unpaired := rfl
  within same := .inl ((areEqual_iff _ _ _).mp same)
  reference declared := declared

private theorem Gathers.narrow (gathers : Gathers registry aliases seed) (var : Var)
    (value : AbstractValue) : Gathers registry aliases (seed.narrow var value) where
  grows := gathers.grows
  wellFormed := gathers.wellFormed.narrow var value
  unpaired := by
    rcases narrow_cases seed.memory seed.registry var value with ⟨_, result⟩ | ⟨_, _, result⟩
    · rw [Seed.narrow, result]
      exact gathers.unpaired
    · rw [Seed.narrow, result]
      exact gathers.unpaired
  within same := gathers.within ((areEqual_narrow _ _ _ _ _ _).symm.trans same)
  reference {other} declared := by
    have before := gathers.reference declared
    rcases narrow_cases seed.memory seed.registry var value with ⟨_, result⟩ | ⟨possible, _, result⟩
    · rw [Seed.narrow, result]
      exact before
    · simp only [Seed.narrow, result, value_withFact]
      split
      · rename_i same
        have reference : (seed.memory.value seed.registry var).isReference = true := by
          rw [← value_eq_of_areEqual ((areEqual_iff _ _ _).mpr same)]
          exact before
        exact AbstractValue.isReference_meet (.inl reference) possible
      · exact before

/-- Requesting a variable changes nothing that is known of older ones. -/
theorem Gathers.derive (gathers : Gathers registry aliases seed) (field : DerivedField)
    (var : Var) :
    Gathers registry aliases (seed.derive field var).1 where
  grows := gathers.grows.trans (Variables.grows_requestDerived _ _ _ _)
  wellFormed := gathers.wellFormed
  unpaired := gathers.unpaired
  within := gathers.within
  reference declared := by
    have issued := gathers.grows.issued (Variables.issued_of_isReference declared)
    have grown := Variables.grows_requestDerived seed.registry field var
      (seed.memory.value seed.registry var)
    exact (congrArg _ (gathers.wellFormed.value_of_grows grown issued)).trans
      (gathers.reference declared)

/-- A variable is in one group only. -/
theorem group_unique (disjoint : aliases.Disjoint) {left right : LiveValue × List Var}
    (leftListed : left ∈ aliases.groups) (rightListed : right ∈ aliases.groups) {var : Var}
    (inLeft : var ∈ left.2) (inRight : var ∈ right.2) : left = right := by
  by_contra different
  have symmetric : Std.Symm fun left right : LiveValue × List Var => left.2.Disjoint right.2 :=
    ⟨fun _ _ apart => apart.symm⟩
  exact disjoint.forall leftListed rightListed different inLeft inRight

/-- The class of a variable lies in the group of the variable. -/
theorem Gathers.mem_of_areEqual (gathers : Gathers registry aliases seed)
    (disjoint : aliases.Disjoint) {group : LiveValue × List Var} (listed : group ∈ aliases.groups)
    {var other : Var} (inGroup : var ∈ group.2) (same : seed.memory.areEqual var other = true) :
    other ∈ group.2 := by
  rcases gathers.within same with rfl | ⟨shared, sharedListed, inShared, otherIn⟩
  · exact inGroup
  · exact group_unique disjoint sharedListed listed inShared inGroup ▸ otherIn

/-- A variable and the first one of its group share a class from now on. -/
theorem Gathers.join (gathers : Gathers registry aliases seed) {sighting : Sighting}
    (disjoint : aliases.Disjoint) {group : LiveValue × List Var} (listed : group ∈ aliases.groups)
    (inGroup : sighting.var ∈ group.2) (leads : sighting.first ∈ group.2)
    (accepted : (seed.memory.unite seed.registry sighting.var sighting.first).1 = true) :
    Gathers registry aliases (seed.join sighting) where
  grows := gathers.grows
  wellFormed := gathers.wellFormed.unite _ _
  unpaired := by
    rcases unite_cases seed.memory seed.registry sighting.var sighting.first with
      ⟨_, result⟩ | ⟨_, _, result⟩ | ⟨_, _, _, _, _, result⟩
    · rw [Seed.join, result]
      exact gathers.unpaired
    · rw [Seed.join, result]
      exact gathers.unpaired
    · simp only [Seed.join, result, merged, gathers.unpaired]
      rfl
  within {left right} same := by
    rcases (areEqual_unite_iff gathers.wellFormed accepted left right).mp same with
      old | ⟨inVar, inFirst⟩ | ⟨inFirst, inVar⟩
    · exact gathers.within old
    · exact .inr ⟨group, listed,
        gathers.mem_of_areEqual disjoint listed inGroup (areEqual_symm inVar),
        gathers.mem_of_areEqual disjoint listed leads inFirst⟩
    · exact .inr ⟨group, listed,
        gathers.mem_of_areEqual disjoint listed leads (areEqual_symm inFirst),
        gathers.mem_of_areEqual disjoint listed inGroup inVar⟩
  reference {other} declared := by
    have before := gathers.reference declared
    rcases unite_cases seed.memory seed.registry sighting.var sighting.first with
      ⟨_, result⟩ | ⟨_, _, result⟩ | ⟨different, _, possible, _, _, result⟩
    · simp only [Seed.join, result]
      exact before
    · simp only [Seed.join, result]
      exact before
    · have varTop := root_top gathers.wellFormed.grounded sighting.var
      have firstTop := root_top gathers.wellFormed.grounded sighting.first
      simp only [Seed.join, result, value_merged gathers.wellFormed different varTop firstTop]
      split
      · rename_i inside
        refine AbstractValue.isReference_meet (inside.imp (fun same => ?_) fun same => ?_) possible
        · rwa [← value_eq_of_areEqual ((areEqual_iff _ _ _).mpr same)]
        · rwa [← value_eq_of_areEqual ((areEqual_iff _ _ _).mpr same)]
      · exact before

private theorem Gathers.see (gathers : Gathers registry aliases seed) (disjoint : aliases.Disjoint)
    {sighting : Sighting} (listed : sighting ∈ aliases.sightings snapshots) :
    Gathers registry aliases (seed.see sighting) := by
  obtain ⟨group, member, first, inGroup, _⟩ := Aliases.mem_sightings_iff.mp listed
  apply see_induction (fun var value held => held.narrow var value)
    (fun field var held => held.derive field var) gathers
  exact gathers.join disjoint member inGroup (List.mem_of_head? first)

private theorem gathers_gathered (registry : Variables) (snapshots : Snapshots)
    (disjoint : aliases.Disjoint) :
    Gathers registry aliases (gathered registry aliases snapshots) := by
  rw [gathered, foldl_observeGroup]
  have all : ∀ sightings : List Sighting,
      (∀ sighting ∈ sightings, sighting ∈ aliases.sightings snapshots) →
      ∀ seed, Gathers registry aliases seed →
        Gathers registry aliases (sightings.foldl Seed.see seed) := by
    intro sightings listed
    induction sightings with
    | nil => exact fun seed gathers => gathers
    | cons sighting rest ih =>
      intro seed gathers
      have next := gathers.see disjoint (listed sighting List.mem_cons_self)
      exact ih (fun other member => listed other (List.mem_cons_of_mem sighting member)) _ next
  exact all _ (fun _ member => member) _ (gathers_start registry aliases)

end Gathers

/-- Whether two variables may hold one value for all that is known, and need not. -/
def eligible (registry : Variables) (memory : Memory) (pair : Var × Var) : Bool :=
  let left := memory.value registry pair.1
  let right := memory.value registry pair.2
  decide (left.meet registry.table right ≠ .bottom) && !(left.isIdentityConstant && left = right)

/-- The pairs of positions `i < j` of a list, in lexicographic order. -/
def positions (count : Nat) : List (Fin count × Fin count) :=
  (List.finRange count ×ˢ List.finRange count).filter fun position => position.1 < position.2

/-- The eligible pairs of candidates, in lexicographic order of their positions. -/
def eligiblePairs (seed : Seed) (candidates : List Var) : List (Var × Var) :=
  ((positions candidates.length).map fun position =>
    (candidates[position.1], candidates[position.2])).filter (eligible seed.registry seed.memory)

/-- The roots of two variables, smaller one first. -/
def rootPair (memory : Memory) (pair : Var × Var) : Var × Var :=
  sorted (memory.root pair.1) (memory.root pair.2)

/-- The first eligible pairs, as pairs of roots. -/
def firstPairs (seed : Seed) (candidates : List Var) (cap : Nat) : List (Var × Var) :=
  ((seed.eligiblePairs candidates).take cap).map (rootPair seed.memory)

/-- With one more position in front, it is paired with all others first. -/
theorem positions_succ (count : Nat) : positions (count + 1) =
    (List.finRange count).map (fun later => (0, later.succ)) ++
      (positions count).map fun position => (position.1.succ, position.2.succ) := by
  have later : ∀ earlier : List (Fin count),
      ((earlier.map Fin.succ ×ˢ List.finRange (count + 1)).filter
        fun position => position.1 < position.2) =
      ((earlier ×ˢ List.finRange count).filter fun position => position.1 < position.2).map
        fun position => (position.1.succ, position.2.succ) := by
    intro earlier
    induction earlier with
    | nil => rfl
    | cons head rest ih =>
      rw [List.map_cons, List.product_cons, List.product_cons, List.filter_append, ih,
        List.filter_append, List.map_append]
      congr 1
      simp [List.finRange_succ, List.filter_map, Function.comp_def]
  rw [positions, positions, ← later, List.finRange_succ, List.product_cons, List.filter_append,
    ← List.finRange_succ]
  congr 1
  simp [List.finRange_succ, List.filter_map, Function.comp_def]

private theorem pairs_eq_positions (candidates : List Var) :
    pairs candidates = (positions candidates.length).map fun position =>
      (candidates[position.1], candidates[position.2]) := by
  induction candidates with
  | nil => rfl
  | cons first rest ih =>
    have others : rest.map (fun second => (first, second)) =
        (List.finRange rest.length).map fun later => (first, rest[later]) := by
      conv_lhs => rw [← List.map_get_finRange rest]
      rw [List.map_map]
      rfl
    change _ = (positions (rest.length + 1)).map _
    rw [pairs, ih, others, positions_succ, List.map_append, List.map_map, List.map_map]
    rfl

section Recording

variable {registry : Variables} {memory : Memory}

/-- Record that the classes of two variables differ. -/
def recordPair (memory : Memory) (pair : Var × Var) : Memory :=
  memory.withApart (memory.root pair.1) (memory.root pair.2)

/-- The cap aside, a pair is recorded and counted exactly when it is eligible. -/
theorem separatePair_eq {pair : Var × Var} (different : memory.root pair.1 ≠ memory.root pair.2)
    (discrete : (memory.value registry pair.1).isFloating = false) (cap counted : Nat) :
    separatePair registry cap (counted, memory) pair =
      if counted < cap ∧ eligible registry memory pair = true then
        (counted + 1, recordPair memory pair)
      else (counted, memory) := by
  have identity : ¬ (memory.value registry pair.1).isFloating = true := by simp [discrete]
  have answer : memory.assume registry ⟨pair.1, .different, .var pair.2⟩ =
      if ((memory.value registry pair.1).isIdentityConstant &&
          memory.value registry pair.1 = memory.value registry pair.2) = true then (false, memory)
      else (true, recordPair memory pair) := (if_neg identity).trans (if_neg different)
  unfold separatePair
  by_cases full : cap ≤ counted
  · have beyond : ¬ counted < cap := Nat.not_lt.mpr full
    simp [full, beyond]
  have room : counted < cap := Nat.lt_of_not_le full
  simp only [full, room, if_false, true_and]
  by_cases disjoint : (memory.value registry pair.1).meet registry.table
      (memory.value registry pair.2) = .bottom
  · simp [disjoint, eligible]
  by_cases clash : ((memory.value registry pair.1).isIdentityConstant &&
      memory.value registry pair.1 = memory.value registry pair.2) = true
  · rw [if_neg disjoint, answer, if_pos clash]
    simp [eligible, clash]
  · rw [if_neg disjoint, answer, if_neg clash]
    simp [eligible, clash, disjoint]

/-- A run over pairs of different classes records the first eligible ones up to the cap. -/
theorem foldl_separatePair {listed : List (Var × Var)}
    (different : ∀ pair ∈ listed, memory.root pair.1 ≠ memory.root pair.2)
    (discrete : ∀ pair ∈ listed, (memory.value registry pair.1).isFloating = false)
    (cap counted : Nat) :
    (listed.foldl (separatePair registry cap) (counted, memory)).2 =
      ((listed.filter (eligible registry memory)).take (cap - counted)).foldl recordPair
        memory := by
  induction listed generalizing counted memory with
  | nil => simp
  | cons pair rest ih =>
    have differentRest := fun other member => different other (List.mem_cons_of_mem pair member)
    have discreteRest := fun other member => discrete other (List.mem_cons_of_mem pair member)
    rw [List.foldl_cons, separatePair_eq (different pair List.mem_cons_self)
      (discrete pair List.mem_cons_self)]
    by_cases room : counted < cap
    · by_cases passed : eligible registry memory pair = true
      · -- Recording a pair changes neither roots nor values, so later pairs stay eligible.
        have after : eligible registry (recordPair memory pair) = eligible registry memory := rfl
        obtain ⟨left, enough⟩ : ∃ left, cap - counted = left + 1 := ⟨cap - (counted + 1), by omega⟩
        have spent : cap - (counted + 1) = left := by omega
        have next := @ih (recordPair memory pair) differentRest discreteRest (counted + 1)
        rw [if_pos ⟨room, passed⟩, next, after, spent, List.filter_cons_of_pos passed, enough,
          List.take_succ_cons, List.foldl_cons]
      · rw [if_neg (fun both => passed both.2), ih differentRest discreteRest,
          List.filter_cons_of_neg passed]
    · have none : cap - counted = 0 := by omega
      rw [if_neg (fun both => room both.1), ih differentRest discreteRest, none, List.take_zero,
        List.take_zero]

/-- Recording pairs adds the pairs of their roots and changes nothing else. -/
theorem foldl_recordPair (memory : Memory) (listed : List (Var × Var)) :
    listed.foldl recordPair memory = { memory with
      apart := (listed.map (rootPair memory)).foldl (fun apart pair => apart.insert pair ())
        memory.apart } := by
  induction listed generalizing memory with
  | nil => rfl
  | cons pair rest ih =>
    rw [List.foldl_cons, ih]
    rfl

private theorem mem_keys_foldl_insert (apart : OrderedMap (Var × Var) Unit)
    (listed : List (Var × Var)) (pair : Var × Var) :
    pair ∈ (listed.foldl (fun apart pair => apart.insert pair ()) apart).keys ↔
      pair ∈ listed ∨ pair ∈ apart.keys := by
  induction listed generalizing apart with
  | nil => simp
  | cons first rest ih =>
    rw [List.foldl_cons, ih]
    simp only [OrderedMap.mem_keys_iff, OrderedMap.contains_insert, List.mem_cons]
    constructor
    · rintro (later | rfl | old)
      · exact .inl (.inr later)
      · exact .inl (.inl rfl)
      · exact .inr old
    · rintro ((rfl | later) | old)
      · exact .inr (.inl rfl)
      · exact .inl later
      · exact .inr (.inr old)

end Recording

section Candidates

variable {registry : Variables} {aliases : Aliases} {snapshots : Snapshots} {seed : Seed}

/-- Candidates are of different groups, so they have different roots. -/
theorem Gathers.pairwise_root (gathers : Gathers registry aliases seed)
    (disjoint : aliases.Disjoint) : (representatives registry aliases).Pairwise fun left right =>
      seed.memory.root left ≠ seed.memory.root right := by
  refine List.Pairwise.filter _ (List.pairwise_filterMap.mpr ?_)
  apply disjoint.imp_of_mem
  intro left right leftListed _ apart var inLeft other inRight same
  have joined := gathers.mem_of_areEqual disjoint leftListed (List.mem_of_head? inLeft)
    ((areEqual_iff _ _ _).mpr same)
  exact apart joined (List.mem_of_head? inRight)

/-- Candidates hold references. -/
theorem Gathers.discrete (gathers : Gathers registry aliases seed) {var : Var}
    (listed : var ∈ representatives registry aliases) :
    (seed.memory.value seed.registry var).isFloating = false := by
  have identity : comparesByIdentity registry var = true := (List.mem_filter.mp listed).2
  rw [comparesByIdentity, Bool.and_eq_true] at identity
  exact AbstractValue.isFloating_of_isReference (gathers.reference identity.1)

/-- Different positions give different pairs of roots. -/
theorem nodup_firstPairs {candidates : List Var}
    (different : candidates.Pairwise fun left right =>
      seed.memory.root left ≠ seed.memory.root right) (cap : Nat) :
    (seed.firstPairs candidates cap).Nodup := by
  have injective : ∀ left right : Fin candidates.length,
      seed.memory.root candidates[left] = seed.memory.root candidates[right] → left = right := by
    intro left right same
    rw [List.pairwise_iff_getElem] at different
    rcases Nat.lt_trichotomy left right with below | equal | above
    · exact absurd same (different left right left.isLt right.isLt below)
    · exact Fin.ext equal
    · exact absurd same.symm (different right left right.isLt left.isLt above)
  have all : (((positions candidates.length).map fun position =>
      (candidates[position.1], candidates[position.2])).map (rootPair seed.memory)).Nodup := by
    rw [List.map_map]
    refine List.Nodup.map_on ?_ (((List.nodup_finRange _).product (List.nodup_finRange _)).filter _)
    intro left leftListed right rightListed same
    have leftOrder : left.1 < left.2 := by simpa using (List.mem_filter.mp leftListed).2
    have rightOrder : right.1 < right.2 := by simpa using (List.mem_filter.mp rightListed).2
    rcases sorted_eq_iff.mp same with ⟨first, second⟩ | ⟨crossed, back⟩
    · exact Prod.ext (injective _ _ first) (injective _ _ second)
    · -- The smaller position comes first in both pairs, so they are not crossed.
      have one := injective _ _ crossed
      have two := injective _ _ back
      omega
  have first := (List.take_sublist cap (seed.eligiblePairs candidates)).trans List.filter_sublist
  exact all.sublist (first.map _)

end Candidates

end Seed

/-- Whether a variable is declared to hold objects that the program tells apart by identity: not of a
primitive type, nor strings or boxes. -/
def Variables.HoldsIdentities (registry : Variables) (var : Var) : Prop :=
  ∃ fact, registry.declared var = .reference fact ∧
    ∀ owner, fact.bound = .exact (.ofClass owner) ∨ fact.bound = .instanceOf (.ofClass owner) →
      registry.table.nameOf owner ≠ ClassTable.stringName ∧
        ∀ kind : PrimitiveKind, registry.table.nameOf owner ≠ kind.boxName

theorem TypeBound.isComparedByContent_eq_false_iff {table : ClassTable} {bound : TypeBound} :
    bound.isComparedByContent table = false ↔
      ∀ owner, bound = .exact (.ofClass owner) ∨ bound = .instanceOf (.ofClass owner) →
        table.nameOf owner ≠ ClassTable.stringName ∧
          ∀ kind : PrimitiveKind, table.nameOf owner ≠ kind.boxName := by
  have byContent : ∀ name, isComparedByContent.byContent name = false ↔
      name ≠ ClassTable.stringName ∧ ∀ kind : PrimitiveKind, name ≠ kind.boxName := by
    intro name
    rw [isComparedByContent.byContent, Bool.or_eq_false_iff, decide_eq_false_iff_not,
      ← Bool.not_eq_true, PrimitiveKind.isSome_ofBoxName?_iff, not_exists]
  cases bound with
  | top => simp [isComparedByContent]
  | bottom => simp [isComparedByContent]
  | exact type => cases type <;> simp [isComparedByContent, byContent]
  | instanceOf type => cases type <;> simp [isComparedByContent, byContent]

theorem Seed.comparesByIdentity_iff {registry : Variables} {var : Var} :
    comparesByIdentity registry var = true ↔ registry.HoldsIdentities var := by
  rw [comparesByIdentity, Bool.and_eq_true, Bool.not_eq_true',
    TypeBound.isComparedByContent_eq_false_iff, Variables.HoldsIdentities]
  cases registry.declared var with
  | reference fact => simp [AbstractValue.isReference, AbstractValue.bound]
  | _ => simp [AbstractValue.isReference]

theorem Seed.representatives_iff (registry : Variables) (aliases : Aliases) :
    (representatives registry aliases).Sublist
        (aliases.groups.filterMap fun group => group.2.head?) ∧
      ∀ var, var ∈ representatives registry aliases ↔
        (∃ group ∈ aliases.groups, group.2.head? = some var) ∧ registry.HoldsIdentities var := by
  refine ⟨List.filter_sublist, fun var => ?_⟩
  rw [representatives, List.mem_filter, List.mem_filterMap, comparesByIdentity_iff]

/-- A cap keeps the first eligible pairs of candidates, not counting those that are passed over.
All else that is known does not depend on the cap. Candidates are the first variables of the groups,
in order, that are declared to hold objects with an identity. -/
theorem Memory.distinctPairs_ofObservations {registry : Variables} {aliases : Aliases}
    {snapshots : Snapshots} (disjoint : aliases.Disjoint) (cap : Nat) :
    let gathered := Seed.gathered registry aliases snapshots
    let candidates := Seed.representatives registry aliases
    let result := Memory.ofObservations registry aliases snapshots cap
    result.memory.distinctPairs.Perm (gathered.firstPairs candidates cap) ∧
    (gathered.firstPairs candidates cap).Nodup ∧
    (gathered.firstPairs candidates cap).length =
      min cap (gathered.eligiblePairs candidates).length ∧
    (∀ larger, cap ≤ larger →
      gathered.firstPairs candidates cap <+: gathered.firstPairs candidates larger) ∧
    result.registry = gathered.registry ∧
    result.memory = { gathered.memory with apart := result.memory.apart } ∧
    candidates.Sublist (aliases.groups.filterMap fun group => group.2.head?) ∧
    ∀ var, var ∈ candidates ↔
      (∃ group ∈ aliases.groups, group.2.head? = some var) ∧ registry.HoldsIdentities var := by
  intro gathered candidates result
  have gathers : Seed.Gathers registry aliases gathered :=
    Seed.gathers_gathered registry snapshots disjoint
  have different := gathers.pairwise_root disjoint
  have nodup := Seed.nodup_firstPairs different cap
  have memory : result.memory =
      ((gathered.eligiblePairs candidates).take cap).foldl Seed.recordPair gathered.memory := by
    rw [Seed.eligiblePairs, ← Seed.pairs_eq_positions]
    exact Seed.foldl_separatePair (fun pair listed => (Seed.mem_pairs different listed).1)
      (fun pair listed => gathers.discrete (Seed.mem_pairs different listed).2) cap 0
  rw [Seed.foldl_recordPair] at memory
  refine ⟨?_, nodup, ?_, ?_, rfl, ?_, Seed.representatives_iff registry aliases⟩
  · apply (List.perm_ext_iff_of_nodup (OrderedMap.nodup_keys _) nodup).mpr
    intro pair
    rw [memory, Seed.mem_keys_foldl_insert, gathers.unpaired]
    exact or_iff_left (by simp [OrderedMap.keys, OrderedMap.empty])
  · rw [Seed.firstPairs, List.length_map, List.length_take]
  · intro larger more
    exact (List.take_prefix_take_left more).map _
  · rw [memory]

/-- Three variables of nodes and one of any objects. -/
def nodes : Variables where
  table := .small
  infos := [⟨.localName "first", .ofType (.ofClass ⟨2⟩)⟩,
    ⟨.localName "second", .ofType (.ofClass ⟨0⟩)⟩, ⟨.localName "third", .ofType (.ofClass ⟨2⟩)⟩,
    ⟨.localName "fourth", .ofType (.ofClass ⟨2⟩)⟩]

/-- Four variables with an object each. -/
def nodeAliases : Aliases :=
  ⟨[(.object ⟨4, "zoo.Node"⟩, [⟨0⟩]), (.object ⟨5, "java.lang.String"⟩, [⟨1⟩]),
    (.object ⟨6, "zoo.Node"⟩, [⟨2⟩]), (.object ⟨7, "zoo.Node"⟩, [⟨3⟩])]⟩

/-- The second object is known to be a string, so that its pairs are passed over. -/
def nodeSnapshots : Snapshots := ⟨[(.object ⟨5, "java.lang.String"⟩, .string "text")]⟩

/-- With a cap of two, the pairs of the first node with the other two are recorded. -/
theorem distinctPairs_nodes :
    (Memory.ofObservations nodes nodeAliases nodeSnapshots 2).memory.distinctPairs.Perm
      [(⟨0⟩, ⟨2⟩), (⟨0⟩, ⟨3⟩)] := by
  have disjoint : nodeAliases.Disjoint := by simp [Aliases.Disjoint, nodeAliases]
  have first : (Seed.gathered nodes nodeAliases nodeSnapshots).firstPairs
      (Seed.representatives nodes nodeAliases) 2 = [(⟨0⟩, ⟨2⟩), (⟨0⟩, ⟨3⟩)] := by decide +kernel
  rw [← first]
  exact (Memory.distinctPairs_ofObservations disjoint 2).1

end PauseFlow
