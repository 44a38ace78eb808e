import PauseFlow.Proofs.Assist.Capping
import PauseFlow.Proofs.Assist.DerivedFields

/-! Observing a paused program once more. The first observation leaves every derived field that it
asks for in the registry. What is known never depends on variables issued later, so the second one
runs in step with the first and finds these fields instead of adding them. -/
namespace PauseFlow

open Memory

namespace Seed

/-- The same memory over another registry. -/
def onto (seed : Seed) (registry : Variables) : Seed := { seed with registry := registry }

@[simp] theorem onto_registry (seed : Seed) (registry : Variables) :
    (seed.onto registry).registry = registry := rfl

section Lockstep

variable {seed : Seed} {final : Variables} {var : Var}

private theorem wellFormed_observe (wellFormed : WellFormed seed.memory) (var : Var)
    (snapshot : Snapshot) : WellFormed (seed.observe var snapshot).memory :=
  @observe_induction (fun seed => WellFormed seed.memory)
    (fun var value held => held.narrow var value) (fun _ _ held => held) seed wellFormed var
    snapshot

private theorem wellFormed_see (wellFormed : WellFormed seed.memory) (sighting : Sighting) :
    WellFormed (seed.see sighting).memory :=
  @see_induction (fun seed => WellFormed seed.memory)
    (fun var value held => held.narrow var value) (fun _ _ held => held) seed sighting wellFormed
    fun _ => wellFormed.unite _ _

private theorem observe_enumCase (seed : Seed) (var : Var) (signature name : String) :
    seed.observe var (.enumCase signature name) =
      match (seed.narrowToSignature var signature).2.bind fun type =>
        enumCase? (seed.narrowToSignature var signature).1.registry.table type name with
      | some value => (seed.narrowToSignature var signature).1.narrow var value
      | none => (seed.narrowToSignature var signature).1 :=
  (observe.eq_def _ _ _).trans rfl

private theorem observe_withField (seed : Seed) (var : Var) (signature : String)
    (field : DerivedField) (value : Snapshot) :
    seed.observe var (.withField signature field value) =
      if (seed.narrowToSignature var signature).2.isSome then
        match ((seed.narrowToSignature var signature).1.derive field var).2 with
        | some fieldVar =>
          ((seed.narrowToSignature var signature).1.derive field var).1.observe fieldVar value
        | none => ((seed.narrowToSignature var signature).1.derive field var).1
      else (seed.narrowToSignature var signature).1 :=
  (observe.eq_def _ _ _).trans rfl

private theorem narrow_onto (wellFormed : WellFormed seed.memory)
    (grows : Variables.Grows seed.registry final) (issued : seed.registry.Issued var)
    (value : AbstractValue) :
    (seed.onto final).narrow var value = (seed.narrow var value).onto final := by
  simp only [narrow, onto, wellFormed.narrow_of_grows grows issued]

private theorem narrowToSignature_onto (wellFormed : WellFormed seed.memory)
    (grows : Variables.Grows seed.registry final) (issued : seed.registry.Issued var)
    (signature : String) :
    (seed.onto final).narrowToSignature var signature =
      ((seed.narrowToSignature var signature).1.onto final,
        (seed.narrowToSignature var signature).2) := by
  unfold narrowToSignature
  simp only [onto, grows.table]
  cases Signature.type? seed.registry.table signature with
  | none => rfl
  | some type => simp only [wellFormed.narrow_of_grows grows issued]

private theorem derive_onto (wellFormed : WellFormed seed.memory) {field : DerivedField}
    (grows : Variables.Grows (seed.derive field var).1.registry final)
    (issued : seed.registry.Issued var) :
    (seed.onto final).derive field var =
      ((seed.derive field var).1.onto final, (seed.derive field var).2) := by
  have sinceNow := (Variables.grows_requestDerived _ _ _ _).trans grows
  simp only [derive, onto, wellFormed.value_of_grows sinceNow issued,
    Variables.requestDerived_of_grows grows]

private theorem observe_enumCase_onto {signature name : String}
    (wellFormed : WellFormed seed.memory)
    (grows : Variables.Grows seed.registry final) (issued : seed.registry.Issued var) :
    (seed.onto final).observe var (.enumCase signature name) =
      (seed.observe var (.enumCase signature name)).onto final := by
  have sameRegistry := registry_narrowToSignature seed var signature
  have narrowed : WellFormed (seed.narrowToSignature var signature).1.memory :=
    wellFormed_observe wellFormed var (.object signature)
  rw [observe_enumCase, observe_enumCase, narrowToSignature_onto wellFormed grows issued signature]
  simp only [onto_registry, grows.table, sameRegistry]
  split
  · rw [← sameRegistry] at grows issued
    exact narrow_onto narrowed grows issued _
  · rfl

/-- An observation that finds its derived fields in the registry does to the memory what the one
did that added them. -/
theorem observe_onto {snapshot : Snapshot} (wellFormed : WellFormed seed.memory)
    (grows : Variables.Grows (seed.observe var snapshot).registry final)
    (issued : seed.registry.Issued var) :
    (seed.onto final).observe var snapshot = (seed.observe var snapshot).onto final := by
  have sinceStart := (grows_observe seed var snapshot).trans grows
  induction snapshot generalizing seed var with
  | constant value => exact narrow_onto wellFormed grows issued value
  | string text =>
    simp only [observe, onto_registry, sinceStart.table]
    cases seed.registry.table.lookup ClassTable.stringName with
    | some owner => exact narrow_onto wellFormed sinceStart issued _
    | none => rfl
  | object signature =>
    exact congrArg Prod.fst (narrowToSignature_onto wellFormed sinceStart issued signature)
  | enumCase signature name => exact observe_enumCase_onto wellFormed sinceStart issued
  | withField signature field value ih =>
    have narrowed : WellFormed (seed.narrowToSignature var signature).1.memory :=
      wellFormed_observe wellFormed var (.object signature)
    have typed := narrowToSignature_onto wellFormed sinceStart issued signature
    have sameRegistry := registry_narrowToSignature seed var signature
    rw [observe_withField] at grows
    rw [observe_withField, observe_withField, typed]
    cases known : (seed.narrowToSignature var signature).2.isSome with
    | false => rfl
    | true =>
      simp only [known, if_true] at grows ⊢
      rw [← sameRegistry] at issued
      generalize (seed.narrowToSignature var signature).1 = middle at *
      -- Whether the field was there or was added by the request, `final` has it.
      cases answer : (middle.derive field var).2 with
      | none =>
        simp only [answer] at grows
        simp only [derive_onto narrowed grows issued, answer]
      | some fieldVar =>
        simp only [answer] at grows
        have sinceAsked := (grows_observe (middle.derive field var).1 fieldVar value).trans grows
        have placed := Variables.issued_of_find? (Variables.find?_of_requestDerived answer)
        simp only [derive_onto narrowed sinceAsked issued, answer]
        exact ih narrowed grows placed sinceAsked

private theorem see_onto {sighting : Sighting} (wellFormed : WellFormed seed.memory)
    (grows : Variables.Grows (seed.see sighting).registry final)
    (varIssued : seed.registry.Issued sighting.var)
    (firstIssued : seed.registry.Issued sighting.first) :
    (seed.onto final).see sighting = (seed.see sighting).onto final := by
  have sinceStart := (grows_see seed sighting).trans grows
  have united := wellFormed.unite_of_grows sinceStart varIssued firstIssued
  have joined : (seed.onto final).join sighting = (seed.join sighting).onto final := by
    simp only [join, onto, united]
  have answer : ((seed.onto final).memory.unite (seed.onto final).registry sighting.var
      sighting.first).1 = (seed.memory.unite seed.registry sighting.var sighting.first).1 :=
    congrArg Prod.fst united
  by_cases accepted : (seed.memory.unite seed.registry sighting.var sighting.first).1 = true
  · rw [see_of_unite accepted] at grows
    rw [see_of_unite accepted, see_of_unite (answer.trans accepted), joined]
    cases form : sighting.snapshot with
    | none => rfl
    | some snapshot =>
      rw [form] at grows
      have narrowed : WellFormed (seed.join sighting).memory := wellFormed.unite _ _
      exact observe_onto narrowed grows varIssued
  · rw [see_of_refused accepted, see_of_refused (answer.trans_ne accepted)]

private theorem foldl_see_onto {sightings : List Sighting} (wellFormed : WellFormed seed.memory)
    (grows : Variables.Grows (sightings.foldl see seed).registry final)
    (issued : ∀ sighting ∈ sightings,
      seed.registry.Issued sighting.var ∧ seed.registry.Issued sighting.first) :
    sightings.foldl see (seed.onto final) = (sightings.foldl see seed).onto final := by
  induction sightings generalizing seed with
  | nil => rfl
  | cons sighting rest ih =>
    have now := issued sighting List.mem_cons_self
    have sinceSeen := (grows_foldl_see (seed.see sighting) rest).trans grows
    rw [List.foldl_cons, List.foldl_cons, see_onto wellFormed sinceSeen now.1 now.2]
    apply ih (wellFormed_see wellFormed sighting) grows
    intro other listed
    have before := issued other (List.mem_cons_of_mem sighting listed)
    have grown := grows_see seed sighting
    exact ⟨grown.issued before.1, grown.issued before.2⟩

end Lockstep

section Groups

variable {registry final : Variables} {aliases : Aliases}

/-- Whether variables compare by identity does not depend on variables issued later. -/
theorem representatives_of_grows (grows : Variables.Grows registry final)
    (issued : ∀ group ∈ aliases.groups, ∀ var ∈ group.2, registry.Issued var) :
    representatives final aliases = representatives registry aliases := by
  apply List.filter_congr
  intro var listed
  obtain ⟨group, member, first⟩ := List.mem_filterMap.mp listed
  have sameDeclared := grows.declared (issued group member var (List.mem_of_head? first))
  simp only [comparesByIdentity, sameDeclared, grows.table]

private theorem growsBelow_gathered (registry : Variables) (aliases : Aliases)
    (snapshots : Snapshots) :
    Variables.GrowsBelow (fun var => ∃ group ∈ aliases.groups, var ∈ group.2) registry
      (gathered registry aliases snapshots).registry := by
  rw [gathered, foldl_observeGroup]
  apply (growsBelow_foldl_see ⟨registry, .empty⟩ _).mono
  intro var seen
  obtain ⟨sighting, listed, rfl⟩ := seen
  obtain ⟨group, member, _, inGroup, _⟩ := Aliases.mem_sightings_iff.mp listed
  exact ⟨group, member, inGroup⟩

private theorem gathered_onto {snapshots : Snapshots}
    (grows : Variables.Grows (gathered registry aliases snapshots).registry final)
    (issued : ∀ group ∈ aliases.groups, ∀ var ∈ group.2, registry.Issued var) :
    gathered final aliases snapshots = (gathered registry aliases snapshots).onto final := by
  rw [gathered, foldl_observeGroup] at grows ⊢
  rw [gathered, foldl_observeGroup]
  apply @foldl_see_onto ⟨registry, .empty⟩ final _ wellFormed_empty grows
  intro sighting listed
  obtain ⟨group, member, first, inGroup, _⟩ := Aliases.mem_sightings_iff.mp listed
  exact ⟨issued group member _ inGroup, issued group member _ (List.mem_of_head? first)⟩

/-- Record which of the candidates differ. -/
def separateAll (seed : Seed) (candidates : List Var) (cap : Nat) : Seed :=
  { seed with
    memory := ((pairs candidates).foldl (separatePair seed.registry cap) (0, seed.memory)).2 }

private theorem ofObservations_eq (registry : Variables) (aliases : Aliases) (snapshots : Snapshots)
    (cap : Nat) : Memory.ofObservations registry aliases snapshots cap =
      (gathered registry aliases snapshots).separateAll (representatives registry aliases) cap :=
  rfl

end Groups

end Seed

/-- Observing once more over the registry that an observation leaves changes neither the registry
nor what is known. All that an observation issues is below the variables of the groups. -/
theorem Memory.ofObservations_again {registry : Variables} {aliases : Aliases}
    (issued : ∀ group ∈ aliases.groups, ∀ var ∈ group.2, registry.Issued var)
    (snapshots : Snapshots) (cap : Nat) :
    let built := ofObservations registry aliases snapshots cap
    ofObservations built.registry aliases snapshots cap = built ∧
      Variables.GrowsBelow (fun var => ∃ group ∈ aliases.groups, var ∈ group.2) registry
        built.registry := by
  intro built
  have below : Variables.GrowsBelow _ registry built.registry :=
    Seed.growsBelow_gathered registry aliases snapshots
  have gathered : Seed.gathered built.registry aliases snapshots =
      Seed.gathered registry aliases snapshots := Seed.gathered_onto (.refl _) issued
  have candidates := Seed.representatives_of_grows below.grows issued
  refine ⟨?_, below⟩
  rw [Seed.ofObservations_eq, gathered, candidates]
  rfl

/-- A variable that can hold any object, with a field for what is in its box. -/
def openBox : Variables := (anyObject.requestDerived .unboxed ⟨0⟩ .top).1

/-- Two groups claim the variable, one of them twice. -/
def boxAliases : Aliases := ⟨[(.object ⟨3, ""⟩, [⟨0⟩, ⟨0⟩]), (.object ⟨4, ""⟩, [⟨0⟩])]⟩

/-- One group has a box in a box, the other one an object of another class. -/
def boxSnapshots : Snapshots :=
  ⟨[(.object ⟨3, ""⟩, .withField "Ljava/lang/Long;" .unboxed intInBox),
    (.object ⟨4, ""⟩, .object "Ljava/lang/Integer;")]⟩

/-- The field of the field is issued once; the group that contradicts the other is left out both
times. -/
theorem Memory.ofObservations_again_boxes :
    let built := ofObservations openBox boxAliases boxSnapshots 20
    built.registry.find? (.derived ⟨1⟩ .unboxed) = some ⟨openBox.size⟩ ∧
      ofObservations built.registry boxAliases boxSnapshots 20 = built ∧
      Variables.GrowsBelow (fun var => ∃ group ∈ boxAliases.groups, var ∈ group.2) openBox
        built.registry := by
  have placed : (ofObservations openBox boxAliases boxSnapshots 20).registry.find?
      (.derived ⟨1⟩ .unboxed) = some ⟨openBox.size⟩ := by decide +kernel
  exact ⟨placed, ofObservations_again (by decide) boxSnapshots 20⟩

end PauseFlow
