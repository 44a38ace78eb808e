import PauseFlow.Proofs.Assist.Truth
import PauseFlow.Proofs.Memory.Shape
import PauseFlow.Proofs.Variable.Derivation

/-! Observing a paused program step by step. A true observation contradicts nothing: every
merge and every narrowing succeeds, and the values of the program go on satisfying the seed. -/
namespace PauseFlow

open Memory

/-- A variable that is seen to hold the value of its group, with the first variable of the
group. -/
structure Sighting where
  first : Var
  snapshot : Option Snapshot
  var : Var

/-- The variables of all groups in the order in which they are observed. -/
def Aliases.sightings (aliases : Aliases) (snapshots : Snapshots) : List Sighting :=
  aliases.groups.flatMap fun group =>
    match group.2 with
    | [] => []
    | first :: rest => (first :: rest).map fun var => ⟨first, snapshots.get? group.1, var⟩

namespace Seed

/-- Let a variable share the class of the first variable of its group. -/
def join (seed : Seed) (sighting : Sighting) : Seed :=
  { seed with memory := (seed.memory.unite seed.registry sighting.var sighting.first).2 }

def see (seed : Seed) (sighting : Sighting) : Seed :=
  observeMember sighting.first sighting.snapshot seed sighting.var

/-- Request a derived field of a variable for what is known of the variable now. -/
def derive (seed : Seed) (field : DerivedField) (var : Var) : Seed × Option Var :=
  let request := seed.registry.requestDerived field var (seed.memory.value seed.registry var)
  (⟨request.1, seed.memory⟩, request.2)

/-- Narrowing to the type of a signature succeeds if there is one. -/
def FitsSignature (seed : Seed) (var : Var) (signature : String) : Prop :=
  ∀ type, Signature.type? seed.registry.table signature = some type →
    (seed.memory.narrow seed.registry var (.notNull (.exact type))).1 = true

/-- Every narrowing that a snapshot asks for succeeds. -/
def Observes (seed : Seed) (var : Var) : Snapshot → Prop
  | .constant value => (seed.memory.narrow seed.registry var value).1 = true
  | .string text => ∀ owner, seed.registry.table.lookup ClassTable.stringName = some owner →
      (seed.memory.narrow seed.registry var (.stringConstant text owner)).1 = true
  | .object signature => seed.FitsSignature var signature
  | .enumCase signature name => seed.FitsSignature var signature ∧
      ∀ owner, Signature.type? seed.registry.table signature = some (.ofClass owner) →
        seed.registry.table.DeclaresCase owner name →
        ((seed.narrow var (.notNull (.exact (.ofClass owner)))).memory.narrow seed.registry var
          (.enumConstant owner name)).1 = true
  | .withField signature field value => seed.FitsSignature var signature ∧
      ∀ type, Signature.type? seed.registry.table signature = some type →
        ∀ fieldVar, ((seed.narrow var (.notNull (.exact type))).derive field var).2 = some fieldVar →
        ((seed.narrow var (.notNull (.exact type))).derive field var).1.Observes fieldVar value

/-- The merge and every narrowing of a sighting succeed. -/
def Sees (seed : Seed) (sighting : Sighting) : Prop :=
  (seed.memory.unite seed.registry sighting.var sighting.first).1 = true ∧
    ∀ snapshot, sighting.snapshot = some snapshot → (seed.join sighting).Observes sighting.var snapshot

/-- Every merge and every narrowing of a list of sightings succeed. -/
def SeesAll : Seed → List Sighting → Prop
  | _, [] => True
  | seed, sighting :: rest => seed.Sees sighting ∧ (seed.see sighting).SeesAll rest

theorem foldl_observeGroup (aliases : Aliases) (snapshots : Snapshots) (seed : Seed) :
    aliases.groups.foldl (observeGroup snapshots) seed =
      (aliases.sightings snapshots).foldl see seed := by
  rw [Aliases.sightings, List.foldl_flatMap]
  congr 1
  funext seed group
  unfold observeGroup
  cases group.2 with
  | nil => rfl
  | cons first rest =>
    rw [List.foldl_map]
    rfl

section Steps

variable {seed : Seed} {var : Var} {signature : String} {type : JvmType}

private theorem narrow_registry (seed : Seed) (var : Var) (value : AbstractValue) :
    (seed.narrow var value).registry = seed.registry := rfl

private theorem narrowToSignature_of_none
    (unknown : Signature.type? seed.registry.table signature = none) :
    seed.narrowToSignature var signature = (seed, none) := by
  simp [narrowToSignature, unknown]

theorem narrowToSignature_of_type
    (known : Signature.type? seed.registry.table signature = some type)
    (fits : (seed.memory.narrow seed.registry var (.notNull (.exact type))).1 = true) :
    seed.narrowToSignature var signature =
      (seed.narrow var (.notNull (.exact type)), some type) := by
  simp [narrowToSignature, known, fits, narrow]

/-- A case that its class lists is narrowed to after the class. -/
theorem observe_enumCase_of_declared {name : String} {owner : ClassId}
    (known : Signature.type? seed.registry.table signature = some (.ofClass owner))
    (fits : (seed.memory.narrow seed.registry var (.notNull (.exact (.ofClass owner)))).1 = true)
    (declared : seed.registry.table.DeclaresCase owner name) :
    seed.observe var (.enumCase signature name) =
      (seed.narrow var (.notNull (.exact (.ofClass owner)))).narrow var
        (.enumConstant owner name) := by
  have case := enumCase?_eq_some_iff.mpr ⟨owner, rfl, declared, rfl⟩
  simp only [observe, narrowToSignature_of_type known fits, Option.bind_some]
  rw [narrow_registry, case]

theorem observe_enumCase_of_undeclared {name : String}
    (known : Signature.type? seed.registry.table signature = some type)
    (fits : (seed.memory.narrow seed.registry var (.notNull (.exact type))).1 = true)
    (undeclared : ∀ owner, type = .ofClass owner →
      ¬ seed.registry.table.DeclaresCase owner name) :
    seed.observe var (.enumCase signature name) = seed.narrow var (.notNull (.exact type)) := by
  have case := enumCase?_eq_none_iff.mpr undeclared
  simp only [observe, narrowToSignature_of_type known fits, Option.bind_some]
  rw [narrow_registry, case]

theorem observe_withField_of_type {field : DerivedField} {value : Snapshot}
    (known : Signature.type? seed.registry.table signature = some type)
    (fits : (seed.memory.narrow seed.registry var (.notNull (.exact type))).1 = true) :
    seed.observe var (.withField signature field value) =
      match ((seed.narrow var (.notNull (.exact type))).derive field var).2 with
      | some fieldVar =>
        ((seed.narrow var (.notNull (.exact type))).derive field var).1.observe fieldVar value
      | none => ((seed.narrow var (.notNull (.exact type))).derive field var).1 := by
  simp only [observe, narrowToSignature_of_type known fits, Option.isSome_some, if_true]
  rfl

theorem observe_of_unknown
    (unknown : Signature.type? seed.registry.table signature = none) (name : String)
    (field : DerivedField) (value : Snapshot) :
    seed.observe var (.object signature) = seed ∧
      seed.observe var (.enumCase signature name) = seed ∧
      seed.observe var (.withField signature field value) = seed := by
  simp [observe, narrowToSignature_of_none unknown]

theorem registry_narrowToSignature (seed : Seed) (var : Var) (signature : String) :
    (seed.narrowToSignature var signature).1.registry = seed.registry := by
  unfold narrowToSignature
  split <;> rfl

/-- An observation adds nothing but what is below the variable that it is about. -/
theorem growsBelow_observe (seed : Seed) (var : Var) (snapshot : Snapshot) :
    Variables.GrowsBelow (· = var) seed.registry (seed.observe var snapshot).registry := by
  induction snapshot generalizing seed var with
  | constant value => exact .refl _ _
  | string text =>
    simp only [observe]
    split
    · exact .refl _ _
    · exact .refl _ _
  | object signature =>
    rw [observe, registry_narrowToSignature]
    exact .refl _ _
  | enumCase signature name =>
    simp only [observe]
    split <;>
      · simp only [narrow, registry_narrowToSignature]
        exact .refl _ _
  | withField signature field value ih =>
    simp only [observe, registry_narrowToSignature]
    split
    · have asked := Variables.GrowsBelow.requestDerived seed.registry field var
        ((seed.narrowToSignature var signature).1.memory.value seed.registry var)
      split
      · rename_i fieldVar answer
        have link := Variables.derivesFrom_of_find? (Variables.find?_of_requestDerived answer)
        exact asked.trans ((ih ⟨_, _⟩ fieldVar).of_field link)
      · exact asked
    · rw [registry_narrowToSignature]
      exact .refl _ _

theorem grows_observe (seed : Seed) (var : Var) (snapshot : Snapshot) :
    Variables.Grows seed.registry (seed.observe var snapshot).registry :=
  (growsBelow_observe seed var snapshot).grows

theorem see_of_unite {sighting : Sighting}
    (accepted : (seed.memory.unite seed.registry sighting.var sighting.first).1 = true) :
    seed.see sighting =
      match sighting.snapshot with
      | some snapshot => (seed.join sighting).observe sighting.var snapshot
      | none => seed.join sighting := by
  simp only [see, observeMember, accepted, if_true]
  rfl

theorem see_of_refused {sighting : Sighting}
    (refused : (seed.memory.unite seed.registry sighting.var sighting.first).1 ≠ true) :
    seed.see sighting = seed := by
  simp only [see, observeMember, refused]
  rfl

private theorem growsBelow_see (seed : Seed) (sighting : Sighting) :
    Variables.GrowsBelow (· = sighting.var) seed.registry (seed.see sighting).registry := by
  by_cases accepted : (seed.memory.unite seed.registry sighting.var sighting.first).1 = true
  · rw [see_of_unite accepted]
    split
    · exact growsBelow_observe (seed.join sighting) _ _
    · exact .refl _ _
  · rw [see_of_refused accepted]
    exact .refl _ _

theorem grows_see (seed : Seed) (sighting : Sighting) :
    Variables.Grows seed.registry (seed.see sighting).registry :=
  (growsBelow_see seed sighting).grows

theorem growsBelow_foldl_see (seed : Seed) (sightings : List Sighting) :
    Variables.GrowsBelow (fun var => ∃ sighting ∈ sightings, sighting.var = var) seed.registry
      (sightings.foldl see seed).registry := by
  induction sightings generalizing seed with
  | nil => exact .refl _ _
  | cons sighting rest ih =>
    have first := growsBelow_see seed sighting
    refine (first.mono ?_).trans ((ih (seed.see sighting)).mono ?_)
    · rintro var rfl
      exact ⟨sighting, List.mem_cons_self, rfl⟩
    · rintro var ⟨other, listed, rfl⟩
      exact ⟨other, List.mem_cons_of_mem sighting listed, rfl⟩

theorem grows_foldl_see (seed : Seed) (sightings : List Sighting) :
    Variables.Grows seed.registry (sightings.foldl see seed).registry :=
  (growsBelow_foldl_see seed sightings).grows

end Steps

/-- The values of a program satisfy what was seeded so far. -/
structure Faithful {table : ClassTable} (world : World table) (env : Environment) (seed : Seed) :
    Prop where
  sameTable : seed.registry.table = table
  built : seed.registry.Built AbstractValue.Declared
  wellFormed : WellFormed seed.memory
  satisfied : Satisfies world seed.registry seed.memory env

section Truth

variable {table : ClassTable} {world : World table} {env : Environment} {final : Variables}
  {seed : Seed} {var : Var}

/-- Values within the declarations of a registry are within those it grew from. -/
theorem declared_of_grows {old : Variables} (grows : Variables.Grows old final)
    (declared : ∀ var, (final.declared var).Contains world (env var)) (var : Var) :
    (old.declared var).Contains world (env var) := by
  by_cases issued : old.Issued var
  · rw [← grows.declared issued]
    exact declared var
  · rw [Variables.declared_of_not_issued issued]
    exact AbstractValue.contains_top _

/-- A memory says the same over a registry that grew. -/
theorem satisfies_of_grows {old new : Variables} {memory : Memory}
    (satisfied : Satisfies world old memory env) (wellFormed : WellFormed memory)
    (declared : ∀ var, (new.declared var).Contains world (env var)) :
    Satisfies world new memory env where
  declared := declared
  known var := by
    have known := satisfied.known (memory.root var)
    unfold Memory.value classValue at known ⊢
    rw [root_root wellFormed.grounded] at known
    cases found : memory.facts.get? (memory.root var) with
    | none =>
      rw [Option.getD_none, ← satisfied.env_root wellFormed var]
      exact declared _
    | some value =>
      rw [found, Option.getD_some, satisfied.env_root wellFormed var] at known
      exact known
  equal := satisfied.equal
  distinct := satisfied.distinct
  outside := satisfied.outside

theorem Faithful.narrow (legal : table.Legal) (faithful : seed.Faithful world env)
    {value : AbstractValue} (holds : value.Contains world (env var)) :
    (seed.memory.narrow seed.registry var value).1 = true ∧
      (seed.narrow var value).Faithful world env := by
  obtain ⟨accepted, after⟩ := faithful.satisfied.narrow legal faithful.sameTable holds
  exact ⟨accepted, faithful.sameTable, faithful.built, faithful.wellFormed.narrow var value, after⟩

theorem Faithful.join (legal : table.Legal) (faithful : seed.Faithful world env)
    {sighting : Sighting} (same : env sighting.var = env sighting.first) :
    (seed.memory.unite seed.registry sighting.var sighting.first).1 = true ∧
      (seed.join sighting).Faithful world env := by
  obtain ⟨accepted, after⟩ :=
    faithful.satisfied.unite legal faithful.sameTable faithful.wellFormed same
  exact ⟨accepted, faithful.sameTable, faithful.built, faithful.wellFormed.unite _ _, after⟩

theorem Faithful.derive (faithful : seed.Faithful world env) {field : DerivedField}
    (issued : seed.registry.Issued var)
    (declared : ∀ other, ((seed.derive field var).1.registry.declared other).Contains world
      (env other)) : (seed.derive field var).1.Faithful world env where
  sameTable := (Variables.grows_requestDerived _ _ _ _).table.trans faithful.sameTable
  built := Variables.built_requestDerived faithful.built issued _ _
  wellFormed := faithful.wellFormed
  satisfied := satisfies_of_grows faithful.satisfied faithful.wellFormed declared

theorem Faithful.narrowToType (legal : table.Legal) (faithful : seed.Faithful world env)
    {signature : String} {type : JvmType} {id : Nat} (here : env var = .object id)
    (resolves : world.Resolves signature id)
    (known : Signature.type? seed.registry.table signature = some type) :
    world.typeOf id = type ∧
      (seed.memory.narrow seed.registry var (.notNull (.exact type))).1 = true ∧
      (seed.narrow var (.notNull (.exact type))).Faithful world env := by
  have runtime := resolves type (faithful.sameTable ▸ known)
  refine ⟨runtime, faithful.narrow legal ?_⟩
  rw [here]
  exact AbstractValue.contains_notNull_exact runtime

private theorem Faithful.observe_string (legal : table.Legal) (faithful : seed.Faithful world env)
    {text : String} (truth : (Snapshot.string text).TrueOf world final env var) :
    seed.Observes var (.string text) ∧ (seed.observe var (.string text)).Faithful world env := by
  obtain ⟨id, here, resolves, content⟩ := truth
  cases found : seed.registry.table.lookup ClassTable.stringName with
  | none => exact ⟨forall_of_eq_none found, by simpa [Seed.observe, found] using faithful⟩
  | some owner =>
    have runtime := resolves (.ofClass owner) (by
      rw [Signature.type?_string, ← faithful.sameTable, found]
      rfl)
    have holds : (AbstractValue.stringConstant text owner).Contains world (env var) := by
      rw [here]
      exact AbstractValue.contains_content runtime content
    obtain ⟨accepted, after⟩ := faithful.narrow legal holds
    exact ⟨forall_of_eq_some found accepted, by simpa [Seed.observe, found] using after⟩

private theorem Faithful.observe_object (legal : table.Legal) (faithful : seed.Faithful world env)
    {signature : String} (truth : (Snapshot.object signature).TrueOf world final env var) :
    seed.Observes var (.object signature) ∧
      (seed.observe var (.object signature)).Faithful world env := by
  obtain ⟨id, here, resolves⟩ := truth
  cases known : Signature.type? seed.registry.table signature with
  | none =>
    rw [(observe_of_unknown known "" .unboxed (.object "")).1]
    exact ⟨forall_of_eq_none known, faithful⟩
  | some type =>
    obtain ⟨_, accepted, after⟩ := faithful.narrowToType legal here resolves known
    rw [Seed.observe, narrowToSignature_of_type known accepted]
    exact ⟨forall_of_eq_some known accepted, after⟩

private theorem Faithful.observe_enumCase (legal : table.Legal) (faithful : seed.Faithful world env)
    {signature name : String}
    (truth : (Snapshot.enumCase signature name).TrueOf world final env var) :
    seed.Observes var (.enumCase signature name) ∧
      (seed.observe var (.enumCase signature name)).Faithful world env := by
  obtain ⟨id, here, resolves, content⟩ := truth
  cases known : Signature.type? seed.registry.table signature with
  | none =>
    rw [(observe_of_unknown known name .unboxed (.object "")).2.1]
    refine ⟨⟨forall_of_eq_none known, fun owner again _ => ?_⟩, faithful⟩
    cases known.symm.trans again
  | some type =>
    obtain ⟨runtime, accepted, after⟩ := faithful.narrowToType legal here resolves known
    have fits : seed.FitsSignature var signature := forall_of_eq_some known accepted
    by_cases declares : ∃ owner, type = .ofClass owner ∧
        seed.registry.table.DeclaresCase owner name
    · obtain ⟨owner, rfl, declared⟩ := declares
      have own := content owner (faithful.sameTable ▸ known) (faithful.sameTable ▸ declared)
      have holds : (AbstractValue.enumConstant owner name).Contains world (env var) := by
        rw [here]
        exact AbstractValue.contains_content runtime own
      obtain ⟨acceptedCase, afterCase⟩ := after.narrow legal holds
      rw [observe_enumCase_of_declared known accepted declared]
      refine ⟨⟨fits, fun other again _ => ?_⟩, afterCase⟩
      cases known.symm.trans again
      exact acceptedCase
    · have undeclared : ∀ owner, type = .ofClass owner →
          ¬ seed.registry.table.DeclaresCase owner name :=
        fun owner here declared => declares ⟨owner, here, declared⟩
      rw [observe_enumCase_of_undeclared known accepted undeclared]
      refine ⟨⟨fits, fun owner again declared => ?_⟩, after⟩
      exact absurd declared (undeclared owner (Option.some.inj (known.symm.trans again)))

/-- Observing what is true succeeds and stays true. -/
theorem Faithful.observe (legal : table.Legal)
    (declared : ∀ var, (final.declared var).Contains world (env var)) {snapshot : Snapshot}
    (faithful : seed.Faithful world env) (issued : seed.registry.Issued var)
    (grows : Variables.Grows (seed.observe var snapshot).registry final)
    (truth : snapshot.TrueOf world final env var) :
    seed.Observes var snapshot ∧ (seed.observe var snapshot).Faithful world env := by
  induction snapshot generalizing seed var with
  | constant value => exact faithful.narrow legal (AbstractValue.contains_constant? truth).1
  | string text => exact faithful.observe_string legal truth
  | object signature => exact faithful.observe_object legal truth
  | enumCase signature name => exact faithful.observe_enumCase legal truth
  | withField signature field value ih =>
    obtain ⟨id, here, resolves, fieldTruth⟩ := truth
    cases known : Signature.type? seed.registry.table signature with
    | none =>
      rw [(observe_of_unknown known "" field value).2.2]
      exact ⟨⟨forall_of_eq_none known, forall_of_eq_none known⟩, faithful⟩
    | some type =>
      obtain ⟨_, accepted, after⟩ := faithful.narrowToType legal here resolves known
      have fits : seed.FitsSignature var signature := forall_of_eq_some known accepted
      rw [observe_withField_of_type known accepted] at grows ⊢
      cases request : ((seed.narrow var (.notNull (.exact type))).derive field var).2 with
      | none =>
        simp only [request] at grows ⊢
        have derived := after.derive issued (declared_of_grows grows declared)
        exact ⟨⟨fits, forall_of_eq_some known (forall_of_eq_none request)⟩, derived⟩
      | some fieldVar =>
        simp only [request] at grows ⊢
        have placed := Variables.find?_of_requestDerived request
        have growsField := (grows_observe _ fieldVar value).trans grows
        have derived := after.derive issued (declared_of_grows growsField declared)
        obtain ⟨observes, afterField⟩ := ih derived (Variables.issued_of_find? placed) grows
          (fieldTruth fieldVar (growsField.find? placed))
        exact ⟨⟨fits, forall_of_eq_some known (forall_of_eq_some request observes)⟩, afterField⟩

end Truth

end Seed

end PauseFlow
