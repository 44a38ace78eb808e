import PauseFlow.Proofs.Assist.Observation
import PauseFlow.Proofs.Memory.Locality

namespace PauseFlow

open Memory

/-- What is known of a variable is exactly what a snapshot says, as far as the classes that it
mentions are known. The derived field of a snapshot has a variable if objects of that type have such
a field, and so it is for the snapshot of that. -/
def Snapshot.Exact (registry : Variables) (memory : Memory) (snapshot : Snapshot) (var : Var) :
    Prop :=
  (∀ value, snapshot.Says registry.table value → memory.value registry var = value) ∧
    match snapshot with
    | .withField signature field inner =>
      ∀ type, Signature.type? registry.table signature = some type →
        field.Suits registry.table type →
          ∃ fieldVar, registry.find? (.derived var field) = some fieldVar ∧
            inner.Exact registry memory fieldVar
    | _ => True

theorem Snapshot.Exact.value_eq {registry : Variables} {memory : Memory} {snapshot : Snapshot}
    {var : Var} (exact : snapshot.Exact registry memory var) {value : AbstractValue}
    (told : snapshot.Says registry.table value) : memory.value registry var = value := by
  unfold Snapshot.Exact at exact
  exact exact.1 value told

namespace Seed

/-- A change of the seed that keeps what is known outside of a region. -/
structure Confined (region : Var → Prop) (old new : Seed) : Prop where
  grows : Variables.Grows old.registry new.registry
  equal : ∀ {left right}, old.memory.areEqual left right = true →
    new.memory.areEqual left right = true
  value : ∀ {var}, old.registry.Issued var → ¬ region var →
    new.memory.value new.registry var = old.memory.value old.registry var
  untouched : ∀ {var}, ¬ region var → old.memory.Untouched var → new.memory.Untouched var

namespace Confined

variable {region others : Var → Prop} {old middle new : Seed}

theorem refl (region : Var → Prop) (seed : Seed) : Confined region seed seed where
  grows := .refl _
  equal same := same
  value _ _ := rfl
  untouched _ free := free

theorem trans (first : Confined region old middle) (second : Confined region middle new) :
    Confined region old new where
  grows := first.grows.trans second.grows
  equal same := second.equal (first.equal same)
  value issued outside :=
    (second.value (first.grows.issued issued) outside).trans (first.value issued outside)
  untouched outside free := second.untouched outside (first.untouched outside free)

theorem mono (confined : Confined region old new) (wider : ∀ {var}, region var → others var) :
    Confined others old new where
  grows := confined.grows
  equal := confined.equal
  value issued outside := confined.value issued fun inside => outside (wider inside)
  untouched outside := confined.untouched fun inside => outside (wider inside)

end Confined

section Steps

variable {seed : Seed} {var : Var}

private theorem confined_narrow (wellFormed : WellFormed seed.memory) (var : Var)
    (value : AbstractValue) :
    Confined (fun other => seed.memory.areEqual var other = true) seed (seed.narrow var value) where
  grows := .refl _
  equal same := by
    rw [narrow, areEqual_narrow]
    exact same
  value _ outside := value_narrow_of_outside outside
  untouched outside free := free.narrow outside wellFormed

private theorem confined_derive (wellFormed : WellFormed seed.memory) (field : DerivedField)
    (var : Var) : Confined (fun _ => False) seed (seed.derive field var).1 where
  grows := Variables.grows_requestDerived _ _ _ _
  equal same := same
  value issued _ := wellFormed.value_of_grows (Variables.grows_requestDerived _ _ _ _) issued
  untouched _ free := free

theorem confined_join (wellFormed : WellFormed seed.memory) {sighting : Sighting}
    (accepted : (seed.memory.unite seed.registry sighting.var sighting.first).1 = true) :
    Confined (fun other => seed.memory.areEqual sighting.var other = true ∨
      seed.memory.areEqual sighting.first other = true) seed (seed.join sighting) where
  grows := .refl _
  equal same := (areEqual_unite_iff wellFormed accepted _ _).mpr (.inl same)
  value _ outside := by
    rw [not_or] at outside
    exact value_unite_of_outside wellFormed outside.1 outside.2
  untouched {other} outside free := by
    rw [not_or] at outside
    refine free.unite wellFormed accepted ?_ ?_
    · intro same
      subst same
      exact outside.1 (areEqual_refl _ _)
    · intro same
      subst same
      exact outside.2 (areEqual_refl _ _)

private theorem areEqual_narrowToSignature (seed : Seed) (var : Var) (signature : String)
    (left right : Var) : (seed.narrowToSignature var signature).1.memory.areEqual left right =
      seed.memory.areEqual left right := by
  unfold narrowToSignature
  split
  · rfl
  · exact areEqual_narrow _ _ _ _ _ _

/-- Observing a variable merges no classes. -/
theorem areEqual_observe (seed : Seed) (var : Var) (snapshot : Snapshot) (left right : Var) :
    (seed.observe var snapshot).memory.areEqual left right = seed.memory.areEqual left right := by
  induction snapshot generalizing seed var with
  | constant value => exact areEqual_narrow _ _ _ _ _ _
  | string text =>
    simp only [observe]
    split
    · exact areEqual_narrow _ _ _ _ _ _
    · rfl
  | object signature => exact areEqual_narrowToSignature _ _ _ _ _
  | enumCase signature name =>
    simp only [observe]
    split
    · exact (areEqual_narrow _ _ _ _ _ _).trans (areEqual_narrowToSignature _ _ _ _ _)
    · exact areEqual_narrowToSignature _ _ _ _ _
  | withField signature field value ih =>
    simp only [observe]
    split
    · split
      · exact (ih _ _).trans (areEqual_narrowToSignature _ _ _ _ _)
      · exact areEqual_narrowToSignature _ _ _ _ _
    · exact areEqual_narrowToSignature _ _ _ _ _

end Steps

section Exactness

variable {table : ClassTable} {world : World table} {env : Environment} {final : Variables}
  {seed : Seed} {var : Var} {value : AbstractValue}

/-- What may be known of a variable before it is narrowed to a value: what some declaration says,
or the value already. -/
def Expects (seed : Seed) (var : Var) (value : AbstractValue) : Prop :=
  (seed.memory.value seed.registry var).Declared ∨ seed.memory.value seed.registry var = value

private theorem Faithful.narrow_exact (faithful : seed.Faithful world env) (pinned : value.Pinned)
    (holds : value.Contains world (env var)) (expects : seed.Expects var value)
    (accepted : (seed.memory.narrow seed.registry var value).1 = true) :
    (seed.narrow var value).memory.value seed.registry var = value := by
  rw [Seed.narrow, value_narrow_self accepted, narrowed]
  rcases expects with form | same
  · have fits := faithful.satisfied.known var
    obtain ⟨rfl, _, _, _⟩ := faithful
    exact AbstractValue.meet_declared_pinned form pinned fits holds
  · rw [same]
    exact AbstractValue.meet_self_of_pinned pinned

/-- Narrowing to a type keeps the content that was known. -/
theorem Faithful.narrow_type (faithful : seed.Faithful world env) {type : JvmType}
    {content : Option ReferenceConstant}
    (holds : (AbstractValue.notNull (.exact type)).Contains world (env var))
    (expects : seed.Expects var (.reference ⟨.notNull, .exact type, content⟩))
    (accepted : (seed.memory.narrow seed.registry var (.notNull (.exact type))).1 = true) :
    (seed.narrow var (.notNull (.exact type))).memory.value seed.registry var =
        .notNull (.exact type) ∨
      (seed.narrow var (.notNull (.exact type))).memory.value seed.registry var =
        .reference ⟨.notNull, .exact type, content⟩ := by
  rcases expects with form | same
  · exact .inl (faithful.narrow_exact (.object type none) holds (.inl form) accepted)
  · refine .inr ?_
    rw [Seed.narrow, value_narrow_self accepted, narrowed, same]
    exact AbstractValue.meet_content_type type content

/-- An observation of a variable changes nothing but its class and its derived fields, and says
of these exactly what the snapshot says. -/
structure Records (final : Variables) (snapshot : Snapshot) (var : Var) (old new : Seed) : Prop where
  confined : Confined (fun other => old.memory.areEqual var other = true ∨ final.Belongs other var)
    old new
  exact : snapshot.Exact new.registry new.memory var

private theorem Faithful.confined_narrow (faithful : seed.Faithful world env) (final : Variables)
    (var : Var) (value : AbstractValue) :
    Confined (fun other => seed.memory.areEqual var other = true ∨ final.Belongs other var) seed
      (seed.narrow var value) :=
  (Seed.confined_narrow faithful.wellFormed var value).mono .inl

/-- An observation that says nothing records a snapshot of an unknown class. -/
theorem records_self {snapshot : Snapshot} (exact : snapshot.Exact seed.registry seed.memory var) :
    Records final snapshot var seed seed :=
  ⟨.refl _ _, exact⟩

private theorem Faithful.narrowToType_exact (legal : table.Legal)
    (faithful : seed.Faithful world env)
    {signature : String} {type : JvmType} {id : Nat} (here : env var = .object id)
    (resolves : world.Resolves signature id)
    (known : Signature.type? seed.registry.table signature = some type)
    (expects : seed.Expects var (.notNull (.exact type))) :
    (seed.narrow var (.notNull (.exact type))).memory.value seed.registry var =
      .notNull (.exact type) := by
  obtain ⟨runtime, accepted, _⟩ := faithful.narrowToType legal here resolves known
  refine faithful.narrow_exact (AbstractValue.pinned_notNull type) ?_ expects accepted
  rw [here]
  exact AbstractValue.contains_notNull_exact runtime

private theorem Faithful.records_string (legal : table.Legal) (faithful : seed.Faithful world env)
    {text : String} (truth : (Snapshot.string text).TrueOf world final env var)
    (expects : ∀ value, (Snapshot.string text).Says seed.registry.table value →
      seed.Expects var value) :
    Records final (.string text) var seed (seed.observe var (.string text)) := by
  obtain ⟨id, here, resolves, content⟩ := truth
  cases found : seed.registry.table.lookup ClassTable.stringName with
  | none =>
    have same : seed.observe var (.string text) = seed := by simp [Seed.observe, found]
    rw [same]
    refine records_self ⟨fun value told => ?_, trivial⟩
    cases told with
    | string again => cases found.symm.trans again
  | some owner =>
    have same : seed.observe var (.string text) = seed.narrow var (.stringConstant text owner) := by
      simp [Seed.observe, found]
    have holds : (AbstractValue.stringConstant text owner).Contains world (env var) := by
      rw [here]
      refine AbstractValue.contains_content (resolves _ ?_) content
      rw [Signature.type?_string, ← faithful.sameTable, found]
      rfl
    obtain ⟨accepted, _⟩ := faithful.narrow legal holds
    have exact := faithful.narrow_exact (AbstractValue.pinned_stringConstant text owner) holds
      (expects _ (.string found)) accepted
    rw [same]
    exact ⟨faithful.confined_narrow final _ _,
      fun value told => exact.trans ((Snapshot.Says.string found).unique told), trivial⟩

private theorem Faithful.records_object (legal : table.Legal) (faithful : seed.Faithful world env)
    {signature : String} (truth : (Snapshot.object signature).TrueOf world final env var)
    (expects : ∀ value, (Snapshot.object signature).Says seed.registry.table value →
      seed.Expects var value) :
    Records final (.object signature) var seed (seed.observe var (.object signature)) := by
  obtain ⟨id, here, resolves⟩ := truth
  cases known : Signature.type? seed.registry.table signature with
  | none =>
    rw [(observe_of_unknown known "" .unboxed (.object "")).1]
    refine records_self ⟨fun value told => ?_, trivial⟩
    cases told with
    | object again => cases known.symm.trans again
  | some type =>
    obtain ⟨_, accepted, _⟩ := faithful.narrowToType legal here resolves known
    have exact := faithful.narrowToType_exact legal here resolves known
      (expects _ (.object known))
    rw [Seed.observe, narrowToSignature_of_type known accepted]
    exact ⟨faithful.confined_narrow final _ _,
      fun value told => exact.trans ((Snapshot.Says.object known).unique told), trivial⟩

/-- The type is narrowed first and the case second, so the case may be known already. -/
theorem Faithful.narrow_enumCase (legal : table.Legal) (faithful : seed.Faithful world env)
    {owner : ClassId} {name : String}
    (holds : (AbstractValue.enumConstant owner name).Contains world (env var))
    (runtime : (AbstractValue.notNull (.exact (.ofClass owner))).Contains world (env var))
    (expects : seed.Expects var (.enumConstant owner name)) :
    ((seed.narrow var (.notNull (.exact (.ofClass owner)))).narrow var
      (.enumConstant owner name)).memory.value seed.registry var = .enumConstant owner name := by
  obtain ⟨accepted, after⟩ := faithful.narrow legal runtime
  obtain ⟨fits, _⟩ := after.narrow legal holds
  have met : ((seed.narrow var (.notNull (.exact (.ofClass owner)))).narrow var
      (.enumConstant owner name)).memory.value seed.registry var =
        ((seed.narrow var (.notNull (.exact (.ofClass owner)))).memory.value seed.registry var).meet
          seed.registry.table (.enumConstant owner name) := value_narrow_self fits
  rw [met]
  rcases faithful.narrow_type runtime expects accepted with typeOnly | already
  · rw [typeOnly]
    exact AbstractValue.meet_type_content _ _
  · rw [already]
    exact AbstractValue.meet_self_of_pinned (.object _ _)

private theorem Faithful.records_enumCase (legal : table.Legal) (faithful : seed.Faithful world env)
    {signature name : String} (truth : (Snapshot.enumCase signature name).TrueOf world final env var)
    (expects : ∀ value, (Snapshot.enumCase signature name).Says seed.registry.table value →
      seed.Expects var value) :
    Records final (.enumCase signature name) var seed
      (seed.observe var (.enumCase signature name)) := by
  obtain ⟨id, here, resolves, content⟩ := truth
  cases known : Signature.type? seed.registry.table signature with
  | none =>
    rw [(observe_of_unknown known name .unboxed (.object "")).2.1]
    refine records_self ⟨fun value told => ?_, trivial⟩
    cases told with
    | enumCase again _ => cases known.symm.trans again
    | otherCase again _ => cases known.symm.trans again
  | some type =>
    obtain ⟨runtime, accepted, after⟩ := faithful.narrowToType legal here resolves known
    have first := faithful.confined_narrow final var (.notNull (.exact type))
    by_cases declares : ∃ owner, type = .ofClass owner ∧
        seed.registry.table.DeclaresCase owner name
    · obtain ⟨owner, rfl, declared⟩ := declares
      have own := content owner (faithful.sameTable ▸ known) (faithful.sameTable ▸ declared)
      have tells : (Snapshot.enumCase signature name).Says seed.registry.table
          (.enumConstant owner name) := .enumCase known declared
      have exact := faithful.narrow_enumCase legal
        (here ▸ AbstractValue.contains_content runtime own)
        (here ▸ AbstractValue.contains_notNull_exact runtime) (expects _ tells)
      have second := after.confined_narrow final var (.enumConstant owner name)
      rw [observe_enumCase_of_declared known accepted declared]
      refine ⟨first.trans (second.mono fun {other} inside => ?_),
        fun value told => exact.trans (tells.unique told), trivial⟩
      rwa [Seed.narrow, areEqual_narrow] at inside
    · have undeclared : ∀ owner, type = .ofClass owner →
          ¬ seed.registry.table.DeclaresCase owner name :=
        fun owner here declared => declares ⟨owner, here, declared⟩
      have tells : (Snapshot.enumCase signature name).Says seed.registry.table
          (.notNull (.exact type)) := .otherCase known undeclared
      have exact := faithful.narrowToType_exact legal here resolves known (expects _ tells)
      rw [observe_enumCase_of_undeclared known accepted undeclared]
      exact ⟨first, fun value told => exact.trans (tells.unique told), trivial⟩

/-- Observing a derived field that nothing was said of leaves its object alone. -/
theorem Records.of_field (ordered : final.Ordered) {new : Seed} {snapshot : Snapshot}
    {fieldVar : Var} (link : final.DerivesFrom fieldVar var)
    (free : seed.memory.Untouched fieldVar) (issued : seed.registry.Issued var)
    (records : Records final snapshot fieldVar seed new) :
    Confined (final.Belongs · var) seed new ∧
      new.memory.value new.registry var = seed.memory.value seed.registry var := by
  have inner : ∀ {other : Var}, seed.memory.areEqual fieldVar other = true ∨
      final.Belongs other fieldVar → final.Belongs other fieldVar := by
    intro other inside
    rcases inside with same | belongs
    · rw [free.lonely other same]
      exact .refl
    · exact belongs
  have outside : ¬ final.Belongs var fieldVar := by
    intro belongs
    have older := belongs.index_le ordered
    have younger := link.index_lt ordered
    omega
  refine ⟨records.confined.mono fun inside => (inner inside).tail link, ?_⟩
  exact records.confined.value issued fun inside => outside (inner inside)

/-- A snapshot with a derived field is recorded when its object and then the field are. -/
theorem Records.withField (ordered : final.Ordered) {asked new : Seed} {signature : String}
    {field : DerivedField} {snapshot : Snapshot} {type : JvmType} {fieldVar : Var}
    (known : Signature.type? seed.registry.table signature = some type)
    (confined : Confined (fun other => seed.memory.areEqual var other = true ∨
      final.Belongs other var) seed asked)
    (exact : asked.memory.value asked.registry var = .notNull (.exact type))
    (placed : asked.registry.find? (.derived var field) = some fieldVar)
    (link : final.DerivesFrom fieldVar var) (free : asked.memory.Untouched fieldVar)
    (issued : asked.registry.Issued var) (records : Records final snapshot fieldVar asked new) :
    Records final (.withField signature field snapshot) var seed new := by
  obtain ⟨inside, same⟩ := records.of_field ordered link free issued
  have whole := confined.trans (inside.mono .inr)
  refine ⟨whole, fun value told => ?_, fun _ _ _ =>
    ⟨fieldVar, inside.grows.find? placed, records.exact⟩⟩
  rw [whole.grows.table] at told
  exact (same.trans exact).trans ((Snapshot.Says.withField known).unique told)

/-- Narrowing a variable says nothing of its derived fields. -/
theorem untouched_of_field (ordered : final.Ordered) (wellFormed : WellFormed seed.memory)
    (below : ∀ other, final.Belongs other var → other ≠ var → seed.memory.Untouched other)
    {fieldVar other : Var} (link : final.DerivesFrom fieldVar var)
    (belongs : final.Belongs other fieldVar) (value : AbstractValue) :
    (seed.narrow var value).memory.Untouched other := by
  have older := belongs.index_le ordered
  have younger := link.index_lt ordered
  have different : other ≠ var := by
    intro same
    subst same
    omega
  have untouched := below other (belongs.tail link) different
  refine untouched.narrow (fun same => ?_) wellFormed
  exact different (untouched.lonely var (areEqual_symm same)).symm

/-- An observation says exactly what the snapshot says, and changes nothing but the class of the
variable and its derived fields. -/
theorem Faithful.records (legal : table.Legal)
    (declared : ∀ var, (final.declared var).Contains world (env var)) (ordered : final.Ordered)
    {snapshot : Snapshot} (faithful : seed.Faithful world env) (issued : seed.registry.Issued var)
    (grows : Variables.Grows (seed.observe var snapshot).registry final)
    (truth : snapshot.TrueOf world final env var)
    (below : ∀ other, final.Belongs other var → other ≠ var → seed.memory.Untouched other)
    (expects : ∀ value, snapshot.Says seed.registry.table value → seed.Expects var value) :
    Records final snapshot var seed (seed.observe var snapshot) := by
  induction snapshot generalizing seed var with
  | constant value =>
    obtain ⟨holds, pinned⟩ := AbstractValue.contains_constant? truth
    obtain ⟨accepted, _⟩ := faithful.narrow legal holds
    have exact := faithful.narrow_exact pinned holds (expects value (.constant value)) accepted
    refine ⟨faithful.confined_narrow final var value, fun other told => ?_, trivial⟩
    cases told
    exact exact
  | string text => exact faithful.records_string legal truth expects
  | object signature => exact faithful.records_object legal truth expects
  | enumCase signature name => exact faithful.records_enumCase legal truth expects
  | withField signature field value ih =>
    obtain ⟨id, here, resolves, fieldTruth⟩ := truth
    cases known : Signature.type? seed.registry.table signature with
    | none =>
      rw [(observe_of_unknown known "" field value).2.2]
      refine records_self ⟨fun value told => ?_, fun type again => ?_⟩
      · cases told with
        | withField again => cases known.symm.trans again
      · cases known.symm.trans again
    | some type =>
      obtain ⟨_, accepted, after⟩ := faithful.narrowToType legal here resolves known
      have exact := faithful.narrowToType_exact legal here resolves known
        (expects _ (.withField known))
      have first := faithful.confined_narrow final var (.notNull (.exact type))
      have derived := confined_derive after.wellFormed field var
      have kept := (derived.value issued fun impossible => impossible).trans exact
      have asked := first.trans (derived.mono fun impossible => impossible.elim)
      rw [observe_withField_of_type known accepted] at grows ⊢
      cases request : ((seed.narrow var (.notNull (.exact type))).derive field var).2 with
      | none =>
        refine ⟨asked, fun value told => ?_, fun other again suits => ?_⟩
        · rw [asked.grows.table] at told
          exact kept.trans ((Snapshot.Says.withField known).unique told)
        · rw [asked.grows.table] at again suits
          cases known.symm.trans again
          have missing : field.declaredValue? seed.registry.table
              ((seed.narrow var (.notNull (.exact type))).memory.value seed.registry var) = none :=
            Variables.declaredValue?_of_requestDerived (by rw [exact]; rfl) request
          have possible := DerivedField.isSome_declaredValue?_iff.mpr suits
          rw [exact] at missing
          rw [missing] at possible
          cases possible
      | some fieldVar =>
        simp only [request] at grows ⊢
        have placed := Variables.find?_of_requestDerived request
        have growsField := (grows_observe _ fieldVar value).trans grows
        have link := Variables.derivesFrom_of_find? (growsField.find? placed)
        have faithfulField := after.derive issued (declared_of_grows growsField declared)
        have free : ∀ other, final.Belongs other fieldVar →
            ((seed.narrow var (.notNull (.exact type))).derive field var).1.memory.Untouched other :=
          fun other belongs =>
            untouched_of_field ordered faithful.wellFormed below link belongs _
        have freeField := free fieldVar .refl
        have recorded := ih faithfulField (Variables.issued_of_find? placed) grows
          (fieldTruth fieldVar (growsField.find? placed)) (fun other belongs _ => free other belongs)
          (fun _ _ => .inl (by
            rw [freeField.value_eq faithfulField.wellFormed]
            exact declared_or_top faithfulField.built fieldVar))
        exact recorded.withField ordered known asked kept placed link freeField
          (derived.grows.issued issued)

end Exactness

end Seed

end PauseFlow
