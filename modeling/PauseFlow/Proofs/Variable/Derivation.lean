import PauseFlow.Proofs.Abstract.Regular
import PauseFlow.Proofs.Variable.Qualification

namespace PauseFlow.Variables

variable {registry old new : Variables}

theorem info?_of_find? {origin : Origin} {var : Var} (found : registry.find? origin = some var) :
    ∃ info, registry.info? var = some info ∧ info.origin = origin := by
  obtain ⟨index, position, rfl⟩ := Option.map_eq_some_iff.mp found
  obtain ⟨bound, same, _⟩ := List.findIdx?_eq_some_iff_getElem.mp position
  exact ⟨registry.infos[index], List.getElem?_eq_getElem bound, by simpa using same⟩

theorem Grows.find? (grows : Grows old new) {origin : Origin} {var : Var}
    (found : old.find? origin = some var) : new.find? origin = some var := by
  obtain ⟨added, extended⟩ := grows.infos
  obtain ⟨index, position, rfl⟩ := Option.map_eq_some_iff.mp found
  rw [Variables.find?, ← extended, List.findIdx?_append, position]
  rfl

theorem find?_request (registry : Variables) (origin : Origin) (declared : AbstractValue) :
    (registry.request origin declared).1.find? origin =
      some (registry.request origin declared).2 := by
  unfold request
  cases found : registry.find? origin with
  | some var => exact found
  | none =>
    have missing : registry.infos.findIdx? (fun info => info.origin = origin) = none :=
      Option.map_eq_none_iff.mp found
    simp [find?, List.findIdx?_append, missing, size]

/-- A request of a derived field is a request of its origin, or nothing at all. -/
theorem requestDerived_cases (registry : Variables) (field : DerivedField) (qualifier : Var)
    (known : AbstractValue) :
    (∃ declared, field.declaredValue? registry.table known = some declared ∧
      registry.requestDerived field qualifier known =
        ((registry.request (.derived qualifier field) declared).1,
          some (registry.request (.derived qualifier field) declared).2)) ∨
    registry.requestDerived field qualifier known = (registry, none) := by
  unfold requestDerived
  split
  · cases form : field.declaredValue? registry.table known with
    | some declared => exact .inl ⟨declared, rfl, rfl⟩
    | none => exact .inr rfl
  · exact .inr rfl

theorem declaredValue?_of_requestDerived {field : DerivedField} {qualifier : Var}
    {known : AbstractValue} (reference : known.isReference = true)
    (answer : (registry.requestDerived field qualifier known).2 = none) :
    field.declaredValue? registry.table known = none := by
  unfold requestDerived at answer
  rw [if_pos (by simp [reference])] at answer
  split at answer
  · cases answer
  · assumption

private theorem declared_of_declaredValue? {field : DerivedField} {table : ClassTable}
    {known declared : AbstractValue} (form : field.declaredValue? table known = some declared) :
    declared.Declared := by
  have ofBox : ∀ {id : ClassId}, DerivedField.declaredValue?.ofBox table id = some declared →
      declared.Declared := by
    intro id boxed
    obtain ⟨kind, _, rfl⟩ := Option.map_eq_some_iff.mp boxed
    exact .ofType _
  cases field with
  | arrayLength =>
    cases form
    exact .ofType _
  | collectionSize =>
    cases form
    exact .ofType _
  | unboxed =>
    simp only [DerivedField.declaredValue?] at form
    split at form
    · exact ofBox form
    · exact ofBox form
    · cases form
      exact .top
    · cases form

theorem built_requestDerived (built : registry.Built AbstractValue.Declared) {qualifier : Var}
    (issued : registry.Issued qualifier) (field : DerivedField) (known : AbstractValue) :
    (registry.requestDerived field qualifier known).1.Built AbstractValue.Declared := by
  rcases requestDerived_cases registry field qualifier known with ⟨declared, form, result⟩ | result
  · rw [result]
    apply built.request (declared_of_declaredValue? form)
    intro other same
    cases same
    exact issued
  · rw [result]
    exact built

theorem find?_of_requestDerived {field : DerivedField} {qualifier var : Var}
    {known : AbstractValue}
    (answer : (registry.requestDerived field qualifier known).2 = some var) :
    (registry.requestDerived field qualifier known).1.find? (.derived qualifier field) =
      some var := by
  rcases requestDerived_cases registry field qualifier known with ⟨declared, _, result⟩ | result
  · rw [result] at answer ⊢
    rw [find?_request]
    exact answer
  · rw [result] at answer
    cases answer

/-- A registry that grew from a request answers it with the same variable, as it is. -/
theorem request_of_grows {origin : Origin} {declared : AbstractValue}
    (grows : Grows (registry.request origin declared).1 new) (other : AbstractValue) :
    new.request origin other = (new, (registry.request origin declared).2) := by
  rw [request, grows.find? (find?_request registry origin declared)]

theorem requestDerived_of_grows {field : DerivedField} {qualifier : Var} {known : AbstractValue}
    (grows : Grows (registry.requestDerived field qualifier known).1 new) :
    new.requestDerived field qualifier known =
      (new, (registry.requestDerived field qualifier known).2) := by
  have sameTable : new.table = registry.table :=
    grows.table.trans (grows_requestDerived registry field qualifier known).table
  unfold requestDerived at grows ⊢
  rw [sameTable]
  split
  · rename_i possible
    rw [if_pos possible] at grows
    cases form : field.declaredValue? registry.table known with
    | some declared =>
      simp only [form] at grows
      simp only [request_of_grows grows]
    | none => rfl
  · rfl

theorem issued_of_find? {origin : Origin} {var : Var} (found : registry.find? origin = some var) :
    registry.Issued var := by
  obtain ⟨info, known, _⟩ := info?_of_find? found
  exact issued_iff.mpr ⟨info, known⟩

/-- The first variable is a derived field of the second one. -/
def DerivesFrom (registry : Variables) (lower upper : Var) : Prop :=
  ∃ info field, registry.info? lower = some info ∧ info.origin = .derived upper field

/-- The variable itself, a derived field of it, a derived field of that, and so on. -/
def Belongs (registry : Variables) (lower upper : Var) : Prop :=
  Relation.ReflTransGen registry.DerivesFrom lower upper

private theorem Grows.derivesFrom (grows : Grows old new) {lower upper : Var}
    (link : old.DerivesFrom lower upper) : new.DerivesFrom lower upper := by
  obtain ⟨info, field, found, origin⟩ := link
  have same := grows.info? (issued_iff.mpr ⟨info, found⟩)
  exact ⟨info, field, same.trans found, origin⟩

/-- No derived field of anything. -/
def Plain (registry : Variables) (var : Var) : Prop :=
  ∀ upper, ¬ registry.DerivesFrom var upper

/-- A variable once issued becomes no derived field later. -/
theorem Grows.plain (grows : Grows old new) {var : Var} (issued : old.Issued var)
    (plain : old.Plain var) : new.Plain var := by
  rintro upper ⟨info, field, found, origin⟩
  rw [grows.info? issued] at found
  exact plain upper ⟨info, field, found, origin⟩

private theorem derivesFrom_rightUnique (registry : Variables) :
    Relator.RightUnique registry.DerivesFrom := by
  rintro lower left right ⟨info, field, found, leftOrigin⟩ ⟨other, others, again, rightOrigin⟩
  have same := Option.some.inj (found.symm.trans again)
  subst same
  rw [leftOrigin] at rightOrigin
  cases rightOrigin
  rfl

theorem derivesFrom_of_find? {lower upper : Var} {field : DerivedField}
    (found : registry.find? (.derived upper field) = some lower) :
    registry.DerivesFrom lower upper := by
  obtain ⟨info, known, origin⟩ := info?_of_find? found
  exact ⟨info, field, known, origin⟩

theorem Belongs.eq_of_plain {lower upper : Var} (belongs : registry.Belongs lower upper)
    (plain : registry.Plain lower) : lower = upper := by
  rcases Relation.ReflTransGen.cases_head belongs with same | ⟨middle, link, _⟩
  · exact same
  · exact absurd link (plain middle)

/-- A variable belongs to one plain variable at most. -/
theorem Belongs.unique {lower left right : Var} (inLeft : registry.Belongs lower left)
    (inRight : registry.Belongs lower right) (leftPlain : registry.Plain left)
    (rightPlain : registry.Plain right) : left = right := by
  rcases Relation.ReflTransGen.total_of_right_unique registry.derivesFrom_rightUnique inLeft
    inRight with path | path
  · exact Belongs.eq_of_plain path leftPlain
  · exact (Belongs.eq_of_plain path rightPlain).symm

theorem Belongs.index_le (ordered : registry.Ordered) {lower upper : Var}
    (belongs : registry.Belongs lower upper) : upper.index ≤ lower.index := by
  induction belongs with
  | refl => exact Nat.le_refl _
  | tail _ link ih =>
    obtain ⟨info, field, found, origin⟩ := link
    have younger := ordered _ _ ⟨info, found, by rw [origin]; rfl⟩
    exact Nat.le_trans (Nat.le_of_lt younger) ih

/-- A derived field is another variable than its object. -/
theorem DerivesFrom.index_lt (ordered : registry.Ordered) {lower upper : Var}
    (link : registry.DerivesFrom lower upper) : upper.index < lower.index := by
  obtain ⟨info, field, found, origin⟩ := link
  exact ordered _ _ ⟨info, found, by rw [origin]; rfl⟩

/-- A registry that grew by nothing but derived fields of the owners, derived fields of those, and
so on. -/
structure GrowsBelow (owner : Var → Prop) (old new : Variables) : Prop where
  grows : Grows old new
  added : ∀ {var}, new.Issued var → ¬ old.Issued var →
    ∃ upper, owner upper ∧ Relation.TransGen new.DerivesFrom var upper

namespace GrowsBelow

variable {owner : Var → Prop}

theorem refl (owner : Var → Prop) (registry : Variables) : GrowsBelow owner registry registry where
  grows := .refl registry
  added issued missing := absurd issued missing

theorem trans {middle : Variables} (first : GrowsBelow owner old middle)
    (second : GrowsBelow owner middle new) : GrowsBelow owner old new where
  grows := first.grows.trans second.grows
  added {var} issued missing := by
    by_cases between : middle.Issued var
    · obtain ⟨upper, owned, path⟩ := first.added between missing
      exact ⟨upper, owned, path.lift id fun _ _ link => second.grows.derivesFrom link⟩
    · exact second.added issued between

theorem mono {wider : Var → Prop} (below : GrowsBelow owner old new)
    (among : ∀ var, owner var → wider var) : GrowsBelow wider old new where
  grows := below.grows
  added issued missing := by
    obtain ⟨upper, owned, path⟩ := below.added issued missing
    exact ⟨upper, among upper owned, path⟩

/-- What is below a derived field is below its object. -/
theorem of_field {field var : Var} (below : GrowsBelow (· = field) old new)
    (link : old.DerivesFrom field var) : GrowsBelow (· = var) old new where
  grows := below.grows
  added issued missing := by
    obtain ⟨upper, rfl, path⟩ := below.added issued missing
    exact ⟨var, rfl, path.tail (below.grows.derivesFrom link)⟩

theorem requestDerived (registry : Variables) (field : DerivedField) (qualifier : Var)
    (known : AbstractValue) :
    GrowsBelow (· = qualifier) registry (registry.requestDerived field qualifier known).1 where
  grows := grows_requestDerived registry field qualifier known
  added {var} issued missing := by
    rcases requestDerived_cases registry field qualifier known with ⟨declared, _, result⟩ | result
    · rw [result] at issued ⊢
      obtain ⟨info, found⟩ := issued_iff.mp issued
      rcases info?_request_cases found with old | ⟨_, rfl⟩
      · exact absurd (issued_iff.mpr ⟨info, old⟩) missing
      · exact ⟨qualifier, rfl, .single ⟨_, field, found, rfl⟩⟩
    · rw [result] at issued
      exact absurd issued missing

end GrowsBelow

end PauseFlow.Variables
