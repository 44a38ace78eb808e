import PauseFlow.Proofs.Memory.Apartness

namespace PauseFlow.Memory

structure WellFormed (memory : Memory) : Prop where
  grounded : Grounded memory.links
  factAtRoot : ∀ {var value}, memory.facts.get? var = some value → memory.links.get? var = none
  possible : ∀ {var value}, memory.facts.get? var = some value → value ≠ .bottom
  excludedAtRoot : ∀ {var values}, memory.excluded.get? var = some values →
    memory.links.get? var = none
  apartAtRoot : ∀ {pair}, memory.apart.contains pair = true →
    memory.links.get? pair.1 = none ∧ memory.links.get? pair.2 = none
  proper : Proper memory.apart
  sharedKnown : ∀ {var parent}, memory.links.get? var = some parent →
    ∃ value, memory.facts.get? (memory.root var) = some value

/-- Two roots are recorded as holding different values. -/
def Apart (memory : Memory) (left right : Var) : Prop :=
  memory.apart.contains (sorted left right) = true

theorem Apart.symm {memory : Memory} {left right : Var} (apart : memory.Apart left right) :
    memory.Apart right left := by
  rw [Apart, sorted_comm]
  exact apart

theorem wellFormed_empty : WellFormed .empty where
  grounded var := ⟨0, var, .here rfl⟩
  factAtRoot found := by cases found
  possible found := by cases found
  excludedAtRoot found := by cases found
  apartAtRoot present := by cases present
  proper _ present := by cases present
  sharedKnown link := by cases link

namespace WellFormed

variable {memory : Memory}

theorem apart_irrefl (wellFormed : WellFormed memory) (var : Var) : ¬ memory.Apart var var :=
  wellFormed.proper.not_self var

theorem top_of_apart (wellFormed : WellFormed memory) {left right : Var}
    (apart : memory.Apart left right) :
    memory.links.get? left = none ∧ memory.links.get? right = none := by
  exact (sorted_both (memory.links.get? · = none) left right).mp (wellFormed.apartAtRoot apart)

/-- A member below its root is in no recorded pair. -/
theorem not_apart_of_link (wellFormed : WellFormed memory) {child parent : Var}
    (link : memory.links.get? child = some parent) (other : Var) : ¬ memory.Apart child other := by
  intro apart
  have tops := wellFormed.top_of_apart apart
  rw [link] at tops
  cases tops.1

private theorem facts_of_link (wellFormed : WellFormed memory) {var parent : Var}
    (link : memory.links.get? var = some parent) : memory.facts.get? var = none := by
  cases found : memory.facts.get? var with
  | none => rfl
  | some value =>
    have top := wellFormed.factAtRoot found
    rw [link] at top
    cases top

private theorem excluded_of_link (wellFormed : WellFormed memory) {var parent : Var}
    (link : memory.links.get? var = some parent) : memory.excluded.get? var = none := by
  cases found : memory.excluded.get? var with
  | none => rfl
  | some values =>
    have top := wellFormed.excludedAtRoot found
    rw [link] at top
    cases top

/-- The class of a variable other than its root has a fact. -/
theorem known_of_ne_root (wellFormed : WellFormed memory) {var : Var}
    (member : memory.root var ≠ var) :
    ∃ value, memory.facts.get? (memory.root var) = some value := by
  cases link : memory.links.get? var with
  | none => exact absurd (root_of_top link) member
  | some parent => exact wellFormed.sharedKnown link

/-- A change of the facts at roots alone keeps the form. -/
theorem insertFact (wellFormed : WellFormed memory) {root : Var} {value : AbstractValue}
    (top : memory.links.get? root = none) (possible : value ≠ .bottom) :
    WellFormed { memory with facts := memory.facts.insert root value } where
  grounded := wellFormed.grounded
  factAtRoot {var found} known := by
    simp only [OrderedMap.get?_insert] at known
    split at known
    · rename_i here
      exact here ▸ top
    · exact wellFormed.factAtRoot known
  possible {var found} known := by
    simp only [OrderedMap.get?_insert] at known
    split at known
    · cases known
      exact possible
    · exact wellFormed.possible known
  excludedAtRoot := wellFormed.excludedAtRoot
  apartAtRoot := wellFormed.apartAtRoot
  proper := wellFormed.proper
  sharedKnown {var parent} link := by
    obtain ⟨old, known⟩ := wellFormed.sharedKnown link
    by_cases here : memory.root var = root
    · refine ⟨value, ?_⟩
      change (memory.facts.insert root value).get? (memory.root var) = some value
      simp [here]
    · refine ⟨old, ?_⟩
      change (memory.facts.insert root value).get? (memory.root var) = some old
      simp [here, known]

theorem insertExcluded (wellFormed : WellFormed memory) {root : Var}
    {values : List AbstractValue} (top : memory.links.get? root = none) :
    WellFormed { memory with excluded := memory.excluded.insert root values } where
  grounded := wellFormed.grounded
  factAtRoot := wellFormed.factAtRoot
  possible := wellFormed.possible
  excludedAtRoot {var found} known := by
    simp only [OrderedMap.get?_insert] at known
    split at known
    · rename_i here
      exact here ▸ top
    · exact wellFormed.excludedAtRoot known
  apartAtRoot := wellFormed.apartAtRoot
  proper := wellFormed.proper
  sharedKnown := wellFormed.sharedKnown

theorem insertApart (wellFormed : WellFormed memory) {left right : Var}
    (different : left ≠ right) (leftTop : memory.links.get? left = none)
    (rightTop : memory.links.get? right = none) :
    WellFormed { memory with apart := memory.apart.insert (sorted left right) () } where
  grounded := wellFormed.grounded
  factAtRoot := wellFormed.factAtRoot
  possible := wellFormed.possible
  excludedAtRoot := wellFormed.excludedAtRoot
  apartAtRoot {pair} present := by
    rcases (OrderedMap.contains_insert _ _ _ _).mp present with rfl | old
    · exact (sorted_both (memory.links.get? · = none) left right).mpr ⟨leftTop, rightTop⟩
    · exact wellFormed.apartAtRoot old
  proper pair present := by
    rcases (OrderedMap.contains_insert _ _ _ _).mp present with rfl | old
    · exact sorted_ordered different
    · exact wellFormed.proper pair old
  sharedKnown := wellFormed.sharedKnown

end WellFormed

private theorem get?_moveEntry {Value : Type} {table : OrderedMap Var Value} {old new : Var}
    (different : new ≠ old) (free : table.get? new = none) (var : Var) :
    (moveEntry table old new).get? var =
      if var = old then none else table.get? (relabel new old var) := by
  unfold moveEntry
  cases found : table.get? old with
  | none =>
    by_cases here : var = old
    · simp [here, found]
    · by_cases there : var = new
      · simp [there, different, found, free]
      · simp [here, relabel_of_ne there]
  | some value =>
    by_cases here : var = new
    · simp [here, different, found]
    · by_cases there : var = old
      · simp [there, Ne.symm different]
      · simp [here, there, relabel_of_ne here]

/-- What a table of roots becomes when a variable leaves its class: nothing was recorded of it, or
the record is lost with it, or its heir takes the record over. -/
def HandedOver {Value : Type} (old new : OrderedMap Var Value) (var heir : Var) : Prop :=
  (heir = var ∧ old.get? var = none ∧ new = old) ∨ (heir = var ∧ new = old.erase var) ∨
    (heir ≠ var ∧ old.get? heir = none ∧ new = moveEntry old var heir)

private theorem HandedOver.get?_eq {Value : Type} {old new : OrderedMap Var Value} {var heir : Var}
    (handed : HandedOver old new var heir) (other : Var) :
    new.get? other = if other = var then none else old.get? (relabel heir var other) := by
  rcases handed with ⟨same, free, result⟩ | ⟨same, result⟩ | ⟨different, free, result⟩
  · by_cases here : other = var
    · simp [result, here, free]
    · simp [result, here, same]
  · by_cases here : other = var
    · simp [result, here]
    · simp [result, here, same]
  · rw [result]
    exact get?_moveEntry different free other

variable {memory : Memory}

/-- The three ways a variable leaves its class, with what each does to the records. -/
theorem detach_cases (wellFormed : WellFormed memory) (var : Var) :
    (memory.heir var = var ∧
      ((∃ parent, memory.links.get? var = some parent ∧
          memory.detach var = { memory with links := bypass memory.links var parent }) ∨
        (memory.links.get? var = none ∧ memory.detach var = { memory with
          facts := memory.facts.erase var
          apart := memory.apart.filter fun pair _ => pair.1 ≠ var && pair.2 ≠ var
          excluded := memory.excluded.erase var }))) ∨
    (memory.heir var ≠ var ∧ memory.links.get? var = none ∧
      (∃ parent, memory.links.get? (memory.heir var) = some parent) ∧
      ∃ others, memory.detach var =
        { links := inherit memory.links (memory.heir var) others
          facts := moveEntry memory.facts var (memory.heir var)
          apart := renameApart memory.apart var (memory.heir var)
          excluded := moveEntry memory.excluded var (memory.heir var) }) := by
  unfold detach
  cases link : memory.links.get? var with
  | some parent => exact .inl ⟨heir_of_link wellFormed.grounded link, .inl ⟨parent, rfl, rfl⟩⟩
  | none =>
    cases members : memory.membersBelow var with
    | nil => exact .inl ⟨by simp [heir, members], .inr ⟨rfl, rfl⟩⟩
    | cons first others =>
      have first_heir : memory.heir var = first := by simp [heir, members]
      have place : first ∈ memory.membersBelow var := by simp [members]
      have linked := ((mem_membersBelow_iff first var).mp place).1
      have different : first ≠ var := by
        intro same
        subst same
        obtain ⟨parent, below⟩ := linked
        rw [link] at below
        cases below
      exact .inr ⟨first_heir ▸ different, rfl, first_heir ▸ linked, others, by rw [first_heir]; rfl⟩

/-- The heir takes over the fact of a root that leaves. -/
theorem get?_facts_detach (wellFormed : WellFormed memory) (var other : Var) :
    (memory.detach var).facts.get? other =
      if other = var then none else memory.facts.get? (relabel (memory.heir var) var other) := by
  have handed : HandedOver memory.facts (memory.detach var).facts var (memory.heir var) := by
    rcases detach_cases wellFormed var with
      ⟨same, ⟨_, link, result⟩ | ⟨_, result⟩⟩ | ⟨different, _, ⟨_, link⟩, _, result⟩
    · exact .inl ⟨same, wellFormed.facts_of_link link, by rw [result]⟩
    · exact .inr (.inl ⟨same, by rw [result]⟩)
    · exact .inr (.inr ⟨different, wellFormed.facts_of_link link, by rw [result]⟩)
  exact handed.get?_eq other

/-- The heir takes over the exclusions of a root that leaves. -/
theorem get?_excluded_detach (wellFormed : WellFormed memory) (var other : Var) :
    (memory.detach var).excluded.get? other =
      if other = var then none
      else memory.excluded.get? (relabel (memory.heir var) var other) := by
  have handed : HandedOver memory.excluded (memory.detach var).excluded var (memory.heir var) := by
    rcases detach_cases wellFormed var with
      ⟨same, ⟨_, link, result⟩ | ⟨_, result⟩⟩ | ⟨different, _, ⟨_, link⟩, _, result⟩
    · exact .inl ⟨same, wellFormed.excluded_of_link link, by rw [result]⟩
    · exact .inr (.inl ⟨same, by rw [result]⟩)
    · exact .inr (.inr ⟨different, wellFormed.excluded_of_link link, by rw [result]⟩)
  exact handed.get?_eq other

/-- A root that leaves takes no pair with it; its heir stands in for it. -/
theorem apart_detach_iff (wellFormed : WellFormed memory) (var left right : Var) :
    (memory.detach var).Apart left right ↔
      left ≠ var ∧ right ≠ var ∧
        memory.Apart (relabel (memory.heir var) var left) (relabel (memory.heir var) var right) := by
  rcases detach_cases wellFormed var with
    ⟨same, ⟨parent, link, result⟩ | ⟨top, result⟩⟩ | ⟨different, top, ⟨parent, link⟩, others, result⟩
  · rw [result, same, relabel_same, relabel_same]
    constructor
    · intro apart
      have leftOther : left ≠ var := by
        intro here
        subst here
        exact wellFormed.not_apart_of_link link _ apart
      have rightOther : right ≠ var := by
        intro here
        subst here
        exact wellFormed.not_apart_of_link link _ (Apart.symm apart)
      exact ⟨leftOther, rightOther, apart⟩
    · intro given
      exact given.2.2
  · rw [result, same, relabel_same, relabel_same]
    exact contains_withoutVar memory.apart var left right
  · rw [result]
    exact contains_renameApart_iff wellFormed.proper different (wellFormed.not_apart_of_link link)
      left right

end PauseFlow.Memory
