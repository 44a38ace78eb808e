import PauseFlow.Proofs.Memory.Invariant
import PauseFlow.Proofs.Variable.Qualification

namespace PauseFlow.Memory

variable {memory : Memory} {var : Var}

theorem heir_ne_of_member (grounded : Grounded memory.links) {other : Var}
    (outside : other ≠ var) (below : memory.root other = var) : memory.heir var ≠ var := by
  have top := root_top grounded other
  rw [below] at top
  have linked : ∃ parent, memory.links.get? other = some parent := by
    cases link : memory.links.get? other with
    | none => exact absurd ((root_of_top link).symm.trans below) outside
    | some parent => exact ⟨parent, rfl⟩
  have place := (mem_membersBelow_iff other var).mpr ⟨linked, below⟩
  cases members : memory.membersBelow var with
  | nil => simp [members] at place
  | cons first rest =>
    have firstPlace : first ∈ memory.membersBelow var := by simp [members]
    obtain ⟨⟨parent, link⟩, _⟩ := (mem_membersBelow_iff first var).mp firstPlace
    intro same
    have first_var : first = var := by simpa [heir, members] using same
    rw [← first_var, link] at top
    cases top

/-- The heir of a class stands for its old root, every other root for itself. -/
theorem relabel_root_detach (grounded : Grounded memory.links) {other : Var}
    (outside : other ≠ var) :
    relabel (memory.heir var) var ((memory.detach var).root other) = memory.root other := by
  rw [root_detach_of_ne grounded outside]
  by_cases below : memory.root other = var
  · rw [below, relabel_self, relabel_self]
  · rw [relabel_of_ne below]
    exact relabel_heir_of_top (root_top grounded other)

theorem root_detach_ne (grounded : Grounded memory.links) {other : Var} (outside : other ≠ var) :
    (memory.detach var).root other ≠ var := by
  rw [root_detach_of_ne grounded outside]
  by_cases below : memory.root other = var
  · rw [below, relabel_self]
    exact heir_ne_of_member grounded outside below
  · rwa [relabel_of_ne below]

private theorem top_detach (grounded : Grounded memory.links) {other : Var} (outside : other ≠ var)
    (top : memory.links.get? (relabel (memory.heir var) var other) = none) :
    (memory.detach var).links.get? other = none := by
  have fixed : (memory.detach var).root other = other := by
    rw [root_detach_of_ne grounded outside]
    by_cases here : other = memory.heir var
    · rcases heir_cases memory var with same | ⟨_, below⟩
      · exact absurd (here.trans same) outside
      · rw [here, below, relabel_self]
    · rw [relabel_of_ne here] at top
      rw [root_of_top top, relabel_of_ne outside]
  have rootTop := root_top (grounded_detach grounded var) other
  rwa [fixed] at rootTop

private theorem facts_root_detach (wellFormed : WellFormed memory) {other : Var}
    (outside : other ≠ var) :
    (memory.detach var).facts.get? ((memory.detach var).root other) =
      memory.facts.get? (memory.root other) := by
  rw [get?_facts_detach wellFormed, if_neg (root_detach_ne wellFormed.grounded outside),
    relabel_root_detach wellFormed.grounded outside]

private theorem proper_detach (wellFormed : WellFormed memory) (var : Var) :
    Proper (memory.detach var).apart := by
  rcases detach_cases wellFormed var with
    ⟨same, ⟨parent, link, result⟩ | ⟨top, result⟩⟩ | ⟨different, top, ⟨parent, link⟩, others, result⟩
  · rw [result]
    exact wellFormed.proper
  · rw [result]
    intro pair present
    exact wellFormed.proper pair ((OrderedMap.contains_filter memory.apart
      (fun pair => pair.1 ≠ var && pair.2 ≠ var) pair).mp present).2
  · rw [result]
    apply wellFormed.proper.renameApart different
    intro present
    exact wellFormed.not_apart_of_link link _ (Apart.symm present)

theorem WellFormed.detach (wellFormed : WellFormed memory) (var : Var) :
    WellFormed (memory.detach var) where
  grounded := grounded_detach wellFormed.grounded var
  factAtRoot {other value} found := by
    rw [get?_facts_detach wellFormed] at found
    split at found
    · cases found
    · rename_i outside
      exact top_detach wellFormed.grounded outside (wellFormed.factAtRoot found)
  possible {other value} found := by
    rw [get?_facts_detach wellFormed] at found
    split at found
    · cases found
    · exact wellFormed.possible found
  excludedAtRoot {other values} found := by
    rw [get?_excluded_detach wellFormed] at found
    split at found
    · cases found
    · rename_i outside
      exact top_detach wellFormed.grounded outside (wellFormed.excludedAtRoot found)
  apartAtRoot {pair} present := by
    have ordered := proper_detach wellFormed var pair present
    rw [← sorted_of_lt ordered] at present
    obtain ⟨leftOutside, rightOutside, apart⟩ := (apart_detach_iff wellFormed var _ _).mp present
    have tops := wellFormed.top_of_apart apart
    exact ⟨top_detach wellFormed.grounded leftOutside tops.1,
      top_detach wellFormed.grounded rightOutside tops.2⟩
  proper := proper_detach wellFormed var
  sharedKnown {other parent} link := by
    have outside : other ≠ var := by
      intro same
      subst same
      rw [get?_links_detach_self] at link
      cases link
    rw [facts_root_detach wellFormed outside]
    apply wellFormed.known_of_ne_root
    intro fixed
    have kept : (memory.detach var).root other = other := by
      rw [root_detach_of_ne wellFormed.grounded outside, fixed, relabel_of_ne outside]
    have top := root_top (grounded_detach wellFormed.grounded var) other
    rw [kept, link] at top
    cases top

/-- The second memory is the first one without what was known of the lost variables. -/
structure Forgets (registry : Variables) (lost : Var → Prop) (old new : Memory) : Prop where
  value : ∀ {var}, ¬ lost var → new.value registry var = old.value registry var
  equal : ∀ {left right}, ¬ lost left → ¬ lost right →
    (new.areEqual left right = true ↔ old.areEqual left right = true)
  distinct : ∀ {left right}, ¬ lost left → ¬ lost right →
    (new.areDistinct left right = true ↔ old.areDistinct left right = true)
  exclusions : ∀ {var}, ¬ lost var → new.exclusions (new.root var) = old.exclusions (old.root var)
  lostValue : ∀ {var}, lost var → new.value registry var = registry.declared var
  alone : ∀ {left right}, lost left → new.areEqual left right = true → left = right
  unrelated : ∀ {left right}, lost left → new.areDistinct left right ≠ true
  unrestricted : ∀ {var}, lost var → new.exclusions (new.root var) = []

theorem areEqual_iff (memory : Memory) (left right : Var) :
    memory.areEqual left right = true ↔ memory.root left = memory.root right := by
  simp [areEqual]

theorem areDistinct_iff (memory : Memory) (left right : Var) :
    memory.areDistinct left right = true ↔
      memory.Apart (memory.root left) (memory.root right) :=
  Iff.rfl

theorem areDistinct_comm (memory : Memory) (left right : Var) :
    memory.areDistinct left right = memory.areDistinct right left := by
  rw [areDistinct, sorted_comm, areDistinct]

namespace Forgets

variable {registry : Variables} {old middle new : Memory} {first second : Var → Prop}

theorem refl (registry : Variables) (memory : Memory) :
    Forgets registry (fun _ => False) memory memory where
  value _ := rfl
  equal _ _ := Iff.rfl
  distinct _ _ := Iff.rfl
  exclusions _ := rfl
  lostValue lost := lost.elim
  alone lost := lost.elim
  unrelated lost := lost.elim
  unrestricted lost := lost.elim

theorem trans (before : Forgets registry first old middle)
    (after : Forgets registry second middle new) :
    Forgets registry (fun var => first var ∨ second var) old new where
  value kept := by
    rw [not_or] at kept
    exact (after.value kept.2).trans (before.value kept.1)
  equal leftKept rightKept := by
    rw [not_or] at leftKept rightKept
    exact (after.equal leftKept.2 rightKept.2).trans (before.equal leftKept.1 rightKept.1)
  distinct leftKept rightKept := by
    rw [not_or] at leftKept rightKept
    exact (after.distinct leftKept.2 rightKept.2).trans (before.distinct leftKept.1 rightKept.1)
  exclusions kept := by
    rw [not_or] at kept
    exact (after.exclusions kept.2).trans (before.exclusions kept.1)
  lostValue {var} lost := by
    by_cases again : second var
    · exact after.lostValue again
    · exact (after.value again).trans (before.lostValue (lost.resolve_right again))
  alone {left right} lost same := by
    by_cases leftAgain : second left
    · exact after.alone leftAgain same
    · by_cases rightAgain : second right
      · have flipped : new.areEqual right left = true := by
          rw [areEqual_iff] at same ⊢
          exact same.symm
        exact (after.alone rightAgain flipped).symm
      · exact before.alone (lost.resolve_right leftAgain)
          ((after.equal leftAgain rightAgain).mp same)
  unrelated {left right} lost := by
    by_cases leftAgain : second left
    · exact after.unrelated leftAgain
    · by_cases rightAgain : second right
      · rw [areDistinct_comm]
        exact after.unrelated rightAgain
      · intro apart
        exact before.unrelated (lost.resolve_right leftAgain)
          ((after.distinct leftAgain rightAgain).mp apart)
  unrestricted {var} lost := by
    by_cases again : second var
    · exact after.unrestricted again
    · exact (after.exclusions again).trans (before.unrestricted (lost.resolve_right again))

end Forgets

/-- A variable that is detached is lost, and nothing else. -/
theorem forgets_detach (registry : Variables) (wellFormed : WellFormed memory) (var : Var) :
    Forgets registry (· = var) memory (memory.detach var) where
  value {other} outside := by
    have known := facts_root_detach wellFormed outside
    unfold value classValue
    by_cases kept : (memory.detach var).root other = memory.root other
    · rw [known, kept]
    · have member : memory.root other ≠ other := by
        intro fixed
        apply kept
        rw [root_detach_of_ne wellFormed.grounded outside, fixed, relabel_of_ne outside]
      obtain ⟨fact, found⟩ := wellFormed.known_of_ne_root member
      rw [known, found]
      rfl
  equal {left right} leftOutside rightOutside := by
    rw [areEqual_iff, areEqual_iff]
    constructor
    · intro same
      rw [← relabel_root_detach wellFormed.grounded leftOutside, same,
        relabel_root_detach wellFormed.grounded rightOutside]
    · intro same
      rw [root_detach_of_ne wellFormed.grounded leftOutside, same,
        root_detach_of_ne wellFormed.grounded rightOutside]
  distinct {left right} leftOutside rightOutside := by
    rw [areDistinct_iff, areDistinct_iff, apart_detach_iff wellFormed,
      relabel_root_detach wellFormed.grounded leftOutside,
      relabel_root_detach wellFormed.grounded rightOutside]
    have leftRoot := root_detach_ne wellFormed.grounded leftOutside
    have rightRoot := root_detach_ne wellFormed.grounded rightOutside
    simp [leftRoot, rightRoot]
  exclusions {other} outside := by
    rw [Memory.exclusions, get?_excluded_detach wellFormed,
      if_neg (root_detach_ne wellFormed.grounded outside),
      relabel_root_detach wellFormed.grounded outside, Memory.exclusions]
  lostValue {other} here := by
    subst here
    rw [Memory.value, classValue, root_detach_self, get?_facts_detach wellFormed]
    simp
  alone {left right} here same := by
    subst here
    rw [areEqual_iff, root_detach_self] at same
    by_contra different
    exact root_detach_ne wellFormed.grounded (Ne.symm different) same.symm
  unrelated {left right} here apart := by
    subst here
    rw [areDistinct_iff, root_detach_self, apart_detach_iff wellFormed] at apart
    exact apart.1 rfl
  unrestricted {other} here := by
    subst here
    rw [root_detach_self, Memory.exclusions, get?_excluded_detach wellFormed]
    simp

private theorem forgets_foldl_detach (registry : Variables) (wellFormed : WellFormed memory)
    (lost : List Var) : WellFormed (lost.foldl detach memory) ∧
      Forgets registry (· ∈ lost) memory (lost.foldl detach memory) := by
  induction lost generalizing memory with
  | nil =>
    refine ⟨wellFormed, ?_⟩
    simpa using Forgets.refl registry memory
  | cons first rest ih =>
    obtain ⟨kept, later⟩ := ih (wellFormed.detach first)
    refine ⟨kept, ?_⟩
    rw [List.foldl_cons]
    simpa only [List.mem_cons] using (forgets_detach registry wellFormed first).trans later

theorem WellFormed.forget (wellFormed : WellFormed memory) (registry : Variables) (var : Var) :
    WellFormed (memory.forget registry var) :=
  (forgets_foldl_detach registry wellFormed _).1

/-- What detaching keeps, forgetting keeps. -/
theorem WellFormed.forget_induct {kept : Memory → Prop} (wellFormed : WellFormed memory)
    (start : kept memory)
    (step : ∀ {memory : Memory}, WellFormed memory → kept memory → ∀ var, kept (memory.detach var))
    (registry : Variables) (var : Var) : kept (memory.forget registry var) := by
  rw [Memory.forget]
  generalize registry.invalidatedBy var = lost
  induction lost generalizing memory with
  | nil => exact start
  | cons first rest ih => exact ih (wellFormed.detach first) (step wellFormed start first)

theorem forgets_invalidatedBy (wellFormed : WellFormed memory) (registry : Variables) (var : Var) :
    Forgets registry (· ∈ registry.invalidatedBy var) memory (memory.forget registry var) :=
  (forgets_foldl_detach registry wellFormed (registry.invalidatedBy var)).2

/-- Forgetting a variable loses it and what hangs off it, and nothing else. -/
theorem forgets_forget (wellFormed : WellFormed memory) {registry : Variables}
    (ordered : registry.Ordered) (var : Var) :
    Forgets registry (registry.Within · var) memory (memory.forget registry var) := by
  simpa only [Variables.mem_invalidatedBy_iff ordered] using
    forgets_invalidatedBy wellFormed registry var

end PauseFlow.Memory
