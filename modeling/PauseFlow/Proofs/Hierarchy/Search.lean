import Mathlib.Algebra.BigOperators.Fin
import Mathlib.Logic.Relation
import PauseFlow.Hierarchy.Subtyping

namespace PauseFlow.ClassTable

/-- One step up: a declared superclass or interface. -/
def Extends (table : ClassTable) (lower upper : ClassId) : Prop :=
  upper ∈ table.supertypes lower

/-- Any number of steps up. -/
def Below (table : ClassTable) (lower upper : ClassId) : Prop :=
  Relation.ReflTransGen table.Extends lower upper

/-- Number of links that leave a class not yet expanded. -/
def unexpandedLinks (table : ClassTable) (expanded : List ClassId) : Nat :=
  ∑ index ∈ Finset.range table.size,
    if (⟨index⟩ : ClassId) ∈ expanded then 0 else (table.supertypes ⟨index⟩).length

theorem supertypes_of_size_le {table : ClassTable} {id : ClassId}
    (outside : table.size ≤ id.index) : table.supertypes id = [] := by
  have missing : table.get? id = none := List.getElem?_eq_none outside
  simp [supertypes, missing]

theorem unexpandedLinks_nil (table : ClassTable) :
    table.unexpandedLinks [] = table.linkCount := by
  rw [unexpandedLinks, Finset.sum_range, linkCount, List.length_flatMap,
    ← Fin.sum_univ_fun_getElem]
  apply Finset.sum_congr rfl
  intro index _
  have found : table.get? ⟨index⟩ = some table.classes[index.val] :=
    List.getElem?_eq_getElem index.isLt
  simp [supertypes, found]

/-- Expanding a class spends exactly the links that leave it. -/
theorem unexpandedLinks_cons (table : ClassTable) {expanded : List ClassId} {current : ClassId}
    (fresh : current ∉ expanded) :
    table.unexpandedLinks (current :: expanded) + (table.supertypes current).length =
      table.unexpandedLinks expanded := by
  by_cases inside : current.index < table.size
  · have member := Finset.mem_range.mpr inside
    rw [unexpandedLinks, unexpandedLinks, ← Finset.sum_erase_add _ _ member,
      ← Finset.sum_erase_add (Finset.range table.size) _ member]
    have others : ∀ index ∈ (Finset.range table.size).erase current.index,
        (if (⟨index⟩ : ClassId) ∈ current :: expanded then 0
          else (table.supertypes ⟨index⟩).length) =
        if (⟨index⟩ : ClassId) ∈ expanded then 0 else (table.supertypes ⟨index⟩).length := by
      intro index other
      have different : (⟨index⟩ : ClassId) ≠ current := by
        intro same
        exact (Finset.mem_erase.mp other).1 (congrArg ClassId.index same)
      simp [different]
    rw [Finset.sum_congr rfl others]
    simp [fresh]
  · have outside := Nat.le_of_not_lt inside
    rw [supertypes_of_size_le outside, List.length_nil, Nat.add_zero]
    apply Finset.sum_congr rfl
    intro index member
    have different : (⟨index⟩ : ClassId) ≠ current := by
      intro same
      have bound := Finset.mem_range.mp member
      have equal := congrArg ClassId.index same
      simp only at equal
      omega
    simp [different]

/-- The search finds only what links lead to from a pending class. -/
theorem exists_below_of_climbs {table : ClassTable} {target : ClassId} {steps : Nat}
    {expanded pending : List ClassId}
    (found : table.climbs target steps expanded pending = true) :
    ∃ start ∈ pending, table.Below start target := by
  induction steps generalizing expanded pending with
  | zero => simp [climbs] at found
  | succ steps ih =>
    cases pending with
    | nil => simp [climbs] at found
    | cons current rest =>
      simp only [climbs] at found
      split at found
      · rename_i same
        exact ⟨current, List.mem_cons_self .., same ▸ Relation.ReflTransGen.refl⟩
      · split at found
        · obtain ⟨start, member, path⟩ := ih found
          exact ⟨start, List.mem_cons_of_mem current member, path⟩
        · obtain ⟨start, member, path⟩ := ih found
          rcases List.mem_append.mp member with above | waiting
          · exact ⟨current, List.mem_cons_self .., Relation.ReflTransGen.head above path⟩
          · exact ⟨start, List.mem_cons_of_mem current waiting, path⟩

/-- A list closed under links holds all that lies above its members. -/
theorem mem_of_below {table : ClassTable} {closed : List ClassId} {lower upper : ClassId}
    (step : ∀ id ∈ closed, ∀ next ∈ table.supertypes id, next ∈ closed)
    (member : lower ∈ closed) (path : table.Below lower upper) : upper ∈ closed := by
  induction path with
  | refl => exact member
  | tail _ link ih => exact step _ ih _ link

/-- What the search relies on: an expanded class is not the target, and each class right
above it is expanded or pending. -/
structure SearchInvariant (table : ClassTable) (target : ClassId)
    (expanded pending : List ClassId) : Prop where
  missed : target ∉ expanded
  closed : ∀ id ∈ expanded, ∀ upper ∈ table.supertypes id, upper ∈ expanded ∨ upper ∈ pending

namespace SearchInvariant

variable {table : ClassTable} {target current : ClassId} {expanded pending : List ClassId}

theorem start (table : ClassTable) (target : ClassId) (pending : List ClassId) :
    SearchInvariant table target [] pending :=
  ⟨by simp, by simp⟩

theorem skip (invariant : SearchInvariant table target expanded (current :: pending))
    (known : current ∈ expanded) : SearchInvariant table target expanded pending := by
  refine ⟨invariant.missed, fun id member upper link => ?_⟩
  rcases invariant.closed id member upper link with old | waiting
  · exact .inl old
  · rcases List.mem_cons.mp waiting with rfl | waiting
    · exact .inl known
    · exact .inr waiting

theorem expand (invariant : SearchInvariant table target expanded (current :: pending))
    (different : current ≠ target) :
    SearchInvariant table target (current :: expanded) (table.supertypes current ++ pending) := by
  refine ⟨by simp [Ne.symm different, invariant.missed], fun id member upper link => ?_⟩
  rcases List.mem_cons.mp member with rfl | old
  · exact .inr (List.mem_append_left _ link)
  · rcases invariant.closed id old upper link with known | waiting
    · exact .inl (List.mem_cons_of_mem current known)
    · rcases List.mem_cons.mp waiting with rfl | waiting
      · exact .inl (List.mem_cons_self ..)
      · exact .inr (List.mem_append_right _ waiting)

/-- With nothing pending, the expanded classes are closed under links and miss the target. -/
theorem not_below (invariant : SearchInvariant table target expanded []) {start : ClassId}
    (member : start ∈ expanded) : ¬ table.Below start target := by
  intro path
  exact invariant.missed (mem_of_below (by simpa using invariant.closed) member path)

end SearchInvariant

/-- The search finds the target when it lies above an expanded or pending class and the
steps cover the pending classes and the links not yet followed. -/
theorem climbs_of_below {table : ClassTable} {target : ClassId} {steps : Nat}
    {expanded pending : List ClassId}
    (invariant : SearchInvariant table target expanded pending)
    (enough : pending.length + table.unexpandedLinks expanded ≤ steps)
    (reached : ∃ start, (start ∈ expanded ∨ start ∈ pending) ∧ table.Below start target) :
    table.climbs target steps expanded pending = true := by
  induction steps generalizing expanded pending with
  | zero =>
    have empty : pending = [] := List.eq_nil_of_length_eq_zero (by omega)
    subst empty
    obtain ⟨start, member, path⟩ := reached
    exact absurd path (invariant.not_below (by simpa using member))
  | succ steps ih =>
    obtain ⟨start, member, path⟩ := reached
    cases pending with
    | nil => exact absurd path (invariant.not_below (by simpa using member))
    | cons current rest =>
      simp only [List.length_cons] at enough
      simp only [climbs]
      split
      · rfl
      · rename_i different
        split
        · rename_i known
          refine ih (invariant.skip known) (by omega) ⟨start, ?_, path⟩
          rcases member with old | waiting
          · exact .inl old
          · rcases List.mem_cons.mp waiting with rfl | waiting
            · exact .inl known
            · exact .inr waiting
        · rename_i fresh
          have spent := unexpandedLinks_cons table fresh
          refine ih (invariant.expand different) (by simp; omega) ⟨start, ?_, path⟩
          rcases member with old | waiting
          · exact .inl (List.mem_cons_of_mem current old)
          · rcases List.mem_cons.mp waiting with rfl | waiting
            · exact .inl (List.mem_cons_self ..)
            · exact .inr (List.mem_append_right _ waiting)

/-- A class is found to be a subclass exactly when links lead from it to the other one. -/
theorem isSubclass_iff_below (table : ClassTable) (lower upper : ClassId) :
    table.isSubclass lower upper = true ↔ table.Below lower upper := by
  constructor
  · intro found
    obtain ⟨start, member, path⟩ := exists_below_of_climbs found
    exact List.mem_singleton.mp member ▸ path
  · intro path
    refine climbs_of_below (.start table upper [lower]) ?_ ⟨lower, by simp, path⟩
    rw [unexpandedLinks_nil, List.length_singleton, Nat.add_comm]

end PauseFlow.ClassTable
