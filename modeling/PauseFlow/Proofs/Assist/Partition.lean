import PauseFlow.Proofs.Assist.Evaluation

namespace PauseFlow

namespace LiveValue

theorem same_iff {left right : LiveValue} :
    left.same right = true ↔ left.identity = right.identity := by
  rw [same, decide_eq_true_iff]

/-- Live values are one key if they are objects of one number, whatever is known of their type, or
else the same value of one kind, numbers of either floating-point kind bit for bit. -/
theorem same_iff_eq_or_objects {left right : LiveValue} :
    left.same right = true ↔ left = right ∨ ∃ leftRef rightRef, left = .object leftRef ∧
      right = .object rightRef ∧ leftRef.id = rightRef.id := by
  rw [same_iff]
  cases left with
  | object leftRef =>
    cases right with
    | object rightRef =>
      simp only [identity, object.injEq, ObjectRef.mk.injEq, and_true, exists_and_left,
        exists_eq_left']
      exact ⟨.inr, fun same => same.elim (congrArg ObjectRef.id) id⟩
    | _ => simp [identity]
  | _ => cases right <;> simp [identity]

theorem same_comm (left right : LiveValue) : left.same right = right.same left :=
  Bool.eq_iff_iff.mpr (by rw [same_iff, same_iff, eq_comm])

/-- Values that are the same are so to the same values. -/
theorem same_right {key value : LiveValue} (same : key.same value = true) (other : LiveValue) :
    other.same key = other.same value :=
  Bool.eq_iff_iff.mpr (by rw [same_iff, same_iff, same_iff.mp same])

end LiveValue

namespace Aliases

/-- A variable holds a value that is the same as a key. The result of a method that returns nothing
is no value. -/
def Belongs (held : Var → Option LiveValue) (key : LiveValue) (var : Var) : Prop :=
  ∃ value, held var = some value ∧ value ≠ .void ∧ key.same value = true

/-- First members of the groups. -/
def firsts (aliases : Aliases) : List Var := aliases.groups.filterMap (·.2.head?)

/-- The variables that hold a value are grouped by it. No group is empty, and variables are in order
of creation inside the groups and across them. -/
structure Partitions (aliases : Aliases) (vars : List Var) (held : Var → Option LiveValue) :
    Prop where
  nonempty : ∀ group ∈ aliases.groups, group.2 ≠ []
  mem_iff : ∀ group ∈ aliases.groups, ∀ var, var ∈ group.2 ↔ var ∈ vars ∧ Belongs held group.1 var
  covers : ∀ var ∈ vars, ∀ value, held var = some value → value ≠ .void →
    ∃ key ∈ aliases.values, key.same value = true
  apart : aliases.values.Pairwise fun earlier later => earlier.same later = false
  ascending : ∀ group ∈ aliases.groups, group.2.Pairwise (·.index < ·.index)
  ordered : aliases.firsts.Pairwise (·.index < ·.index)

/-- Variables go into the first group of the same value, or into a new one at the end. -/
theorem join_cases (value : LiveValue) (vars : List Var) (groups : List (LiveValue × List Var)) :
    (∃ before group after, groups = before ++ group :: after ∧ group.1.same value = true ∧
      join value vars groups = before ++ (group.1, group.2 ++ vars) :: after) ∨
    ((∀ group ∈ groups, group.1.same value = false) ∧
      join value vars groups = groups ++ [(value, vars)]) := by
  induction groups with
  | nil => exact .inr ⟨nofun, rfl⟩
  | cons head rest ih =>
    by_cases same : head.1.same value = true
    · exact .inl ⟨[], head, rest, rfl, same, by simp [join, same]⟩
    · have differs := Bool.eq_false_iff.mpr same
      rcases ih with ⟨before, group, after, rfl, found, joined⟩ | ⟨none, joined⟩
      · exact .inl ⟨head :: before, group, after, rfl, found, by simp [join, differs, joined]⟩
      · exact .inr ⟨List.forall_mem_cons.mpr ⟨differs, none⟩, by simp [join, differs, joined]⟩

variable {aliases : Aliases} {vars : List Var} {held : Var → Option LiveValue} {var : Var}
  {value : LiveValue}

private theorem belongs_iff (holds : held var = some value) (isValue : value ≠ .void)
    (key : LiveValue) : Belongs held key var ↔ key.same value = true := by
  constructor
  · rintro ⟨other, again, _, same⟩
    exact Option.some.inj (holds.symm.trans again) ▸ same
  · exact fun same => ⟨value, holds, isValue, same⟩

/-- A group that a variable does not belong to is not changed by it. -/
theorem Partitions.mem_iff_snoc (partitions : aliases.Partitions vars held)
    {group : LiveValue × List Var} (member : group ∈ aliases.groups)
    (foreign : ¬ Belongs held group.1 var) (other : Var) :
    other ∈ group.2 ↔ other ∈ vars ++ [var] ∧ Belongs held group.1 other := by
  rw [partitions.mem_iff group member other, List.mem_append, List.mem_singleton]
  refine ⟨fun ⟨listed, belongs⟩ => ⟨.inl listed, belongs⟩, fun ⟨listed, belongs⟩ => ⟨?_, belongs⟩⟩
  rcases listed with listed | rfl
  · exact listed
  · exact absurd belongs foreign

/-- A variable without a value changes nothing. -/
theorem Partitions.skip (partitions : aliases.Partitions vars held)
    (nothing : ∀ value, held var = some value → value = .void) :
    aliases.Partitions (vars ++ [var]) held where
  nonempty := partitions.nonempty
  mem_iff group member := by
    refine partitions.mem_iff_snoc member ?_
    rintro ⟨value, holds, isValue, _⟩
    exact isValue (nothing value holds)
  covers other listed value holds isValue := by
    rcases List.mem_append.mp listed with listed | last
    · exact partitions.covers other listed value holds isValue
    · exact absurd (nothing value (List.mem_singleton.mp last ▸ holds)) isValue
  apart := partitions.apart
  ascending := partitions.ascending
  ordered := partitions.ordered

/-- A variable is covered with the others once there is a key of its value. -/
theorem Partitions.covers_snoc (partitions : aliases.Partitions vars held)
    (holds : held var = some value) {keys : List LiveValue} (kept : aliases.values ⊆ keys)
    (own : ∃ key ∈ keys, key.same value = true) :
    ∀ other ∈ vars ++ [var], ∀ found, held other = some found → found ≠ .void →
      ∃ key ∈ keys, key.same found = true := by
  intro other listed found known isFound
  rcases List.mem_append.mp listed with listed | last
  · obtain ⟨key, keyed, same⟩ := partitions.covers other listed found known isFound
    exact ⟨key, kept keyed, same⟩
  · cases List.mem_singleton.mp last
    cases holds.symm.trans known
    exact own

/-- The keys are apart, so beside the group of a value there is no other one. -/
theorem Partitions.differs_beside (partitions : aliases.Partitions vars held)
    {before after : List (LiveValue × List Var)} {group : LiveValue × List Var}
    (groups : aliases.groups = before ++ group :: after) (same : group.1.same value = true) :
    ∀ other ∈ before ++ after, other.1.same value = false := by
  have apart := List.pairwise_map.mp partitions.apart
  rw [groups] at apart
  obtain ⟨_, rest, across⟩ := List.pairwise_append.mp apart
  obtain ⟨above, _⟩ := List.pairwise_cons.mp rest
  intro other listed
  rw [← LiveValue.same_right same]
  rcases List.mem_append.mp listed with earlier | later
  · exact across other earlier group List.mem_cons_self
  · exact (LiveValue.same_comm _ _).trans (above other later)

/-- A variable joins the group of its value. -/
theorem Partitions.add_known (partitions : aliases.Partitions vars held)
    (holds : held var = some value) (isValue : value ≠ .void)
    (latest : ∀ earlier ∈ vars, earlier.index < var.index)
    {before after : List (LiveValue × List Var)} {group : LiveValue × List Var}
    (groups : aliases.groups = before ++ group :: after) (same : group.1.same value = true) :
    Partitions ⟨before ++ (group.1, group.2 ++ [var]) :: after⟩ (vars ++ [var]) held := by
  have member : group ∈ aliases.groups := by simp [groups]
  have keys : Aliases.values ⟨before ++ (group.1, group.2 ++ [var]) :: after⟩ = aliases.values := by
    simp [Aliases.values, groups]
  have heads : firsts ⟨before ++ (group.1, group.2 ++ [var]) :: after⟩ = aliases.firsts := by
    have first : (group.2 ++ [var]).head? = group.2.head? :=
      List.head?_append_of_ne_nil _ (partitions.nonempty group member)
    simp [firsts, groups, List.filterMap_cons, first]
  have split : ∀ other ∈ before ++ (group.1, group.2 ++ [var]) :: after,
      other = (group.1, group.2 ++ [var]) ∨
        other ∈ aliases.groups ∧ other.1.same value = false := by
    intro other listed
    have differs := partitions.differs_beside groups same other
    rw [groups]
    simp only [List.mem_append, List.mem_cons] at listed differs ⊢
    tauto
  refine ⟨?_, ?_, ?_, keys ▸ partitions.apart, ?_, heads ▸ partitions.ordered⟩
  · intro other listed
    rcases split other listed with rfl | ⟨old, _⟩
    · simp
    · exact partitions.nonempty other old
  · intro other listed
    rcases split other listed with rfl | ⟨old, differs⟩
    · have belongs := (belongs_iff holds isValue group.1).mpr same
      intro one
      simp only [List.mem_append, List.mem_singleton, partitions.mem_iff group member one]
      constructor
      · rintro (⟨listed, already⟩ | rfl)
        · exact ⟨.inl listed, already⟩
        · exact ⟨.inr rfl, belongs⟩
      · rintro ⟨listed | rfl, already⟩
        · exact .inl ⟨listed, already⟩
        · exact .inr rfl
    · exact partitions.mem_iff_snoc old (mt (belongs_iff holds isValue _).mp (by simp [differs]))
  · rw [keys]
    exact partitions.covers_snoc holds (List.Subset.refl _)
      ⟨group.1, List.mem_map_of_mem member, same⟩
  · intro other listed
    rcases split other listed with rfl | ⟨old, _⟩
    · refine List.pairwise_append.mpr ⟨partitions.ascending group member, by simp, ?_⟩
      intro earlier listed last same
      cases List.mem_singleton.mp same
      exact latest earlier ((partitions.mem_iff group member earlier).mp listed).1
    · exact partitions.ascending other old

private theorem Partitions.mem_vars_of_mem_firsts (partitions : aliases.Partitions vars held)
    (first : var ∈ aliases.firsts) : var ∈ vars := by
  obtain ⟨group, member, head⟩ := List.mem_filterMap.mp first
  exact ((partitions.mem_iff group member var).mp (List.mem_of_head? head)).1

/-- A variable opens a group for its value. -/
theorem Partitions.add_new (partitions : aliases.Partitions vars held)
    (holds : held var = some value) (isValue : value ≠ .void)
    (latest : ∀ earlier ∈ vars, earlier.index < var.index)
    (none : ∀ group ∈ aliases.groups, group.1.same value = false) :
    Partitions ⟨aliases.groups ++ [(value, [var])]⟩ (vars ++ [var]) held := by
  have keys : Aliases.values ⟨aliases.groups ++ [(value, [var])]⟩ = aliases.values ++ [value] := by
    simp [Aliases.values]
  have heads : firsts ⟨aliases.groups ++ [(value, [var])]⟩ = aliases.firsts ++ [var] := by
    simp [firsts]
  have split : ∀ other ∈ aliases.groups ++ [(value, [var])],
      other = (value, [var]) ∨ other ∈ aliases.groups := by
    intro other listed
    exact (List.mem_append.mp listed).symm.imp List.mem_singleton.mp id
  refine ⟨?_, ?_, ?_, ?_, ?_, ?_⟩
  · intro other listed
    rcases split other listed with rfl | old
    · simp
    · exact partitions.nonempty other old
  · intro other listed
    rcases split other listed with rfl | old
    · intro one
      rw [List.mem_singleton, List.mem_append, List.mem_singleton]
      constructor
      · rintro rfl
        exact ⟨.inr rfl, (belongs_iff holds isValue value).mpr (LiveValue.same_iff.mpr rfl)⟩
      · rintro ⟨listed | rfl, found, known, isFound, same⟩
        · -- An older variable with this value would have opened the group.
          obtain ⟨key, keyed, again⟩ := partitions.covers one listed found known isFound
          obtain ⟨group, member, rfl⟩ := List.mem_map.mp keyed
          have old : value.same found = true := same
          rw [← LiveValue.same_right old, none group member] at again
          cases again
        · rfl
    · refine partitions.mem_iff_snoc old (mt (belongs_iff holds isValue _).mp ?_)
      simp [none other old]
  · rw [keys]
    exact partitions.covers_snoc holds (List.subset_append_left _ _)
      ⟨value, by simp, LiveValue.same_iff.mpr rfl⟩
  · rw [keys]
    refine List.pairwise_append.mpr ⟨partitions.apart, by simp, fun key keyed last same => ?_⟩
    obtain ⟨group, member, rfl⟩ := List.mem_map.mp keyed
    cases List.mem_singleton.mp same
    exact none group member
  · intro other listed
    rcases split other listed with rfl | old
    · exact List.pairwise_singleton _ _
    · exact partitions.ascending other old
  · rw [heads]
    refine List.pairwise_append.mpr ⟨partitions.ordered, by simp, fun first head last same => ?_⟩
    cases List.mem_singleton.mp same
    exact latest first (partitions.mem_vars_of_mem_firsts head)

private theorem Partitions.add (partitions : aliases.Partitions vars held)
    (holds : held var = some value) (isValue : value ≠ .void)
    (latest : ∀ earlier ∈ vars, earlier.index < var.index) :
    (aliases.add value var).Partitions (vars ++ [var]) held := by
  rcases join_cases value [var] aliases.groups with
    ⟨before, group, after, groups, same, joined⟩ | ⟨none, joined⟩
  · rw [Aliases.add, joined]
    exact partitions.add_known holds isValue latest groups same
  · rw [Aliases.add, joined]
    exact partitions.add_new holds isValue latest none

/-- No variable is listed twice. -/
theorem Partitions.nodup (partitions : aliases.Partitions vars held) :
    (aliases.groups.flatMap (·.2)).Nodup := by
  refine List.nodup_flatMap.mpr ⟨fun group member => ?_, ?_⟩
  · refine (partitions.ascending group member).imp fun before same => ?_
    exact before.ne (congrArg Var.index same)
  · refine (List.pairwise_map.mp partitions.apart).imp_of_mem ?_
    intro left right first second apart var inLeft inRight
    obtain ⟨_, value, holds, _, sameLeft⟩ := (partitions.mem_iff left first var).mp inLeft
    obtain ⟨_, other, again, _, sameRight⟩ := (partitions.mem_iff right second var).mp inRight
    cases holds.symm.trans again
    rw [LiveValue.same_comm, LiveValue.same_right sameLeft, sameRight] at apart
    cases apart

/-- Record what a variable holds. -/
def record (aliases : Aliases) (var : Var) : Option LiveValue → Aliases
  | none => aliases
  | some .void => aliases
  | some value => aliases.add value var

private theorem Partitions.record (partitions : aliases.Partitions vars held)
    (latest : ∀ earlier ∈ vars, earlier.index < var.index) :
    (aliases.record var (held var)).Partitions (vars ++ [var]) held := by
  unfold Aliases.record
  split
  · rename_i nothing
    exact partitions.skip fun value holds => by simp [nothing] at holds
  · rename_i isVoid
    exact partitions.skip fun value holds => Option.some.inj (holds.symm.trans isVoid)
  · rename_i value isValue holds
    exact partitions.add holds isValue latest

variable {heap : Heap} {frame : FrameRef} {registry : Variables}

/-- A frame that holds one cell in two locals, and its size in a third one. -/
def cellHeap : Heap where
  lastId := 3
  types := [⟨⟨1, "LCell;", none, none, false⟩, [(2, "size")]⟩]
  instances := [⟨3, 1, [(2, .int 7)], none, none⟩]
  frames := [(⟨0, 0⟩, ⟨⟨"LMain;", "run", 1, 0⟩, none, none,
    [("a", .object ⟨3, "Cell"⟩), ("b", .object ⟨3, ""⟩), ("n", .int 7)]⟩)]
  assertions := []

end Aliases

end PauseFlow
