import PauseFlow.Proofs.Hierarchy.Legal

namespace PauseFlow.ClassTable

/-- The classes of a table stay in place and new ones follow. -/
def ExtendedBy (table wider : ClassTable) : Prop := table.classes <+: wider.classes

/-- Types made of classes that the table has. -/
def Knows (table : ClassTable) : JvmType → Prop
  | .primitive _ => True
  | .ofClass id => ∃ info, table.get? id = some info
  | .arrayOf element => table.Knows element

namespace ExtendedBy

variable {table wider : ClassTable}

theorem refl (table : ClassTable) : table.ExtendedBy table := List.prefix_refl _

theorem get? (extended : table.ExtendedBy wider) {id : ClassId} {info : ClassInfo}
    (found : table.get? id = some info) : wider.get? id = some info := by
  obtain ⟨rest, same⟩ := extended
  have inside := (List.getElem?_eq_some_iff.mp found).1
  rw [ClassTable.get?, ← same, List.getElem?_append_left inside]
  exact found

private theorem extends_iff (extended : table.ExtendedBy wider) {lower upper : ClassId}
    {info : ClassInfo} (found : table.get? lower = some info) :
    wider.Extends lower upper ↔ table.Extends lower upper := by
  simp only [Extends, supertypes, found, extended.get? found]

private theorem isObject_eq (extended : table.ExtendedBy wider) {id : ClassId} {info : ClassInfo}
    (found : table.get? id = some info) : wider.isObject id = table.isObject id := by
  simp only [isObject, nameOf, found, extended.get? found]

/-- Links from a class of the table lead to the same classes as before. -/
theorem below_iff (extended : table.ExtendedBy wider) (legal : table.Legal) {lower upper : ClassId}
    {info : ClassInfo} (found : table.get? lower = some info) :
    wider.Below lower upper ↔ table.Below lower upper := by
  constructor
  · intro path
    induction path using Relation.ReflTransGen.head_induction_on generalizing info with
    | refl => exact Below.refl table upper
    | head link _ ih =>
      have old := (extended.extends_iff found).mp link
      obtain ⟨nextInfo, present⟩ := legal.exists_of_extends old
      exact .head old (ih present)
  · intro path
    induction path using Relation.ReflTransGen.head_induction_on generalizing info with
    | refl => exact Below.refl wider upper
    | head link _ ih =>
      obtain ⟨nextInfo, present⟩ := legal.exists_of_extends link
      exact .head ((extended.extends_iff found).mpr link) (ih present)

theorem isSubclass_eq (extended : table.ExtendedBy wider) (legal : table.Legal)
    {lower upper : ClassId} {info : ClassInfo} (found : table.get? lower = some info) :
    wider.isSubclass lower upper = table.isSubclass lower upper := by
  apply Bool.eq_iff_iff.mpr
  rw [isSubclass_iff_below, isSubclass_iff_below]
  exact extended.below_iff legal found

private theorem isAssignable_eq (extended : table.ExtendedBy wider) (legal : table.Legal)
    {lower upper : JvmType} (lowerKnown : table.Knows lower) (upperKnown : table.Knows upper) :
    wider.isAssignable lower upper = table.isAssignable lower upper := by
  induction lower generalizing upper with
  | primitive kind => cases upper <;> simp only [isAssignable]
  | ofClass lowerId =>
    obtain ⟨info, found⟩ := lowerKnown
    cases upper with
    | primitive kind => simp only [isAssignable]
    | ofClass upperId => exact extended.isSubclass_eq legal found
    | arrayOf element => simp only [isAssignable]
  | arrayOf lowerElement ih =>
    cases upper with
    | primitive kind => simp only [isAssignable]
    | ofClass upperId =>
      obtain ⟨info, found⟩ := upperKnown
      exact extended.isObject_eq found
    | arrayOf upperElement =>
      have elements : wider.isAssignable lowerElement upperElement =
          table.isAssignable lowerElement upperElement := ih lowerKnown upperKnown
      simp only [isAssignable, elements]

/-- More classes do not change whether two types of the table may share a subtype. -/
theorem mayShareSubtype_eq (extended : table.ExtendedBy wider) (legal : table.Legal)
    {left right : JvmType} (leftKnown : table.Knows left) (rightKnown : table.Knows right) :
    wider.mayShareSubtype left right = table.mayShareSubtype left right := by
  have forth := extended.isAssignable_eq legal leftKnown rightKnown
  have back := extended.isAssignable_eq legal rightKnown leftKnown
  induction left generalizing right with
  | primitive kind => simp only [mayShareSubtype, forth, back]
  | ofClass leftId =>
    cases right with
    | primitive kind => simp only [mayShareSubtype, forth, back]
    | ofClass rightId =>
      obtain ⟨leftInfo, leftFound⟩ := leftKnown
      obtain ⟨rightInfo, rightFound⟩ := rightKnown
      simp only [mayShareSubtype, forth, back, leftFound, rightFound, extended.get? leftFound,
        extended.get? rightFound]
    | arrayOf element => simp only [mayShareSubtype, forth, back]
  | arrayOf leftElement ih =>
    cases right with
    | primitive kind => simp only [mayShareSubtype, forth, back]
    | ofClass rightId => simp only [mayShareSubtype, forth, back]
    | arrayOf rightElement =>
      have elements : wider.mayShareSubtype leftElement rightElement =
          table.mayShareSubtype leftElement rightElement :=
        ih leftKnown rightKnown (extended.isAssignable_eq legal leftKnown rightKnown)
          (extended.isAssignable_eq legal rightKnown leftKnown)
      simp only [mayShareSubtype, forth, back, elements]

end ExtendedBy

/-- The table with one more class at its end. -/
def grow (table : ClassTable) (info : ClassInfo) : ClassTable := ⟨table.classes ++ [info]⟩

/-- A class that a legal table can take in. -/
structure Joins (table : ClassTable) (info : ClassInfo) : Prop where
  named : ∀ {id : ClassId} {known : ClassInfo}, table.get? id = some known → known.name ≠ info.name
  superclass : ∀ {upper : ClassId}, info.superclass = some upper → ∃ upperInfo,
    table.get? upper = some upperInfo ∧ upperInfo.isInterface = false ∧ upperInfo.isFinal = false
  interfaces : ∀ {upper : ClassId}, upper ∈ info.interfaces → ∃ upperInfo,
    table.get? upper = some upperInfo ∧ upperInfo.isInterface = true
  ofInterface : info.isInterface = true → info.superclass = none ∧ info.isFinal = false
  ofObject : info.name = objectName → info.supertypes = []

section Grow

variable {table : ClassTable} {info : ClassInfo}

theorem extendedBy_grow (table : ClassTable) (info : ClassInfo) :
    table.ExtendedBy (table.grow info) := List.prefix_append _ _

theorem get?_grow_size (table : ClassTable) (info : ClassInfo) :
    (table.grow info).get? ⟨table.size⟩ = some info := List.getElem?_concat_length

/-- The classes of the grown table are the old ones and the new one. -/
theorem get?_grow_cases {id : ClassId} {found : ClassInfo}
    (present : (table.grow info).get? id = some found) :
    table.get? id = some found ∨ id = ⟨table.size⟩ ∧ found = info := by
  have inside := (List.getElem?_eq_some_iff.mp present).1
  rw [grow, List.length_append, List.length_singleton] at inside
  by_cases old : id.index < table.size
  · refine .inl ?_
    rwa [get?, grow, List.getElem?_append_left old] at present
  · have last : id = ⟨table.size⟩ := by
      cases id
      simp only [size, ClassId.mk.injEq] at old inside ⊢
      omega
    subst last
    exact .inr ⟨rfl, Option.some.inj (present.symm.trans (get?_grow_size table info))⟩

/-- No class of a legal table has a link to a class that was added later. -/
theorem Legal.not_below_size (legal : table.Legal) {lower : ClassId} {lowerInfo : ClassInfo}
    (found : table.get? lower = some lowerInfo) : ¬ table.Below lower ⟨table.size⟩ := by
  have missing : table.get? ⟨table.size⟩ = none := List.getElem?_eq_none (Nat.le_refl _)
  intro path
  rcases Relation.ReflTransGen.cases_tail path with same | ⟨_, _, link⟩
  · simp [← same, missing] at found
  · obtain ⟨upperInfo, present⟩ := legal.exists_of_extends link
    simp [missing] at present

/-- A legal table stays legal with one more class. -/
theorem Legal.grow (legal : table.Legal) (joins : table.Joins info) : (table.grow info).Legal where
  namedOnce leftFound rightFound same := by
    rcases get?_grow_cases leftFound with leftOld | ⟨rfl, rfl⟩
    · rcases get?_grow_cases rightFound with rightOld | ⟨rfl, rfl⟩
      · exact legal.namedOnce leftOld rightOld same
      · exact absurd same (joins.named leftOld)
    · rcases get?_grow_cases rightFound with rightOld | ⟨rfl, rfl⟩
      · exact absurd same.symm (joins.named rightOld)
      · rfl
  superclass found above := by
    have extended := extendedBy_grow table info
    rcases get?_grow_cases found with old | ⟨rfl, rfl⟩
    · obtain ⟨upperInfo, present, extendable⟩ := legal.superclass old above
      exact ⟨upperInfo, extended.get? present, extendable⟩
    · obtain ⟨upperInfo, present, extendable⟩ := joins.superclass above
      exact ⟨upperInfo, extended.get? present, extendable⟩
  interfaces found listed := by
    have extended := extendedBy_grow table info
    rcases get?_grow_cases found with old | ⟨rfl, rfl⟩
    · obtain ⟨upperInfo, present, interface⟩ := legal.interfaces old listed
      exact ⟨upperInfo, extended.get? present, interface⟩
    · obtain ⟨upperInfo, present, interface⟩ := joins.interfaces listed
      exact ⟨upperInfo, extended.get? present, interface⟩
  ofInterface found interface := by
    rcases get?_grow_cases found with old | ⟨rfl, rfl⟩
    · exact legal.ofInterface old interface
    · exact joins.ofInterface interface
  ofObject found root := by
    rcases get?_grow_cases found with old | ⟨rfl, rfl⟩
    · exact legal.ofObject old root
    · exact joins.ofObject root
  acyclic {lower upper} link path := by
    have extended := extendedBy_grow table info
    obtain ⟨lowerInfo, found, linked⟩ := extends_cases link
    rcases get?_grow_cases found with old | ⟨rfl, rfl⟩
    · have oldLink := (extended.extends_iff old).mp link
      obtain ⟨upperInfo, present⟩ := legal.exists_of_extends oldLink
      exact legal.acyclic oldLink ((extended.below_iff legal present).mp path)
    · -- Everything above the new class is old, and nothing old leads to the new class.
      have old : ∃ upperInfo, table.get? upper = some upperInfo := by
        rcases linked with above | listed
        · obtain ⟨upperInfo, present, _⟩ := joins.superclass above
          exact ⟨upperInfo, present⟩
        · obtain ⟨upperInfo, present, _⟩ := joins.interfaces listed
          exact ⟨upperInfo, present⟩
      obtain ⟨upperInfo, present⟩ := old
      exact legal.not_below_size present ((extended.below_iff legal present).mp path)

end Grow

/-- Some name is not taken. -/
theorem exists_freshName (table : ClassTable) : ∃ name, name ≠ objectName ∧
    ∀ {id : ClassId} {known : ClassInfo}, table.get? id = some known → known.name ≠ name := by
  obtain ⟨name, fresh⟩ := Infinite.exists_notMem_finset
    (objectName :: table.classes.map (·.name)).toFinset
  simp only [List.mem_toFinset, List.mem_cons, not_or] at fresh
  refine ⟨name, fresh.1, fun {id known} found same => fresh.2 ?_⟩
  exact List.mem_map.mpr ⟨known, List.mem_of_getElem? found, same⟩

end PauseFlow.ClassTable
