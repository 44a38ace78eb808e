import PauseFlow.Proofs.Hierarchy.Search

namespace PauseFlow.ClassTable

/-- What a table of classes of one program satisfies. -/
structure Legal (table : ClassTable) : Prop where
  /-- No two classes share a name. -/
  namedOnce : ∀ {left right : ClassId} {leftInfo rightInfo : ClassInfo},
    table.get? left = some leftInfo → table.get? right = some rightInfo →
    leftInfo.name = rightInfo.name → left = right
  /-- A superclass is a class that may be extended. -/
  superclass : ∀ {id upper : ClassId} {info : ClassInfo}, table.get? id = some info →
    info.superclass = some upper → ∃ upperInfo, table.get? upper = some upperInfo ∧
      upperInfo.isInterface = false ∧ upperInfo.isFinal = false
  /-- Interface lists hold interfaces. -/
  interfaces : ∀ {id upper : ClassId} {info : ClassInfo}, table.get? id = some info →
    upper ∈ info.interfaces → ∃ upperInfo, table.get? upper = some upperInfo ∧
      upperInfo.isInterface = true
  /-- Interfaces extend no class and are not final. -/
  ofInterface : ∀ {id : ClassId} {info : ClassInfo}, table.get? id = some info →
    info.isInterface = true → info.superclass = none ∧ info.isFinal = false
  /-- The root class has no supertypes. -/
  ofObject : ∀ {id : ClassId} {info : ClassInfo}, table.get? id = some info →
    info.name = objectName → info.supertypes = []
  acyclic : ∀ {lower upper : ClassId}, table.Extends lower upper → ¬ table.Below upper lower

/-- Types that objects are created with: classes other than interfaces, and arrays. -/
def IsRuntimeType (table : ClassTable) : JvmType → Prop
  | .primitive _ => False
  | .ofClass id => ∃ info, table.get? id = some info ∧ info.isInterface = false
  | .arrayOf _ => True

theorem Below.refl (table : ClassTable) (id : ClassId) : table.Below id id :=
  Relation.ReflTransGen.refl

/-- One step up to a superclass. -/
def SuperclassOf (table : ClassTable) (lower upper : ClassId) : Prop :=
  ∃ info, table.get? lower = some info ∧ info.superclass = some upper

private theorem superclassOf_rightUnique (table : ClassTable) :
    Relator.RightUnique table.SuperclassOf := by
  rintro lower left right ⟨info, found, leftLink⟩ ⟨other, again, rightLink⟩
  have same := Option.some.inj (found.symm.trans again)
  subst same
  exact Option.some.inj (leftLink.symm.trans rightLink)

theorem extends_cases {table : ClassTable} {lower upper : ClassId}
    (link : table.Extends lower upper) :
    ∃ info, table.get? lower = some info ∧
      (info.superclass = some upper ∨ upper ∈ info.interfaces) := by
  cases found : table.get? lower with
  | none => simp [Extends, supertypes, found] at link
  | some info =>
    have member : upper ∈ info.superclass.toList ++ info.interfaces := by
      simpa [Extends, supertypes, found, ClassInfo.supertypes] using link
    rcases List.mem_append.mp member with above | listed
    · exact ⟨info, rfl, .inl (Option.mem_toList.mp above)⟩
    · exact ⟨info, rfl, .inr listed⟩

theorem extends_of_superclass {table : ClassTable} {id upper : ClassId} {info : ClassInfo}
    (found : table.get? id = some info) (above : info.superclass = some upper) :
    table.Extends id upper := by
  simp [Extends, supertypes, found, ClassInfo.supertypes, above]

namespace Legal

variable {table : ClassTable}

/-- Links lead to classes of the table. -/
theorem exists_of_extends (legal : table.Legal) {lower upper : ClassId}
    (link : table.Extends lower upper) : ∃ info, table.get? upper = some info := by
  obtain ⟨info, found, above | listed⟩ := extends_cases link
  · obtain ⟨upperInfo, present, _⟩ := legal.superclass found above
    exact ⟨upperInfo, present⟩
  · obtain ⟨upperInfo, present, _⟩ := legal.interfaces found listed
    exact ⟨upperInfo, present⟩

/-- Only interfaces lie above an interface. -/
theorem isInterface_of_below (legal : table.Legal) {lower upper : ClassId}
    {info upperInfo : ClassInfo} (found : table.get? lower = some info)
    (interface : info.isInterface = true) (path : table.Below lower upper)
    (upperFound : table.get? upper = some upperInfo) : upperInfo.isInterface = true := by
  induction path generalizing upperInfo with
  | refl => exact Option.some.inj (found.symm.trans upperFound) ▸ interface
  | tail _ link ih =>
    obtain ⟨middle, middleFound, above | listed⟩ := extends_cases link
    · have none := (legal.ofInterface middleFound (ih middleFound)).1
      simp [none] at above
    · obtain ⟨listedInfo, present, listedInterface⟩ := legal.interfaces middleFound listed
      exact Option.some.inj (present.symm.trans upperFound) ▸ listedInterface

/-- A class that is no interface is reached over superclasses alone. -/
theorem superclasses_of_below (legal : table.Legal) {lower upper : ClassId}
    {upperInfo : ClassInfo} (path : table.Below lower upper)
    (upperFound : table.get? upper = some upperInfo) (plain : upperInfo.isInterface = false) :
    Relation.ReflTransGen table.SuperclassOf lower upper := by
  induction path using Relation.ReflTransGen.head_induction_on with
  | refl => exact .refl
  | head link rest ih =>
    obtain ⟨info, found, above | listed⟩ := extends_cases link
    · exact .head ⟨info, found, above⟩ ih
    · obtain ⟨listedInfo, present, interface⟩ := legal.interfaces found listed
      have contradiction := legal.isInterface_of_below present interface rest upperFound
      simp [plain] at contradiction

private theorem below_of_superclasses {lower upper : ClassId}
    (path : Relation.ReflTransGen table.SuperclassOf lower upper) : table.Below lower upper := by
  refine Relation.ReflTransGen.mono (fun lower upper step => ?_) _ _ path
  obtain ⟨info, found, link⟩ := step
  exact extends_of_superclass found link

/-- Two classes above one class lie on one superclass chain. -/
theorem below_or_below (legal : table.Legal) {lower left right : ClassId}
    {leftInfo rightInfo : ClassInfo} (leftPath : table.Below lower left)
    (rightPath : table.Below lower right) (leftFound : table.get? left = some leftInfo)
    (rightFound : table.get? right = some rightInfo) (leftPlain : leftInfo.isInterface = false)
    (rightPlain : rightInfo.isInterface = false) :
    table.Below left right ∨ table.Below right left := by
  have leftChain := legal.superclasses_of_below leftPath leftFound leftPlain
  have rightChain := legal.superclasses_of_below rightPath rightFound rightPlain
  exact (Relation.ReflTransGen.total_of_right_unique table.superclassOf_rightUnique
    leftChain rightChain).imp below_of_superclasses below_of_superclasses

/-- Nothing but a final class itself lies below it. -/
theorem eq_of_below_final (legal : table.Legal) {lower upper : ClassId} {info : ClassInfo}
    (path : table.Below lower upper) (found : table.get? upper = some info)
    (final : info.isFinal = true) : upper = lower := by
  rcases Relation.ReflTransGen.cases_tail path with same | ⟨middle, _, link⟩
  · exact same
  · obtain ⟨middleInfo, middleFound, above | listed⟩ := extends_cases link
    · obtain ⟨other, present, _, extendable⟩ := legal.superclass middleFound above
      have same := Option.some.inj (present.symm.trans found)
      simp [same, final] at extendable
    · obtain ⟨other, present, interface⟩ := legal.interfaces middleFound listed
      have same := Option.some.inj (present.symm.trans found)
      have extendable := (legal.ofInterface present interface).2
      simp [same, final] at extendable

/-- Two classes above one class are related, or an interface makes room for both. -/
theorem mayShareSubtype_of_classes (legal : table.Legal) {lower left right : ClassId}
    (leftPath : table.Below lower left) (rightPath : table.Below lower right) :
    table.mayShareSubtype (.ofClass left) (.ofClass right) = true := by
  have related : table.Below left right ∨ table.Below right left →
      table.mayShareSubtype (.ofClass left) (.ofClass right) = true := by
    intro either
    rcases either with path | path
    · simp [mayShareSubtype, isAssignable, (table.isSubclass_iff_below left right).mpr path]
    · simp [mayShareSubtype, isAssignable, (table.isSubclass_iff_below right left).mpr path]
  rcases Relation.ReflTransGen.cases_tail leftPath with same | ⟨_, _, leftLink⟩
  · exact related (.inl (same ▸ rightPath))
  rcases Relation.ReflTransGen.cases_tail rightPath with same | ⟨_, _, rightLink⟩
  · exact related (.inr (same ▸ leftPath))
  obtain ⟨leftInfo, leftFound⟩ := legal.exists_of_extends leftLink
  obtain ⟨rightInfo, rightFound⟩ := legal.exists_of_extends rightLink
  cases leftKind : leftInfo.isInterface with
  | false =>
    cases rightKind : rightInfo.isInterface with
    | false =>
      exact related (legal.below_or_below leftPath rightPath leftFound rightFound leftKind rightKind)
    | true =>
      cases final : leftInfo.isFinal with
      | true =>
        have same := legal.eq_of_below_final leftPath leftFound final
        exact related (.inl (same ▸ rightPath))
      | false =>
        simp [mayShareSubtype, mayShareSubclass, leftFound, rightFound, leftKind, rightKind, final]
  | true =>
    cases rightKind : rightInfo.isInterface with
    | true => simp [mayShareSubtype, mayShareSubclass, leftFound, rightFound, leftKind, rightKind]
    | false =>
      cases final : rightInfo.isFinal with
      | true =>
        have same := legal.eq_of_below_final rightPath rightFound final
        exact related (.inr (same ▸ leftPath))
      | false =>
        simp [mayShareSubtype, mayShareSubclass, leftFound, rightFound, leftKind, rightKind, final]

private theorem eq_of_isObject (legal : table.Legal) {left right : ClassId}
    (leftRoot : table.isObject left = true) (rightRoot : table.isObject right = true) :
    left = right := by
  have present : ∀ {id : ClassId}, table.isObject id = true →
      ∃ info, table.get? id = some info ∧ info.name = objectName := by
    intro id root
    cases found : table.get? id with
    | none => simp [isObject, nameOf, found, objectName] at root
    | some info => exact ⟨info, rfl, by simpa [isObject, nameOf, found] using root⟩
  obtain ⟨leftInfo, leftFound, leftName⟩ := present leftRoot
  obtain ⟨rightInfo, rightFound, rightName⟩ := present rightRoot
  exact legal.namedOnce leftFound rightFound (leftName.trans rightName.symm)

end Legal

theorem isAssignable_refl (table : ClassTable) (type : JvmType) :
    table.isAssignable type type = true := by
  induction type with
  | primitive kind => simp [isAssignable]
  | ofClass id => exact (table.isSubclass_iff_below id id).mpr (Below.refl table id)
  | arrayOf element ih => simp [isAssignable, ih]

/-- Elements of assignable array types are the same primitive or assignable references. -/
theorem isAssignable_arrayOf_iff {table : ClassTable} {lower upper : JvmType} :
    table.isAssignable (.arrayOf lower) (.arrayOf upper) = true ↔
      lower = upper ∨
        lower.isReference = true ∧ upper.isReference = true ∧
          table.isAssignable lower upper = true := by
  simp only [isAssignable]
  cases leftKind : lower.isReference <;> cases rightKind : upper.isReference <;> simp
  · intro same
    subst same
    simp [isAssignable_refl]

/-- Types above one type are never judged disjoint. -/
theorem Legal.mayShareSubtype_of_isAssignable {table : ClassTable} (legal : table.Legal)
    {type left right : JvmType} (leftAbove : table.isAssignable type left = true)
    (rightAbove : table.isAssignable type right = true) :
    table.mayShareSubtype left right = true := by
  induction type generalizing left right with
  | primitive kind =>
    cases left <;> simp [isAssignable] at leftAbove
    cases right <;> simp [isAssignable] at rightAbove
    simp [mayShareSubtype, isAssignable, ← leftAbove, ← rightAbove]
  | ofClass id =>
    cases left <;> simp [isAssignable] at leftAbove
    cases right <;> simp [isAssignable] at rightAbove
    exact legal.mayShareSubtype_of_classes ((table.isSubclass_iff_below _ _).mp leftAbove)
      ((table.isSubclass_iff_below _ _).mp rightAbove)
  | arrayOf element ih =>
    cases left with
    | primitive kind => simp [isAssignable] at leftAbove
    | ofClass leftId =>
      cases right with
      | primitive kind => simp [isAssignable] at rightAbove
      | ofClass rightId =>
        have same := legal.eq_of_isObject leftAbove rightAbove
        simp [mayShareSubtype, same, isAssignable_refl]
      | arrayOf rightElement =>
        have below : table.isAssignable (.arrayOf rightElement) (.ofClass leftId) = true := leftAbove
        simp [mayShareSubtype, below]
    | arrayOf leftElement =>
      cases right with
      | primitive kind => simp [isAssignable] at rightAbove
      | ofClass rightId =>
        have below : table.isAssignable (.arrayOf leftElement) (.ofClass rightId) = true := rightAbove
        simp [mayShareSubtype, below]
      | arrayOf rightElement =>
        rcases isAssignable_arrayOf_iff.mp leftAbove with rfl | ⟨_, leftReference, leftBelow⟩
        · simp [mayShareSubtype, rightAbove]
        · rcases isAssignable_arrayOf_iff.mp rightAbove with rfl | ⟨_, rightReference, rightBelow⟩
          · simp [mayShareSubtype, leftAbove]
          · simp [mayShareSubtype, leftReference, rightReference, ih leftBelow rightBelow]

/-- The root class with strings and one plain class below it. -/
def small : ClassTable :=
  ⟨[.plain objectName,
    { ClassInfo.plain stringName with isFinal := true, superclass := some ⟨0⟩ },
    { ClassInfo.plain "zoo.Node" with superclass := some ⟨0⟩ }]⟩

theorem get?_small {id : ClassId} {info : ClassInfo} (found : small.get? id = some info) :
    (id = ⟨0⟩ ∧ info = .plain objectName) ∨
    (id = ⟨1⟩ ∧ info = { ClassInfo.plain stringName with
      isFinal := true, superclass := some ⟨0⟩ }) ∨
    (id = ⟨2⟩ ∧ info = { ClassInfo.plain "zoo.Node" with superclass := some ⟨0⟩ }) := by
  obtain ⟨index⟩ := id
  match index with
  | 0 => exact .inl ⟨rfl, (Option.some.inj found).symm⟩
  | 1 => exact .inr (.inl ⟨rfl, (Option.some.inj found).symm⟩)
  | 2 => exact .inr (.inr ⟨rfl, (Option.some.inj found).symm⟩)
  | _ + 3 => cases found

private theorem extends_small {lower upper : ClassId} (link : small.Extends lower upper) :
    lower ≠ ⟨0⟩ ∧ upper = ⟨0⟩ := by
  obtain ⟨info, found, above | listed⟩ := extends_cases link
  · rcases get?_small found with ⟨rfl, rfl⟩ | ⟨rfl, rfl⟩ | ⟨rfl, rfl⟩
    · cases above
    · exact ⟨by decide, (Option.some.inj above).symm⟩
    · exact ⟨by decide, (Option.some.inj above).symm⟩
  · rcases get?_small found with ⟨rfl, rfl⟩ | ⟨rfl, rfl⟩ | ⟨rfl, rfl⟩ <;> cases listed

theorem legal_small : small.Legal where
  namedOnce leftFound rightFound same := by
    rcases get?_small leftFound with ⟨rfl, rfl⟩ | ⟨rfl, rfl⟩ | ⟨rfl, rfl⟩ <;>
      rcases get?_small rightFound with ⟨rfl, rfl⟩ | ⟨rfl, rfl⟩ | ⟨rfl, rfl⟩ <;>
      first
        | rfl
        | exact absurd same (by decide)
  superclass {id upper info} found above := by
    rw [(extends_small (extends_of_superclass found above)).2]
    exact ⟨_, rfl, rfl, rfl⟩
  interfaces found listed := by
    rcases get?_small found with ⟨rfl, rfl⟩ | ⟨rfl, rfl⟩ | ⟨rfl, rfl⟩ <;> cases listed
  ofInterface found interface := by
    rcases get?_small found with ⟨rfl, rfl⟩ | ⟨rfl, rfl⟩ | ⟨rfl, rfl⟩ <;> cases interface
  ofObject found named := by
    rcases get?_small found with ⟨rfl, rfl⟩ | ⟨rfl, rfl⟩ | ⟨rfl, rfl⟩
    · rfl
    · exact absurd named (by decide)
    · exact absurd named (by decide)
  acyclic link path := by
    obtain ⟨different, rfl⟩ := extends_small link
    rcases Relation.ReflTransGen.cases_head path with same | ⟨middle, up, _⟩
    · exact different same.symm
    · exact (extends_small up).1 rfl

end PauseFlow.ClassTable
