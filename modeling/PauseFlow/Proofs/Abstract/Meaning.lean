import PauseFlow.Abstract.Value
import PauseFlow.Proofs.Hierarchy.Legal

namespace PauseFlow

/-- Whether a constant is a value of a kind. -/
def PrimitiveKind.admits : PrimitiveKind → PrimitiveValue → Bool
  | .boolean, .boolean _ => true
  | .byte, .integral value => -2 ^ 7 ≤ value && value < 2 ^ 7
  | .short, .integral value => -2 ^ 15 ≤ value && value < 2 ^ 15
  | .int, .integral value => -2 ^ 31 ≤ value && value < 2 ^ 31
  | .long, .integral value => -2 ^ 63 ≤ value && value < 2 ^ 63
  | .char, .char _ => true
  | .float, .floating bits => bits.toNat < 2 ^ 32
  | .double, .floating _ => true
  | _, _ => false

/-- A value of a running program. Objects are known by number. -/
inductive RuntimeValue where
  | primitive (kind : PrimitiveKind) (value : PrimitiveValue) (admitted : kind.admits value = true)
  | null
  | object (id : Nat)

/-- The objects of a running program. -/
structure World (table : ClassTable) where
  typeOf : Nat → JvmType
  /-- The text of a string or the name of an enum case. -/
  contentOf : Nat → Option ReferenceConstant
  runtimeType : ∀ id, table.IsRuntimeType (typeOf id)
  /-- A case of an enumeration is one object. -/
  uniqueCase : ∀ {left right : Nat} {owner : ClassId} {name : String},
    contentOf left = some (.enumCase owner name) →
    contentOf right = some (.enumCase owner name) → left = right

/-- A program of objects of one type. -/
def World.ofType {table : ClassTable} (type : JvmType) (runtime : table.IsRuntimeType type) :
    World table where
  typeOf _ := type
  contentOf _ := none
  runtimeType _ := runtime
  uniqueCase known := by cases known

/-- Whether an object of a runtime type fits a bound. -/
def TypeBound.Holds (table : ClassTable) : TypeBound → JvmType → Prop
  | .top, _ => True
  | .exact type, actual => actual = type
  | .instanceOf type, actual => table.isAssignable actual type = true
  | .bottom, _ => False

namespace ReferenceFact

variable {table : ClassTable}

def AdmitsNull (fact : ReferenceFact) : Prop :=
  fact.nullability ≠ .notNull ∧ fact.constant = none

def AdmitsObject (world : World table) (fact : ReferenceFact) (id : Nat) : Prop :=
  fact.nullability ≠ .null ∧ fact.bound.Holds table (world.typeOf id) ∧
    ∀ constant, fact.constant = some constant → world.contentOf id = some constant

end ReferenceFact

/-- The values that an abstract value stands for. -/
def AbstractValue.Contains {table : ClassTable} (world : World table) :
    AbstractValue → RuntimeValue → Prop
  | .bottom, _ => False
  | .top, _ => True
  | .primitive kind known, .primitive actual value _ =>
    actual = kind ∧ ∀ constant, known = some constant → value = constant
  | .reference fact, .null => fact.AdmitsNull
  | .reference fact, .object id => fact.AdmitsObject world id
  | _, _ => False

section Meet

variable {table : ClassTable} {world : World table}

private theorem TypeBound.holds_meet (legal : table.Legal) {left right : TypeBound} {type : JvmType}
    (inLeft : left.Holds table type) (inRight : right.Holds table type) :
    (left.meet table right).Holds table type := by
  cases left with
  | top => cases right <;> exact inRight
  | bottom => exact inLeft.elim
  | exact leftType =>
    cases right with
    | top => exact inLeft
    | bottom => exact inRight.elim
    | exact rightType =>
      have same : leftType = rightType := inLeft.symm.trans inRight
      simpa [meet, same] using inRight
    | instanceOf rightType =>
      have below : table.isAssignable leftType rightType = true := inLeft ▸ inRight
      simpa [meet, below] using inLeft
  | instanceOf leftType =>
    cases right with
    | top => exact inLeft
    | bottom => exact inRight.elim
    | exact rightType =>
      have below : table.isAssignable rightType leftType = true := inRight ▸ inLeft
      simpa [meet, below] using inRight
    | instanceOf rightType =>
      have share := legal.mayShareSubtype_of_isAssignable inLeft inRight
      simp only [meet, share, if_true]
      split
      · exact inLeft
      · split
        · exact inRight
        · exact inLeft

theorem Nullability.meet?_of_ne_notNull {left right : Nullability} (leftNullable : left ≠ .notNull)
    (rightNullable : right ≠ .notNull) :
    ∃ both, left.meet? right = some both ∧ both ≠ .notNull := by
  cases left <;> cases right <;> simp_all [meet?]

theorem Nullability.meet?_of_ne_null {left right : Nullability} (leftPresent : left ≠ .null)
    (rightPresent : right ≠ .null) :
    ∃ both, left.meet? right = some both ∧ both ≠ .null := by
  cases left <;> cases right <;> simp_all [meet?]

namespace AbstractValue

theorem not_contains_bottom (value : RuntimeValue) : ¬ bottom.Contains world value := fun h => h

theorem contains_top (value : RuntimeValue) : top.Contains world value := by
  cases value <;> trivial

theorem contains_null : AbstractValue.null.Contains world .null :=
  ⟨by simp, rfl⟩

private theorem contains_meetReferences_null {left right : ReferenceFact} (inLeft : left.AdmitsNull)
    (inRight : right.AdmitsNull) :
    (meetReferences table left right).Contains world .null := by
  obtain ⟨both, met, nullable⟩ := Nullability.meet?_of_ne_notNull inLeft.1 inRight.1
  simp only [meetReferences, met, inLeft.2, inRight.2]
  cases both with
  | null => exact contains_null
  | notNull => exact absurd rfl nullable
  | nullable =>
    by_cases disjoint : left.bound.meet table right.bound = .bottom
    · simpa [disjoint] using contains_null
    · simp [disjoint, Contains, ReferenceFact.AdmitsNull]

private theorem contains_meetReferences_object (legal : table.Legal) {left right : ReferenceFact}
    {id : Nat} (inLeft : left.AdmitsObject world id) (inRight : right.AdmitsObject world id) :
    (meetReferences table left right).Contains world (.object id) := by
  obtain ⟨leftPresent, leftHolds, leftContent⟩ := inLeft
  obtain ⟨rightPresent, rightHolds, rightContent⟩ := inRight
  obtain ⟨both, met, present⟩ := Nullability.meet?_of_ne_null leftPresent rightPresent
  have holds := TypeBound.holds_meet legal leftHolds rightHolds
  have possible : left.bound.meet table right.bound ≠ .bottom := by
    intro empty
    rw [empty] at holds
    exact holds
  have agree : ¬ (left.constant.isSome && right.constant.isSome &&
      left.constant ≠ right.constant) = true := by
    intro clash
    cases leftKnown : left.constant <;> cases rightKnown : right.constant <;>
      simp [leftKnown, rightKnown] at clash
    exact clash (Option.some.inj
      ((leftContent _ leftKnown).symm.trans (rightContent _ rightKnown)))
  simp only [meetReferences, met, agree, present, possible, if_false]
  refine ⟨by simp only; split <;> simp [present], holds, fun constant known => ?_⟩
  cases leftKnown : left.constant with
  | some content => exact leftContent constant (by simpa [leftKnown] using known)
  | none => exact rightContent constant (by simpa [leftKnown] using known)

/-- The meet keeps every value that both sides stand for. -/
theorem contains_meet (legal : table.Legal) {left right : AbstractValue} {value : RuntimeValue}
    (inLeft : left.Contains world value) (inRight : right.Contains world value) :
    (left.meet table right).Contains world value := by
  cases left with
  | bottom => exact (not_contains_bottom value inLeft).elim
  | top => cases right <;> exact inRight
  | primitive leftKind leftKnown =>
    cases right with
    | bottom => exact (not_contains_bottom value inRight).elim
    | top => exact inLeft
    | reference fact => cases value <;> simp [Contains] at inLeft inRight
    | primitive rightKind rightKnown =>
      cases value with
      | null => exact inLeft.elim
      | object id => exact inLeft.elim
      | primitive kind actual admitted =>
        obtain ⟨rfl, leftHolds⟩ := inLeft
        obtain ⟨rfl, rightHolds⟩ := inRight
        cases leftKnown <;> cases rightKnown <;> simp_all [meet, Contains]
  | reference left =>
    cases right with
    | bottom => exact (not_contains_bottom value inRight).elim
    | top => exact inLeft
    | primitive kind known => cases value <;> simp [Contains] at inLeft inRight
    | reference right =>
      cases value with
      | primitive kind actual admitted => exact inLeft.elim
      | null => exact contains_meetReferences_null inLeft inRight
      | object id => exact contains_meetReferences_object legal inLeft inRight

/-- An identity constant stands for at most one value. -/
theorem eq_of_isIdentityConstant {known : AbstractValue} {left right : RuntimeValue}
    (identity : known.isIdentityConstant = true) (inLeft : known.Contains world left)
    (inRight : known.Contains world right) : left = right := by
  cases known with
  | bottom => exact (not_contains_bottom left inLeft).elim
  | top => simp [isIdentityConstant] at identity
  | primitive kind known =>
    obtain ⟨constant, rfl⟩ := Option.isSome_iff_exists.mp identity
    cases left <;> cases right <;> simp_all [Contains]
  | reference fact =>
    cases content : fact.constant with
    | none =>
      have null : fact.nullability = .null := by simpa [isIdentityConstant, content] using identity
      cases left <;> cases right <;>
        simp_all [Contains, ReferenceFact.AdmitsObject]
    | some constant =>
      cases constant with
      | string text => simp [isIdentityConstant, content] at identity
      | enumCase owner name =>
        cases left with
        | primitive kind actual admitted => exact inLeft.elim
        | null => simp [Contains, ReferenceFact.AdmitsNull, content] at inLeft
        | object leftId =>
          cases right with
          | primitive kind actual admitted => exact inRight.elim
          | null => simp [Contains, ReferenceFact.AdmitsNull, content] at inRight
          | object rightId =>
            exact congrArg _ (world.uniqueCase (inLeft.2.2 _ content) (inRight.2.2 _ content))

end AbstractValue

end Meet

end PauseFlow
