import PauseFlow.Proofs.Abstract.Regular

namespace PauseFlow.AbstractValue

/-- A primitive constant, `null`, or an object of an exact type whose content may be known. -/
inductive Pinned : AbstractValue → Prop where
  | primitive (kind : PrimitiveKind) (value : PrimitiveValue) :
      Pinned (.primitive kind (some value))
  | null : Pinned .null
  | object (type : JvmType) (content : Option ReferenceConstant) :
      Pinned (.reference ⟨.notNull, .exact type, content⟩)

theorem pinned_notNull (type : JvmType) : (notNull (.exact type)).Pinned := .object type none

theorem pinned_stringConstant (text : String) (owner : ClassId) :
    (stringConstant text owner).Pinned := .object _ _

theorem pinned_enumConstant (owner : ClassId) (name : String) :
    (enumConstant owner name).Pinned := .object _ _

variable {table : ClassTable} {world : World table} {declared known : AbstractValue}
  {value : RuntimeValue}

private theorem meet_instanceOf_pinned {upper : JvmType} (pinned : Pinned known)
    (fits : (reference ⟨.nullable, .instanceOf upper, none⟩).Contains world value)
    (holds : known.Contains world value) :
    (reference ⟨.nullable, .instanceOf upper, none⟩).meet table known = known := by
  cases pinned with
  | primitive kind constant => cases value <;> simp [Contains] at fits holds
  | null => simp [meet, null, meetReferences, Nullability.meet?]
  | object type content =>
    cases value with
    | primitive kind constant admitted => exact holds.elim
    | null => exact absurd rfl holds.1
    | object id =>
      obtain ⟨_, below, _⟩ := fits
      obtain ⟨_, exact, _⟩ := holds
      have assignable : table.isAssignable type upper = true := by
        have same : world.typeOf id = type := exact
        rwa [← same]
      cases content <;>
        simp [meet, meetReferences, Nullability.meet?, TypeBound.meet, assignable]

/-- A declaration that allows the value adds nothing. -/
theorem meet_declared_pinned (form : Declared declared) (pinned : Pinned known)
    (fits : declared.Contains world value) (holds : known.Contains world value) :
    declared.meet table known = known := by
  cases form with
  | top => cases known <;> rfl
  | ofType type =>
    cases type with
    | ofClass id => exact meet_instanceOf_pinned pinned fits holds
    | arrayOf element => exact meet_instanceOf_pinned pinned fits holds
    | primitive kind =>
      cases pinned with
      | null => cases value <;> simp [ofType, null, Contains] at fits holds
      | object other content => cases value <;> simp [ofType, Contains] at fits holds
      | primitive other constant =>
        cases value with
        | null => exact holds.elim
        | object id => exact holds.elim
        | primitive actual content admitted =>
          obtain ⟨rfl, _⟩ := fits
          obtain ⟨rfl, _⟩ := holds
          simp [ofType, meet]

theorem meet_self_of_pinned (pinned : Pinned known) : known.meet table known = known := by
  cases pinned with
  | primitive kind constant => simp [meet]
  | null => simp [meet, null, meetReferences, Nullability.meet?]
  | object type content =>
    cases content <;> simp [meet, meetReferences, Nullability.meet?, TypeBound.meet]

/-- Knowing the content of an object includes knowing its type. -/
theorem meet_content_type (type : JvmType) (content : Option ReferenceConstant) :
    (reference ⟨.notNull, .exact type, content⟩).meet table (notNull (.exact type)) =
      reference ⟨.notNull, .exact type, content⟩ := by
  cases content <;> simp [notNull, meet, meetReferences, Nullability.meet?, TypeBound.meet]

theorem meet_type_content (type : JvmType) (content : Option ReferenceConstant) :
    (notNull (.exact type)).meet table (reference ⟨.notNull, .exact type, content⟩) =
      reference ⟨.notNull, .exact type, content⟩ := by
  cases content <;> simp [notNull, meet, meetReferences, Nullability.meet?, TypeBound.meet]

end PauseFlow.AbstractValue
