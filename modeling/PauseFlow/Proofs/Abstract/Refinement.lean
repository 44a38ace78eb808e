import PauseFlow.Proofs.Abstract.Bounds

namespace PauseFlow

variable {table : ClassTable}

/-- As far as they are known, two contents are the same. -/
def Concur {Content : Type} (left right : Option Content) : Prop :=
  ∀ own other, left = some own → right = some other → own = other

section Contents

variable {Content : Type} {left right other : Option Content}

theorem Concur.symm (concur : Concur left right) : Concur right left :=
  fun own other known same => (concur other own same known).symm

theorem Concur.refl (content : Option Content) : Concur content content :=
  fun _ _ known same => Option.some.inj (known.symm.trans same)

theorem concur_none (other : Option Content) : Concur none other := by
  intro own content known
  cases known

theorem concur_iff [DecidableEq Content] :
    Concur left right ↔ ¬ (left.isSome && right.isSome && left ≠ right) = true := by
  cases left <;> cases right <;> simp [Concur]

theorem Concur.orElse_comm (concur : Concur left right) : (left <|> right) = (right <|> left) := by
  cases left with
  | none => cases right <;> rfl
  | some own =>
    cases right with
    | none => rfl
    | some other => rw [concur own other rfl rfl]

/-- Two contents that concur are known together when one of them is. -/
theorem Concur.orElse_eq_some_iff (concur : Concur left right) {content : Content} :
    (left <|> right) = some content ↔ left = some content ∨ right = some content := by
  cases left with
  | none => simp
  | some own =>
    refine ⟨.inl, fun known => ?_⟩
    rcases known with known | known
    · exact known
    · simp [concur own content rfl known]

theorem Concur.orElse_iff (concur : Concur left right) :
    Concur other (left <|> right) ↔ Concur other left ∧ Concur other right := by
  simp only [Concur, concur.orElse_eq_some_iff]
  constructor
  · exact fun all => ⟨fun own known first second => all own known first (.inl second),
      fun own known first second => all own known first (.inr second)⟩
  · rintro ⟨inLeft, inRight⟩ own known first (second | second)
    · exact inLeft own known first second
    · exact inRight own known first second

end Contents

/-- As far as two facts about references can be held against each other, an object may be what
both of them say. -/
structure ReferenceFact.Fits (table : ClassTable) (left right : ReferenceFact) : Prop where
  leftPresent : left.nullability ≠ .null
  rightPresent : right.nullability ≠ .null
  bound : left.bound.meet table right.bound ≠ .bottom
  content : Concur left.constant right.constant

theorem ReferenceFact.Fits.symm {left right : ReferenceFact} (fits : left.Fits table right) :
    right.Fits table left where
  leftPresent := fits.rightPresent
  rightPresent := fits.leftPresent
  bound := (TypeBound.meet_ne_bottom_comm _ _).mp fits.bound
  content := fits.content.symm

/-- The knowledge of both sides admits `null` or an object where both of them do. -/
theorem Nullability.of_meet? {left right both : Nullability} (met : left.meet? right = some both) :
    (both ≠ .notNull ↔ left ≠ .notNull ∧ right ≠ .notNull) ∧
      (both ≠ .null ↔ left ≠ .null ∧ right ≠ .null) := by
  cases left <;> cases right <;> cases met <;> simp

namespace AbstractValue

/-- The meet of two facts about references: a fact about objects where some object fits both, and
otherwise `null` if both admit it. -/
inductive Overlap (table : ClassTable) (left right : ReferenceFact) : AbstractValue → Prop where
  | object {nullability : Nullability} (fits : left.Fits table right)
      (present : nullability ≠ .null)
      (nullable : (nullability ≠ .notNull ∧ (left.constant <|> right.constant) = none) ↔
        left.AdmitsNull ∧ right.AdmitsNull) :
      Overlap table left right (.reference
        ⟨nullability, left.bound.meet table right.bound, left.constant <|> right.constant⟩)
  | onlyNull (unfit : ¬ left.Fits table right) (leftNull : left.AdmitsNull)
      (rightNull : right.AdmitsNull) : Overlap table left right .null
  | nothing (unfit : ¬ left.Fits table right) (excluded : ¬ (left.AdmitsNull ∧ right.AdmitsNull)) :
      Overlap table left right .bottom

variable {left right : ReferenceFact}

private theorem admitsNull_both_iff {both : Nullability}
    (met : left.nullability.meet? right.nullability = some both) :
    left.AdmitsNull ∧ right.AdmitsNull ↔
      both ≠ .notNull ∧ (left.constant <|> right.constant) = none := by
  rw [(Nullability.of_meet? met).1]
  cases leftContent : left.constant <;> cases rightContent : right.constant <;>
    simp [ReferenceFact.AdmitsNull, leftContent, rightContent]

theorem overlap_meetReferences (table : ClassTable) (left right : ReferenceFact) :
    Overlap table left right (meetReferences table left right) := by
  -- The cases are the branches of the meet, in their order.
  unfold meetReferences
  cases met : left.nullability.meet? right.nullability with
  | none =>
    refine .nothing (fun fits => ?_) fun ⟨leftNull, rightNull⟩ => ?_
    · obtain ⟨_, known, _⟩ := Nullability.meet?_of_ne_null fits.leftPresent fits.rightPresent
      rw [met] at known
      cases known
    · obtain ⟨_, known, _⟩ := Nullability.meet?_of_ne_notNull leftNull.1 rightNull.1
      rw [met] at known
      cases known
  | some both =>
    have null_iff := admitsNull_both_iff met
    have present_iff := (Nullability.of_meet? met).2
    dsimp only
    split
    case isTrue clash =>
      refine .nothing (fun fits => concur_iff.mp fits.content clash) fun ⟨leftNull, rightNull⟩ => ?_
      simp [leftNull.2] at clash
    case isFalse agree =>
      have content := concur_iff.mpr agree
      split
      case isTrue isNull =>
        have unfit : ¬ left.Fits table right :=
          fun fits => present_iff.mpr ⟨fits.leftPresent, fits.rightPresent⟩ isNull
        split
        case isTrue known =>
          refine .nothing unfit (mt null_iff.mp fun given => ?_)
          rw [given.2] at known
          cases known
        case isFalse unknown =>
          have ⟨leftNull, rightNull⟩ := null_iff.mpr
            ⟨isNull ▸ nofun, Option.not_isSome_iff_eq_none.mp unknown⟩
          exact .onlyNull unfit leftNull rightNull
      case isFalse present =>
        have ⟨leftPresent, rightPresent⟩ := present_iff.mp present
        split
        case isTrue empty =>
          have unfit : ¬ left.Fits table right := fun fits => fits.bound empty
          split
          case isTrue nullable =>
            simp only [Bool.and_eq_true, decide_eq_true_eq, Option.isNone_iff_eq_none] at nullable
            have ⟨leftNull, rightNull⟩ := null_iff.mpr ⟨nullable.1 ▸ nofun, nullable.2⟩
            exact .onlyNull unfit leftNull rightNull
          case isFalse strict =>
            refine .nothing unfit (mt null_iff.mp fun given => strict ?_)
            have nullable : both = .nullable := by cases both <;> simp_all
            simp [nullable, given.2]
        case isFalse possible =>
          refine .object ⟨leftPresent, rightPresent, possible, content⟩ ?_ ?_
          · split
            · exact nofun
            · exact present
          · rw [null_iff]
            cases left.constant <|> right.constant <;> simp

/-- The meet of two primitive values: one kind and what is known on either side, if that is the
same kind and the known contents are the same. -/
theorem meet_primitives_cases (table : ClassTable) (leftKind rightKind : PrimitiveKind)
    (left right : Option PrimitiveValue) :
    ((leftKind = rightKind ∧ Concur left right) ∧
      (primitive leftKind left).meet table (primitive rightKind right) =
        primitive leftKind (left <|> right)) ∨
    (¬ (leftKind = rightKind ∧ Concur left right) ∧
      (primitive leftKind left).meet table (primitive rightKind right) = bottom) := by
  rw [concur_iff]
  simp only [AbstractValue.meet]
  split
  · rename_i different
    exact .inr ⟨fun both => different both.1, rfl⟩
  · rename_i same
    split
    · rename_i clash
      exact .inr ⟨fun both => both.2 clash, rfl⟩
    · rename_i agree
      exact .inl ⟨⟨not_not.mp same, agree⟩, rfl⟩

section Meaning

variable {world : World table} {value : RuntimeValue}

private theorem contains_of_meetReferences (legal : table.Legal)
    (contains : (meetReferences table left right).Contains world value) :
    (reference left).Contains world value ∧
      (left.bound.crosses table right.bound = false → (reference right).Contains world value) := by
  have overlap := overlap_meetReferences table left right
  generalize meetReferences table left right = known at contains overlap
  cases overlap with
  | nothing => exact (not_contains_bottom value contains).elim
  | onlyNull _ leftNull rightNull =>
    cases value with
    | primitive kind constant admitted => exact contains.elim
    | null => exact ⟨leftNull, fun _ => rightNull⟩
    | object id => exact absurd rfl contains.1
  | object fits present nullable =>
    cases value with
    | primitive kind constant admitted => exact contains.elim
    | null =>
      have ⟨leftNull, rightNull⟩ := nullable.mp contains
      exact ⟨leftNull, fun _ => rightNull⟩
    | object id =>
      obtain ⟨_, holds, content⟩ := contains
      constructor
      · refine ⟨fits.leftPresent, TypeBound.holds_left_of_meet legal holds, ?_⟩
        intro constant known
        exact content constant (fits.content.orElse_eq_some_iff.mpr (.inl known))
      · intro uncrossed
        refine ⟨fits.rightPresent, TypeBound.holds_right_of_meet legal uncrossed holds, ?_⟩
        intro constant known
        exact content constant (fits.content.orElse_eq_some_iff.mpr (.inr known))

private theorem contains_of_meetPrimitives {leftKind rightKind : PrimitiveKind}
    {leftContent rightContent : Option PrimitiveValue}
    (contains : ((primitive leftKind leftContent).meet table
      (primitive rightKind rightContent)).Contains world value) :
    (primitive leftKind leftContent).Contains world value ∧
      (primitive rightKind rightContent).Contains world value := by
  rcases meet_primitives_cases table leftKind rightKind leftContent rightContent with
    ⟨⟨rfl, concur⟩, result⟩ | ⟨_, result⟩
  · rw [result] at contains
    cases value with
    | null => exact contains.elim
    | object id => exact contains.elim
    | primitive kind constant admitted =>
      obtain ⟨same, content⟩ := contains
      refine ⟨⟨same, fun known inLeft => ?_⟩, ⟨same, fun known inRight => ?_⟩⟩
      · exact content known (concur.orElse_eq_some_iff.mpr (.inl inLeft))
      · exact content known (concur.orElse_eq_some_iff.mpr (.inr inRight))
  · rw [result] at contains
    exact (not_contains_bottom value contains).elim

/-- A meet stands for nothing that its first side excludes, and for nothing that its second side
excludes unless the bounds of both cross. -/
theorem contains_of_meet (legal : table.Legal) {known other : AbstractValue}
    (contains : (known.meet table other).Contains world value) :
    known.Contains world value ∧
      (known.bound.crosses table other.bound = false → other.Contains world value) := by
  cases known with
  | bottom => exact (not_contains_bottom value contains).elim
  | top =>
    have same : AbstractValue.top.meet table other = other := by cases other <;> rfl
    rw [same] at contains
    exact ⟨contains_top value, fun _ => contains⟩
  | primitive kind content =>
    cases other with
    | bottom => exact (not_contains_bottom value contains).elim
    | top => exact ⟨contains, fun _ => contains_top value⟩
    | reference fact => exact (not_contains_bottom value contains).elim
    | primitive otherKind otherContent =>
      have both := contains_of_meetPrimitives contains
      exact ⟨both.1, fun _ => both.2⟩
  | reference left =>
    cases other with
    | bottom => exact (not_contains_bottom value contains).elim
    | top => exact ⟨contains, fun _ => contains_top value⟩
    | primitive kind content => exact (not_contains_bottom value contains).elim
    | reference right => exact contains_of_meetReferences legal contains

end Meaning

/-- What the first value stands for, the second one stands for, in every program. -/
def Refines (table : ClassTable) (known allowed : AbstractValue) : Prop :=
  ∀ (world : World table) (value : RuntimeValue), known.Contains world value →
    allowed.Contains world value

theorem Refines.refl (table : ClassTable) (value : AbstractValue) : value.Refines table value :=
  fun _ _ contains => contains

theorem Refines.trans {low middle high : AbstractValue} (first : low.Refines table middle)
    (second : middle.Refines table high) : low.Refines table high :=
  fun world value contains => second world value (first world value contains)

theorem meet_refines_left (legal : table.Legal) (known other : AbstractValue) :
    (known.meet table other).Refines table known :=
  fun _ _ contains => (contains_of_meet legal contains).1

theorem meet_refines_right (legal : table.Legal) {known other : AbstractValue}
    (uncrossed : known.bound.crosses table other.bound = false) :
    (known.meet table other).Refines table other :=
  fun _ _ contains => (contains_of_meet legal contains).2 uncrossed

end AbstractValue

end PauseFlow
