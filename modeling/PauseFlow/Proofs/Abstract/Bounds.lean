import PauseFlow.Proofs.Abstract.Meaning
import PauseFlow.Proofs.Hierarchy.Ordering

/-! The order of bounds on a runtime type. A meet is one of the two bounds, and below both of
them unless they cross: then it is the first one, and the second one is lost. -/
namespace PauseFlow.TypeBound

variable {table : ClassTable}

/-- What the lower bound allows, the upper one allows. -/
inductive Under (table : ClassTable) : (lower upper : TypeBound) → Prop where
  | top (lower : TypeBound) : Under table lower .top
  | exact (type : JvmType) : Under table (.exact type) (.exact type)
  | exactInstance {lower upper : JvmType} (below : table.isAssignable lower upper = true) :
      Under table (.exact lower) (.instanceOf upper)
  | instances {lower upper : JvmType} (below : table.isAssignable lower upper = true) :
      Under table (.instanceOf lower) (.instanceOf upper)

/-- Two bounds that some runtime type may fit although neither includes the other. No bound says
both, so a meet says the first one only. -/
def crosses (table : ClassTable) : TypeBound → TypeBound → Bool
  | instanceOf left, instanceOf right =>
    !table.isAssignable left right && !table.isAssignable right left &&
      table.mayShareSubtype left right
  | _, _ => false

theorem exists_of_crosses {left right : TypeBound} (crossing : left.crosses table right = true) :
    ∃ leftType rightType, left = .instanceOf leftType ∧ right = .instanceOf rightType := by
  cases left <;> cases right <;> first
    | exact ⟨_, _, rfl, rfl⟩
    | cases crossing

theorem crosses_comm (left right : TypeBound) :
    left.crosses table right = right.crosses table left := by
  cases left <;> cases right <;> first
    | rfl
    | simp only [crosses, ClassTable.mayShareSubtype_comm, Bool.and_comm]

/-- The second of two bounds that cross is lost. -/
theorem meet_of_crosses {left right : TypeBound} (crossing : left.crosses table right = true) :
    left.meet table right = left := by
  obtain ⟨leftType, rightType, rfl, rfl⟩ := exists_of_crosses crossing
  simp only [crosses, Bool.and_eq_true, Bool.not_eq_true'] at crossing
  simp [meet, crossing]

private theorem meet_exact_instanceOf_ne_bottom_iff {left right : JvmType} :
    (exact left).meet table (.instanceOf right) ≠ .bottom ↔
      table.isAssignable left right = true := by
  simp [meet]

theorem meet_instanceOf_exact_ne_bottom_iff {left right : JvmType} :
    (instanceOf left).meet table (.exact right) ≠ .bottom ↔
      table.isAssignable right left = true := by
  simp [meet]

private theorem meet_exact_ne_bottom_iff {left right : JvmType} :
    (exact left).meet table (.exact right) ≠ .bottom ↔ left = right := by
  simp [meet]

private theorem meet_instanceOf_ne_bottom_iff {left right : JvmType} :
    (instanceOf left).meet table (.instanceOf right) ≠ .bottom ↔
      table.mayShareSubtype left right = true := by
  constructor
  · intro possible
    simp only [meet] at possible
    split at possible
    · rename_i below
      unfold ClassTable.mayShareSubtype
      simp [below]
    · split at possible
      · rename_i above
        unfold ClassTable.mayShareSubtype
        simp [above]
      · simpa using possible
  · intro share
    simp only [meet, share, if_true]
    split
    · simp
    · split <;> simp

theorem meet_top_right (bound : TypeBound) : bound.meet table .top = bound := by
  cases bound <;> rfl

theorem meet_top_left (bound : TypeBound) : TypeBound.top.meet table bound = bound := by
  cases bound <;> rfl

private theorem meet_bottom_right (bound : TypeBound) : bound.meet table .bottom = .bottom := by
  cases bound <;> rfl

theorem meet_bottom_left (bound : TypeBound) : TypeBound.bottom.meet table bound = .bottom := rfl

/-- Whether a meet is possible does not depend on the order. -/
theorem meet_ne_bottom_comm (left right : TypeBound) :
    left.meet table right ≠ .bottom ↔ right.meet table left ≠ .bottom := by
  cases left with
  | bottom => rw [meet_bottom_left, meet_bottom_right]
  | top => rw [meet_top_left, meet_top_right]
  | exact left =>
    cases right with
    | bottom => rw [meet_bottom_left, meet_bottom_right]
    | top => rw [meet_top_left, meet_top_right]
    | exact right => rw [meet_exact_ne_bottom_iff, meet_exact_ne_bottom_iff, eq_comm]
    | instanceOf right =>
      rw [meet_exact_instanceOf_ne_bottom_iff, meet_instanceOf_exact_ne_bottom_iff]
  | instanceOf left =>
    cases right with
    | bottom => rw [meet_bottom_left, meet_bottom_right]
    | top => rw [meet_top_left, meet_top_right]
    | exact right =>
      rw [meet_exact_instanceOf_ne_bottom_iff, meet_instanceOf_exact_ne_bottom_iff]
    | instanceOf right =>
      rw [meet_instanceOf_ne_bottom_iff, meet_instanceOf_ne_bottom_iff,
        ClassTable.mayShareSubtype_comm]

/-- A meet that is possible is the lower bound of two comparable ones, or the first one of two
that cross. -/
theorem meet_cases {left right : TypeBound} (possible : left.meet table right ≠ .bottom) :
    (left.Under table right ∧ left.meet table right = left) ∨
    (right.Under table left ∧ left.meet table right = right) ∨
    (left.crosses table right = true ∧ left.meet table right = left) := by
  cases left with
  | bottom => exact absurd rfl possible
  | top =>
    cases right with
    | bottom => exact absurd rfl possible
    | top => exact .inr (.inl ⟨.top _, rfl⟩)
    | exact type => exact .inr (.inl ⟨.top _, rfl⟩)
    | instanceOf type => exact .inr (.inl ⟨.top _, rfl⟩)
  | exact left =>
    cases right with
    | bottom => exact absurd rfl possible
    | top => exact .inl ⟨.top _, rfl⟩
    | exact right =>
      obtain rfl := meet_exact_ne_bottom_iff.mp possible
      exact .inl ⟨.exact left, by simp [meet]⟩
    | instanceOf right =>
      have below := meet_exact_instanceOf_ne_bottom_iff.mp possible
      exact .inl ⟨.exactInstance below, by simp [meet, below]⟩
  | instanceOf left =>
    cases right with
    | bottom => exact absurd rfl possible
    | top => exact .inl ⟨.top _, rfl⟩
    | exact right =>
      have below := meet_instanceOf_exact_ne_bottom_iff.mp possible
      exact .inr (.inl ⟨.exactInstance below, by simp [meet, below]⟩)
    | instanceOf right =>
      have share := meet_instanceOf_ne_bottom_iff.mp possible
      by_cases below : table.isAssignable left right = true
      · exact .inl ⟨.instances below, by simp [meet, below]⟩
      · by_cases above : table.isAssignable right left = true
        · exact .inr (.inl ⟨.instances above, by simp [meet, below, above]⟩)
        · have crossing : (instanceOf left).crosses table (.instanceOf right) = true := by
            simp [crosses, below, above, share]
          exact .inr (.inr ⟨crossing, meet_of_crosses crossing⟩)

private theorem Under.holds (legal : table.Legal) {lower upper : TypeBound}
    (under : Under table lower upper) {type : JvmType} (holds : lower.Holds table type) :
    upper.Holds table type := by
  cases under with
  | top => trivial
  | exact own => exact holds
  | @exactInstance lower upper below =>
    obtain rfl : type = lower := holds
    exact below
  | instances below => exact legal.isAssignable_trans holds below

private theorem ne_bottom_of_holds {bound : TypeBound} {type : JvmType}
    (holds : bound.Holds table type) : bound ≠ .bottom := by
  rintro rfl
  exact holds

theorem holds_left_of_meet (legal : table.Legal) {left right : TypeBound} {type : JvmType}
    (holds : (left.meet table right).Holds table type) : left.Holds table type := by
  rcases meet_cases (ne_bottom_of_holds holds) with ⟨_, same⟩ | ⟨under, same⟩ | ⟨_, same⟩
  · rwa [same] at holds
  · rw [same] at holds
    exact under.holds legal holds
  · rwa [same] at holds

theorem holds_right_of_meet (legal : table.Legal) {left right : TypeBound} {type : JvmType}
    (uncrossed : left.crosses table right = false)
    (holds : (left.meet table right).Holds table type) : right.Holds table type := by
  rcases meet_cases (ne_bottom_of_holds holds) with ⟨under, same⟩ | ⟨_, same⟩ | ⟨crossing, _⟩
  · rw [same] at holds
    exact under.holds legal holds
  · rwa [same] at holds
  · rw [uncrossed] at crossing
    cases crossing

/-- What fits a bound fits every bound above it. -/
theorem Under.meet_ne_bottom (legal : table.Legal) {other lower upper : TypeBound}
    (under : Under table lower upper) (possible : other.meet table lower ≠ .bottom) :
    other.meet table upper ≠ .bottom := by
  cases under with
  | top =>
    rw [meet_top_right]
    rintro rfl
    exact possible rfl
  | exact own => exact possible
  | exactInstance below =>
    cases other with
    | bottom => exact absurd rfl possible
    | top => simp [meet]
    | exact own =>
      obtain rfl := meet_exact_ne_bottom_iff.mp possible
      exact meet_exact_instanceOf_ne_bottom_iff.mpr below
    | instanceOf own =>
      exact meet_instanceOf_ne_bottom_iff.mpr (legal.mayShareSubtype_of_isAssignable
        (meet_instanceOf_exact_ne_bottom_iff.mp possible) below)
  | instances below =>
    cases other with
    | bottom => exact absurd rfl possible
    | top => simp [meet]
    | exact own =>
      exact meet_exact_instanceOf_ne_bottom_iff.mpr (legal.isAssignable_trans
        (meet_exact_instanceOf_ne_bottom_iff.mp possible) below)
    | instanceOf own =>
      exact meet_instanceOf_ne_bottom_iff.mpr (legal.mayShareSubtype_mono
        (meet_instanceOf_ne_bottom_iff.mp possible) below)

/-- A bound fits a meet exactly when it fits both sides, unless the sides cross and it fits only
one of them. -/
theorem meet_meet_ne_bottom_iff (legal : table.Legal) {other left right : TypeBound}
    (possible : left.meet table right ≠ .bottom)
    (even : left.crosses table right = true →
      (other.meet table left = .bottom ↔ other.meet table right = .bottom)) :
    other.meet table (left.meet table right) ≠ .bottom ↔
      other.meet table left ≠ .bottom ∧ other.meet table right ≠ .bottom := by
  rcases meet_cases possible with ⟨under, same⟩ | ⟨under, same⟩ | ⟨crossing, same⟩
  · rw [same]
    exact ⟨fun fits => ⟨fits, under.meet_ne_bottom legal fits⟩, And.left⟩
  · rw [same]
    exact ⟨fun fits => ⟨under.meet_ne_bottom legal fits, fits⟩, And.right⟩
  · rw [same]
    exact ⟨fun fits => ⟨fits, (even crossing).not.mp fits⟩, And.left⟩

end PauseFlow.TypeBound
