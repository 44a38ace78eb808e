import Mathlib.Data.List.Perm.Subperm
import PauseFlow.Proofs.Abstract.Agreement

/-! When the brackets of a meet matter. Three values that are constructed can be met with any
brackets, in any order, exactly if no meet of two of them loses a contradiction to the third. -/
namespace PauseFlow

private theorem ReferenceFact.Regular.constant_eq_none {fact : ReferenceFact}
    (regular : fact.Regular)
    {type : JvmType} (bound : fact.bound = .instanceOf type) : fact.constant = none := by
  cases known : fact.constant with
  | none => rfl
  | some constant =>
    obtain ⟨_, own, exactly⟩ := regular.ofConstant constant known
    rw [bound] at exactly
    cases exactly

namespace AbstractValue

variable {table : ClassTable}

theorem Constructed.typed {value : AbstractValue} (constructed : value.Constructed)
    (possible : value.bound ≠ .bottom) : ∃ sort, Typed sort value := by
  cases constructed with
  | ofType type => exact ⟨type.sort, typed_ofType type⟩
  | primitive kind content => exact ⟨.primitive kind, .primitive kind _⟩
  | null => exact ⟨.reference, typed_null⟩
  | notNull bound => exact ⟨.reference, .reference ⟨possible, by simp, by simp⟩⟩
  | stringConstant text owner => exact ⟨.reference, .reference ⟨possible, by simp, by simp⟩⟩
  | enumConstant owner name => exact ⟨.reference, .reference ⟨possible, by simp, by simp⟩⟩

/-- Only what may be an object has a bound. -/
theorem Constructed.exists_fact {value : AbstractValue} (constructed : value.Constructed)
    (bounded : value.bound ≠ .top) :
    ∃ fact : ReferenceFact, value = .reference fact ∧ fact.nullability ≠ .null ∧ fact.Regular := by
  have regular := constructed.regular
  cases constructed with
  | ofType type =>
    cases type with
    | primitive kind => exact absurd rfl bounded
    | ofClass id => exact ⟨_, rfl, by simp, regular⟩
    | arrayOf element => exact ⟨_, rfl, by simp, regular⟩
  | primitive kind content => exact absurd rfl bounded
  | null => exact absurd rfl bounded
  | notNull bound => exact ⟨_, rfl, by simp, regular⟩
  | stringConstant text owner => exact ⟨_, rfl, by simp, regular⟩
  | enumConstant owner name => exact ⟨_, rfl, by simp, regular⟩

section Lost

variable {left right other : ReferenceFact}

private theorem meetReferences_ne_bottom (fits : left.Fits table right) :
    meetReferences table left right ≠ .bottom := by
  have overlap := overlap_meetReferences table left right
  intro empty
  rw [empty] at overlap
  cases overlap with
  | nothing unfit _ => exact unfit fits

/-- Met first, two bounds that cross forget what only the second one contradicts. -/
private theorem meet_meet_ne_bottom (leftPresent : left.nullability ≠ .null)
    (rightPresent : right.nullability ≠ .null) (otherPresent : other.nullability ≠ .null)
    (leftPlain : left.constant = none) (rightPlain : right.constant = none)
    (crossing : left.bound.crosses table right.bound = true)
    (fits : left.bound.meet table other.bound ≠ .bottom) :
    ((reference left).meet table (reference right)).meet table (reference other) ≠ .bottom := by
  have joined := TypeBound.meet_of_crosses crossing
  have joint : left.Fits table right := by
    refine ⟨leftPresent, rightPresent, ?_, leftPlain ▸ concur_none _⟩
    rw [joined]
    intro empty
    rw [empty] at crossing
    cases crossing
  have overlap := overlap_meetReferences table left right
  change (meetReferences table left right).meet table (reference other) ≠ .bottom
  generalize meetReferences table left right = known at overlap
  cases overlap with
  | nothing unfit _ => exact absurd joint unfit
  | onlyNull unfit _ _ => exact absurd joint unfit
  | @object nullability _ present _ =>
    rw [joined, leftPlain, rightPlain]
    exact meetReferences_ne_bottom ⟨present, otherPresent, fits, concur_none _⟩

/-- Met last, the first of them finds at most `null`. -/
private theorem meet_meet_eq_bottom (clash : right.bound.meet table other.bound = .bottom)
    (excluded : ¬ (left.AdmitsNull ∧ right.AdmitsNull ∧ other.AdmitsNull)) :
    (reference left).meet table ((reference right).meet table (reference other)) = .bottom := by
  have overlap := overlap_meetReferences table right other
  change (reference left).meet table (meetReferences table right other) = .bottom
  generalize meetReferences table right other = known at overlap
  cases overlap with
  | object fits _ _ => exact absurd clash fits.bound
  | nothing _ _ => exact meet_bottom _
  | onlyNull _ rightNull otherNull =>
    change meetReferences table left ⟨.null, .top, none⟩ = .bottom
    have overlap := overlap_meetReferences table left ⟨.null, .top, none⟩
    generalize meetReferences table left ⟨.null, .top, none⟩ = known at overlap
    cases overlap with
    | object fits _ _ => exact absurd rfl fits.rightPresent
    | onlyNull _ leftNull _ => exact absurd ⟨leftNull, rightNull, otherNull⟩ excluded
    | nothing _ _ => rfl

end Lost

section Three

variable {first second third : AbstractValue}
  (constructed : ∀ value ∈ [first, second, third], value.Constructed ∧ value.bound ≠ .bottom)

include constructed in
/-- If brackets never matter, what contradicts one of two bounds that cross contradicts both. -/
private theorem meet_bound_ne_bottom_of_assoc
    (excluded : ¬ ∀ value ∈ [first, second, third], value.AllowsNull)
    (assoc : ∀ left right other : AbstractValue,
      [first, second, third].Perm [left, right, other] →
        ((left.meet table right).meet table other = .bottom ↔
          left.meet table (right.meet table other) = .bottom))
    {left right other : AbstractValue} (leftMember : left ∈ [first, second, third])
    (rightMember : right ∈ [first, second, third]) (otherMember : other ∈ [first, second, third])
    (crossing : left.bound.crosses table right.bound = true)
    (fits : left.bound.meet table other.bound ≠ .bottom) :
    right.bound.meet table other.bound ≠ .bottom := by
  intro clash
  have possible := (constructed right rightMember).2
  have distinct : [left, right, other].Nodup := by
    have leftRight : left ≠ right := by
      rintro rfl
      exact fits clash
    have leftOther : left ≠ other := by
      rintro rfl
      rw [TypeBound.crosses_comm] at crossing
      rw [TypeBound.meet_of_crosses crossing] at clash
      exact possible clash
    have rightOther : right ≠ other := by
      rintro rfl
      rw [TypeBound.meet_self] at clash
      exact possible clash
    simp [leftRight, leftOther, rightOther]
  have members : [left, right, other] ⊆ [first, second, third] := by
    intro value member
    rcases List.mem_cons.mp member with rfl | member
    · exact leftMember
    · rcases List.mem_cons.mp member with rfl | member
      · exact rightMember
      · obtain rfl := List.mem_singleton.mp member
        exact otherMember
  have perm : [left, right, other].Perm [first, second, third] :=
    (List.subperm_of_subset distinct members).perm_of_length_le le_rfl
  obtain ⟨leftType, rightType, leftBound, rightBound⟩ := TypeBound.exists_of_crosses crossing
  obtain ⟨leftFact, rfl, leftPresent, leftRegular⟩ :=
    (constructed left leftMember).1.exists_fact (by simp [leftBound])
  obtain ⟨rightFact, rfl, rightPresent, rightRegular⟩ :=
    (constructed right rightMember).1.exists_fact (by simp [rightBound])
  have bounded : other.bound ≠ .top := by
    intro unbounded
    rw [unbounded, TypeBound.meet_top_right] at clash
    exact possible clash
  obtain ⟨otherFact, rfl, otherPresent, _⟩ :=
    (constructed other otherMember).1.exists_fact bounded
  refine meet_meet_ne_bottom leftPresent rightPresent otherPresent
    (leftRegular.constant_eq_none leftBound) (rightRegular.constant_eq_none rightBound) crossing
    fits ((assoc _ _ _ perm.symm).mpr (meet_meet_eq_bottom clash ?_))
  rintro ⟨leftNull, rightNull, otherNull⟩
  refine excluded fun value member => ?_
  have allows : ∀ value ∈ [reference leftFact, reference rightFact, reference otherFact],
      value.AllowsNull := by
    simp only [List.forall_mem_cons]
    exact ⟨⟨_, rfl, leftNull⟩, ⟨_, rfl, rightNull⟩, ⟨_, rfl, otherNull⟩, List.forall_mem_nil _⟩
  exact allows value (perm.mem_iff.mpr member)

include constructed in
/-- Brackets never matter to three values exactly if no meet of them loses a contradiction. -/
theorem steady_iff_assoc (legal : table.Legal) :
    Steady table [first, second, third] ↔
      ∀ left right other : AbstractValue, [first, second, third].Perm [left, right, other] →
        ((left.meet table right).meet table other = .bottom ↔
          left.meet table (right.meet table other) = .bottom) := by
  constructor
  · intro steady left right other perm
    refine not_iff_not.mp (meet_assoc_ne_bottom_iff legal (fun value member => ?_)
      (steady.perm perm))
    have ⟨own, possible⟩ := constructed value (perm.mem_iff.mpr member)
    exact own.typed possible
  · intro assoc
    by_cases allows : ∀ value ∈ [first, second, third], value.AllowsNull
    · exact .inl allows
    · right
      rintro _ leftBound _ rightBound crossing _ otherBound
      obtain ⟨left, inLeft, rfl⟩ := List.mem_map.mp leftBound
      obtain ⟨right, inRight, rfl⟩ := List.mem_map.mp rightBound
      obtain ⟨other, inOther, rfl⟩ := List.mem_map.mp otherBound
      have crossingBack := crossing
      rw [TypeBound.crosses_comm] at crossingBack
      have fits_iff : left.bound.meet table other.bound ≠ .bottom ↔
          right.bound.meet table other.bound ≠ .bottom :=
        ⟨meet_bound_ne_bottom_of_assoc constructed allows assoc inLeft inRight inOther crossing,
          meet_bound_ne_bottom_of_assoc constructed allows assoc inRight inLeft inOther
            crossingBack⟩
      rw [TypeBound.meet_ne_bottom_comm, TypeBound.meet_ne_bottom_comm right.bound] at fits_iff
      exact not_iff_not.mp fits_iff

end Three

end AbstractValue

end PauseFlow
