import PauseFlow.Proofs.Abstract.Refinement
import PauseFlow.Proofs.Abstract.Regular
import PauseFlow.Proofs.Hierarchy.Antisymmetry

namespace PauseFlow

variable {table : ClassTable}

private theorem Nullability.meet?_comm (left right : Nullability) :
    left.meet? right = right.meet? left := by
  cases left <;> cases right <;> rfl

/-- A type that is known exactly is met with a bound in either order. -/
theorem TypeBound.meet_exact_comm (type : JvmType) (bound : TypeBound) :
    (exact type).meet table bound = bound.meet table (exact type) := by
  cases bound with
  | top => rfl
  | bottom => rfl
  | instanceOf other => rfl
  | exact other =>
    simp only [meet, eq_comm]
    split
    · rename_i same
      rw [same]
    · rfl

theorem ReferenceFact.Fits.comm (left right : ReferenceFact) :
    left.Fits table right ↔ right.Fits table left :=
  ⟨.symm, .symm⟩

namespace AbstractValue

variable {left right : ReferenceFact}

theorem meetReferences_eq_bottom_iff (table : ClassTable) (left right : ReferenceFact) :
    meetReferences table left right = .bottom ↔
      ¬ left.Fits table right ∧ ¬ (left.AdmitsNull ∧ right.AdmitsNull) := by
  have overlap := overlap_meetReferences table left right
  generalize meetReferences table left right = known at overlap
  cases overlap with
  | object fits _ _ => exact iff_of_false nofun fun none => none.1 fits
  | onlyNull _ leftNull rightNull =>
    exact iff_of_false nofun fun none => none.2 ⟨leftNull, rightNull⟩
  | nothing unfit excluded => exact iff_of_true rfl ⟨unfit, excluded⟩

private theorem meetReferences_eq_null_iff (table : ClassTable) (left right : ReferenceFact) :
    meetReferences table left right = .null ↔
      ¬ left.Fits table right ∧ left.AdmitsNull ∧ right.AdmitsNull := by
  have overlap := overlap_meetReferences table left right
  generalize meetReferences table left right = known at overlap
  cases overlap with
  | object fits present _ =>
    refine iff_of_false (fun isNull => ?_) fun none => none.1 fits
    simp only [null, reference.injEq, ReferenceFact.mk.injEq] at isNull
    exact present isNull.1
  | onlyNull unfit leftNull rightNull => exact iff_of_true rfl ⟨unfit, leftNull, rightNull⟩
  | nothing _ excluded => exact iff_of_false nofun fun both => excluded both.2

private theorem meet_primitives_comm (leftKind rightKind : PrimitiveKind)
    (left right : Option PrimitiveValue) :
    (primitive leftKind left).meet table (primitive rightKind right) =
      (primitive rightKind right).meet table (primitive leftKind left) := by
  have forward := meet_primitives_cases table leftKind rightKind left right
  have backward := meet_primitives_cases table rightKind leftKind right left
  by_cases agree : leftKind = rightKind ∧ Concur left right
  · obtain ⟨rfl, concur⟩ := agree
    rw [(forward.resolve_right fun clash => clash.1 ⟨rfl, concur⟩).2,
      (backward.resolve_right fun clash => clash.1 ⟨rfl, concur.symm⟩).2, concur.orElse_comm]
  · rw [(forward.resolve_left fun both => agree both.1).2,
      (backward.resolve_left fun both => agree ⟨both.1.1.symm, both.1.2.symm⟩).2]

/-- What two facts have in common, given what their bounds have in common. -/
def meetWith (left right : ReferenceFact) (bound : TypeBound) : AbstractValue :=
  match left.nullability.meet? right.nullability with
  | none => bottom
  | some nullability =>
    if left.constant.isSome && right.constant.isSome && left.constant ≠ right.constant then bottom
    else
      let constant := left.constant <|> right.constant
      if nullability = .null then
        if constant.isSome then bottom else null
      else if bound = .bottom then
        if nullability = .nullable && constant.isNone then null else bottom
      else reference ⟨if constant.isSome then .notNull else nullability, bound, constant⟩

private theorem meetReferences_eq (table : ClassTable) (left right : ReferenceFact) :
    meetReferences table left right = meetWith left right (left.bound.meet table right.bound) := rfl

/-- Apart from the bounds the order of two facts does not matter. -/
theorem meetWith_comm (left right : ReferenceFact) (bound : TypeBound) :
    meetWith left right bound = meetWith right left bound := by
  unfold meetWith
  rw [Nullability.meet?_comm]
  cases right.nullability.meet? left.nullability with
  | none => rfl
  | some both =>
    by_cases concur : Concur left.constant right.constant
    · dsimp only
      rw [if_neg (concur_iff.mp concur), if_neg (concur_iff.mp concur.symm), concur.orElse_comm]
    · have clash := not_not.mp (mt concur_iff.mpr concur)
      have turned := not_not.mp (mt concur_iff.mpr (mt Concur.symm concur))
      dsimp only
      rw [if_pos clash, if_pos turned]

/-- A possible bound is kept as it is, or it does not matter. -/
theorem meetWith_cases (left right : ReferenceFact) :
    (∃ value, ∀ bound, bound ≠ .bottom → meetWith left right bound = value) ∨
    ∃ nullability constant, ∀ bound, bound ≠ .bottom →
      meetWith left right bound = .reference ⟨nullability, bound, constant⟩ := by
  unfold meetWith
  cases left.nullability.meet? right.nullability with
  | none => exact .inl ⟨_, fun _ _ => rfl⟩
  | some both =>
    dsimp only
    split
    · exact .inl ⟨_, fun _ _ => rfl⟩
    · split
      · exact .inl ⟨_, fun _ _ => rfl⟩
      · exact .inr ⟨_, _, fun bound possible => if_neg possible⟩

/-- Where the bounds can be met in either order, the facts can. -/
theorem meetReferences_comm
    (bounds : left.bound.meet table right.bound = right.bound.meet table left.bound) :
    meetReferences table left right = meetReferences table right left := by
  rw [meetReferences_eq, meetReferences_eq, bounds, meetWith_comm]

theorem meet_ne_bottom_comm (left right : AbstractValue) :
    left.meet table right ≠ .bottom ↔ right.meet table left ≠ .bottom := by
  cases left with
  | bottom => cases right <;> exact .rfl
  | top => cases right <;> exact .rfl
  | primitive leftKind leftContent =>
    cases right with
    | primitive rightKind rightContent => rw [meet_primitives_comm]
    | _ => exact .rfl
  | reference leftFact =>
    cases right with
    | reference rightFact =>
      refine not_iff_not.mpr ?_
      rw [AbstractValue.meet, AbstractValue.meet, meetReferences_eq_bottom_iff,
        meetReferences_eq_bottom_iff, ReferenceFact.Fits.comm, and_comm (a := leftFact.AdmitsNull)]
    | _ => exact .rfl

/-- A known object has an exact type, on whichever side it is known. -/
theorem meet_bounds_comm (leftRegular : left.Regular) (rightRegular : right.Regular)
    (known : (left.constant <|> right.constant).isSome = true) :
    left.bound.meet table right.bound = right.bound.meet table left.bound := by
  cases content : left.constant with
  | some own =>
    obtain ⟨_, type, exact⟩ := leftRegular.ofConstant own content
    rw [exact, TypeBound.meet_exact_comm]
  | none =>
    obtain ⟨own, ownKnown⟩ := Option.isSome_iff_exists.mp known
    rw [content] at ownKnown
    obtain ⟨_, type, exact⟩ := rightRegular.ofConstant own ownKnown
    rw [exact, TypeBound.meet_exact_comm]

/-- A meet that is a constant is the same from both sides. -/
theorem meet_comm_of_isConstant {left right : AbstractValue} (leftRegular : left.Regular)
    (rightRegular : right.Regular) (constant : (left.meet table right).isConstant = true) :
    right.meet table left = left.meet table right := by
  cases left with
  | bottom => cases constant
  | top => cases right <;> rfl
  | primitive leftKind leftContent =>
    cases right with
    | primitive rightKind rightContent => exact meet_primitives_comm _ _ _ _
    | _ => rfl
  | reference leftFact =>
    cases right with
    | reference rightFact =>
      rw [AbstractValue.meet] at constant
      have overlap := overlap_meetReferences table leftFact rightFact
      generalize same : meetReferences table leftFact rightFact = met at constant overlap
      cases overlap with
      | nothing _ _ => cases constant
      | onlyNull unfit leftNull rightNull =>
        have turned := (meetReferences_eq_null_iff table rightFact leftFact).mpr
          ⟨mt .symm unfit, rightNull, leftNull⟩
        exact turned.trans same.symm
      | object fits present _ =>
        refine (meetReferences_comm (meet_bounds_comm leftRegular rightRegular ?_)).symm
        simpa [isConstant, present] using constant
    | _ => rfl

end AbstractValue

namespace TypeBound

/-- Of two bounds of which one is under the other, the lower one is the meet in either order. -/
theorem Under.meet_eq (acyclic : table.Acyclic) {lower upper : TypeBound}
    (under : lower.Under table upper) :
    lower.meet table upper = lower ∧ upper.meet table lower = lower := by
  cases under with
  | top lower => exact ⟨meet_top_right lower, meet_top_left lower⟩
  | exact type => simp [meet]
  | exactInstance below => simp [meet, below]
  | @instances lower upper below =>
    refine ⟨by simp [meet, below], ?_⟩
    by_cases above : table.isAssignable upper lower = true
    · rw [acyclic.isAssignable_antisymm below above]
      simp [meet, ClassTable.isAssignable_refl]
    · simp [meet, below, above]

/-- The order of two bounds matters only if they cross. -/
theorem meet_comm_or_crosses (acyclic : table.Acyclic) (left right : TypeBound) :
    left.meet table right = right.meet table left ∨ left.crosses table right = true := by
  by_cases possible : left.meet table right ≠ .bottom
  · rcases meet_cases possible with ⟨under, _⟩ | ⟨under, _⟩ | ⟨crossing, _⟩
    · obtain ⟨forward, backward⟩ := under.meet_eq acyclic
      exact .inl (forward.trans backward.symm)
    · obtain ⟨backward, forward⟩ := under.meet_eq acyclic
      exact .inl (forward.trans backward.symm)
    · exact .inr crossing
  · have turned := mt (meet_ne_bottom_comm left right).mpr possible
    exact .inl ((not_not.mp possible).trans (not_not.mp turned).symm)

private theorem ne_bottom_of_crosses {left right : TypeBound}
    (crossing : left.crosses table right = true) : left ≠ .bottom := by
  obtain ⟨_, _, bound, _⟩ := exists_of_crosses crossing
  rw [bound]
  nofun

private theorem incomparable_of_crosses {leftType rightType : JvmType}
    (crossing : (instanceOf leftType).crosses table (.instanceOf rightType) = true) :
    table.isAssignable leftType rightType = false ∧
      table.isAssignable rightType leftType = false := by
  simp only [crosses, Bool.and_eq_true, Bool.not_eq_true'] at crossing
  exact crossing.1

end TypeBound

namespace AbstractValue

/-- Of two facts whose bounds cross, the first one gives its bound and both of them the rest. -/
theorem meetReferences_of_crosses {left right : ReferenceFact}
    (crossing : left.bound.crosses table right.bound = true) :
    meetReferences table left right = meetReferences table right left ∨
    ∃ nullability constant,
      meetReferences table left right = .reference ⟨nullability, left.bound, constant⟩ ∧
      meetReferences table right left = .reference ⟨nullability, right.bound, constant⟩ := by
  have turned : right.bound.crosses table left.bound = true :=
    TypeBound.crosses_comm left.bound right.bound ▸ crossing
  have leftPossible := TypeBound.ne_bottom_of_crosses crossing
  have rightPossible := TypeBound.ne_bottom_of_crosses turned
  rw [meetReferences_eq, meetReferences_eq, meetWith_comm right left,
    TypeBound.meet_of_crosses crossing, TypeBound.meet_of_crosses turned]
  rcases meetWith_cases left right with ⟨value, always⟩ | ⟨nullability, constant, keeps⟩
  · exact .inl ((always _ leftPossible).trans (always _ rightPossible).symm)
  · exact .inr ⟨nullability, constant, keeps _ leftPossible, keeps _ rightPossible⟩

/-- The order of the operands never decides whether a meet is possible. It changes a meet exactly
if two incomparable bounds are met and more than `null` is common to both facts: then each order
keeps the bound of its first operand, and all else is the same. -/
theorem meet_swapped (acyclic : table.Acyclic) (left right : AbstractValue) :
    (left.meet table right = .bottom ↔ right.meet table left = .bottom) ∧
    (left.meet table right ≠ right.meet table left ↔
      ∃ leftFact rightFact leftType rightType nullability constant,
        left = .reference leftFact ∧ right = .reference rightFact ∧
        leftFact.bound = .instanceOf leftType ∧ rightFact.bound = .instanceOf rightType ∧
        table.isAssignable leftType rightType = false ∧
        table.isAssignable rightType leftType = false ∧
        left.meet table right = .reference ⟨nullability, .instanceOf leftType, constant⟩ ∧
        right.meet table left = .reference ⟨nullability, .instanceOf rightType, constant⟩) := by
  refine ⟨not_iff_not.mp (meet_ne_bottom_comm left right), fun differ => ?_, ?_⟩
  · cases left with
    | bottom => cases right <;> exact absurd rfl differ
    | top => cases right <;> exact absurd rfl differ
    | primitive leftKind leftContent =>
      cases right with
      | primitive rightKind rightContent => exact absurd (meet_primitives_comm _ _ _ _) differ
      | _ => exact absurd rfl differ
    | reference leftFact =>
      cases right with
      | reference rightFact =>
        have crossing := (TypeBound.meet_comm_or_crosses acyclic leftFact.bound
          rightFact.bound).resolve_left fun same => differ (meetReferences_comm same)
        obtain ⟨leftType, rightType, leftBound, rightBound⟩ := TypeBound.exists_of_crosses crossing
        obtain ⟨nullability, constant, forward, backward⟩ :=
          (meetReferences_of_crosses crossing).resolve_left differ
        rw [leftBound] at crossing forward
        rw [rightBound] at crossing backward
        obtain ⟨notBelow, notAbove⟩ := TypeBound.incomparable_of_crosses crossing
        exact ⟨leftFact, rightFact, leftType, rightType, nullability, constant, rfl, rfl,
          leftBound, rightBound, notBelow, notAbove, forward, backward⟩
      | _ => exact absurd rfl differ
  · rintro ⟨_, _, leftType, rightType, _, _, _, _, _, _, notBelow, _, forward, backward⟩ same
    rw [forward, backward] at same
    cases same
    rw [ClassTable.isAssignable_refl] at notBelow
    cases notBelow

/-- Arrays of nodes that may be `null` and arrays of walkers that may not. -/
theorem meet_swapped_arrays :
    let nodes := ofType (.arrayOf (.ofClass ⟨2⟩))
    let walkers := notNull (.instanceOf (.arrayOf (.ofClass ⟨3⟩)))
    ClassTable.smallWithInterface.Acyclic ∧ ∃ nullability constant,
      nodes.meet .smallWithInterface walkers =
        .reference ⟨nullability, .instanceOf (.arrayOf (.ofClass ⟨2⟩)), constant⟩ ∧
      walkers.meet .smallWithInterface nodes =
        .reference ⟨nullability, .instanceOf (.arrayOf (.ofClass ⟨3⟩)), constant⟩ := by
  intro nodes walkers
  have acyclic : ClassTable.smallWithInterface.Acyclic :=
    fun link => ClassTable.legal_smallWithInterface.acyclic link
  obtain ⟨_, _, _, _, nullability, constant, sameNodes, sameWalkers, nodesBound, walkersBound, _, _,
    forward, backward⟩ := (meet_swapped acyclic nodes walkers).2.mp (by decide +kernel)
  obtain rfl := AbstractValue.reference.inj sameNodes
  obtain rfl := AbstractValue.reference.inj sameWalkers
  cases nodesBound
  cases walkersBound
  exact ⟨acyclic, nullability, constant, forward, backward⟩

end AbstractValue

end PauseFlow
