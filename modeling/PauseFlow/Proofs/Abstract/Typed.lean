import PauseFlow.Proofs.Abstract.Regular

namespace PauseFlow

/-- Knowledge about references as declarations and meets give it: some type fits, `null` comes
without a type, and known content means an object. -/
structure ReferenceFact.Reduced (fact : ReferenceFact) : Prop where
  possible : fact.bound ≠ .bottom
  ofNull : fact.nullability = .null → fact = ⟨.null, .top, none⟩
  ofContent : fact.constant.isSome → fact.nullability = .notNull

namespace AbstractValue

/-- Knowledge about values of a sort. -/
inductive Typed : ValueSort → AbstractValue → Prop where
  | primitive (kind : PrimitiveKind) (content : Option PrimitiveValue) :
      Typed (.primitive kind) (.primitive kind content)
  | reference {fact : ReferenceFact} (reduced : fact.Reduced) : Typed .reference (.reference fact)

variable {table : ClassTable} {sort : ValueSort} {known other : AbstractValue}

theorem typed_ofType (type : JvmType) : Typed type.sort (ofType type) := by
  cases type with
  | primitive kind => exact .primitive kind none
  | ofClass id => exact .reference ⟨nofun, nofun, nofun⟩
  | arrayOf element => exact .reference ⟨nofun, nofun, nofun⟩

theorem typed_null : Typed .reference null := .reference ⟨nofun, fun _ => rfl, nofun⟩

theorem typed_meetReferences {left right : ReferenceFact}
    (possible : meetReferences table left right ≠ .bottom) :
    Typed .reference (meetReferences table left right) := by
  revert possible
  simp only [meetReferences]
  split
  · exact fun impossible => absurd rfl impossible
  · split
    · exact fun impossible => absurd rfl impossible
    · split
      · split
        · exact fun impossible => absurd rfl impossible
        · exact fun _ => typed_null
      · rename_i present
        split
        · split
          · exact fun _ => typed_null
          · exact fun impossible => absurd rfl impossible
        · rename_i fits
          refine fun _ => .reference ⟨fits, fun isNull => ?_, fun content => if_pos content⟩
          dsimp only at isNull
          split at isNull
          · cases isNull
          · exact absurd isNull present

private theorem typed_meetPrimitives {kind otherKind : PrimitiveKind}
    {content otherContent : Option PrimitiveValue}
    (possible : (primitive kind content).meet table (primitive otherKind otherContent) ≠ .bottom) :
    kind = otherKind ∧
      Typed (.primitive kind) ((primitive kind content).meet table
        (primitive otherKind otherContent)) := by
  simp only [AbstractValue.meet] at possible ⊢
  split at possible
  · exact absurd rfl possible
  · rename_i same
    split at possible
    · exact absurd rfl possible
    · rename_i agree
      rw [if_neg same, if_neg agree]
      exact ⟨not_not.mp same, .primitive kind _⟩

theorem Typed.meet (typed : Typed sort known) (possible : known.meet table other ≠ .bottom) :
    Typed sort (known.meet table other) := by
  cases typed with
  | primitive kind content =>
    cases other with
    | bottom => exact absurd rfl possible
    | top => exact .primitive kind content
    | reference fact => exact absurd rfl possible
    | primitive otherKind otherContent => exact (typed_meetPrimitives possible).2
  | reference reduced =>
    cases other with
    | bottom => exact absurd rfl possible
    | top => exact .reference reduced
    | primitive kind content => exact absurd rfl possible
    | reference fact => exact typed_meetReferences possible

theorem Typed.meet_right (typed : Typed sort known) (possible : other.meet table known ≠ .bottom) :
    Typed sort (other.meet table known) := by
  cases typed with
  | primitive kind content =>
    cases other with
    | bottom => exact absurd rfl possible
    | top => exact .primitive kind content
    | reference fact => exact absurd rfl possible
    | primitive otherKind otherContent =>
      obtain ⟨rfl, typed⟩ := typed_meetPrimitives possible
      exact typed
  | reference reduced =>
    cases other with
    | bottom => exact absurd rfl possible
    | top => exact .reference reduced
    | primitive kind content => exact absurd rfl possible
    | reference fact => exact typed_meetReferences possible

/-- Knowing a primitive constant, `null`, or an object by content leaves nothing to refine. -/
inductive Definite : AbstractValue → Prop where
  | primitive (kind : PrimitiveKind) (value : PrimitiveValue) :
      Definite (.primitive kind (some value))
  | null : Definite .null
  | object (type : JvmType) (content : ReferenceConstant) :
      Definite (.reference ⟨.notNull, .exact type, some content⟩)

theorem Constructed.definite {constant : AbstractValue} (constructed : Constructed constant)
    (isConstant : constant.isConstant = true) : Definite constant := by
  cases constructed with
  | ofType type => cases type <;> cases isConstant
  | primitive kind value => exact .primitive kind value
  | null => exact .null
  | notNull bound => cases isConstant
  | stringConstant text owner => exact .object _ _
  | enumConstant owner name => exact .object _ _

theorem Definite.isConstant {constant : AbstractValue} (definite : Definite constant) :
    constant.isConstant = true := by
  cases definite <;> rfl

/-- Whatever is known, a constant refines it or contradicts it. -/
theorem Definite.meet {constant : AbstractValue} (definite : Definite constant)
    (known : AbstractValue) :
    known.meet table constant = constant ∨ known.meet table constant = .bottom := by
  cases known with
  | bottom => exact .inr rfl
  | top => cases definite <;> exact .inl rfl
  | primitive kind content =>
    cases definite with
    | null => exact .inr rfl
    | object type content => exact .inr rfl
    | primitive otherKind value =>
      by_cases same : kind = otherKind
      · subst same
        cases content with
        | none => exact .inl (by simp [AbstractValue.meet])
        | some own =>
          by_cases agree : own = value
          · exact .inl (by simp [AbstractValue.meet, agree])
          · exact .inr (by simp [AbstractValue.meet, agree])
      · exact .inr (by simp [AbstractValue.meet, same])
  | reference fact =>
    obtain ⟨nullability, bound, own⟩ := fact
    cases definite with
    | primitive kind value => exact .inr rfl
    | null =>
      cases nullability <;> cases own <;>
        simp [AbstractValue.meet, AbstractValue.null, meetReferences, Nullability.meet?]
    | object type content =>
      have agree : own = none ∨ own = some content ∨
          ∃ other, own = some other ∧ other ≠ content := by
        cases own with
        | none => exact .inl rfl
        | some other => exact .inr ((em (other = content)).imp (congrArg some) (⟨other, rfl, ·⟩))
      have exactness : bound.meet table (.exact type) = .exact type ∨
          bound.meet table (.exact type) = .bottom := meet_exact_right bound type
      rcases exactness with exact | empty
      all_goals
        rcases agree with rfl | rfl | ⟨other, rfl, different⟩ <;> cases nullability <;>
          simp [AbstractValue.meet, meetReferences, Nullability.meet?, *]

end AbstractValue

end PauseFlow
