import PauseFlow.Proofs.Abstract.Bracketing
import PauseFlow.Proofs.Hierarchy.Unsealed

namespace PauseFlow

namespace AbstractValue

/-- Known content of a reference means an object, `null` comes without a type, and some type fits.
Nothing is asked of the other values. -/
def Canonical : AbstractValue → Prop
  | reference fact => fact.Reduced
  | _ => True

variable {table : ClassTable} {left right value : AbstractValue}

private theorem Typed.canonical {sort : ValueSort} (typed : Typed sort value) : value.Canonical :=
    by
  cases typed with
  | primitive kind content => trivial
  | reference reduced => exact reduced

private theorem Constructed.canonical (constructed : Constructed value)
    (possible : value.bound ≠ .bottom) : value.Canonical := by
  obtain ⟨sort, typed⟩ := constructed.typed possible
  exact typed.canonical

private theorem Declared.canonical (declared : Declared value) : value.Canonical := by
  cases declared with
  | ofType type => exact (typed_ofType type).canonical
  | top => trivial

private theorem canonical_meetReferences (left right : ReferenceFact) :
    (meetReferences table left right).Canonical := by
  by_cases possible : meetReferences table left right = .bottom
  · rw [possible]
    trivial
  · exact (typed_meetReferences possible).canonical

private theorem canonical_meet (leftCanonical : left.Canonical) (rightCanonical : right.Canonical) :
    (left.meet table right).Canonical := by
  cases left with
  | bottom => trivial
  | top => cases right <;> exact rightCanonical
  | primitive leftKind leftContent =>
    cases right with
    | primitive rightKind rightContent =>
      rcases meet_primitives_cases table leftKind rightKind leftContent rightContent with
        ⟨_, result⟩ | ⟨_, result⟩ <;> rw [result] <;> trivial
    | _ => trivial
  | reference leftFact =>
    cases right with
    | top => exact leftCanonical
    | reference rightFact => exact canonical_meetReferences leftFact rightFact
    | _ => trivial

private theorem meetReferences_self {fact : ReferenceFact} (reduced : fact.Reduced) :
    meetReferences table fact fact = .reference fact := by
  by_cases isNull : fact.nullability = .null
  · rw [reduced.ofNull isNull]
    rfl
  · obtain ⟨nullability, bound, content⟩ := fact
    have possible : bound ≠ .bottom := reduced.possible
    have present : nullability ≠ .null := isNull
    have both : nullability.meet? nullability = some nullability := by cases nullability <;> rfl
    have ofContent : content.isSome → nullability = .notNull := reduced.ofContent
    have known : (if content.isSome then .notNull else nullability) = nullability := by
      split
      · exact (ofContent ‹_›).symm
      · rfl
    simp [meetReferences, both, present, TypeBound.meet_self, possible, known]

private theorem Canonical.meet_self (canonical : value.Canonical) : value.meet table value =
    value := by
  cases value with
  | bottom => rfl
  | top => rfl
  | reference fact => exact meetReferences_self canonical
  | primitive kind content =>
    rcases meet_primitives_cases table kind kind content content with
      ⟨_, result⟩ | ⟨different, _⟩
    · rw [result]
      cases content <;> rfl
    · exact absurd ⟨rfl, .refl content⟩ different

end AbstractValue

section Unsealed

variable {table : ClassTable}

private theorem TypeBound.meet_unsealed (left right : TypeBound) :
    left.meet table.unsealed right = left.meet table right := by
  cases left <;> cases right <;>
    simp only [meet, ClassTable.isAssignable_unsealed, ClassTable.mayShareSubtype_unsealed]

private theorem TypeBound.crosses_unsealed (left right : TypeBound) :
    left.crosses table.unsealed right = left.crosses table right := by
  cases left <;> cases right <;>
    simp only [crosses, ClassTable.isAssignable_unsealed, ClassTable.mayShareSubtype_unsealed]

private theorem TypeBound.holds_unsealed (bound : TypeBound) (type : JvmType) :
    bound.Holds table.unsealed type = bound.Holds table type := by
  cases bound <;> simp only [Holds, ClassTable.isAssignable_unsealed]

/-- The same objects over the unsealed table. -/
def World.unsealed (world : World table) : World table.unsealed where
  typeOf := world.typeOf
  contentOf := world.contentOf
  runtimeType id := (table.isRuntimeType_unsealed_iff _).mpr (world.runtimeType id)
  uniqueCase := world.uniqueCase

namespace AbstractValue

private theorem meet_unsealed (left right : AbstractValue) :
    left.meet table.unsealed right = left.meet table right := by
  cases left <;> cases right <;> simp only [meet, meetReferences, TypeBound.meet_unsealed]

private theorem contains_unsealed (world : World table) (known : AbstractValue)
    (value : RuntimeValue) : known.Contains world.unsealed value = known.Contains world value := by
  cases known <;> cases value <;>
    simp only [Contains, ReferenceFact.AdmitsObject, TypeBound.holds_unsealed, World.unsealed]

/-- The meet of canonical values keeps every value that both sides stand for and adds none to the
left side, nor to the right side unless the bounds cross. It is canonical again, and learning the
same thing twice changes nothing. -/
theorem canonical_meet_narrows (hierarchical : table.Hierarchical) {left right : AbstractValue}
    (leftCanonical : left.Canonical) (rightCanonical : right.Canonical) :
    (∀ (world : World table) (value : RuntimeValue), left.Contains world value →
      right.Contains world value → (left.meet table right).Contains world value) ∧
    (left.meet table right).Refines table left ∧
    (left.bound.crosses table right.bound = false →
      (left.meet table right).Refines table right) ∧
    (left.meet table right).Canonical ∧ left.meet table left = left := by
  have legal := hierarchical.legal_unsealed
  refine ⟨fun world value inLeft inRight => ?_, fun world value contains => ?_,
    fun uncrossed world value contains => ?_, canonical_meet leftCanonical rightCanonical,
    leftCanonical.meet_self⟩
  · rw [← contains_unsealed, ← meet_unsealed]
    rw [← contains_unsealed] at inLeft inRight
    exact contains_meet legal inLeft inRight
  · rw [← contains_unsealed, ← meet_unsealed] at contains
    rw [← contains_unsealed]
    exact (contains_of_meet legal contains).1
  · rw [← contains_unsealed, ← meet_unsealed] at contains
    rw [← contains_unsealed]
    rw [← TypeBound.crosses_unsealed] at uncrossed
    exact (contains_of_meet legal contains).2 uncrossed

theorem canonical_meet_narrows_string :
    let object := AbstractValue.ofType (.ofClass ⟨0⟩)
    let string := AbstractValue.notNull (.exact (.ofClass ⟨1⟩))
    let strings : World .small := World.ofType (.ofClass ⟨1⟩) ⟨_, rfl, rfl⟩
    (object.meet .small string).Contains strings (.object 0) ∧
      (object.meet .small string).Refines .small object ∧
      (object.meet .small string).Refines .small string ∧
      (object.meet .small string).Canonical ∧ object.meet .small object = object := by
  intro object string strings
  have ⟨sound, left, right, again, same⟩ :=
    canonical_meet_narrows ClassTable.legal_small.hierarchical
      (Declared.ofType (.ofClass ⟨0⟩)).canonical
      ((Constructed.notNull (.exact (.ofClass ⟨1⟩))).canonical nofun)
  have below : ClassTable.small.isAssignable (.ofClass ⟨1⟩) (.ofClass ⟨0⟩) = true := by decide
  exact ⟨sound strings (.object 0) ⟨nofun, below, nofun⟩ ⟨nofun, rfl, nofun⟩, left, right rfl,
    again, same⟩

end AbstractValue

end Unsealed

end PauseFlow
