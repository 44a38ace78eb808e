/-! Strict total orders on keys. A container kept in key order has one written
form for each content, so equality of contents is equality of data. -/
namespace PauseFlow

/-- A decidable strict total order, used to keep entries in one order. -/
class KeyOrder (Key : Type) where
  before : Key → Key → Bool
  irreflexive : ∀ key, before key key = false
  transitive : ∀ {first second third}, before first second = true →
    before second third = true → before first third = true
  connected : ∀ {left right}, before left right = false →
    before right left = false → left = right

namespace KeyOrder

variable {Key : Type} [KeyOrder Key]

theorem asymmetric {left right : Key} (ordered : before left right = true) :
    before right left = false := by
  cases flipped : before right left with
  | false => rfl
  | true => exact absurd (transitive ordered flipped) (by simp [irreflexive])

theorem ne_of_before {left right : Key} (ordered : before left right = true) :
    left ≠ right := by
  intro same
  subst same
  simp [irreflexive] at ordered

instance : KeyOrder Nat where
  before left right := decide (left < right)
  irreflexive key := by simp
  transitive := by simp; omega
  connected := by simp; omega

/-- Pairs are compared by the first component, then by the second. -/
instance {Second : Type} [KeyOrder Second] : KeyOrder (Key × Second) where
  before left right := before left.1 right.1 ||
    (!before right.1 left.1 && before left.2 right.2)
  irreflexive key := by simp [irreflexive]
  transitive := by
    intro first second third left right
    simp only [Bool.or_eq_true, Bool.and_eq_true, Bool.not_eq_eq_eq_not,
      Bool.not_true] at left right ⊢
    rcases left with left | ⟨leftTie, left⟩
    · rcases right with right | ⟨rightTie, _⟩
      · exact .inl (transitive left right)
      · cases step : before second.1 third.1 with
        | true => exact .inl (transitive left step)
        | false => exact .inl (connected step rightTie ▸ left)
    · cases step : before first.1 second.1 with
      | true =>
        rcases right with right | ⟨rightTie, _⟩
        · exact .inl (transitive step right)
        · cases next : before second.1 third.1 with
          | true => exact .inl (transitive step next)
          | false => exact .inl (connected next rightTie ▸ step)
      | false =>
        have same := connected step leftTie
        rw [same]
        rcases right with right | ⟨rightTie, right⟩
        · exact .inl right
        · exact .inr ⟨rightTie, transitive left right⟩
  connected := by
    intro left right notLeft notRight
    simp only [Bool.or_eq_false_iff, Bool.and_eq_false_imp, Bool.not_eq_eq_eq_not,
      Bool.not_true] at notLeft notRight
    exact Prod.ext (connected notLeft.1 notRight.1)
      (connected (notLeft.2 notRight.1) (notRight.2 notLeft.1))

end KeyOrder

end PauseFlow
