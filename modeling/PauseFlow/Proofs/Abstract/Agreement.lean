import Mathlib.Data.List.Perm.Basic
import PauseFlow.Proofs.Abstract.Swapping
import PauseFlow.Proofs.Abstract.Typed

/-! When a meet of several values is possible. Where no bound contradicts only one of two bounds
that cross, it is possible as soon as the values agree in pairs, so neither order nor bracketing
matters. -/
namespace PauseFlow

variable {table : ClassTable}

/-- No bound contradicts only one of two bounds that cross. -/
def TypeBound.Balanced (table : ClassTable) (bounds : List TypeBound) : Prop :=
  ∀ left ∈ bounds, ∀ right ∈ bounds, left.crosses table right = true → ∀ other ∈ bounds,
    (other.meet table left = .bottom ↔ other.meet table right = .bottom)

instance (bounds : List TypeBound) : Decidable (TypeBound.Balanced table bounds) := by
  unfold TypeBound.Balanced
  infer_instance

theorem TypeBound.meet_self (bound : TypeBound) : bound.meet table bound = bound := by
  cases bound with
  | top => rfl
  | bottom => rfl
  | exact type => simp [meet]
  | instanceOf type => simp [meet, ClassTable.isAssignable_refl]

private theorem TypeBound.Balanced.cons_top {bounds : List TypeBound}
    (balanced : Balanced table bounds) : Balanced table (.top :: bounds) := by
  intro left leftMember right rightMember crossing other member
  obtain ⟨leftType, rightType, rfl, rfl⟩ := exists_of_crosses crossing
  rcases List.mem_cons.mp member with rfl | member
  · exact iff_of_false nofun nofun
  · exact balanced _ (by simpa using leftMember) _ (by simpa using rightMember) crossing other
      member

theorem TypeBound.Balanced.perm {bounds permuted : List TypeBound}
    (balanced : Balanced table bounds) (perm : bounds.Perm permuted) :
    Balanced table permuted :=
  fun left leftMember right rightMember crossing other member =>
    balanced left (perm.mem_iff.mpr leftMember) right (perm.mem_iff.mpr rightMember) crossing other
      (perm.mem_iff.mpr member)

namespace ReferenceFact

variable {left right other : ReferenceFact}

theorem Fits.self (fits : left.Fits table right) : left.Fits table left where
  leftPresent := fits.leftPresent
  rightPresent := fits.leftPresent
  bound := by
    rw [TypeBound.meet_self]
    intro empty
    exact fits.bound (by rw [empty, TypeBound.meet_bottom_left])
  content := .refl _

/-- A fact fits what two facts say together exactly when it fits each of them. -/
theorem Fits.meet_iff (fits : left.Fits table right) (legal : table.Legal)
    (even : left.bound.crosses table right.bound = true →
      (other.bound.meet table left.bound = .bottom ↔ other.bound.meet table right.bound = .bottom))
    {nullability : Nullability} (present : nullability ≠ .null) :
    other.Fits table ⟨nullability, left.bound.meet table right.bound,
        left.constant <|> right.constant⟩ ↔ other.Fits table left ∧ other.Fits table right := by
  have bounds := TypeBound.meet_meet_ne_bottom_iff legal fits.bound even
  constructor
  · intro both
    have ⟨leftBound, rightBound⟩ := bounds.mp both.bound
    have ⟨leftContent, rightContent⟩ := fits.content.orElse_iff.mp both.content
    exact ⟨⟨both.leftPresent, fits.leftPresent, leftBound, leftContent⟩,
      ⟨both.leftPresent, fits.rightPresent, rightBound, rightContent⟩⟩
  · rintro ⟨inLeft, inRight⟩
    exact ⟨inLeft.leftPresent, present, bounds.mpr ⟨inLeft.bound, inRight.bound⟩,
      fits.content.orElse_iff.mpr ⟨inLeft.content, inRight.content⟩⟩

end ReferenceFact

namespace AbstractValue

/-- What a value of a running program looks like, as far as meets tell values apart. -/
inductive Shape where
  | primitive (kind : PrimitiveKind)
  | null
  | object

/-- Two values agree on a shape if some value of that shape may be what both of them say. -/
inductive Agrees (table : ClassTable) : Shape → AbstractValue → AbstractValue → Prop where
  | primitive {kind : PrimitiveKind} {left right : Option PrimitiveValue}
      (concur : Concur left right) :
      Agrees table (.primitive kind) (.primitive kind left) (.primitive kind right)
  | null {left right : ReferenceFact} (leftNull : left.AdmitsNull) (rightNull : right.AdmitsNull) :
      Agrees table .null (.reference left) (.reference right)
  | object {left right : ReferenceFact} (fits : left.Fits table right) :
      Agrees table .object (.reference left) (.reference right)

namespace Agrees

variable {shape : Shape} {left right : AbstractValue}

theorem symm (agrees : Agrees table shape left right) : Agrees table shape right left := by
  cases agrees with
  | primitive concur => exact .primitive concur.symm
  | null leftNull rightNull => exact .null rightNull leftNull
  | object fits => exact .object fits.symm

theorem self (agrees : Agrees table shape left right) : Agrees table shape left left := by
  cases agrees with
  | primitive _ => exact .primitive (.refl _)
  | null leftNull rightNull => exact .null leftNull leftNull
  | object fits => exact .object fits.self

theorem comm (left right : AbstractValue) :
    Agrees table shape left right ↔ Agrees table shape right left := ⟨symm, symm⟩

end Agrees

variable {shape : Shape} {left right other : AbstractValue}

/-- A meet of two values of some sort is possible exactly when they agree on some shape. -/
theorem meet_ne_bottom_iff {leftSort rightSort : ValueSort} (leftTyped : Typed leftSort left)
    (rightTyped : Typed rightSort right) :
    left.meet table right ≠ .bottom ↔ ∃ shape, Agrees table shape left right := by
  cases leftTyped with
  | primitive kind content =>
    cases rightTyped with
    | reference _ => exact iff_of_false (fun possible => possible rfl) (by rintro ⟨_, ⟨⟩⟩)
    | primitive otherKind otherContent =>
      rcases meet_primitives_cases table kind otherKind content otherContent with
        ⟨⟨rfl, concur⟩, result⟩ | ⟨clash, result⟩
      · rw [result]
        exact iff_of_true nofun ⟨.primitive kind, .primitive concur⟩
      · rw [result]
        refine iff_of_false (fun possible => possible rfl) ?_
        rintro ⟨_, ⟨concur⟩⟩
        exact clash ⟨rfl, concur⟩
  | @reference left _ =>
    cases rightTyped with
    | primitive kind content =>
      exact iff_of_false (fun possible => possible rfl) (by rintro ⟨_, ⟨⟩⟩)
    | @reference right _ =>
      change meetReferences table left right ≠ .bottom ↔ _
      have overlap := overlap_meetReferences table left right
      generalize meetReferences table left right = known at overlap
      cases overlap with
      | object fits _ _ => exact iff_of_true nofun ⟨.object, .object fits⟩
      | onlyNull _ leftNull rightNull => exact iff_of_true nofun ⟨.null, .null leftNull rightNull⟩
      | nothing unfit excluded =>
        refine iff_of_false (fun possible => possible rfl) ?_
        rintro ⟨_, ⟨⟩ | ⟨leftNull, rightNull⟩ | ⟨fits⟩⟩
        · exact excluded ⟨leftNull, rightNull⟩
        · exact unfit fits

private theorem not_agrees_bottom (shape : Shape) (other : AbstractValue) :
    ¬ Agrees table shape other .bottom := nofun

private theorem agrees_meetPrimitives_iff {leftKind rightKind : PrimitiveKind}
    {leftContent rightContent : Option PrimitiveValue} :
    Agrees table shape other
        ((primitive leftKind leftContent).meet table (primitive rightKind rightContent)) ↔
      Agrees table shape (primitive leftKind leftContent) (primitive rightKind rightContent) ∧
        Agrees table shape other (primitive leftKind leftContent) ∧
          Agrees table shape other (primitive rightKind rightContent) := by
  rcases meet_primitives_cases table leftKind rightKind leftContent rightContent with
    ⟨⟨rfl, concur⟩, result⟩ | ⟨clash, result⟩
  · rw [result]
    constructor
    · rintro ⟨own⟩
      have ⟨inLeft, inRight⟩ := concur.orElse_iff.mp own
      exact ⟨.primitive concur, .primitive inLeft, .primitive inRight⟩
    · rintro ⟨_, ⟨inLeft⟩, ⟨inRight⟩⟩
      exact .primitive (concur.orElse_iff.mpr ⟨inLeft, inRight⟩)
  · rw [result]
    refine iff_of_false (not_agrees_bottom shape other) ?_
    rintro ⟨⟨concur⟩, _⟩
    exact clash ⟨rfl, concur⟩

private theorem agrees_meetReferences_iff (legal : table.Legal) {left right : ReferenceFact}
    (even : shape = .object → left.bound.crosses table right.bound = true →
      (other.bound.meet table left.bound = .bottom ↔
        other.bound.meet table right.bound = .bottom)) :
    Agrees table shape other (meetReferences table left right) ↔
      Agrees table shape (reference left) (reference right) ∧
        Agrees table shape other (reference left) ∧
          Agrees table shape other (reference right) := by
  have overlap := overlap_meetReferences table left right
  generalize meetReferences table left right = known at overlap
  cases overlap with
  | nothing unfit excluded =>
    refine iff_of_false (not_agrees_bottom shape other) ?_
    rintro ⟨⟨⟩ | ⟨leftNull, rightNull⟩ | ⟨fits⟩, _⟩
    · exact excluded ⟨leftNull, rightNull⟩
    · exact unfit fits
  | onlyNull unfit leftNull rightNull =>
    constructor
    · rintro (⟨⟩ | ⟨own, _⟩ | ⟨fits⟩)
      · exact ⟨.null leftNull rightNull, .null own leftNull, .null own rightNull⟩
      · exact absurd rfl fits.rightPresent
    · rintro ⟨_ | _ | ⟨fits⟩, inLeft, _⟩
      · cases inLeft with
        | null own _ => exact .null own ⟨nofun, rfl⟩
      · exact absurd fits unfit
  | object fits present nullable =>
    constructor
    · rintro (⟨⟩ | ⟨own, both⟩ | ⟨both⟩)
      · have ⟨leftNull, rightNull⟩ := nullable.mp both
        exact ⟨.null leftNull rightNull, .null own leftNull, .null own rightNull⟩
      · have ⟨inLeft, inRight⟩ := (fits.meet_iff legal (even rfl) present).mp both
        exact ⟨.object fits, .object inLeft, .object inRight⟩
    · rintro ⟨_ | ⟨leftNull, rightNull⟩ | _, inLeft, inRight⟩
      · cases inLeft with
        | null own _ => exact .null own (nullable.mpr ⟨leftNull, rightNull⟩)
      · cases inLeft with
        | object inLeft =>
          cases inRight with
          | object inRight =>
            exact .object ((fits.meet_iff legal (even rfl) present).mpr ⟨inLeft, inRight⟩)

/-- A value agrees with a meet exactly when all three agree in pairs, unless the meet loses one of
two bounds that cross and only one of them contradicts the value. -/
theorem agrees_meet_iff (legal : table.Legal) {leftSort rightSort : ValueSort}
    (leftTyped : Typed leftSort left) (rightTyped : Typed rightSort right)
    (even : shape = .object → left.bound.crosses table right.bound = true →
      (other.bound.meet table left.bound = .bottom ↔
        other.bound.meet table right.bound = .bottom)) :
    Agrees table shape other (left.meet table right) ↔
      Agrees table shape left right ∧ Agrees table shape other left ∧
        Agrees table shape other right := by
  cases leftTyped with
  | primitive kind content =>
    cases rightTyped with
    | primitive otherKind otherContent => exact agrees_meetPrimitives_iff
    | reference _ =>
      exact iff_of_false (not_agrees_bottom shape other) fun agrees => nomatch agrees.1
  | reference _ =>
    cases rightTyped with
    | primitive kind content =>
      exact iff_of_false (not_agrees_bottom shape other) fun agrees => nomatch agrees.1
    | reference _ => exact agrees_meetReferences_iff legal even

/-- Values of some sort whose bounds are among the given ones. -/
structure Among (bounds : List TypeBound) (value : AbstractValue) : Prop where
  typed : ∃ sort, Typed sort value
  bound : value.bound ∈ bounds

section Lists

variable {bounds : List TypeBound}

private theorem bound_meetReferences {left right : ReferenceFact}
    (unbounded : TypeBound.top ∈ bounds) (inLeft : left.bound ∈ bounds)
    (inRight : right.bound ∈ bounds) (possible : meetReferences table left right ≠ .bottom) :
    (meetReferences table left right).bound ∈ bounds := by
  have overlap := overlap_meetReferences table left right
  generalize meetReferences table left right = known at overlap possible
  cases overlap with
  | nothing _ _ => exact absurd rfl possible
  | onlyNull _ _ _ => exact unbounded
  | object fits _ _ =>
    change left.bound.meet table right.bound ∈ bounds
    rcases TypeBound.meet_cases fits.bound with ⟨_, same⟩ | ⟨_, same⟩ | ⟨_, same⟩
    · rwa [same]
    · rwa [same]
    · rwa [same]

private theorem Among.meet (unbounded : TypeBound.top ∈ bounds) (inLeft : Among bounds left)
    (inRight : Among bounds right) (possible : left.meet table right ≠ .bottom) :
    Among bounds (left.meet table right) := by
  obtain ⟨⟨leftSort, leftTyped⟩, leftBound⟩ := inLeft
  obtain ⟨⟨rightSort, rightTyped⟩, rightBound⟩ := inRight
  refine ⟨⟨leftSort, leftTyped.meet possible⟩, ?_⟩
  cases leftTyped with
  | primitive kind content =>
    cases rightTyped with
    | reference _ => exact absurd rfl possible
    | primitive otherKind otherContent =>
      rcases meet_primitives_cases table kind otherKind content otherContent with
        ⟨_, result⟩ | ⟨_, result⟩
      · rw [result]
        exact unbounded
      · exact absurd result possible
  | reference _ =>
    cases rightTyped with
    | primitive kind content => exact absurd rfl possible
    | reference _ => exact bound_meetReferences unbounded leftBound rightBound possible

variable (legal : table.Legal) (unbounded : TypeBound.top ∈ bounds)
  (balanced : shape = .object → TypeBound.Balanced table bounds)

include legal balanced in
private theorem Among.agrees_meet_iff (inLeft : Among bounds left) (inRight : Among bounds right)
    (inOther : Among bounds other) :
    Agrees table shape other (left.meet table right) ↔
      Agrees table shape left right ∧ Agrees table shape other left ∧
        Agrees table shape other right := by
  obtain ⟨leftSort, leftTyped⟩ := inLeft.typed
  obtain ⟨rightSort, rightTyped⟩ := inRight.typed
  exact AbstractValue.agrees_meet_iff legal leftTyped rightTyped fun object crossing =>
    balanced object _ inLeft.bound _ inRight.bound crossing _ inOther.bound

include legal unbounded balanced in
/-- A meet has a shape exactly when both sides agree on it. -/
theorem Among.agrees_self_iff (inLeft : Among bounds left) (inRight : Among bounds right)
    (possible : left.meet table right ≠ .bottom) :
    Agrees table shape (left.meet table right) (left.meet table right) ↔
      Agrees table shape left right := by
  have inBoth := inLeft.meet unbounded inRight possible
  rw [inLeft.agrees_meet_iff legal balanced inRight inBoth]
  refine ⟨And.left, fun agrees => ⟨agrees, ?_, ?_⟩⟩
  · exact ((inLeft.agrees_meet_iff legal balanced inRight inLeft).mpr
      ⟨agrees, agrees.self, agrees⟩).symm
  · exact ((inLeft.agrees_meet_iff legal balanced inRight inRight).mpr
      ⟨agrees, agrees.symm, agrees.symm.self⟩).symm

theorem foldl_meet_bottom (table : ClassTable) (values : List AbstractValue) :
    values.foldl (AbstractValue.meet table) .bottom = .bottom := by
  induction values with
  | nil => rfl
  | cons first rest ih => exact ih

include legal unbounded balanced in
/-- The first two values of a list can be replaced by their meet. -/
private theorem agrees_cons_meet_iff {first second : AbstractValue} {rest : List AbstractValue}
    (inFirst : Among bounds first) (inSecond : Among bounds second)
    (inRest : ∀ value ∈ rest, Among bounds value) (possible : first.meet table second ≠ .bottom) :
    ((∀ value ∈ first.meet table second :: rest, Agrees table shape value value) ∧
        (first.meet table second :: rest).Pairwise (Agrees table shape)) ↔
      (∀ value ∈ first :: second :: rest, Agrees table shape value value) ∧
        (first :: second :: rest).Pairwise (Agrees table shape) := by
  have meets_iff : ∀ value ∈ rest, Agrees table shape (first.meet table second) value ↔
      Agrees table shape first second ∧ Agrees table shape first value ∧
        Agrees table shape second value := by
    intro value member
    rw [Agrees.comm, inFirst.agrees_meet_iff legal balanced inSecond (inRest value member),
      Agrees.comm value, Agrees.comm value]
  simp only [List.forall_mem_cons, List.pairwise_cons,
    inFirst.agrees_self_iff legal unbounded balanced inSecond possible]
  constructor
  · rintro ⟨⟨both, each⟩, meets, pairs⟩
    have parts := fun value member => (meets_iff value member).mp (meets value member)
    exact ⟨⟨both.self, both.symm.self, each⟩,
      ⟨both, fun value member => (parts value member).2.1⟩,
      fun value member => (parts value member).2.2, pairs⟩
  · rintro ⟨⟨_, _, each⟩, ⟨both, firstMeets⟩, secondMeets, pairs⟩
    refine ⟨⟨both, each⟩, fun value member => ?_, pairs⟩
    exact (meets_iff value member).mpr ⟨both, firstMeets value member, secondMeets value member⟩

include legal unbounded balanced in
/-- A meet of several values has a shape exactly when each of them has it and any two agree. -/
theorem agrees_foldl_iff {first : AbstractValue} {rest : List AbstractValue}
    (among : ∀ value ∈ first :: rest, Among bounds value) :
    Agrees table shape (rest.foldl (AbstractValue.meet table) first)
        (rest.foldl (AbstractValue.meet table) first) ↔
      (∀ value ∈ first :: rest, Agrees table shape value value) ∧
        (first :: rest).Pairwise (Agrees table shape) := by
  -- A fold meets from the left, so what is met already takes the place of the first value.
  induction rest generalizing first with
  | nil => simp
  | cons second rest ih =>
    have inFirst := among first (by simp)
    have inSecond := among second (by simp)
    have inRest : ∀ value ∈ rest, Among bounds value :=
      fun value member => among value (by simp [member])
    by_cases possible : first.meet table second = .bottom
    · rw [List.foldl_cons, possible, foldl_meet_bottom]
      refine iff_of_false (not_agrees_bottom shape _) fun given => ?_
      obtain ⟨firstSort, firstTyped⟩ := inFirst.typed
      obtain ⟨secondSort, secondTyped⟩ := inSecond.typed
      have agrees := (List.pairwise_cons.mp given.2).1 second List.mem_cons_self
      exact (meet_ne_bottom_iff firstTyped secondTyped).mpr ⟨shape, agrees⟩ possible
    · have inBoth := inFirst.meet unbounded inSecond possible
      rw [List.foldl_cons, ih (List.forall_mem_cons.mpr ⟨inBoth, inRest⟩)]
      exact agrees_cons_meet_iff legal unbounded balanced inFirst inSecond inRest possible

end Lists

private theorem Typed.exists_shape (table : ClassTable) {sort : ValueSort} {value : AbstractValue}
    (typed : Typed sort value) :
    ∃ shape, Agrees table shape value value := by
  cases typed with
  | primitive kind content => exact ⟨.primitive kind, .primitive (.refl content)⟩
  | @reference fact reduced =>
    by_cases isNull : fact.nullability = .null
    · have admits : fact.AdmitsNull := by
        rw [reduced.ofNull isNull]
        exact ⟨nofun, rfl⟩
      exact ⟨.null, .null admits admits⟩
    · refine ⟨.object, .object ⟨isNull, isNull, ?_, .refl _⟩⟩
      rw [TypeBound.meet_self]
      exact reduced.possible

private theorem Typed.foldl_meet {sort : ValueSort} {first : AbstractValue}
    {rest : List AbstractValue}
    (typed : Typed sort first) (possible : rest.foldl (AbstractValue.meet table) first ≠ .bottom) :
    Typed sort (rest.foldl (AbstractValue.meet table) first) := by
  induction rest generalizing first with
  | nil => exact typed
  | cons second rest ih =>
    rw [List.foldl_cons] at possible ⊢
    refine ih (typed.meet fun empty => possible ?_) possible
    rw [empty, foldl_meet_bottom]

/-- The value may be `null`. -/
def AllowsNull (value : AbstractValue) : Prop :=
  ∃ fact, value = .reference fact ∧ fact.AdmitsNull

private theorem AllowsNull.agrees (leftNull : left.AllowsNull) (rightNull : right.AllowsNull) :
    Agrees table .null left right := by
  obtain ⟨leftFact, rfl, leftAdmits⟩ := leftNull
  obtain ⟨rightFact, rfl, rightAdmits⟩ := rightNull
  exact .null leftAdmits rightAdmits

/-- Values between which no meet loses a contradiction: all of them may be `null`, or no bound
contradicts only one of two that cross. -/
def Steady (table : ClassTable) (values : List AbstractValue) : Prop :=
  (∀ value ∈ values, value.AllowsNull) ∨ TypeBound.Balanced table (values.map bound)

theorem Steady.perm {values permuted : List AbstractValue} (steady : Steady table values)
    (perm : values.Perm permuted) : Steady table permuted :=
  steady.imp (fun allows value member => allows value (perm.mem_iff.mpr member))
    fun balanced => balanced.perm (perm.map bound)

section Order

variable {first : AbstractValue} {rest : List AbstractValue} (legal : table.Legal)
  (typed : ∀ value ∈ first :: rest, ∃ sort, Typed sort value)

private theorem among_bounds (typed : ∀ value ∈ first :: rest, ∃ sort, Typed sort value) :
    ∀ value ∈ first :: rest, Among (.top :: (first :: rest).map bound) value :=
  fun value member => ⟨typed value member, List.mem_cons_of_mem _ (List.mem_map_of_mem member)⟩

include legal typed in
private theorem foldl_ne_bottom_of_allowsNull (allows : ∀ value ∈ first :: rest, value.AllowsNull) :
    rest.foldl (AbstractValue.meet table) first ≠ .bottom := by
  intro empty
  have unbalanced : Shape.null = .object →
      TypeBound.Balanced table (.top :: (first :: rest).map bound) := nofun
  have shaped := (agrees_foldl_iff legal List.mem_cons_self unbalanced (among_bounds typed)).mpr
      ⟨fun value member => (allows value member).agrees (allows value member),
        List.pairwise_of_forall_mem_list fun value member other otherMember =>
          (allows value member).agrees (allows other otherMember)⟩
  rw [empty] at shaped
  exact not_agrees_bottom .null _ shaped

include legal typed in
private theorem foldl_ne_bottom_iff
    (balanced : TypeBound.Balanced table ((first :: rest).map bound)) :
    rest.foldl (AbstractValue.meet table) first ≠ .bottom ↔
      ∃ shape, (∀ value ∈ first :: rest, Agrees table shape value value) ∧
        (first :: rest).Pairwise (Agrees table shape) := by
  have shaped_iff (shape : Shape) : Agrees table shape _ _ ↔ _ :=
    agrees_foldl_iff legal List.mem_cons_self (fun _ => balanced.cons_top) (among_bounds typed)
  constructor
  · intro possible
    obtain ⟨sort, firstTyped⟩ := typed first List.mem_cons_self
    obtain ⟨shape, shaped⟩ := (firstTyped.foldl_meet possible).exists_shape table
    exact ⟨shape, (shaped_iff shape).mp shaped⟩
  · rintro ⟨shape, agrees⟩ empty
    have shaped := (shaped_iff shape).mpr agrees
    rw [empty] at shaped
    exact not_agrees_bottom shape _ shaped

include legal typed in
/-- Whether a meet of several values is possible does not depend on their order. -/
theorem foldl_ne_bottom_of_perm (steady : Steady table (first :: rest))
    {otherFirst : AbstractValue} {otherRest : List AbstractValue}
    (perm : (first :: rest).Perm (otherFirst :: otherRest)) :
    rest.foldl (AbstractValue.meet table) first ≠ .bottom ↔
      otherRest.foldl (AbstractValue.meet table) otherFirst ≠ .bottom := by
  have otherTyped : ∀ value ∈ otherFirst :: otherRest, ∃ sort, Typed sort value :=
    fun value member => typed value (perm.mem_iff.mpr member)
  rcases steady with allows | balanced
  · exact iff_of_true (foldl_ne_bottom_of_allowsNull legal typed allows)
      (foldl_ne_bottom_of_allowsNull legal otherTyped fun value member =>
        allows value (perm.mem_iff.mpr member))
  · rw [foldl_ne_bottom_iff legal typed balanced,
      foldl_ne_bottom_iff legal otherTyped (balanced.perm (perm.map bound))]
    simp only [perm.mem_iff, perm.pairwise_iff Agrees.symm]

end Order

theorem meet_bottom (value : AbstractValue) : value.meet table .bottom = .bottom := by
  cases value <;> rfl

/-- Whether a meet of three values is possible does not depend on the brackets: turned around, the
right-hand one is a fold over a permutation of the values. -/
theorem meet_assoc_ne_bottom_iff (legal : table.Legal) {first second third : AbstractValue}
    (typed : ∀ value ∈ [first, second, third], ∃ sort, Typed sort value)
    (steady : Steady table [first, second, third]) :
    (first.meet table second).meet table third ≠ .bottom ↔
      first.meet table (second.meet table third) ≠ .bottom := by
  have turned : (second.meet table third).meet table first ≠ .bottom ↔
      first.meet table (second.meet table third) ≠ .bottom := meet_ne_bottom_comm _ _
  have perm : ([first] ++ [second, third]).Perm ([second, third] ++ [first]) :=
    List.perm_append_comm
  rw [← turned]
  exact foldl_ne_bottom_of_perm legal typed steady perm

end AbstractValue

end PauseFlow
