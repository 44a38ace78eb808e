import PauseFlow.Proofs.Abstract.Meaning
import PauseFlow.Memory.Narrowing

namespace PauseFlow

/-- Values that are compared with each other: those of one primitive kind, or references. -/
inductive ValueSort where
  | primitive (kind : PrimitiveKind)
  | reference
deriving DecidableEq

def JvmType.sort : JvmType → ValueSort
  | .primitive kind => .primitive kind
  | .ofClass _ => .reference
  | .arrayOf _ => .reference

namespace AbstractValue

/-- The sort of the values of a type; contradictions and unknown values have none. -/
def sort? : AbstractValue → Option ValueSort
  | bottom => none
  | top => none
  | primitive kind _ => some (.primitive kind)
  | reference _ => some .reference

/-- What the constructors for constants and types give. -/
inductive Constructed : AbstractValue → Prop where
  | ofType (type : JvmType) : Constructed (.ofType type)
  | primitive (kind : PrimitiveKind) (value : PrimitiveValue) :
      Constructed (.primitive kind (some value))
  | null : Constructed .null
  | notNull (bound : TypeBound) : Constructed (.notNull bound)
  | stringConstant (text : String) (owner : ClassId) : Constructed (.stringConstant text owner)
  | enumConstant (owner : ClassId) (name : String) : Constructed (.enumConstant owner name)

/-- What a variable is declared with: a type, or nothing for the content of a box whose type
is not known yet. -/
inductive Declared : AbstractValue → Prop where
  | ofType (type : JvmType) : Declared (.ofType type)
  | top : Declared .top

end AbstractValue

structure ReferenceFact.Regular (fact : ReferenceFact) : Prop where
  ofNull : fact.nullability = .null → fact = ⟨.null, .top, none⟩
  ofConstant : ∀ constant, fact.constant = some constant →
    fact.nullability = .notNull ∧ ∃ type, fact.bound = .exact type

def AbstractValue.Regular : AbstractValue → Prop
  | .reference fact => fact.Regular
  | _ => True

namespace AbstractValue

variable {table : ClassTable}

theorem sort?_ofType (type : JvmType) : (ofType type).sort? = some type.sort := by
  cases type <;> rfl

private theorem regular_ofType (type : JvmType) : (ofType type).Regular := by
  cases type with
  | primitive kind => trivial
  | ofClass id => exact ⟨by simp, by simp⟩
  | arrayOf element => exact ⟨by simp, by simp⟩

private theorem regular_null : null.Regular := ⟨fun _ => rfl, by simp⟩

theorem Constructed.regular {value : AbstractValue} (constructed : Constructed value) :
    value.Regular := by
  cases constructed with
  | ofType type => exact regular_ofType type
  | primitive kind value => trivial
  | null => exact regular_null
  | notNull bound => exact ⟨by simp, by simp⟩
  | stringConstant text owner => exact ⟨by simp, fun _ _ => ⟨rfl, _, rfl⟩⟩
  | enumConstant owner name => exact ⟨by simp, fun _ _ => ⟨rfl, _, rfl⟩⟩

theorem Declared.regular {value : AbstractValue} (declared : Declared value) :
    value.Regular := by
  cases declared with
  | ofType type => exact regular_ofType type
  | top => trivial

theorem Declared.not_isConstant {value : AbstractValue} (declared : Declared value) :
    value.isConstant = false := by
  cases declared with
  | ofType type => cases type <;> rfl
  | top => rfl

private theorem meet_exact_left (type : JvmType) (bound : TypeBound) :
    (TypeBound.exact type).meet table bound = .exact type ∨
      (TypeBound.exact type).meet table bound = .bottom := by
  cases bound with
  | top => exact .inl rfl
  | bottom => exact .inr rfl
  | exact other =>
    simp only [TypeBound.meet]
    split <;> simp
  | instanceOf other =>
    simp only [TypeBound.meet]
    split <;> simp

theorem meet_exact_right (bound : TypeBound) (type : JvmType) :
    bound.meet table (.exact type) = .exact type ∨ bound.meet table (.exact type) = .bottom := by
  cases bound with
  | exact own =>
    simp only [TypeBound.meet]
    split <;> simp_all
  | instanceOf own =>
    simp only [TypeBound.meet]
    split <;> simp
  | top => exact .inl rfl
  | bottom => exact .inr rfl

/-- A known object keeps its exact type in a meet. -/
theorem exact_of_meetReferences {left right : ReferenceFact} (leftRegular : left.Regular)
    (rightRegular : right.Regular) {constant : ReferenceConstant}
    (known : (left.constant <|> right.constant) = some constant)
    (possible : left.bound.meet table right.bound ≠ .bottom) :
    ∃ type, left.bound.meet table right.bound = .exact type := by
  cases content : left.constant with
  | some own =>
    obtain ⟨_, type, exact⟩ := leftRegular.ofConstant own content
    rw [exact] at possible ⊢
    exact ⟨type, (meet_exact_left type right.bound).resolve_right possible⟩
  | none =>
    obtain ⟨_, type, exact⟩ := rightRegular.ofConstant constant (by simpa [content] using known)
    rw [exact] at possible ⊢
    exact ⟨type, (meet_exact_right left.bound type).resolve_right possible⟩

private theorem regular_meetReferences {left right : ReferenceFact} (leftRegular : left.Regular)
    (rightRegular : right.Regular) : (meetReferences table left right).Regular := by
  simp only [meetReferences]
  split
  · trivial
  · rename_i both met
    split
    · trivial
    · split
      · split
        · trivial
        · exact regular_null
      · rename_i present
        split
        · split
          · exact regular_null
          · trivial
        · rename_i possible
          refine ⟨fun isNull => ?_, fun constant known => ?_⟩
          · simp only at isNull
            split at isNull
            · cases isNull
            · exact absurd isNull present
          · simp only at known ⊢
            exact ⟨by simp [known],
              exact_of_meetReferences leftRegular rightRegular known possible⟩

theorem regular_meet {left right : AbstractValue} (leftRegular : left.Regular)
    (rightRegular : right.Regular) : (left.meet table right).Regular := by
  cases left with
  | bottom => trivial
  | top => cases right <;> exact rightRegular
  | primitive leftKind leftKnown =>
    cases right with
    | bottom => trivial
    | top => trivial
    | reference fact => trivial
    | primitive rightKind rightKnown =>
      simp only [meet]
      repeat' split
      all_goals trivial
  | reference left =>
    cases right with
    | bottom => trivial
    | top => exact leftRegular
    | primitive kind known => trivial
    | reference right => exact regular_meetReferences leftRegular rightRegular

private theorem meet_instanceOf {type : JvmType} {value : AbstractValue} (regular : value.Regular)
    (constant : ((reference ⟨.nullable, .instanceOf type, none⟩).meet table value).isConstant =
      true) :
    (reference ⟨.nullable, .instanceOf type, none⟩).meet table value = value ∨
      (reference ⟨.nullable, .instanceOf type, none⟩).meet table value = null := by
  cases value with
  | bottom => exact .inl rfl
  | top => cases constant
  | primitive kind known => cases constant
  | reference fact =>
    obtain ⟨nullability, bound, content⟩ := fact
    by_cases isNull : nullability = .null
    · have shape := regular.ofNull isNull
      cases shape
      exact .inr (by simp [meet, meetReferences, Nullability.meet?])
    · cases content with
      | none =>
        refine .inr ?_
        by_cases disjoint : (TypeBound.instanceOf type).meet table bound = .bottom
        · by_cases nullable : nullability = .nullable
          · simp [meet, meetReferences, Nullability.meet?, disjoint, nullable]
          · simp [meet, meetReferences, Nullability.meet?, disjoint, nullable, isNull,
              isConstant] at constant
        · simp [meet, meetReferences, Nullability.meet?, disjoint, isNull, isConstant] at constant
      | some object =>
        obtain ⟨notNull, own, exact⟩ := regular.ofConstant object rfl
        simp only at notNull exact
        subst notNull exact
        have narrowed : (TypeBound.instanceOf type).meet table (.exact own) = .exact own ∨
            (TypeBound.instanceOf type).meet table (.exact own) = .bottom := meet_exact_right _ own
        rcases narrowed with kept | empty
        · exact .inl (by simp [meet, meetReferences, Nullability.meet?, kept])
        · simp [meet, meetReferences, Nullability.meet?, empty, isConstant] at constant

/-- A declaration turns a constant into no other constant than `null`. -/
theorem meet_declared {declared value : AbstractValue} (form : Declared declared)
    (regular : value.Regular) (constant : (declared.meet table value).isConstant = true) :
    declared.meet table value = value ∨ declared.meet table value = null := by
  cases form with
  | top => cases value <;> exact .inl rfl
  | ofType type =>
    cases type with
    | primitive kind =>
      cases value with
      | bottom => exact .inl rfl
      | top => cases constant
      | reference fact => cases constant
      | primitive other known =>
        by_cases same : kind = other
        · subst same
          exact .inl (by simp [ofType, meet])
        · simp [ofType, meet, same, isConstant] at constant
    | ofClass id => exact meet_instanceOf regular constant
    | arrayOf element => exact meet_instanceOf regular constant

end AbstractValue

namespace RuntimeValue

def sort : RuntimeValue → ValueSort
  | primitive kind _ _ => .primitive kind
  | null => .reference
  | object _ => .reference

end RuntimeValue

def ValueSort.isFloating : ValueSort → Bool
  | primitive kind => kind.isFloating
  | reference => false

/-- Declared with a type whose values are compared by identity. -/
def AbstractValue.Discrete (declared : AbstractValue) : Prop :=
  ∃ type : JvmType, type.sort.isFloating = false ∧ declared = .ofType type

namespace AbstractValue

variable {table : ClassTable} {world : World table} {known : AbstractValue} {value : RuntimeValue}

theorem sort_of_contains {sort : ValueSort} (sorted : known.sort? = some sort)
    (holds : known.Contains world value) : value.sort = sort := by
  cases known with
  | bottom => cases sorted
  | top => cases sorted
  | primitive kind constant =>
    cases sorted
    cases value with
    | primitive actual content admitted => exact congrArg ValueSort.primitive holds.1
    | null => exact holds.elim
    | object id => exact holds.elim
  | reference fact =>
    cases sorted
    cases value with
    | primitive actual content admitted => exact holds.elim
    | null => rfl
    | object id => rfl

theorem isFloating_of_contains (floating : known.isFloating = true)
    (holds : known.Contains world value) : value.sort.isFloating = true := by
  cases known with
  | bottom => cases floating
  | top => cases floating
  | reference fact => cases floating
  | primitive kind constant =>
    have own : (AbstractValue.primitive kind constant).sort? = some (.primitive kind) := rfl
    rw [sort_of_contains own holds]
    exact floating

theorem complement?_cases {excluded other : AbstractValue}
    (complement : Memory.complement? excluded = some other) :
    (∃ flag, excluded = .boolean flag ∧ other = .boolean !flag) ∨
      (∃ fact, excluded = .reference fact ∧ fact.nullability = .null ∧ other = .notNull .top) := by
  unfold Memory.complement? at complement
  split at complement
  · rename_i flag
    exact .inl ⟨flag, rfl, (Option.some.inj complement).symm⟩
  · rename_i fact
    split at complement
    · rename_i isNull
      exact .inr ⟨fact, rfl, isNull, (Option.some.inj complement).symm⟩
    · cases complement
  · cases complement

theorem regular_complement {excluded other : AbstractValue}
    (complement : Memory.complement? excluded = some other) : other.Regular := by
  rcases complement?_cases complement with ⟨flag, rfl, rfl⟩ | ⟨fact, rfl, _, rfl⟩
  · trivial
  · exact ⟨by simp, by simp⟩

/-- A value of the sort of a constant is the constant or in its complement. -/
theorem contains_complement {excluded other : AbstractValue} {sort : ValueSort}
    (complement : Memory.complement? excluded = some other) (regular : excluded.Regular)
    (sorted : excluded.sort? = some sort) (same : value.sort = sort)
    (outside : ¬ excluded.Contains world value) : other.Contains world value := by
  rcases complement?_cases complement with ⟨flag, rfl, rfl⟩ | ⟨fact, rfl, isNull, rfl⟩
  · cases sorted
    cases value with
    | null => cases same
    | object id => cases same
    | primitive kind content admitted =>
      cases same
      cases content with
      | boolean own =>
        refine ⟨rfl, fun constant known => ?_⟩
        cases known
        have different : own ≠ flag := by
          intro same
          subst same
          exact outside ⟨rfl, fun _ known => Option.some.inj known⟩
        cases own <;> cases flag <;> simp_all
      | integral number => cases admitted
      | char letter => cases admitted
      | floating bits => cases admitted
  · cases sorted
    cases value with
    | primitive kind content admitted => cases same
    | null => exact absurd ⟨by simp [isNull], by rw [regular.ofNull isNull]⟩ outside
    | object id => exact ⟨by simp, trivial, by simp⟩

end AbstractValue

end PauseFlow
