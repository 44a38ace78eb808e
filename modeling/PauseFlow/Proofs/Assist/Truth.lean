import PauseFlow.Assist.Seeding
import PauseFlow.Proofs.Abstract.Pinned
import PauseFlow.Proofs.Hierarchy.Naming
import PauseFlow.Proofs.Memory.Satisfaction

namespace PauseFlow

theorem forall_of_eq_some {Value : Type} {known : Option Value} {value : Value}
    {property : Value → Prop} (here : known = some value) (holds : property value) :
    ∀ other, known = some other → property other := by
  intro other again
  rw [here] at again
  cases again
  exact holds

theorem forall_of_eq_none {Value : Type} {known : Option Value} {property : Value → Prop}
    (missing : known = none) : ∀ other, known = some other → property other := by
  intro other again
  rw [missing] at again
  cases again

/-- The constant that describes a value completely; objects have none. -/
def RuntimeValue.constant? : RuntimeValue → Option AbstractValue
  | primitive kind value _ => some (.primitive kind (some value))
  | null => some .null
  | object _ => none

/-- A live value is a value of the program. Objects are the same if their numbers are. -/
def LiveValue.Denotes (live : LiveValue) (value : RuntimeValue) : Prop :=
  match live, value with
  | .null, .null => True
  | .object ref, .object id => id = ref.id
  | live, .primitive kind value _ => live.constant? = some (.primitive kind (some value))
  | _, _ => False

/-- A signature that denotes a type denotes the runtime type of the object. -/
def World.Resolves {table : ClassTable} (world : World table) (signature : String) (id : Nat) :
    Prop :=
  ∀ type, Signature.type? table signature = some type → world.typeOf id = type

/-- Whether a class is an enumeration that lists a case of this name. -/
def ClassTable.DeclaresCase (table : ClassTable) (owner : ClassId) (name : String) : Prop :=
  ∃ info, table.get? owner = some info ∧ info.isEnum = true ∧ name ∈ info.constants

/-- A snapshot is true of the value of a variable, and snapshots of derived fields are true of
the variables of these fields. -/
def Snapshot.TrueOf {table : ClassTable} (world : World table) (registry : Variables)
    (env : Environment) : Snapshot → Var → Prop
  | .constant value, var => (env var).constant? = some value
  | .string text, var => ∃ id, env var = .object id ∧ world.Resolves Signature.string id ∧
      world.contentOf id = some (.string text)
  | .object signature, var => ∃ id, env var = .object id ∧ world.Resolves signature id
  | .enumCase signature name, var => ∃ id, env var = .object id ∧ world.Resolves signature id ∧
      ∀ owner, Signature.type? table signature = some (.ofClass owner) →
        table.DeclaresCase owner name → world.contentOf id = some (.enumCase owner name)
  | .withField signature field value, var => ∃ id, env var = .object id ∧
      world.Resolves signature id ∧
      ∀ fieldVar, registry.find? (.derived var field) = some fieldVar →
        value.TrueOf world registry env fieldVar

/-- What a snapshot says of its variable, if the class that it mentions is known. The name of a case
says nothing more of an object whose class lists no such case. -/
inductive Snapshot.Says (table : ClassTable) : Snapshot → AbstractValue → Prop where
  | constant (value : AbstractValue) : Says table (.constant value) value
  | string {text : String} {owner : ClassId}
      (known : table.lookup ClassTable.stringName = some owner) :
      Says table (.string text) (.stringConstant text owner)
  | object {signature : String} {type : JvmType}
      (known : Signature.type? table signature = some type) :
      Says table (.object signature) (.notNull (.exact type))
  | enumCase {signature name : String} {owner : ClassId}
      (known : Signature.type? table signature = some (.ofClass owner))
      (declared : table.DeclaresCase owner name) :
      Says table (.enumCase signature name) (.enumConstant owner name)
  | otherCase {signature name : String} {type : JvmType}
      (known : Signature.type? table signature = some type)
      (undeclared : ∀ owner, type = .ofClass owner → ¬ table.DeclaresCase owner name) :
      Says table (.enumCase signature name) (.notNull (.exact type))
  | withField {signature : String} {field : DerivedField} {value : Snapshot} {type : JvmType}
      (known : Signature.type? table signature = some type) :
      Says table (.withField signature field value) (.notNull (.exact type))

/-- Whether objects of a type have a derived field: what is unboxed is a box. -/
def DerivedField.Suits (table : ClassTable) (type : JvmType) : DerivedField → Prop
  | .arrayLength => True
  | .collectionSize => True
  | .unboxed => ∃ owner, ∃ kind : PrimitiveKind, type = .ofClass owner ∧
      table.nameOf owner = kind.boxName

private theorem LiveValue.eq_of_constant? {left right : LiveValue} {known : AbstractValue}
    (inLeft : left.constant? = some known) (inRight : right.constant? = some known) :
    left = right := by
  cases left <;> cases inLeft <;> cases right <;>
    simp [constant?, AbstractValue.boolean, AbstractValue.float, AbstractValue.double,
      Int8.toInt_inj, Int16.toInt_inj, Int32.toInt_inj, Int64.toInt_inj,
      UInt32.toUInt64_inj] at inRight ⊢ <;>
    exact inRight.symm

private theorem LiveValue.constant?_of_denotes {live : LiveValue} {kind : PrimitiveKind}
    {value : PrimitiveValue} {admitted : kind.admits value = true}
    (denotes : live.Denotes (.primitive kind value admitted)) :
    live.constant? = some (.primitive kind (some value)) := by
  cases live <;> exact denotes

/-- Live values of one value are the same. -/
theorem LiveValue.same_of_denotes {left right : LiveValue} {value : RuntimeValue}
    (inLeft : left.Denotes value) (inRight : right.Denotes value) : left.same right = true := by
  cases value with
  | null =>
    cases left <;> first | exact inLeft.elim | skip
    cases right <;> first | exact inRight.elim | skip
    rfl
  | object id =>
    cases left <;> first | exact inLeft.elim | skip
    cases right <;> first | exact inRight.elim | skip
    rename_i leftRef rightRef
    have same : leftRef.id = rightRef.id := inLeft.symm.trans inRight
    simp [same, identity, LiveValue.same]
  | primitive kind value admitted =>
    have leftConstant := constant?_of_denotes inLeft
    have rightConstant := constant?_of_denotes inRight
    rw [eq_of_constant? leftConstant rightConstant]
    simp [LiveValue.same]

/-- A live value is one value. -/
theorem LiveValue.eq_of_denotes {live : LiveValue} {left right : RuntimeValue}
    (inLeft : live.Denotes left) (inRight : live.Denotes right) : left = right := by
  cases left with
  | null =>
    cases live <;> first | exact inLeft.elim | skip
    cases right <;> first | rfl | exact inRight.elim | cases inRight
  | object id =>
    cases live <;> first | exact inLeft.elim | skip
    cases right with
    | null => exact inRight.elim
    | object other => exact congrArg _ (Eq.trans inLeft (Eq.symm inRight))
    | primitive kind value admitted => cases inRight
  | primitive kind value admitted =>
    have leftConstant := constant?_of_denotes inLeft
    cases right with
    | null => cases live <;> first | exact inRight.elim | cases leftConstant
    | object id => cases live <;> first | exact inRight.elim | cases leftConstant
    | primitive other content others =>
      have same := leftConstant.symm.trans (constant?_of_denotes inRight)
      cases same
      rfl

section Snapshots

variable {table : ClassTable} {world : World table} {registry : Variables} {env : Environment}
  {var : Var} {value : AbstractValue}

theorem Signature.type?_string (table : ClassTable) :
    Signature.type? table Signature.string =
      (table.lookup ClassTable.stringName).map .ofClass := by
  simp [Signature.type?, Signature.string, Signature.depth, Signature.element,
    Signature.elementType?, Signature.className?, Signature.dotted]
  rfl

theorem AbstractValue.contains_constant? {value : RuntimeValue} {known : AbstractValue}
    (constant : value.constant? = some known) : known.Contains world value ∧ known.Pinned := by
  cases value with
  | primitive kind content admitted =>
    cases constant
    exact ⟨⟨rfl, fun _ same => Option.some.inj same⟩, .primitive kind content⟩
  | null =>
    cases constant
    exact ⟨AbstractValue.contains_null, .null⟩
  | object id => cases constant

theorem AbstractValue.contains_notNull_exact {id : Nat} {type : JvmType}
    (runtime : world.typeOf id = type) : (notNull (.exact type)).Contains world (.object id) :=
  ⟨by simp, runtime, by simp⟩

theorem AbstractValue.contains_content {id : Nat} {type : JvmType} {content : ReferenceConstant}
    (runtime : world.typeOf id = type) (known : world.contentOf id = some content) :
    (reference ⟨.notNull, .exact type, some content⟩).Contains world (.object id) :=
  ⟨by simp, runtime, fun _ same => Option.some.inj same ▸ known⟩

/-- The builder pins a case exactly if the class is an enumeration that lists it. -/
theorem Seed.enumCase?_eq_some_iff {type : JvmType} {name : String} {known : AbstractValue} :
    Seed.enumCase? table type name = some known ↔ ∃ owner, type = .ofClass owner ∧
      table.DeclaresCase owner name ∧ known = .enumConstant owner name := by
  cases type with
  | primitive kind => simp [Seed.enumCase?]
  | arrayOf element => simp [Seed.enumCase?]
  | ofClass id =>
    simp only [Seed.enumCase?, ClassTable.DeclaresCase, JvmType.ofClass.injEq, exists_eq_left']
    cases table.get? id with
    | none => simp
    | some info =>
      simp only [Option.some.injEq, exists_eq_left', Option.ite_none_right_eq_some,
        Bool.and_eq_true, decide_eq_true_eq]
      exact and_congr_right fun _ => eq_comm

theorem Seed.enumCase?_eq_none_iff {type : JvmType} {name : String} :
    Seed.enumCase? table type name = none ↔
      ∀ owner, type = .ofClass owner → ¬ table.DeclaresCase owner name := by
  rw [Option.eq_none_iff_forall_ne_some]
  constructor
  · intro missing owner here declared
    exact missing _ (Seed.enumCase?_eq_some_iff.mpr ⟨owner, here, declared, rfl⟩)
  · intro undeclared known case
    obtain ⟨owner, here, declared, _⟩ := Seed.enumCase?_eq_some_iff.mp case
    exact undeclared owner here declared

/-- A derived field has a declaration for objects of the types that it suits. -/
theorem DerivedField.isSome_declaredValue?_iff {field : DerivedField} {type : JvmType} :
    (field.declaredValue? table (.notNull (.exact type))).isSome = true ↔
      field.Suits table type := by
  cases field with
  | arrayLength => exact iff_of_true rfl trivial
  | collectionSize => exact iff_of_true rfl trivial
  | unboxed =>
    cases type with
    | primitive kind => simp [declaredValue?, AbstractValue.notNull, AbstractValue.bound, Suits]
    | arrayOf element => simp [declaredValue?, AbstractValue.notNull, AbstractValue.bound, Suits]
    | ofClass owner =>
      change (declaredValue?.ofBox table owner).isSome = true ↔ _
      rw [declaredValue?.ofBox, Option.isSome_map, PrimitiveKind.isSome_ofBoxName?_iff]
      simp only [Suits, JvmType.ofClass.injEq, exists_and_left, exists_eq_left']

/-- A snapshot says one thing. -/
theorem Snapshot.Says.unique {snapshot : Snapshot} {other : AbstractValue}
    (first : snapshot.Says table value) (second : snapshot.Says table other) : value = other := by
  cases first with
  | constant => cases second; rfl
  | string known =>
    cases second with
    | string again => cases known.symm.trans again; rfl
  | object known =>
    cases second with
    | object again => cases known.symm.trans again; rfl
  | enumCase known declared =>
    cases second with
    | enumCase again _ => cases known.symm.trans again; rfl
    | otherCase again undeclared =>
      exact absurd declared (undeclared _ (Option.some.inj (again.symm.trans known)))
  | otherCase known undeclared =>
    cases second with
    | enumCase again declared =>
      exact absurd declared (undeclared _ (Option.some.inj (known.symm.trans again)))
    | otherCase again _ => cases known.symm.trans again; rfl
  | withField known =>
    cases second with
    | withField again => cases known.symm.trans again; rfl

/-- What a true snapshot says is as exact as an observation can be. -/
theorem Snapshot.Says.pinned {snapshot : Snapshot} (told : snapshot.Says table value)
    (truth : snapshot.TrueOf world registry env var) : value.Pinned := by
  cases told with
  | constant constant =>
    have observed : value.Contains world (env var) ∧ value.Pinned :=
      AbstractValue.contains_constant? truth
    exact observed.2
  | string known => exact AbstractValue.pinned_stringConstant _ _
  | object known => exact AbstractValue.pinned_notNull _
  | enumCase known declared => exact AbstractValue.pinned_enumConstant _ _
  | otherCase known undeclared => exact AbstractValue.pinned_notNull _
  | withField known => exact AbstractValue.pinned_notNull _

end Snapshots

end PauseFlow
