import PauseFlow.Hierarchy.Signature

namespace PauseFlow

namespace ClassTable

theorem nameOf_of_lookup {table : ClassTable} {name : String} {id : ClassId}
    (found : table.lookup name = some id) : table.nameOf id = name := by
  obtain ⟨index, position, rfl⟩ := Option.map_eq_some_iff.mp found
  obtain ⟨inside, named, _⟩ := List.findIdx?_eq_some_iff_getElem.mp position
  have present : table.get? ⟨index⟩ = some table.classes[index] := List.getElem?_eq_getElem inside
  simpa [nameOf, present] using named

private theorem typeName_arrayOfDepth (table : ClassTable) (type : JvmType) (depth : Nat) :
    table.typeName (type.arrayOfDepth depth) =
      table.typeName type ++ String.join (List.replicate depth "[]") := by
  induction depth with
  | zero => simp [JvmType.arrayOfDepth, String.join]
  | succ depth ih =>
    rw [JvmType.arrayOfDepth, typeName, ih, List.replicate_succ', String.append_assoc]
    simp [String.join]

end ClassTable

namespace Signature

private theorem elementName_of_descriptor {letter : Char} {kind : PrimitiveKind}
    (described : PrimitiveKind.ofDescriptor? letter = some kind) :
    elementName [letter] = kind.name := by
  have same : kind.descriptor = letter := by simpa using List.find?_some described
  subst same
  cases kind <;> rfl

private theorem typeName_of_elementType? {table : ClassTable} {signature : List Char}
    {type : JvmType} (denotes : elementType? table signature = some type) :
    table.typeName type = elementName signature := by
  unfold elementType? at denotes
  split at denotes
  · rename_i letter
    obtain ⟨kind, described, rfl⟩ := Option.map_eq_some_iff.mp denotes
    exact (elementName_of_descriptor described).symm
  · split at denotes
    · cases denotes
    · rename_i name spelled
      obtain ⟨id, found, rfl⟩ := Option.map_eq_some_iff.mp denotes
      simp only [elementName, spelled]
      exact ClassTable.nameOf_of_lookup found
    · cases denotes

/-- A signature spells the name of the type that it denotes. -/
theorem typeName_of_type? {table : ClassTable} {signature : String} {type : JvmType}
    (denotes : type? table signature = some type) :
    table.typeName type = typeName signature := by
  obtain ⟨element, known, rfl⟩ := Option.map_eq_some_iff.mp denotes
  rw [ClassTable.typeName_arrayOfDepth, typeName_of_elementType? known]
  rfl

end Signature

theorem PrimitiveKind.isSome_ofBoxName?_iff {text : String} :
    (ofBoxName? text).isSome = true ↔ ∃ kind : PrimitiveKind, text = kind.boxName := by
  rw [ofBoxName?, List.find?_isSome]
  constructor
  · rintro ⟨kind, _, boxes⟩
    exact ⟨kind, (of_decide_eq_true boxes).symm⟩
  · rintro ⟨kind, rfl⟩
    refine ⟨kind, ?_, decide_eq_true rfl⟩
    cases kind <;> decide

/-- Only classes bear the names of boxes. -/
theorem PrimitiveKind.exists_class_of_boxName {table : ClassTable} {type : JvmType}
    {kind : PrimitiveKind} (boxes : ofBoxName? (table.typeName type) = some kind) :
    ∃ id, type = .ofClass id ∧ ofBoxName? (table.nameOf id) = some kind := by
  have named : kind.boxName = table.typeName type := by
    simpa using List.find?_some boxes
  cases type with
  | ofClass id => exact ⟨id, rfl, boxes⟩
  | primitive other =>
    have different : kind.boxName ≠ other.name := by cases kind <;> cases other <;> decide
    exact absurd named different
  | arrayOf element =>
    have bracket : (kind.boxName).toList.getLast? = some ']' := by
      rw [named, ClassTable.typeName, String.toList_append]
      simp
    cases kind <;> exact absurd bracket (by decide)

end PauseFlow
