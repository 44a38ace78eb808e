import Mathlib.Data.List.Nodup
import Mathlib.Data.Rat.Defs
import PauseFlow.Settings.Schema

/-! What the published schema means. Validity is read off the schema as a JSON document, keyword
by keyword, and is what the list of properties admits. -/
namespace PauseFlow.Schema

/-- Whether a value is of a type by its name. A whole number is an integer however it is
written. -/
def IsOfType (value : Json) (name : String) : Prop :=
  (name = "boolean" ∧ ∃ truth, value = .boolean truth) ∨
  (name = "string" ∧ ∃ text, value = .string text) ∨
  (name = "number" ∧ ∃ number, value.number? = some number) ∨
  (name = "integer" ∧ ∃ number : Int, value.number? = some number) ∨
  (name = "array" ∧ ∃ elements, value = .array elements) ∨
  (name = "object" ∧ ∃ members, value = .object members)

/-- Whether a value is an object with this member. -/
def HasMember (value : Json) (name : String) (member : Json) : Prop :=
  ∃ members, value = .object members ∧ (name, member) ∈ members

/-- Whether a reference names this definition of the root schema. -/
def RefersTo (root : Json) (reference : String) (definition : Json) : Prop :=
  ∃ definitions name, HasMember root "definitions" (.object definitions) ∧
    reference = "#/definitions/" ++ name ∧ (name, definition) ∈ definitions

/-- Validity against a schema, with the definitions of the root schema. Keywords that only describe
ask for nothing. -/
inductive Valid (root : Json) : (schema value : Json) → Prop where
  | intro {keywords : List (String × Json)} {value : Json}
      (type : ∀ name, ("type", .string name) ∈ keywords → IsOfType value name)
      (minimum : ∀ bound, ("minimum", bound) ∈ keywords → ∀ least number,
        bound.number? = some least → value.number? = some number → least ≤ number)
      (resolved : ∀ reference, ("$ref", .string reference) ∈ keywords →
        ∃ definition, RefersTo root reference definition)
      (referred : ∀ reference definition, ("$ref", .string reference) ∈ keywords →
        RefersTo root reference definition → Valid root definition value)
      (all : ∀ schemas schema, ("allOf", .array schemas) ∈ keywords → schema ∈ schemas →
        Valid root schema value)
      (properties : ∀ listed name schema member, ("properties", .object listed) ∈ keywords →
        (name, schema) ∈ listed → HasMember value name member → Valid root schema member)
      (others : ("additionalProperties", .boolean false) ∈ keywords →
        ∀ name member, HasMember value name member →
          ∃ listed schema, ("properties", .object listed) ∈ keywords ∧ (name, schema) ∈ listed) :
      Valid root (.object keywords) value

/-- What each keyword asks for. -/
theorem valid_iff {root value : Json} {keywords : List (String × Json)} :
    Valid root (.object keywords) value ↔
      (∀ name, ("type", .string name) ∈ keywords → IsOfType value name) ∧
      (∀ bound, ("minimum", bound) ∈ keywords → ∀ least number, bound.number? = some least →
        value.number? = some number → least ≤ number) ∧
      (∀ reference, ("$ref", .string reference) ∈ keywords →
        (∃ definition, RefersTo root reference definition) ∧
          ∀ definition, RefersTo root reference definition →
            Valid root definition value) ∧
      (∀ schemas schema, ("allOf", .array schemas) ∈ keywords → schema ∈ schemas →
        Valid root schema value) ∧
      (∀ listed name schema member, ("properties", .object listed) ∈ keywords →
        (name, schema) ∈ listed → HasMember value name member → Valid root schema member) ∧
      (("additionalProperties", .boolean false) ∈ keywords →
        ∀ name member, HasMember value name member →
          ∃ listed schema, ("properties", .object listed) ∈ keywords ∧
            (name, schema) ∈ listed) := by
  constructor
  · rintro ⟨type, minimum, resolved, referred, all, properties, others⟩
    exact ⟨type, minimum, fun reference member => ⟨resolved reference member,
      fun definition => referred reference definition member⟩, all, properties, others⟩
  · rintro ⟨type, minimum, references, all, properties, others⟩
    exact .intro type minimum (fun reference member => (references reference member).1)
      (fun reference definition member => (references reference member).2 definition) all
      properties others

/-- The keywords that ask for something. -/
def assertions : List String :=
  ["type", "minimum", "$ref", "allOf", "properties", "additionalProperties"]

/-- What a schema asks for lies in these keywords. -/
theorem valid_filter_iff (root value : Json) (keywords : List (String × Json)) :
    Valid root (.object (keywords.filter fun keyword => keyword.1 ∈ assertions)) value ↔
      Valid root (.object keywords) value := by
  rw [valid_iff, valid_iff]
  simp [assertions]

/-- A description and a default ask for nothing. -/
theorem valid_document_iff {α : Type} {root value : Json} (members : α → List (String × Json))
    (property : Property α) :
    Valid root (property.document members) value ↔
      Valid root (.object (members property.shape)) value := by
  rw [Property.document, ← valid_filter_iff, ← valid_filter_iff _ _ (members property.shape)]
  cases property.description <;> simp [assertions]

variable {root value : Json}

/-- Whether the least number of a shape is written as it is. -/
def Shape.isExact : Shape → Bool
  | .count least => (wholeNumber least).number? = some (least : Rat)
  | _ => true

private theorem isInt_iff {number : Rat} : number.isInt = true ↔ ∃ whole : Int, number = whole := by
  rw [Rat.isInt, beq_iff_eq]
  constructor
  · intro whole
    exact ⟨number.num, (Rat.den_eq_one_iff number).mp whole |>.symm⟩
  · rintro ⟨whole, rfl⟩
    exact Rat.den_intCast whole

private theorem Shape.valid_iff_admits {shape : Shape} (exact : shape.isExact = true) :
    Valid root (.object shape.members) value ↔ shape.admits value = true := by
  rw [valid_iff]
  cases shape with
  | boolean => cases value <;> simp [members, IsOfType, admits]
  | string => cases value <;> simp [members, IsOfType, admits]
  | count least =>
    have bound : (wholeNumber least).number? = some (least : Rat) := of_decide_eq_true exact
    cases known : value.number? with
    | none => simp [members, IsOfType, admits, known]
    | some number =>
      simp [members, IsOfType, admits, known, bound, isInt_iff]

/-- The members of an object that is admitted are properties, each as it must be. -/
theorem admitsObject_iff {α : Type} {admits : α → Json → Bool} {properties : List (Property α)}
    (distinct : (properties.map (·.name)).Nodup) :
    admitsObject admits properties value = true ↔
      ∃ members, value = .object members ∧ ∀ entry ∈ members,
        ∃ property ∈ properties, property.name = entry.1 ∧
          admits property.shape entry.2 = true := by
  cases value with
  | object members =>
    simp only [admitsObject, List.all_eq_true, Json.object.injEq, exists_eq_left']
    refine forall₂_congr fun entry _ => ?_
    cases known : properties.find? (fun property => property.name = entry.1) with
    | none =>
      have missing := List.find?_eq_none.mp known
      simp only [decide_eq_true_eq] at missing
      simp only [Bool.false_eq_true, false_iff, not_exists, not_and]
      exact fun property member same => absurd same (missing property member)
    | some found =>
      have same : found.name = entry.1 := by simpa using List.find?_some known
      have member := List.mem_of_find?_eq_some known
      constructor
      · exact fun admitted => ⟨found, member, same, admitted⟩
      · rintro ⟨property, listed, named, admitted⟩
        have own := List.inj_on_of_nodup_map distinct listed member (named.trans same.symm)
        exact own ▸ admitted
  | _ => simp [admitsObject]

/-- A schema that lists properties and denies others asks each member to be listed, and to be valid
against what is listed for it. -/
theorem valid_listed_iff {listed : List (String × Json)} :
    Valid root (.object [("type", .string "object"), ("properties", .object listed),
        ("additionalProperties", .boolean false)]) value ↔
      ∃ members, value = .object members ∧ ∀ entry ∈ members,
        (∃ schema, (entry.1, schema) ∈ listed) ∧
          ∀ schema, (entry.1, schema) ∈ listed → Valid root schema entry.2 := by
  rw [valid_iff]
  constructor
  · rintro ⟨type, _, _, _, properties, others⟩
    have object : ∃ members, value = .object members := by
      simpa [IsOfType] using type "object" (by simp)
    obtain ⟨members, rfl⟩ := object
    refine ⟨members, rfl, fun entry member => ⟨?_, fun schema known => ?_⟩⟩
    · obtain ⟨other, schema, here, known⟩ :=
        others (by simp) entry.1 entry.2 ⟨members, rfl, member⟩
      obtain rfl : other = listed := by simpa using here
      exact ⟨schema, known⟩
    · exact properties listed entry.1 schema entry.2 (by simp) known ⟨members, rfl, member⟩
  · rintro ⟨members, rfl, fits⟩
    refine ⟨by simp [IsOfType], by simp, by simp, by simp, ?_, ?_⟩
    · rintro other name schema member here known ⟨own, same, present⟩
      cases same
      obtain rfl : other = listed := by simpa using here
      exact (fits (name, member) present).2 schema known
    · rintro - name member ⟨own, same, present⟩
      cases same
      obtain ⟨schema, known⟩ := (fits (name, member) present).1
      exact ⟨listed, schema, by simp, known⟩

/-- The schema of an object is met by what its properties admit, if their own schemas are. -/
theorem valid_objectMembers_iff {α : Type} {members : α → List (String × Json)}
    {admits : α → Json → Bool} {properties : List (Property α)}
    (distinct : (properties.map (·.name)).Nodup)
    (each : ∀ property ∈ properties, ∀ value,
      Valid root (.object (members property.shape)) value ↔ admits property.shape value = true) :
    Valid root (.object (objectMembers members properties)) value ↔
      admitsObject admits properties value = true := by
  rw [objectMembers, valid_listed_iff, admitsObject_iff distinct]
  have mem_listed : ∀ name schema,
      (name, schema) ∈ properties.map (fun property => (property.name, property.document members)) ↔
        ∃ property ∈ properties, property.name = name ∧ property.document members = schema := by
    simp
  refine exists_congr fun fields => and_congr_right fun _ => forall₂_congr fun entry _ => ?_
  simp only [mem_listed]
  constructor
  · rintro ⟨⟨_, property, listed, named, rfl⟩, fits⟩
    refine ⟨property, listed, named, ?_⟩
    rw [← each property listed, ← valid_document_iff]
    exact fits _ ⟨property, listed, named, rfl⟩
  · rintro ⟨property, listed, named, admitted⟩
    refine ⟨⟨_, property, listed, named, rfl⟩, ?_⟩
    rintro _ ⟨other, otherListed, otherNamed, rfl⟩
    have own := List.inj_on_of_nodup_map distinct otherListed listed (otherNamed.trans named.symm)
    rw [own, valid_document_iff, each property listed]
    exact admitted

private theorem refersTo_document_iff {title name : String} {properties : List (Property Content)}
    {definition : Json} :
    RefersTo (document title properties) ("#/definitions/" ++ name) definition ↔
      (name, definition) ∈ properties.filterMap fun property => property.shape.definition? := by
  constructor
  · rintro ⟨definitions, other, ⟨members, whole, here⟩, named, known⟩
    cases whole
    obtain rfl : name = other := by simpa using named
    have own : definitions = properties.filterMap fun property => property.shape.definition? := by
      simpa [objectMembers] using here
    exact own ▸ known
  · intro known
    exact ⟨_, name, ⟨_, rfl, by simp⟩, rfl, known⟩

/-- A schema that is made of another one alone asks for the same. -/
theorem valid_allOf_iff {schema : Json} :
    Valid root (.object [("allOf", .array [schema])]) value ↔ Valid root schema value := by
  rw [valid_iff]
  constructor
  · rintro ⟨_, _, _, all, _, _⟩
    exact all [schema] schema (by simp) (by simp)
  · intro valid
    refine ⟨by simp, by simp, by simp, ?_, by simp, by simp⟩
    intro schemas other here member
    obtain rfl : schemas = [schema] := by simpa using here
    exact List.mem_singleton.mp member ▸ valid

/-- A reference asks for the definition that it names, if it names one. -/
theorem valid_reference_iff {reference : String} {definition : Json}
    (named : ∀ other, RefersTo root reference other ↔ other = definition) :
    Valid root (.object [("$ref", .string reference)]) value ↔ Valid root definition value := by
  rw [valid_iff]
  simp [named]

/-- Whether the schema of a content says what it says. -/
def Content.isProper : Content → Bool
  | .single shape => shape.isExact
  | .object _ properties =>
    (properties.map (·.name)).Nodup && properties.all fun property => property.shape.isExact

/-- Lists of properties whose schema says what they say: names are distinct, those of definitions
too. -/
structure IsProper (properties : List (Property Content)) : Prop where
  distinct : (properties.map (·.name)).Nodup
  contents : ∀ property ∈ properties, property.shape.isProper = true
  definitions : ((properties.filterMap fun property => property.shape.definition?).map (·.1)).Nodup

/-- The name of an object that a property asks for is that of its definition alone. -/
theorem IsProper.refersTo_iff {title name : String} {properties : List (Property Content)}
    {property : Property Content} {inner : List (Property Shape)} (proper : IsProper properties)
    (listed : property ∈ properties) (shape : property.shape = .object name inner) (other : Json) :
    RefersTo (document title properties) ("#/definitions/" ++ name) other ↔
      other = .object (objectMembers Shape.members inner) := by
  have here : (name, .object (objectMembers Shape.members inner)) ∈
      properties.filterMap fun property => property.shape.definition? :=
    List.mem_filterMap.mpr ⟨property, listed, by rw [shape]; rfl⟩
  rw [refersTo_document_iff]
  constructor
  · intro known
    exact congrArg Prod.snd (List.inj_on_of_nodup_map proper.definitions known here rfl)
  · rintro rfl
    exact here

/-- The values that are valid against a published schema are those that its properties admit. -/
theorem valid_iff_admits {title : String} {properties : List (Property Content)}
    (proper : IsProper properties) :
    Valid (document title properties) (document title properties) value ↔
      admitsObject Content.admits properties value = true := by
  have titled : Valid (document title properties) (document title properties) value ↔
      Valid (document title properties) (.object (objectMembers Content.members properties))
        value := by
    rw [← valid_filter_iff _ _ (objectMembers Content.members properties), Schema.document,
      ← valid_filter_iff]
    simp [assertions, objectMembers]
  rw [titled]
  refine valid_objectMembers_iff proper.distinct fun property listed value => ?_
  have own := proper.contents property listed
  cases shape : property.shape with
  | single single =>
    rw [shape] at own
    exact Shape.valid_iff_admits own
  | object name inner =>
    rw [shape, Content.isProper, Bool.and_eq_true, decide_eq_true_eq, List.all_eq_true] at own
    rw [Content.members, valid_allOf_iff, valid_reference_iff (proper.refersTo_iff listed shape)]
    exact valid_objectMembers_iff own.1 fun option member value =>
      Shape.valid_iff_admits (own.2 option member)

theorem isProper_settings : IsProper Settings.properties where
  distinct := by decide
  contents := by decide +kernel
  definitions := by decide

/-- The documents that are valid against the schema of the settings are those that it admits. -/
theorem valid_settings_iff {document : Json} :
    Valid Settings.schema Settings.schema document ↔ Settings.admits document = true :=
  valid_iff_admits isProper_settings

end PauseFlow.Schema
