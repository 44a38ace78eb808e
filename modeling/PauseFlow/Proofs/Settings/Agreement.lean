import PauseFlow.Proofs.Settings.Validity
import PauseFlow.Settings.Loading

/-! Where the loader and the published schema agree. The loader checks what each option is given,
but passes over keys that name no option, takes a budget of no steps, and reads log settings from
things that are no table. -/
namespace PauseFlow

open Schema

/-- Where a computation with failures succeeds, so do its parts. -/
theorem exists_of_bind_ok {Failure Part Whole : Type} {first : Except Failure Part}
    {rest : Part → Except Failure Whole} {whole : Whole} (done : first >>= rest = .ok whole) :
    ∃ part, first = .ok part ∧ rest part = .ok whole := by
  cases result : first with
  | error failure =>
    rw [result] at done
    cases done
  | ok part =>
    rw [result] at done
    exact ⟨part, rfl, done⟩

/-- Where a fold with failures succeeds, so does each of its steps. -/
theorem exists_step_of_foldlM {State Item Failure : Type}
    {step : State → Item → Except Failure State} {items : List Item} {start last : State}
    (done : items.foldlM step start = .ok last) {item : Item} (member : item ∈ items) :
    ∃ before after, step before item = .ok after := by
  induction items generalizing start with
  | nil => cases member
  | cons first rest ih =>
    rw [List.foldlM_cons] at done
    obtain ⟨next, result, later⟩ := exists_of_bind_ok done
    rcases List.mem_cons.mp member with rfl | member
    · exact ⟨start, next, result⟩
    · exact ih later member

namespace Toml.Value

private theorem eq_of_asBoolean {value : Value} {truth : Bool}
    (taken : value.asBoolean = .ok truth) : value = .boolean truth := by
  cases value <;> cases taken
  rfl

private theorem eq_of_asString {value : Value} {text : String} (taken : value.asString = .ok text) :
    value = .string text := by
  cases value <;> cases taken
  rfl

private theorem eq_of_asCount {value : Value} {count : Nat} (taken : value.asCount = .ok count) :
    value = .integer count := by
  cases value with
  | integer number =>
    simp only [asCount] at taken
    split at taken
    · cases taken
      rw [Int.toNat_of_nonneg ‹_›]
    · cases taken
  | _ => cases taken

end Toml.Value

/-- Whether each key of a table names a property. -/
def KnowsKeys {α : Type} (properties : List (Property α)) (table : Toml.Table) : Prop :=
  ∀ entry ∈ table, ∃ property ∈ properties, property.name = entry.1

private theorem Toml.entriesToJson_eq (table : Toml.Table) :
    Toml.entriesToJson table = table.map fun entry => (entry.1, entry.2.toJson) := by
  induction table with
  | nil => rfl
  | cons entry rest ih => rw [Toml.entriesToJson, ih, List.map_cons]

private theorem admitsObject_table_iff {α : Type} {admits : α → Json → Bool}
    {properties : List (Property α)} (distinct : (properties.map (·.name)).Nodup)
    {table : Toml.Table} :
    admitsObject admits properties (Toml.Value.table table).toJson = true ↔
      ∀ entry ∈ table, ∃ property ∈ properties, property.name = entry.1 ∧
        admits property.shape entry.2.toJson = true := by
  rw [Toml.Value.toJson, Toml.entriesToJson_eq, admitsObject_iff distinct]
  simp only [Json.object.injEq, exists_eq_left', List.forall_mem_map]

/-- A log option that the loader takes is what the schema asks for. -/
theorem LoggingSettings.admits_of_set {before after : LoggingSettings} {key : String}
    {value : Toml.Value} (taken : before.set (key, value) = .ok after) {property : Property Shape}
    (listed : property ∈ properties) (named : property.name = key) :
    property.shape.admits value.toJson = true := by
  simp only [properties, List.mem_cons, List.not_mem_nil, or_false] at listed
  rcases listed with rfl | rfl | rfl <;> cases named
  · obtain ⟨text, string, -⟩ := exists_of_bind_ok taken
    rw [Toml.Value.eq_of_asString string]
    rfl
  · obtain ⟨truth, boolean, -⟩ := exists_of_bind_ok taken
    rw [Toml.Value.eq_of_asBoolean boolean]
    rfl
  · obtain ⟨truth, boolean, -⟩ := exists_of_bind_ok taken
    rw [Toml.Value.eq_of_asBoolean boolean]
    rfl

/-- Of log settings in a table, the loader leaves only the keys to the schema. -/
theorem LoggingSettings.admits_iff_of_ofTable {table : Toml.Table} {settings : LoggingSettings}
    (taken : ofTable table = .ok settings) :
    admitsObject Shape.admits properties (Toml.Value.table table).toJson = true ↔
      KnowsKeys properties table := by
  rw [admitsObject_table_iff (by decide)]
  refine forall₂_congr fun entry member => exists_congr fun property => ?_
  obtain ⟨before, after, step⟩ := exists_step_of_foldlM taken member
  exact and_congr_right fun listed => and_iff_left_of_imp (admits_of_set step listed)

/-- Log settings that the loader takes are what the schema asks for if they are a table of log
options. -/
theorem LoggingSettings.admits_iff_of_ofValue {value : Toml.Value} {settings : LoggingSettings}
    (taken : ofValue value = .ok settings) :
    admitsObject Shape.admits properties value.toJson = true ↔
      ∃ table, value = .table table ∧ KnowsKeys properties table := by
  cases value with
  | table entries =>
    rw [admits_iff_of_ofTable taken]
    simp
  | array elements => simp [Toml.Value.toJson, admitsObject]
  | moment text => simp [Toml.Value.toJson, admitsObject]
  | _ => cases taken

private theorem Schema.Shape.admits_count {least number : Nat} :
    (Shape.count least).admits (Toml.Value.integer number).toJson = true ↔ least ≤ number := by
  simp only [Shape.admits, Toml.Value.toJson, Json.number?, Option.any_some, Rat.isInt,
    Rat.den_intCast, beq_self_eq_true, Bool.true_and, decide_eq_true_eq]
  exact_mod_cast Iff.rfl

namespace Settings

/-- An option that the loader takes is what the schema asks for, but for a budget of no steps, and
for log settings that are no table of log options. -/
theorem admits_iff_of_set {before after : Settings} {key : String} {value : Toml.Value}
    (taken : before.set (key, value) = .ok after) {property : Property Content}
    (listed : property ∈ properties) (named : property.name = key) :
    property.shape.admits value.toJson = true ↔
      (key = "max_interpreter_steps" → value ≠ .integer 0) ∧
      (key = "logging" →
        ∃ table, value = .table table ∧ KnowsKeys LoggingSettings.properties table) := by
  simp only [properties, List.mem_cons, List.not_mem_nil, or_false] at listed
  rcases listed with rfl | rfl | rfl | rfl <;> cases named
  · obtain ⟨truth, boolean, -⟩ := exists_of_bind_ok taken
    rw [Toml.Value.eq_of_asBoolean boolean]
    simp [Content.admits, Shape.admits, Toml.Value.toJson]
  · obtain ⟨number, count, -⟩ := exists_of_bind_ok taken
    rw [Toml.Value.eq_of_asCount count]
    simp only [Content.admits, Schema.Shape.admits_count]
    simp
  · obtain ⟨number, count, -⟩ := exists_of_bind_ok taken
    rw [Toml.Value.eq_of_asCount count]
    simp only [Content.admits, Schema.Shape.admits_count]
    simp
    omega
  · obtain ⟨logging, inner, -⟩ := exists_of_bind_ok taken
    rw [Content.admits, LoggingSettings.admits_iff_of_ofValue inner]
    simp

/-- What is loaded was a table of options that the loader takes one by one. -/
theorem exists_table_of_load {text : String} {settings : Settings}
    (loaded : load text = .ok settings) :
    ∃ table, Toml.read? text = some table ∧
      ∀ entry ∈ table, ∃ before after : Settings, before.set entry = .ok after := by
  cases read : Toml.read? text with
  | none =>
    rw [load, read] at loaded
    cases loaded
  | some table =>
    refine ⟨table, rfl, fun entry member => ?_⟩
    rw [load, read] at loaded
    cases result : ofTable table with
    | error mismatch =>
      simp only [result] at loaded
      cases loaded
    | ok last => exact exists_step_of_foldlM result member

/-- Of a document that the loader takes, the schema asks three things more: keys that name options,
a budget of some steps, and log settings in a table whose keys name log options. -/
theorem valid_iff_of_load {text : String} {settings : Settings}
    (loaded : load text = .ok settings) :
    ∃ table, Toml.read? text = some table ∧
      (Valid schema schema (Toml.Value.table table).toJson ↔
        KnowsKeys properties table ∧
        ("max_interpreter_steps", .integer 0) ∉ table ∧
        ∀ value, ("logging", value) ∈ table →
          ∃ inner, value = .table inner ∧ KnowsKeys LoggingSettings.properties inner) := by
  obtain ⟨table, read, taken⟩ := exists_table_of_load loaded
  refine ⟨table, read, ?_⟩
  rw [valid_settings_iff, admits, admitsObject_table_iff isProper_settings.distinct]
  constructor
  · intro fits
    refine ⟨fun entry member => ?_, fun zero => ?_, fun value member => ?_⟩
    · obtain ⟨property, listed, named, _⟩ := fits entry member
      exact ⟨property, listed, named⟩
    · obtain ⟨property, listed, named, admitted⟩ := fits _ zero
      obtain ⟨before, after, step⟩ := taken _ zero
      exact ((admits_iff_of_set step listed named).mp admitted).1 rfl rfl
    · obtain ⟨property, listed, named, admitted⟩ := fits _ member
      obtain ⟨before, after, step⟩ := taken _ member
      exact ((admits_iff_of_set step listed named).mp admitted).2 rfl
  · rintro ⟨known, budget, logging⟩ ⟨key, value⟩ member
    obtain ⟨property, listed, named⟩ := known _ member
    obtain ⟨before, after, step⟩ := taken _ member
    refine ⟨property, listed, named, (admits_iff_of_set step listed named).mpr ⟨?_, ?_⟩⟩
    · rintro rfl rfl
      exact budget member
    · rintro rfl
      exact logging value member

/-- A misspelt option is passed over, though the schema knows no key of that name. -/
theorem valid_iff_of_load_misspelt :
    load "max_step = 3\n" = .ok .default ∧
      ∃ table, Toml.read? "max_step = 3\n" = some table ∧
        ¬ Valid schema schema (Toml.Value.table table).toJson := by
  have taken : (load "max_step = 3\n").toOption = some .default := by decide +kernel
  have loaded : load "max_step = 3\n" = .ok .default := by
    cases result : load "max_step = 3\n" with
    | error failure => simp [result, Except.toOption] at taken
    | ok settings =>
      simp only [result, Except.toOption, Option.some.injEq] at taken
      rw [taken]
  have keys : (Toml.read? "max_step = 3\n").map (·.map (·.1)) = some ["max_step"] := by
    decide +kernel
  obtain ⟨table, read, agree⟩ := valid_iff_of_load loaded
  refine ⟨loaded, table, read, fun valid => ?_⟩
  rw [read, Option.map_some, Option.some.injEq] at keys
  have written : "max_step" ∈ table.map (·.1) := by
    rw [keys]
    exact List.mem_singleton.mpr rfl
  obtain ⟨entry, member, key⟩ := List.mem_map.mp written
  obtain ⟨property, listed, named⟩ := (agree.mp valid).1 entry member
  have unknown : ∀ property ∈ properties, property.name ≠ "max_step" := by decide
  exact unknown property listed (named.trans key)

end Settings

end PauseFlow
