import PauseFlow.Data.OrderedMap

namespace PauseFlow.OrderedMap

variable {Key Value Image : Type} [KeyOrder Key] [DecidableEq Key]

@[simp] theorem get?_empty (key : Key) : (empty : OrderedMap Key Value).get? key = none := rfl

private theorem find?_place (key other : Key) (value : Value) (entries : List (Key × Value)) :
    (place key value entries).find? (fun entry => entry.1 = other) =
      if other = key then some (key, value) else entries.find? fun entry => entry.1 = other := by
  induction entries with
  | nil =>
    by_cases same : other = key
    · simp [place, same]
    · simp [place, same, Ne.symm same]
  | cons head rest ih =>
    simp only [place]
    split
    · by_cases same : other = key
      · simp [same]
      · simp [same, Ne.symm same]
    · split
      · rename_i later
        have different : head.1 ≠ key := KeyOrder.ne_of_before later
        by_cases here : head.1 = other
        · have apart : other ≠ key := here ▸ different
          simp [here, apart]
        · simp [here, ih]
      · rename_i notFirst notLater
        have same : key = head.1 := KeyOrder.connected (Bool.eq_false_iff.mpr notFirst)
          (Bool.eq_false_iff.mpr notLater)
        by_cases here : other = key
        · simp [here]
        · simp [here, ← same, Ne.symm here]

/-- Insertion changes the lookup of one key. -/
@[simp] theorem get?_insert (table : OrderedMap Key Value) (key other : Key) (value : Value) :
    (table.insert key value).get? other = if other = key then some value else table.get? other := by
  simp only [get?, insert, find?_place]
  split <;> simp

/-- A filter that looks at keys only keeps or drops the lookup of a key. -/
theorem get?_filter (table : OrderedMap Key Value) (keep : Key → Bool) (key : Key) :
    (table.filter fun other _ => keep other).get? key =
      if keep key then table.get? key else none := by
  obtain ⟨entries, ascending⟩ := table
  simp only [get?, filter]
  clear ascending
  induction entries with
  | nil => simp
  | cons head rest ih =>
    by_cases here : head.1 = key
    · by_cases kept : keep key = true
      · simp [here, kept]
      · rw [List.filter_cons_of_neg (by simp [here, kept]), ih, if_neg kept, if_neg kept]
    · by_cases kept : keep head.1 = true
      · rw [List.filter_cons_of_pos (by simp [kept]), List.find?_cons_of_neg (by simp [here]), ih,
          List.find?_cons_of_neg (by simp [here])]
      · rw [List.filter_cons_of_neg (by simp [kept]), ih]
        simp [here]

@[simp] theorem get?_erase (table : OrderedMap Key Value) (key other : Key) :
    (table.erase key).get? other = if other = key then none else table.get? other := by
  rw [erase, get?_filter]
  by_cases same : other = key <;> simp [same]

@[simp] theorem get?_mapValues (table : OrderedMap Key Value) (change : Value → Image)
    (key : Key) : (table.mapValues change).get? key = (table.get? key).map change := by
  simp [get?, mapValues, List.find?_map, Function.comp_def]

theorem contains_eq_isSome (table : OrderedMap Key Value) (key : Key) :
    table.contains key = (table.get? key).isSome := by
  simp only [contains, get?, Option.isSome_map, List.isSome_find?]

theorem contains_iff (table : OrderedMap Key Value) (key : Key) :
    table.contains key = true ↔ ∃ value, table.get? key = some value := by
  rw [contains_eq_isSome, Option.isSome_iff_exists]

@[simp] theorem contains_insert (table : OrderedMap Key Value) (key other : Key) (value : Value) :
    (table.insert key value).contains other = true ↔
      other = key ∨ table.contains other = true := by
  simp only [contains_eq_isSome, get?_insert]
  by_cases same : other = key <;> simp [same]

@[simp] theorem contains_erase (table : OrderedMap Key Value) (key other : Key) :
    (table.erase key).contains other = true ↔ other ≠ key ∧ table.contains other = true := by
  simp only [contains_eq_isSome, get?_erase]
  by_cases same : other = key <;> simp [same]

theorem contains_filter (table : OrderedMap Key Value) (keep : Key → Bool) (key : Key) :
    (table.filter fun other _ => keep other).contains key = true ↔
      keep key = true ∧ table.contains key = true := by
  simp only [contains_eq_isSome, get?_filter]
  by_cases kept : keep key <;> simp [kept]

theorem mem_keys_iff (table : OrderedMap Key Value) (key : Key) :
    key ∈ table.keys ↔ table.contains key = true := by
  simp [keys, contains]

/-- Keys are strictly ascending, so an entry is found under its key. -/
theorem mem_entries_iff (table : OrderedMap Key Value) (key : Key) (value : Value) :
    (key, value) ∈ table.entries ↔ table.get? key = some value := by
  obtain ⟨entries, ascending⟩ := table
  simp only [get?]
  induction entries with
  | nil => simp
  | cons head rest ih =>
    obtain ⟨above, restAscending⟩ := List.pairwise_cons.mp ascending
    by_cases here : head.1 = key
    · subst here
      rw [List.find?_cons_of_pos (by simp)]
      constructor
      · intro member
        rcases List.mem_cons.mp member with same | later
        · rw [← same]
          rfl
        · have smaller := above _ later
          rw [KeyOrder.irreflexive] at smaller
          cases smaller
      · intro same
        rw [← Option.some.inj same]
        exact List.mem_cons_self
    · rw [List.find?_cons_of_neg (by simp [here]), ← ih restAscending, List.mem_cons]
      exact or_iff_right fun same => here (congrArg Prod.fst same).symm

/-- Maps with the same lookups have the same entries in the same order. -/
theorem ext_get? {left right : OrderedMap Key Value}
    (same : ∀ key, left.get? key = right.get? key) : left = right := by
  have members : ∀ entry, entry ∈ left.entries ↔ entry ∈ right.entries := by
    intro (key, value)
    rw [mem_entries_iff, mem_entries_iff, same]
  have nodup : ∀ table : OrderedMap Key Value, table.entries.Nodup := fun table =>
    table.ascending.imp fun earlier equal => KeyOrder.ne_of_before earlier (congrArg Prod.fst equal)
  have shuffled := (List.perm_ext_iff_of_nodup (nodup left) (nodup right)).mpr members
  have entries : left.entries = right.entries := by
    refine shuffled.eq_of_pairwise (fun earlier later _ _ before after => ?_) left.ascending
      right.ascending
    rw [KeyOrder.asymmetric before] at after
    cases after
  cases left
  cases right
  cases entries
  rfl

omit [DecidableEq Key] in
theorem nodup_keys (table : OrderedMap Key Value) : table.keys.Nodup := by
  apply List.pairwise_map.mpr
  exact table.ascending.imp fun earlier => KeyOrder.ne_of_before earlier

omit [DecidableEq Key] in
theorem length_keys (table : OrderedMap Key Value) :
    table.keys.length = table.entries.length := by
  simp [keys]

end PauseFlow.OrderedMap
