import Mathlib.Data.List.Basic

namespace PauseFlow

section Positions

variable {Item Key : Type} [DecidableEq Key] {key : Item → Key} {items : List Item}

/-- An item at the end is found by its key, unless an earlier one has it. -/
theorem findIdx?_key_append (key : Item → Key) (items : List Item) (item : Item) (wanted : Key) :
    ((items ++ [item]).findIdx? fun other => key other = wanted) =
      (items.findIdx? fun other => key other = wanted).or
        (if key item = wanted then some items.length else none) := by
  rw [List.findIdx?_append]
  by_cases same : key item = wanted
  · simp [same]
  · simp [same]

/-- An item that replaces another one of its key moves no key. -/
theorem findIdx?_key_set {item : Item} {position : Nat}
    (known : (items.findIdx? fun other => key other = key item) = some position) (wanted : Key) :
    ((items.set position item).findIdx? fun other => key other = wanted) =
      items.findIdx? fun other => key other = wanted := by
  obtain ⟨inside, found, _⟩ := List.findIdx?_eq_some_iff_getElem.mp known
  have inKeys : position < (items.map key).length := by simpa using inside
  have own : key item = (items.map key)[position] := by simpa using (of_decide_eq_true found).symm
  have keys : (items.set position item).map key = items.map key := by
    rw [List.map_set, own, List.set_getElem_self]
  have byKeys : ∀ others : List Item, (others.findIdx? fun other => key other = wanted) =
      (others.map key).findIdx? fun own => own = wanted := by
    intro others
    rw [List.findIdx?_map]
    rfl
  rw [byKeys, keys, byKeys]

end Positions

/-- A hash index that is kept in step with a list: a key leads to the first item that has it. -/
structure PositionIndex {Item Key : Type} [DecidableEq Key] [Hashable Key] (key : Item → Key)
    (items : List Item) where
  entries : Std.HashMap Key Nat
  agrees : ∀ wanted, entries[wanted]? = items.findIdx? fun item => key item = wanted

namespace PositionIndex

variable {Item Key : Type} [DecidableEq Key] [Hashable Key] {key : Item → Key} {items : List Item}

def find? (index : PositionIndex key items) (wanted : Key) : Option Nat := index.entries[wanted]?

theorem find?_eq (index : PositionIndex key items) (wanted : Key) :
    index.find? wanted = items.findIdx? fun item => key item = wanted := index.agrees wanted

def empty (key : Item → Key) : PositionIndex key [] := ⟨∅, fun _ => Std.HashMap.getElem?_empty⟩

/-- Only the new key is entered. -/
def push (index : PositionIndex key items) (item : Item) (fresh : index.find? (key item) = none) :
    PositionIndex key (items ++ [item]) where
  entries := index.entries.insert (key item) items.length
  agrees wanted := by
    rw [Std.HashMap.getElem?_insert, findIdx?_key_append, index.agrees]
    rw [find?_eq] at fresh
    by_cases same : key item = wanted
    · rw [← same, fresh]
      simp
    · simp [same]

/-- The entries stay as they are when a definition of the same key is replaced. -/
def replace (index : PositionIndex key items) (item : Item) {position : Nat}
    (known : index.find? (key item) = some position) :
    PositionIndex key (items.set position item) where
  entries := index.entries
  agrees wanted := by
    rw [find?_eq] at known
    rw [index.agrees, findIdx?_key_set known]

end PositionIndex

end PauseFlow
