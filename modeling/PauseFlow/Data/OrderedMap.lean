import PauseFlow.Data.KeyOrder

/-! Finite maps whose entries are kept in strictly ascending key order. Two maps
are equal as data exactly when they have the same entries, so equality of maps
decides equality of what they record. -/
namespace PauseFlow

/-- A finite map with at most one value per key, in ascending key order. -/
structure OrderedMap (Key Value : Type) [KeyOrder Key] where
  entries : List (Key × Value)
  ascending : entries.Pairwise fun earlier later => KeyOrder.before earlier.1 later.1 = true

namespace OrderedMap

variable {Key Value Image : Type} [KeyOrder Key]

instance [DecidableEq Key] [DecidableEq Value] : DecidableEq (OrderedMap Key Value)
  | ⟨left, _⟩, ⟨right, _⟩ => decidable_of_iff (left = right)
      ⟨fun same => by subst same; rfl, fun same => congrArg entries same⟩

/-- The map with no entries. -/
def empty : OrderedMap Key Value := ⟨[], .nil⟩

instance : Inhabited (OrderedMap Key Value) := ⟨empty⟩

/-- The keys, in ascending order. -/
def keys (table : OrderedMap Key Value) : List Key := table.entries.map (·.1)

/-- The value recorded for a key, if any. -/
def get? [DecidableEq Key] (table : OrderedMap Key Value) (key : Key) : Option Value :=
  (table.entries.find? fun entry => entry.1 = key).map (·.2)

def contains [DecidableEq Key] (table : OrderedMap Key Value) (key : Key) : Bool :=
  table.entries.any fun entry => entry.1 = key

/-- Put a binding at its place in an ascending list; an old one is replaced. -/
def place (key : Key) (value : Value) : List (Key × Value) → List (Key × Value)
  | [] => [(key, value)]
  | entry :: rest =>
    if KeyOrder.before key entry.1 then (key, value) :: entry :: rest
    else if KeyOrder.before entry.1 key then entry :: place key value rest
    else (key, value) :: rest

private theorem place_keys {key : Key} {value : Value} {entries : List (Key × Value)}
    {entry : Key × Value} (member : entry ∈ place key value entries) :
    entry.1 = key ∨ entry ∈ entries := by
  induction entries with
  | nil => simp [place] at member; simp [member]
  | cons head rest ih =>
    simp only [place] at member
    split at member
    · rcases List.mem_cons.mp member with rfl | member
      · exact .inl rfl
      · exact .inr member
    · split at member
      · rcases List.mem_cons.mp member with rfl | member
        · exact .inr (List.mem_cons_self ..)
        · exact (ih member).imp id (List.mem_cons_of_mem head)
      · rcases List.mem_cons.mp member with rfl | member
        · exact .inl rfl
        · exact .inr (List.mem_cons_of_mem head member)

private theorem place_ascending (key : Key) (value : Value) {entries : List (Key × Value)}
    (ascending : entries.Pairwise fun earlier later => KeyOrder.before earlier.1 later.1 = true) :
    (place key value entries).Pairwise
      fun earlier later => KeyOrder.before earlier.1 later.1 = true := by
  induction entries with
  | nil => simp [place]
  | cons head rest ih =>
    have rest_above := (List.pairwise_cons.mp ascending).1
    have rest_ascending := (List.pairwise_cons.mp ascending).2
    simp only [place]
    split
    · rename_i first
      refine List.pairwise_cons.mpr ⟨fun entry member => ?_, ascending⟩
      rcases List.mem_cons.mp member with rfl | member
      · exact first
      · exact KeyOrder.transitive first (rest_above entry member)
    · rename_i notFirst
      split
      · rename_i later
        refine List.pairwise_cons.mpr ⟨fun entry member => ?_, ih rest_ascending⟩
        rcases place_keys member with same | member
        · exact same ▸ later
        · exact rest_above entry member
      · rename_i notLater
        have same : key = head.1 :=
          KeyOrder.connected (Bool.eq_false_iff.mpr notFirst)
            (Bool.eq_false_iff.mpr notLater)
        exact List.pairwise_cons.mpr ⟨fun entry member => same ▸ rest_above entry member,
          rest_ascending⟩

/-- Record a value for a key, replacing an earlier one. -/
def insert (table : OrderedMap Key Value) (key : Key) (value : Value) : OrderedMap Key Value :=
  ⟨place key value table.entries, place_ascending key value table.ascending⟩

/-- Drop the bindings that fail a test. -/
def filter (table : OrderedMap Key Value) (keep : Key → Value → Bool) : OrderedMap Key Value :=
  ⟨table.entries.filter fun entry => keep entry.1 entry.2, table.ascending.filter _⟩

/-- Drop the binding of one key. -/
def erase [DecidableEq Key] (table : OrderedMap Key Value) (key : Key) : OrderedMap Key Value :=
  table.filter fun other _ => other ≠ key

/-- Change every value in place. -/
def mapValues (table : OrderedMap Key Value) (change : Value → Image) : OrderedMap Key Image :=
  ⟨table.entries.map fun entry => (entry.1, change entry.2),
    List.pairwise_map.mpr table.ascending⟩

end OrderedMap

end PauseFlow
