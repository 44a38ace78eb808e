import PauseFlow.Flow.Execution
import Std.Data.TreeMap.Lemmas

namespace PauseFlow

structure Visited where
  /-- The configurations, the latest first. -/
  configurations : List Configuration
  /-- The memories from which a block was executed, by its number. -/
  memories : Std.TreeMap Nat (List Memory)
  indexed : ∀ place : BlockId, memories.getD place.index [] =
    (configurations.filter fun earlier => earlier.place = place).map Configuration.memory

namespace Visited

def empty : Visited := ⟨[], ∅, fun _ => by simp⟩

/-- The memories from which a block was executed, the latest first. -/
def memoriesAt (visited : Visited) (place : BlockId) : List Memory :=
  visited.memories.getD place.index []

def contains (visited : Visited) (configuration : Configuration) : Bool :=
  configuration.memory ∈ visited.memoriesAt configuration.place

/-- Record that a configuration is executed. -/
def add (visited : Visited) (configuration : Configuration) : Visited where
  configurations := configuration :: visited.configurations
  memories := visited.memories.insert configuration.place.index
    (configuration.memory :: visited.memoriesAt configuration.place)
  indexed place := by
    rw [Std.TreeMap.getD_insert, List.filter_cons]
    by_cases same : configuration.place = place
    · subst same
      simp [memoriesAt, visited.indexed]
    · have different : configuration.place.index ≠ place.index := by
        intro equal
        apply same
        cases place
        cases configuration with
        | mk own => cases own; simp_all
      simp [same, different, visited.indexed]

theorem contains_iff (visited : Visited) (configuration : Configuration) :
    visited.contains configuration = true ↔ configuration ∈ visited.configurations := by
  rw [contains, decide_eq_true_iff, memoriesAt, visited.indexed, List.mem_map]
  constructor
  · rintro ⟨earlier, found, same⟩
    obtain ⟨member, here⟩ := List.mem_filter.mp found
    cases earlier
    cases configuration
    simp_all
  · intro member
    exact ⟨configuration, List.mem_filter.mpr ⟨member, by simp⟩, rfl⟩

theorem length_memoriesAt (visited : Visited) (place : BlockId) :
    (visited.memoriesAt place).length =
      visited.configurations.countP fun earlier => earlier.place = place := by
  rw [memoriesAt, visited.indexed, List.length_map, List.countP_eq_length_filter]

end Visited

end PauseFlow
