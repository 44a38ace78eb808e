import PauseFlow.Proofs.Abstract.Typed
import PauseFlow.Proofs.Memory.Change

namespace PauseFlow.Memory

structure Informed (registry : Variables) (memory : Memory) : Prop where
  issued : ∀ {var value}, memory.facts.get? var = some value → registry.Issued var
  plain : ∀ {var value}, value ∈ memory.exclusions var → complement? value = none
  typed : ∀ {var sort}, (registry.declared var).Typed sort → (memory.value registry var).Typed sort

variable {registry : Variables} {memory after : Memory}

private theorem informed_empty (registry : Variables) : Informed registry .empty where
  issued found := by cases found
  plain member := by cases member
  typed declared := declared

/-- Nothing is known of a variable that is not issued but what it may be declared with later. -/
theorem Informed.value_of_not_issued {old new : Variables} (informed : Informed old memory)
    (settled : Settled old memory) {var : Var} (missing : ¬ old.Issued var) :
    memory.value new var = new.declared var := by
  have own : memory.root var = var := by
    by_contra moved
    exact missing (settled.related moved).1
  have unknown : memory.facts.get? var = none := by
    by_contra known
    obtain ⟨value, found⟩ := Option.ne_none_iff_exists'.mp known
    exact missing (informed.issued found)
  rw [Memory.value, classValue, own, unknown]
  rfl

private theorem Informed.grow {old new : Variables} (informed : Informed old memory)
    (arises : Arises old memory) (grows : old.Grows new) : Informed new memory where
  issued found := grows.issued (informed.issued found)
  plain := informed.plain
  typed {var sort} declared := by
    by_cases issued : old.Issued var
    · rw [grows.declared issued] at declared
      rw [arises.wellFormed.value_of_grows grows issued]
      exact informed.typed declared
    · rw [informed.value_of_not_issued arises.settled issued]
      exact declared

private theorem Informed.narrow (informed : Informed registry memory)
    (settled : Settled registry memory)
    {var : Var} {value : AbstractValue} (issued : registry.Issued var)
    (possible : memory.narrowed registry var value ≠ .bottom) :
    Informed registry
      (memory.withFact (memory.root var) (memory.narrowed registry var value)) where
  issued {other known} found := by
    simp only [withFact, OrderedMap.get?_insert] at found
    split at found
    · rename_i here
      exact here ▸ settled.issued_root issued
    · exact informed.issued found
  plain := informed.plain
  typed {other sort} declared := by
    rw [value_withFact]
    split
    · rename_i same
      have known := informed.typed declared
      rw [value_eq_of_areEqual ((areEqual_iff memory other var).mpr same)] at known
      exact known.meet possible
    · exact informed.typed declared

private theorem Informed.merge (informed : Informed registry memory)
    (wellFormed : WellFormed memory)
    (settled : Settled registry memory) {left right : Var} (leftIssued : registry.Issued left)
    (different : memory.root left ≠ memory.root right)
    (possible : memory.overlap registry left right ≠ .bottom) :
    Informed registry (memory.merged (memory.root left) (memory.root right)
      (memory.overlap registry left right)) where
  issued {other known} found := by
    rw [get?_facts_merged] at found
    split at found
    · rename_i here
      exact here ▸ settled.issued_root leftIssued
    · split at found
      · cases found
      · exact informed.issued found
  plain {other excluded} member := by
    rw [exclusions_merged different] at member
    split at member
    · rcases mem_appendNew_iff.mp member with old | moved
      · exact informed.plain old
      · exact informed.plain moved
    · split at member
      · cases member
      · exact informed.plain member
  typed {other sort} declared := by
    have known := informed.typed declared
    rw [value_merged wellFormed different (root_top wellFormed.grounded left)
      (root_top wellFormed.grounded right)]
    split
    · rename_i inside
      rcases inside with inLeft | inRight
      · rw [value_eq_of_areEqual ((areEqual_iff memory other left).mpr inLeft)] at known
        exact known.meet possible
      · rw [value_eq_of_areEqual ((areEqual_iff memory other right).mpr inRight)] at known
        exact known.meet_right possible
    · exact known

private theorem Informed.exclude (informed : Informed registry memory) {var : Var}
    {value : AbstractValue} (plain : complement? value = none) :
    Informed registry (memory.withExclusion (memory.root var) value) where
  issued := informed.issued
  plain {other excluded} member := by
    rw [exclusions_withExclusion] at member
    split at member
    · rcases mem_appendNew_iff.mp member with old | new
      · exact informed.plain old
      · rwa [List.mem_singleton.mp new]
    · exact informed.plain member
  typed := informed.typed

private theorem Informed.detach (informed : Informed registry memory)
    (wellFormed : WellFormed memory)
    (settled : Settled registry memory) (var : Var) : Informed registry (memory.detach var) where
  issued {other known} found := by
    rw [get?_facts_detach wellFormed] at found
    split at found
    · cases found
    · rename_i outside
      by_cases here : other = memory.heir var
      · rw [here]
        exact settled.issued_heir (here ▸ outside)
      · rw [relabel_of_ne here] at found
        exact informed.issued found
  plain {other excluded} member := by
    rw [exclusions_detach wellFormed] at member
    split at member
    · cases member
    · exact informed.plain member
  typed {other sort} declared := by
    have forgets := forgets_detach registry wellFormed var
    by_cases gone : other = var
    · rw [forgets.lostValue gone]
      exact declared
    · rw [forgets.value gone]
      exact informed.typed declared

private theorem Change.informed (change : Change registry memory after)
    (wellFormed : WellFormed memory)
    (settled : Settled registry memory) (informed : Informed registry memory) :
    Informed registry after := by
  cases change with
  | narrow issued possible _ => exact informed.narrow settled issued possible
  | merge leftIssued _ different _ possible _ _ =>
    exact informed.merge wellFormed settled leftIssued different possible
  | separate _ => exact ⟨informed.issued, informed.plain, informed.typed⟩
  | exclude _ plain _ => exact informed.exclude plain
  | detach var => exact informed.detach wellFormed settled var

theorem Arises.informed (arises : Arises registry memory) : Informed registry memory :=
  arises.induct informed_empty (fun arises grows informed => informed.grow arises grows)
    fun change wellFormed settled informed => change.informed wellFormed settled informed

/-- What is known of a variable declared with a type is of the sort of that type. -/
theorem Arises.typed (arises : Arises registry memory) {var : Var} {type : JvmType}
    (declared : registry.declared var = .ofType type) :
    (memory.value registry var).Typed type.sort :=
  arises.informed.typed (declared ▸ AbstractValue.typed_ofType type)

end PauseFlow.Memory
