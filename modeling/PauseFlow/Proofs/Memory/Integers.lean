import PauseFlow.Proofs.Memory.Learning
import PauseFlow.Proofs.Memory.Refusal

/-! Equalities and inequalities over integers, assumed one after the other. Each one is accepted if
some numbers agree with it and the earlier ones but the differences between variables, and some
numbers agree with it and the earlier ones between variables. These need not be the same numbers:
a difference is not looked at again when its sides get their values later. -/
namespace PauseFlow

/-- Some numbers agree with a condition and with the earlier ones other than differences between
variables, and some with all of these conditions that compare variables. -/
def Condition.Acceptable (condition : Condition) (past : List Condition) : Prop :=
  (∃ numbers, condition.HoldsFor numbers ∧
    ∀ earlier ∈ past, earlier.separates = false → earlier.HoldsFor numbers) ∧
  ∃ numbers, ∀ known ∈ past ++ [condition], known.comparesVars = true → known.HoldsFor numbers

namespace Memory

variable {registry : Variables} {memory after : Memory} {condition : Condition}

/-- The conditions of a list, one after the other, as long as they are accepted. -/
def assumeAll (registry : Variables) (memory : Memory) (conditions : List Condition) :
    Option Memory :=
  insist registry memory (conditions.map .assume)

private theorem assumeAll_cons_eq_some_iff (registry : Variables) (memory after : Memory)
    (condition : Condition) (rest : List Condition) :
    assumeAll registry memory (condition :: rest) = some after ↔
      (memory.assume registry condition).1 = true ∧
        assumeAll registry (memory.assume registry condition).2 rest = some after := by
  rw [assumeAll, List.map_cons, insist, Operation.run]
  rcases memory.assume registry condition with ⟨_ | _, _⟩ <;> simp [assumeAll]

/-- A memory that was told some conditions over integers and nothing else. -/
structure Tracks (registry : Variables) (past : List Condition) (memory : Memory) : Prop where
  arises : Arises registry memory
  integral : memory.Integral
  numbers : ∀ numbers, memory.FitsNumbers numbers ↔
    ∀ earlier ∈ past, earlier.separates = false → earlier.HoldsFor numbers
  differences : ∀ numbers, memory.FitsDifferences numbers ↔
    ∀ earlier ∈ past, earlier.comparesVars = true → earlier.HoldsFor numbers

private theorem tracks_empty (registry : Variables) : Tracks registry [] .empty where
  arises := .start registry
  integral _ _ found := by cases found
  numbers numbers := iff_of_true (fitsNumbers_empty numbers) (List.forall_mem_nil _)
  differences numbers := iff_of_true (fitsDifferences_empty numbers) (List.forall_mem_nil _)

section Steps

variable {past : List Condition}

private theorem Tracks.accepted_iff (tracks : Tracks registry past memory)
    (overInts : condition.OverInts registry) :
    (memory.assume registry condition).1 = true ↔ condition.Acceptable past := by
  have admitted : (memory.assume registry condition).1 = true ↔ memory.Admits condition :=
    ⟨tracks.integral.admits_of_accepted tracks.arises overInts,
      (tracks.integral.answers tracks.arises.wellFormed overInts).accepts⟩
  rw [admitted]
  constructor
  · rintro ⟨⟨numbers, fits, holds⟩, differing, differs, compared⟩
    refine ⟨⟨numbers, holds, (tracks.numbers numbers).mp fits⟩, differing, ?_⟩
    exact List.forall_mem_append.mpr ⟨(tracks.differences differing).mp differs,
      List.forall_mem_singleton.mpr compared⟩
  · rintro ⟨⟨numbers, holds, earlier⟩, differing, known⟩
    obtain ⟨differs, compared⟩ := List.forall_mem_append.mp known
    exact ⟨⟨numbers, (tracks.numbers numbers).mpr earlier, holds⟩, differing,
      (tracks.differences differing).mpr differs, List.forall_mem_singleton.mp compared⟩

private theorem Tracks.step (tracks : Tracks registry past memory)
    (overInts : condition.OverInts registry)
    (accepted : (memory.assume registry condition).1 = true) :
    Tracks registry (past ++ [condition]) (memory.assume registry condition).2 := by
  have learns := (tracks.integral.answers tracks.arises.wellFormed overInts).learns accepted
  refine ⟨tracks.arises.operate (.assume condition) (issued_of_overInts overInts), learns.integral,
    fun numbers => ?_, fun numbers => ?_⟩
  · rw [learns.numbers, tracks.numbers, List.forall_mem_append, List.forall_mem_singleton]
  · rw [learns.differences, tracks.differences, List.forall_mem_append, List.forall_mem_singleton]

private theorem Tracks.run (tracks : Tracks registry past memory) {conditions : List Condition}
    (overInts : ∀ condition ∈ conditions, condition.OverInts registry)
    (accepted : assumeAll registry memory conditions = some after) :
    Tracks registry (past ++ conditions) after := by
  induction conditions generalizing past memory with
  | nil =>
    cases accepted
    rwa [List.append_nil]
  | cons first rest ih =>
    rw [assumeAll_cons_eq_some_iff] at accepted
    obtain ⟨fits, onward⟩ := accepted
    obtain ⟨firstInts, restInts⟩ := List.forall_mem_cons.mp overInts
    have told := ih (tracks.step firstInts fits) restInts onward
    rwa [List.append_assoc] at told

/-- Conditions are accepted if each one is acceptable after those before it. -/
theorem Tracks.assumeAll_iff (tracks : Tracks registry past memory) (conditions : List Condition)
    (overInts : ∀ condition ∈ conditions, condition.OverInts registry) :
    (∃ after, assumeAll registry memory conditions = some after) ↔
      ∀ before condition later, conditions = before ++ condition :: later →
        condition.Acceptable (past ++ before) := by
  induction conditions generalizing past memory with
  | nil =>
    refine ⟨fun _ before condition later split => ?_, fun _ => ⟨memory, rfl⟩⟩
    cases before <;> cases split
  | cons first rest ih =>
    obtain ⟨firstInts, restInts⟩ := List.forall_mem_cons.mp overInts
    simp only [assumeAll_cons_eq_some_iff, exists_and_left]
    constructor
    · rintro ⟨fits, onward⟩ before condition later split
      cases before with
      | nil =>
        cases split
        rw [List.append_nil]
        exact (tracks.accepted_iff firstInts).mp fits
      | cons head before =>
        cases split
        have told := (ih (tracks.step firstInts fits) restInts).mp onward before condition later rfl
        rwa [List.append_assoc] at told
    · intro acceptable
      have fits : (memory.assume registry first).1 = true := by
        apply (tracks.accepted_iff firstInts).mpr
        have told := acceptable [] first rest rfl
        rwa [List.append_nil] at told
      refine ⟨fits, (ih (tracks.step firstInts fits) restInts).mpr ?_⟩
      intro before condition later split
      have told := acceptable (first :: before) condition later (by rw [split]; rfl)
      rwa [List.append_assoc]

end Steps

private theorem acceptable_of_holdsFor {numbers : Var → Int} {before later : List Condition}
    (holds : ∀ known ∈ before ++ condition :: later, known.HoldsFor numbers) :
    condition.Acceptable before := by
  obtain ⟨earlier, rest⟩ := List.forall_mem_append.mp holds
  have own := (List.forall_mem_cons.mp rest).1
  refine ⟨⟨numbers, own, fun known member _ => earlier known member⟩, numbers, ?_⟩
  intro known member _
  rcases List.mem_append.mp member with before | here
  · exact earlier known before
  · rwa [List.mem_singleton.mp here]

/-- Conditions that some numbers make true are accepted in any order. -/
theorem accepted_of_holdsFor {conditions : List Condition}
    (overInts : ∀ condition ∈ conditions, condition.OverInts registry) {numbers : Var → Int}
    (holds : ∀ condition ∈ conditions, condition.HoldsFor numbers) :
    ∃ after, assumeAll registry .empty conditions = some after := by
  apply ((tracks_empty registry).assumeAll_iff conditions overInts).mpr
  rintro before condition later rfl
  exact acceptable_of_holdsFor holds

/-- The conditions with the differences between variables at the end. -/
def differencesLast (conditions : List Condition) : List Condition :=
  conditions.filter (!·.separates) ++ conditions.filter (·.separates)

private theorem mem_differencesLast_iff (conditions : List Condition) :
    condition ∈ differencesLast conditions ↔ condition ∈ conditions := by
  simp only [differencesLast, List.mem_append, List.mem_filter]
  cases condition.separates <;> simp

/-- Generic numbers of what the other conditions say make all differences true that any numbers
make true one at a time. -/
theorem exists_numbers_of_acceptable {plain apart : List Condition}
    (overInts : ∀ condition ∈ plain ++ apart, condition.OverInts registry)
    (plainOnly : ∀ condition ∈ plain, condition.separates = false)
    (apartOnly : ∀ condition ∈ apart, condition.separates = true)
    (acceptable : ∀ before condition later, plain ++ apart = before ++ condition :: later →
      condition.Acceptable before) :
    ∃ numbers, ∀ condition ∈ plain ++ apart, condition.HoldsFor numbers := by
  obtain ⟨plainInts, apartInts⟩ := List.forall_mem_append.mp overInts
  have prefixAccepted : ∃ after, assumeAll registry .empty plain = some after := by
    apply ((tracks_empty registry).assumeAll_iff plain plainInts).mpr
    intro before condition later split
    apply acceptable before condition (later ++ apart)
    rw [split, List.append_assoc, List.cons_append]
  obtain ⟨memory, told⟩ := prefixAccepted
  have tracks := (tracks_empty registry).run plainInts told
  obtain ⟨numbers, fits, generic⟩ :=
    tracks.arises.settled.exists_generic tracks.arises.wellFormed
  refine ⟨numbers, List.forall_mem_append.mpr ⟨fun condition member => ?_,
    fun condition member => ?_⟩⟩
  · exact (tracks.numbers numbers).mp fits condition member (plainOnly condition member)
  · have separates := apartOnly condition member
    obtain ⟨before, later, split⟩ := List.append_of_mem member
    obtain ⟨⟨others, differ, agree⟩, _⟩ := acceptable (plain ++ before) condition later
      (by rw [split, List.append_assoc])
    have otherFits : memory.FitsNumbers others := (tracks.numbers others).mpr
      fun earlier listed _ =>
        agree earlier (List.mem_append_left before listed) (plainOnly earlier listed)
    obtain ⟨left, right, rfl, _⟩ := (apartInts condition member).of_separates separates
    rw [Condition.holdsFor_different_var] at differ ⊢
    exact fun same => differ (otherFits.eq_of_forces (generic same))

/-- Conditions over integers are accepted one after the other if each is acceptable after those
before it. Those that some numbers make true are, in any order; and if some are accepted with the
differences between variables moved to the end, then some numbers make them true. -/
theorem assumeAll_integers (registry : Variables) (conditions : List Condition)
    (overInts : ∀ condition ∈ conditions, condition.OverInts registry) :
    ((∃ after, assumeAll registry .empty conditions = some after) ↔
      ∀ before condition later, conditions = before ++ condition :: later →
        condition.Acceptable before) ∧
    ((∃ numbers, ∀ condition ∈ conditions, condition.HoldsFor numbers) →
      ∃ after, assumeAll registry .empty conditions = some after) ∧
    ((∃ after, assumeAll registry .empty (differencesLast conditions) = some after) ↔
      ∃ numbers, ∀ condition ∈ conditions, condition.HoldsFor numbers) := by
  have sortedInts : ∀ condition ∈ differencesLast conditions, condition.OverInts registry :=
    fun condition member => overInts condition ((mem_differencesLast_iff conditions).mp member)
  refine ⟨(tracks_empty registry).assumeAll_iff conditions overInts,
    fun ⟨numbers, holds⟩ => accepted_of_holdsFor overInts holds, ?_, ?_⟩
  · intro accepted
    obtain ⟨numbers, holds⟩ := exists_numbers_of_acceptable sortedInts
      (fun condition member => by simpa using (List.mem_filter.mp member).2)
      (fun condition member => (List.mem_filter.mp member).2)
      (((tracks_empty registry).assumeAll_iff _ sortedInts).mp accepted)
    exact ⟨numbers, fun condition member =>
      holds condition ((mem_differencesLast_iff conditions).mpr member)⟩
  · rintro ⟨numbers, holds⟩
    exact accepted_of_holdsFor sortedInts fun condition member =>
      holds condition ((mem_differencesLast_iff conditions).mp member)

/-- `x` differs from `y`, and then both turn out to be 5. -/
def lateClash : List Condition :=
  [⟨⟨0⟩, .different, .var ⟨1⟩⟩, ⟨⟨0⟩, .equal, .constant (.int 5)⟩,
    ⟨⟨1⟩, .equal, .constant (.int 5)⟩]

theorem assumeAll_lateClash :
    (∃ after, assumeAll twoNumbers .empty lateClash = some after) ∧
      ¬ ∃ numbers, ∀ condition ∈ lateClash, condition.HoldsFor numbers := by
  have overInts : ∀ condition ∈ lateClash, condition.OverInts twoNumbers := by
    simp only [lateClash, List.forall_mem_cons]
    exact ⟨.var _ rfl rfl, .number _ _ rfl, .number _ _ rfl, List.forall_mem_nil _⟩
  refine ⟨Option.isSome_iff_exists.mp (by decide), fun satisfiable => ?_⟩
  obtain ⟨after, told⟩ := (assumeAll_integers twoNumbers lateClash overInts).2.2.mpr satisfiable
  have refused : assumeAll twoNumbers .empty (differencesLast lateClash) = none := by decide
  rw [refused] at told
  cases told

end Memory

end PauseFlow
