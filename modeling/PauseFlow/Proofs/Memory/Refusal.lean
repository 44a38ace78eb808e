import PauseFlow.Proofs.Memory.Coherence

namespace PauseFlow.Memory

variable {memory : Memory} {registry : Variables}

/-- If the answer is false, the memory that comes with it is the old one. -/
def Traceless (memory : Memory) (answer : Bool × Memory) : Prop :=
  answer.1 = false → answer.2 = memory

private theorem traceless_same (memory : Memory) (answer : Bool) : Traceless memory
    (answer, memory) :=
  fun _ => rfl

private theorem traceless_true (memory after : Memory) : Traceless memory (true, after) := nofun

private theorem traceless_narrow (memory : Memory) (registry : Variables) (var : Var)
    (value : AbstractValue) : Traceless memory (memory.narrow registry var value) := by
  rcases narrow_cases memory registry var value with ⟨_, result⟩ | ⟨_, _, result⟩
  · rw [result]
    exact traceless_same memory _
  · rw [result]
    exact traceless_true memory _

private theorem traceless_unite (memory : Memory) (registry : Variables) (left right : Var) :
    Traceless memory (memory.unite registry left right) := by
  rcases unite_cases memory registry left right with
    ⟨_, result⟩ | ⟨_, _, result⟩ | ⟨_, _, _, _, _, result⟩
  · rw [result]
    exact traceless_same memory _
  · rw [result]
    exact traceless_same memory _
  · rw [result]
    exact traceless_true memory _

private theorem traceless_separate (memory : Memory) (registry : Variables) (left right : Var) :
    Traceless memory (memory.separate registry left right) := by
  rcases separate_cases memory registry left right with ⟨_, result⟩ | ⟨_, result⟩
  · rw [result]
    exact traceless_same memory _
  · rw [result]
    exact traceless_true memory _

/-- An exclusion that is a narrowing fails as the narrowing does. -/
theorem traceless_exclude (memory : Memory) (registry : Variables) (var : Var)
    (value : AbstractValue) : Traceless memory (memory.exclude registry var value) := by
  rcases exclude_cases memory registry var value with
    ⟨_, result⟩ | ⟨other, _, result⟩ | ⟨_, _, _, result⟩ | result
  · rw [result]
    exact traceless_same memory _
  · rw [result]
    exact traceless_narrow memory registry var other
  · rw [result]
    exact traceless_true memory _
  · rw [result]
    exact traceless_same memory _

private theorem traceless_assume (memory : Memory) (registry : Variables) (condition : Condition) :
    Traceless memory (memory.assume registry condition) := by
  unfold Memory.assume
  split
  · rcases assumeFloating_cases memory registry condition with
      ⟨answer, result⟩ | ⟨value, _, result⟩ | ⟨value, _, result⟩
    · rw [result]
      exact traceless_same memory answer
    · rw [result]
      exact traceless_narrow memory registry _ value
    · rw [result]
      exact traceless_exclude memory registry _ value
  · split
    · exact traceless_unite memory registry _ _
    · exact traceless_narrow memory registry _ _
    · exact traceless_separate memory registry _ _
    · exact traceless_exclude memory registry _ _

private theorem Operation.traceless (registry : Variables) (memory : Memory)
    (operation : Operation) : Traceless memory (operation.run registry memory) := by
  cases operation with
  | assume condition => exact traceless_assume memory registry condition
  | unite left right => exact traceless_unite memory registry left right
  | narrow var value => exact traceless_narrow memory registry var value
  | forget var => exact traceless_true memory _

/-- Operations one after the other, whatever they answer. -/
def goOn (registry : Variables) (memory : Memory) (operations : List Operation) : Memory :=
  operations.foldl (fun memory operation => (operation.run registry memory).2) memory

/-- Operations one after the other, as long as they are accepted. -/
def insist (registry : Variables) : Memory → List Operation → Option Memory
  | memory, [] => some memory
  | memory, operation :: rest =>
    match operation.run registry memory with
    | (true, after) => insist registry after rest
    | (false, _) => none

/-- The operations that are accepted when one goes on after the others. -/
def accepted (registry : Variables) : Memory → List Operation → List Operation
  | _, [] => []
  | memory, operation :: rest =>
    match operation.run registry memory with
    | (true, after) => operation :: accepted registry after rest
    | (false, after) => accepted registry after rest

/-- The accepted operations are accepted again without the others and lead to the same memory. -/
theorem insist_accepted (registry : Variables) (memory : Memory) (operations : List Operation) :
    insist registry memory (accepted registry memory operations) =
      some (goOn registry memory operations) := by
  induction operations generalizing memory with
  | nil => rfl
  | cons operation rest ih =>
    rw [goOn, List.foldl_cons, ← goOn, ← ih, accepted]
    have kept := operation.traceless registry memory
    rcases ran : operation.run registry memory with ⟨answer, after⟩
    cases answer with
    | true => simp only [insist, ran]
    | false =>
      rw [ran] at kept
      obtain rfl : after = memory := kept rfl
      rfl

/-- A refused operation leaves every part of the memory as it was. Going on after refusals leads
where the accepted operations alone lead. -/
theorem refused_without_trace (registry : Variables) (memory : Memory) :
    (∀ operation : Operation, (operation.run registry memory).1 = false →
      (operation.run registry memory).2 = memory) ∧
    ∀ operations, insist registry memory (accepted registry memory operations) =
      some (goOn registry memory operations) :=
  ⟨Operation.traceless registry memory, insist_accepted registry memory⟩

example : accepted twoNumbers .empty [.narrow ⟨0⟩ (.int 5),
    .assume ⟨⟨0⟩, .different, .constant (.int 5)⟩, .unite ⟨1⟩ ⟨0⟩] =
    [.narrow ⟨0⟩ (.int 5), .unite ⟨1⟩ ⟨0⟩] := by decide

end PauseFlow.Memory
