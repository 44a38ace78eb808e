import PauseFlow.Flow.Execution
import PauseFlow.Proofs.Memory.Operation

namespace PauseFlow

open Memory

/-- How an instruction changes the values. A target takes a value that the operand stands for,
and what hangs off the target may then hold anything of its declaration. -/
inductive Instruction.Steps {table : ClassTable} (world : World table) (registry : Variables) :
    Instruction → Environment → Environment → Prop where
  | assignSelf (target : Var) (env : Environment) :
      Steps world registry (.assign target (.var target)) env env
  | assign {target : Var} {value : Operand} {env later : Environment}
      (different : value ≠ .var target) (holds : value.Matches world env (later target))
      (changes : Changes world registry (registry.Within · target) env later) :
      Steps world registry (.assign target value) env later
  | havoc {target : Var} {env later : Environment}
      (changes : Changes world registry (registry.Within · target) env later) :
      Steps world registry (.havoc target) env later
  | assume {condition : Condition} {env : Environment} (holds : condition.Holds world env) :
      Steps world registry (.assume condition) env env

/-- How instructions in sequence change the values. -/
inductive Instruction.StepsAll {table : ClassTable} (world : World table) (registry : Variables) :
    List Instruction → Environment → Environment → Prop where
  | nil (env : Environment) : StepsAll world registry [] env env
  | cons {first : Instruction} {rest : List Instruction} {env middle later : Environment}
      (step : Instruction.Steps world registry first env middle)
      (steps : StepsAll world registry rest middle later) :
      StepsAll world registry (first :: rest) env later

/-- Where a run goes on after a block. -/
def Terminator.LeadsTo {table : ClassTable} (world : World table) (env : Environment) :
    Terminator → BlockId → Prop
  | .goto target, next => next = target
  | .branch condition thenTarget elseTarget _, next =>
    (condition.Holds world env ∧ next = thenTarget) ∨
      (¬ condition.Holds world env ∧ next = elseTarget)
  | .returns, _ => False
  | .exits, _ => False

/-- The beginning of a block in a run, with the values there. -/
structure Moment where
  place : BlockId
  env : Environment

/-- A run goes through one block. -/
def FlowGraph.Moves {table : ClassTable} (world : World table) (registry : Variables)
    (graph : FlowGraph) (before after : Moment) : Prop :=
  Instruction.StepsAll world registry (graph.block before.place).instructions before.env after.env ∧
    (graph.block before.place).terminator.LeadsTo world after.env after.place

/-- A run goes through any number of blocks. -/
def FlowGraph.Runs {table : ClassTable} (world : World table) (registry : Variables)
    (graph : FlowGraph) : Moment → Moment → Prop :=
  Relation.ReflTransGen (graph.Moves world registry)

/-- Operands are comparable, and a copied variable does not hang off the target. -/
def Instruction.WellTyped (registry : Variables) : Instruction → Prop
  | .assign target value => Comparable registry target value ∧
      ∀ source, value = .var source → source ≠ target → ¬ registry.Within source target
  | .havoc _ => True
  | .assume condition => Comparable registry condition.left condition.right

def Terminator.WellTyped (registry : Variables) : Terminator → Prop
  | .branch condition _ _ _ => Comparable registry condition.left condition.right
  | _ => True

structure Block.WellTyped (registry : Variables) (block : Block) : Prop where
  instructions : ∀ instruction ∈ block.instructions, instruction.WellTyped registry
  terminator : block.terminator.WellTyped registry

def FlowGraph.WellTyped (registry : Variables) (graph : FlowGraph) : Prop :=
  ∀ block ∈ graph.blocks, block.WellTyped registry

private theorem FlowGraph.WellTyped.block {registry : Variables} {graph : FlowGraph}
    (typed : graph.WellTyped registry) (place : BlockId) :
    (graph.block place).WellTyped registry := by
  unfold FlowGraph.block
  cases found : graph.blocks[place.index]? with
  | none => exact ⟨by simp, trivial⟩
  | some block => exact typed block (List.mem_of_getElem? found)

private theorem Comparable.negate {registry : Variables} {condition : Condition}
    (typed : Comparable registry condition.left condition.right) :
    Comparable registry condition.negate.left condition.negate.right := typed

/-- What is recorded of a forgotten target. -/
def Memory.learn (memory : Memory) (registry : Variables) (target : Var) : Operand → Bool × Memory
  | .var source => memory.unite registry target source
  | .constant value => memory.narrow registry target value

theorem Instruction.run_assign {registry : Variables} {memory next : Memory} {target : Var}
    {value : Operand} (different : value ≠ .var target)
    (learnt : (memory.forget registry target).learn registry target value = (true, next)) :
    (Instruction.assign target value).run registry memory =
      some ([.assigned target (next.value registry target)], next) := by
  cases value <;>
    · rw [Memory.learn] at learnt
      simp [run, runAssign, different, learnt]

/-- The values satisfy a memory of good form. -/
structure Memory.Models {table : ClassTable} (world : World table) (registry : Variables)
    (memory : Memory) (env : Environment) : Prop where
  wellFormed : WellFormed memory
  satisfied : Satisfies world registry memory env

section Following

variable {table : ClassTable} {world : World table} {registry : Variables} {memory : Memory}
  {env later : Environment}

/-- Executing an instruction follows a run through it. -/
theorem Instruction.Steps.followed (legal : table.Legal) (sameTable : registry.table = table)
    (built : registry.Built AbstractValue.Discrete) {instruction : Instruction}
    (typed : instruction.WellTyped registry) (models : memory.Models world registry env)
    (step : Instruction.Steps world registry instruction env later) :
    ∃ events next, instruction.run registry memory = some (events, next) ∧
      next.Models world registry later := by
  cases step with
  | assignSelf target => exact ⟨[], memory, by simp [run, runAssign], models⟩
  | @assign target value _ _ different holds changes =>
    have wellFormed := models.wellFormed.forget registry target
    have satisfied := models.satisfied.forgets
      (forgets_forget models.wellFormed built.ordered target) changes
    cases value with
    | var source =>
      have other : source ≠ target := by
        intro same
        subst same
        exact different rfl
      have same : later target = later source := by
        rw [changes.kept (typed.2 source rfl other)]
        exact holds
      obtain ⟨accepted, after⟩ := satisfied.unite legal sameTable wellFormed same
      exact ⟨_, _, run_assign different (Prod.ext accepted rfl),
        wellFormed.unite target source, after⟩
    | constant value =>
      obtain ⟨accepted, after⟩ := satisfied.narrow legal sameTable holds
      exact ⟨_, _, run_assign different (Prod.ext accepted rfl),
        wellFormed.narrow target value, after⟩
  | @havoc target _ _ changes =>
    exact ⟨[], _, rfl, models.wellFormed.forget registry target, models.satisfied.forgets
      (forgets_forget models.wellFormed built.ordered target) changes⟩
  | @assume condition _ holds =>
    obtain ⟨accepted, after⟩ := models.satisfied.assume_comparable legal sameTable built
      models.wellFormed typed holds
    exact ⟨[], _, by simp [run, accepted], models.wellFormed.assume condition, after⟩

/-- Executing instructions in sequence follows a run through them. -/
theorem Instruction.StepsAll.followed (legal : table.Legal) (sameTable : registry.table = table)
    (built : registry.Built AbstractValue.Discrete) {instructions : List Instruction}
    (typed : ∀ instruction ∈ instructions, instruction.WellTyped registry)
    (models : memory.Models world registry env)
    (steps : Instruction.StepsAll world registry instructions env later) :
    ∃ events next, runAll registry instructions memory = (events, some next) ∧
      next.Models world registry later := by
  induction steps generalizing memory with
  | nil env => exact ⟨[], memory, rfl, models⟩
  | cons step _ ih =>
    obtain ⟨events, middle, ran, modelsMiddle⟩ :=
      step.followed legal sameTable built (typed _ List.mem_cons_self) models
    obtain ⟨others, next, ranAll, modelsNext⟩ :=
      ih (fun instruction member => typed instruction (List.mem_cons_of_mem _ member)) modelsMiddle
    exact ⟨events ++ others, next, by simp [runAll, ran, ranAll], modelsNext⟩

/-- The side of a branch that a run takes is found feasible. -/
theorem Terminator.LeadsTo.followed (legal : table.Legal) (sameTable : registry.table = table)
    (built : registry.Built AbstractValue.Discrete) {terminator : Terminator}
    (typed : terminator.WellTyped registry) (models : memory.Models world registry env)
    {place : BlockId} (leads : terminator.LeadsTo world env place) :
    ∃ next, ⟨place, next⟩ ∈ (Visit.ofTerminator registry memory terminator).successors ∧
      next.Models world registry env := by
  cases terminator with
  | goto target => exact ⟨memory, by simp [Visit.ofTerminator, leads.symm], models⟩
  | returns => exact leads.elim
  | exits => exact leads.elim
  | branch condition thenTarget elseTarget anchor =>
    rcases leads with ⟨holds, rfl⟩ | ⟨fails, rfl⟩
    · obtain ⟨accepted, after⟩ := models.satisfied.assume_comparable legal sameTable built
        models.wellFormed typed holds
      exact ⟨_, by simp [Visit.ofTerminator, Visit.ofBranch, accepted],
        models.wellFormed.assume condition, after⟩
    · obtain ⟨accepted, after⟩ := models.satisfied.assume_comparable legal sameTable built
        models.wellFormed (Comparable.negate typed) (condition.holds_negate_iff.mpr fails)
      exact ⟨_, by simp [Visit.ofTerminator, Visit.ofBranch, accepted],
        models.wellFormed.assume condition.negate, after⟩

end Following

section Blocks

variable {table : ClassTable} {world : World table} {registry : Variables} {graph : FlowGraph}
  {configuration : Configuration}

/-- Where a run goes on, an executed configuration has a successor whose memory the run
satisfies. -/
theorem FlowGraph.Moves.followed (legal : table.Legal) (sameTable : registry.table = table)
    (built : registry.Built AbstractValue.Discrete) (typed : graph.WellTyped registry)
    {before after : Moment} (here : configuration.place = before.place)
    (models : configuration.memory.Models world registry before.env)
    (moves : graph.Moves world registry before after) :
    ∃ next ∈ (configuration.visit graph registry).successors, next.place = after.place ∧
      next.memory.Models world registry after.env := by
  have block := typed.block before.place
  obtain ⟨steps, leads⟩ := moves
  obtain ⟨events, memory, ran, modelsAfter⟩ :=
    steps.followed legal sameTable built block.instructions models
  obtain ⟨next, member, modelsNext⟩ :=
    leads.followed legal sameTable built block.terminator modelsAfter
  refine ⟨⟨after.place, next⟩, ?_, rfl, modelsNext⟩
  rw [← here] at ran member
  simpa [Configuration.visit, ran] using member

/-- A branch that a run comes to is reported, and the side that the run takes is feasible. -/
theorem Configuration.decided_of_branch (legal : table.Legal) (sameTable : registry.table = table)
    (built : registry.Built AbstractValue.Discrete) (typed : graph.WellTyped registry)
    {before now : Environment} (models : configuration.memory.Models world registry before)
    (steps : Instruction.StepsAll world registry (graph.block configuration.place).instructions
      before now)
    {condition : Condition} {thenTarget elseTarget : BlockId} {anchor : Anchor}
    (branch : (graph.block configuration.place).terminator =
      .branch condition thenTarget elseTarget (some anchor)) :
    ∃ thenFeasible elseFeasible,
      .decided anchor thenFeasible elseFeasible ∈ (configuration.visit graph registry).events ∧
      (condition.Holds world now → thenFeasible = true) ∧
      (¬ condition.Holds world now → elseFeasible = true) := by
  have block := typed.block configuration.place
  obtain ⟨events, memory, ran, modelsNow⟩ :=
    steps.followed legal sameTable built block.instructions models
  have comparable : Comparable registry condition.left condition.right := by
    have typedEnd := block.terminator
    rwa [branch] at typedEnd
  refine ⟨(memory.assume registry condition).1, (memory.assume registry condition.negate).1,
    by simp [visit, ran, branch, Visit.ofTerminator, Visit.ofBranch], fun holds => ?_,
    fun fails => ?_⟩
  · exact (modelsNow.satisfied.assume_comparable legal sameTable built modelsNow.wellFormed
      comparable holds).1
  · exact (modelsNow.satisfied.assume_comparable legal sameTable built modelsNow.wellFormed
      (Comparable.negate comparable) (condition.holds_negate_iff.mpr fails)).1

end Blocks

end PauseFlow
