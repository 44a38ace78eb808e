import Mathlib.Data.List.Nodup
import PauseFlow.Proofs.Flow.Hints
import PauseFlow.Proofs.Flow.Reports

namespace PauseFlow

/-- The way from a block to the next one. -/
inductive Side where
  | goto
  | thenSide
  | elseSide
deriving DecidableEq

variable {graph : FlowGraph} {registry : Variables}

/-- The instructions of the block of a configuration succeed and leave a memory. -/
def Configuration.RunsTo (graph : FlowGraph) (registry : Variables) (here : Configuration)
    (memory : Memory) : Prop :=
  (Instruction.runAll registry (graph.block here.place).instructions here.memory).2 = some memory

/-- From one configuration to the next one: after the instructions of its block, over a jump or
over a side of a branch whose condition is accepted. -/
inductive FlowGraph.Takes (graph : FlowGraph) (registry : Variables) :
    Configuration → Side → Configuration → Prop where
  | goto {here : Configuration} {memory : Memory} {target : BlockId}
      (ran : here.RunsTo graph registry memory)
      (last : (graph.block here.place).terminator = .goto target) :
      Takes graph registry here .goto ⟨target, memory⟩
  | thenSide {here : Configuration} {memory next : Memory} {condition : Condition}
      {thenTarget elseTarget : BlockId} {anchor : Option Anchor}
      (ran : here.RunsTo graph registry memory)
      (last : (graph.block here.place).terminator =
        .branch condition thenTarget elseTarget anchor)
      (accepted : memory.assume registry condition = (true, next)) :
      Takes graph registry here .thenSide ⟨thenTarget, next⟩
  | elseSide {here : Configuration} {memory next : Memory} {condition : Condition}
      {thenTarget elseTarget : BlockId} {anchor : Option Anchor}
      (ran : here.RunsTo graph registry memory)
      (last : (graph.block here.place).terminator =
        .branch condition thenTarget elseTarget anchor)
      (accepted : memory.assume registry condition.negate = (true, next)) :
      Takes graph registry here .elseSide ⟨elseTarget, next⟩

def FlowGraph.Leads (graph : FlowGraph) (registry : Variables) (here next : Configuration) : Prop :=
  ∃ side, graph.Takes registry here side next

/-- The second configuration is on a path from the first one. -/
def FlowGraph.Reaches (graph : FlowGraph) (registry : Variables) :
    Configuration → Configuration → Prop :=
  Relation.ReflTransGen (graph.Leads registry)

/-- The sides that can be taken after a block, with where they lead. -/
def Terminator.sides (registry : Variables) (memory : Memory) :
    Terminator → List (Side × Configuration)
  | .goto target => [(.goto, ⟨target, memory⟩)]
  | .branch condition thenTarget elseTarget _ =>
    (if (memory.assume registry condition).1 then
      [(.thenSide, ⟨thenTarget, (memory.assume registry condition).2⟩)] else []) ++
    (if (memory.assume registry condition.negate).1 then
      [(.elseSide, ⟨elseTarget, (memory.assume registry condition.negate).2⟩)] else [])
  | .returns => []
  | .exits => []

/-- The sides that can be taken from a configuration, with where they lead. -/
def Configuration.sides (graph : FlowGraph) (registry : Variables) (here : Configuration) :
    List (Side × Configuration) :=
  match (Instruction.runAll registry (graph.block here.place).instructions here.memory).2 with
  | none => []
  | some memory => (graph.block here.place).terminator.sides registry memory

private theorem Terminator.map_snd_sides (registry : Variables) (memory : Memory)
    (terminator : Terminator) : (terminator.sides registry memory).map Prod.snd =
      (Visit.ofTerminator registry memory terminator).successors := by
  cases terminator with
  | goto target => rfl
  | branch condition thenTarget elseTarget anchor =>
    simp only [sides, Visit.ofTerminator, Visit.ofBranch, List.map_append]
    congr 1 <;> split <;> rfl
  | returns => rfl
  | exits => rfl

private theorem Terminator.nodup_map_fst_sides (registry : Variables) (memory : Memory)
    (terminator : Terminator) : ((terminator.sides registry memory).map Prod.fst).Nodup := by
  cases terminator with
  | goto target => simp [sides]
  | branch condition thenTarget elseTarget anchor =>
    simp only [sides]
    split <;> split <;> simp
  | returns => exact .nil
  | exits => exact .nil

theorem Configuration.map_snd_sides (graph : FlowGraph) (registry : Variables)
    (here : Configuration) :
    (here.sides graph registry).map Prod.snd = (here.visit graph registry).successors := by
  unfold sides visit
  dsimp only
  cases Instruction.runAll registry (graph.block here.place).instructions here.memory with
  | mk events final =>
    cases final with
    | none => rfl
    | some memory => exact Terminator.map_snd_sides registry memory _

theorem Configuration.nodup_map_fst_sides (graph : FlowGraph) (registry : Variables)
    (here : Configuration) : ((here.sides graph registry).map Prod.fst).Nodup := by
  unfold sides
  split
  · exact .nil
  · exact Terminator.nodup_map_fst_sides registry _ _

theorem Configuration.mem_sides_iff {here next : Configuration} {side : Side} :
    (side, next) ∈ here.sides graph registry ↔ graph.Takes registry here side next := by
  unfold sides
  constructor
  · intro member
    split at member
    · cases member
    · rename_i memory ran
      cases last : (graph.block here.place).terminator with
      | goto target =>
        simp only [last, Terminator.sides, List.mem_singleton, Prod.mk.injEq] at member
        obtain ⟨rfl, rfl⟩ := member
        exact .goto ran last
      | branch condition thenTarget elseTarget anchor =>
        simp only [last, Terminator.sides, List.mem_append, List.mem_ite_nil_right,
          List.mem_singleton, Prod.mk.injEq] at member
        rcases member with ⟨accepted, rfl, rfl⟩ | ⟨accepted, rfl, rfl⟩
        · exact .thenSide ran last (Prod.ext accepted rfl)
        · exact .elseSide ran last (Prod.ext accepted rfl)
      | returns => simp [last, Terminator.sides] at member
      | exits => simp [last, Terminator.sides] at member
  · intro takes
    cases takes with
    | goto ran last =>
      rw [Configuration.RunsTo] at ran
      simp [ran, last, Terminator.sides]
    | thenSide ran last accepted =>
      rw [Configuration.RunsTo] at ran
      simp [ran, last, Terminator.sides, accepted]
    | elseSide ran last accepted =>
      rw [Configuration.RunsTo] at ran
      simp [ran, last, Terminator.sides, accepted]

theorem Configuration.mem_successors_iff {here next : Configuration} :
    next ∈ (here.visit graph registry).successors ↔ graph.Leads registry here next := by
  rw [← map_snd_sides, List.mem_map]
  constructor
  · rintro ⟨⟨side, _⟩, taken, rfl⟩
    exact ⟨side, mem_sides_iff.mp taken⟩
  · rintro ⟨side, takes⟩
    exact ⟨(side, next), mem_sides_iff.mpr takes, rfl⟩

namespace Exploration

variable {start : Configuration}

/-- All that was executed or waits is reachable, and nothing was executed twice. -/
structure Confined (graph : FlowGraph) (registry : Variables) (start : Configuration)
    (stage : Stage) : Prop where
  executed : ∀ {configuration}, configuration ∈ stage.executed →
    graph.Reaches registry start configuration
  waiting : ∀ {configuration}, configuration ∈ stage.waiting →
    graph.Reaches registry start configuration
  distinct : stage.executed.Nodup

private theorem confined_start : Confined graph registry start (.start start) where
  executed member := by cases member
  waiting member := by
    rw [List.mem_singleton.mp member]
    exact .refl
  distinct := .nil

private theorem Confined.turn {before after : Stage} (turn : Turn graph registry before after)
    (confined : Confined graph registry start before) : Confined graph registry start after := by
  obtain ⟨first, rest, front, ⟨_, executed, waiting, _, _⟩ | ⟨fresh, executed, waiting, _, _⟩⟩ :=
    turn.effects
  · refine ⟨?_, fun {configuration} member => ?_, ?_⟩
    · rw [executed]
      exact confined.executed
    · rw [waiting] at member
      exact confined.waiting (front ▸ List.mem_cons_of_mem first member)
    · rw [executed]
      exact confined.distinct
  · have reached : graph.Reaches registry start first :=
      confined.waiting (front ▸ List.mem_cons_self)
    refine ⟨fun {configuration} member => ?_, fun {configuration} member => ?_, ?_⟩
    · rw [executed, List.mem_cons] at member
      rcases member with rfl | old
      · exact reached
      · exact confined.executed old
    · rw [waiting, List.mem_append] at member
      rcases member with later | successor
      · exact confined.waiting (front ▸ List.mem_cons_of_mem first later)
      · exact reached.tail (Configuration.mem_successors_iff.mp successor)
    · rw [executed]
      exact List.nodup_cons.mpr ⟨fresh, confined.distinct⟩

end Exploration

/-- A report that covers a flow contains whatever is reachable. -/
theorem Report.Covers.mem_executed {start configuration : Configuration} {report : Report}
    (covers : report.Covers graph registry start)
    (reached : graph.Reaches registry start configuration) :
    configuration ∈ report.executed := by
  induction reached with
  | refl => exact covers.started
  | tail _ leads ih => exact covers.closed ih _ (Configuration.mem_successors_iff.mpr leads)

/-- However an exploration ends, it executes only reachable configurations, none of them twice. -/
theorem FlowGraph.executed_confined (graph : FlowGraph) (registry : Variables) (start : BlockId)
    (memory : Memory) (budget : Nat) (cancelled : Nat → Bool) :
    (∀ configuration ∈ (graph.explore registry start memory budget cancelled).executed,
      graph.Reaches registry ⟨start, memory⟩ configuration) ∧
    (graph.explore registry start memory budget cancelled).executed.Nodup := by
  obtain ⟨last, turns, ends⟩ :=
    Exploration.exists_turns graph registry cancelled budget (.start ⟨start, memory⟩)
  have confined := turns.keep Exploration.confined_start .turn
  have executed : (graph.explore registry start memory budget cancelled).executed =
      last.executed.reverse := ends.executed_eq
  rw [executed]
  exact ⟨fun configuration member => confined.executed (List.mem_reverse.mp member),
    List.nodup_reverse.mpr confined.distinct⟩

/-- An exploration that ends by itself executes exactly the reachable configurations, each of
them once, and what it reports is what these executions report: completed assignments, and for
branches with an anchor which sides can be taken. -/
theorem FlowGraph.explores_reachable {start : BlockId} {memory : Memory} {budget : Nat}
    {cancelled : Nat → Bool}
    (exhaustive : (graph.explore registry start memory budget cancelled).IsExhaustive) :
    (∀ configuration,
      configuration ∈ (graph.explore registry start memory budget cancelled).executed ↔
        graph.Reaches registry ⟨start, memory⟩ configuration) ∧
    (graph.explore registry start memory budget cancelled).executed.Nodup ∧
    (graph.explore registry start memory budget cancelled).events =
      (graph.explore registry start memory budget cancelled).executed.flatMap
        (fun configuration => (configuration.visit graph registry).events) ∧
    ∀ configuration events, graph.Reports registry configuration events ↔
      (configuration.visit graph registry).events = events := by
  have covers := covers_of_isExhaustive exhaustive
  obtain ⟨reached, distinct⟩ := graph.executed_confined registry start memory budget cancelled
  exact ⟨fun configuration => ⟨reached configuration, covers.mem_executed⟩, distinct,
    covers.events, fun configuration events => reports_iff⟩

/-- The loop over cells has four reachable configurations, although it never ends. -/
theorem explores_reachable_loop : ∃ configurations : List Configuration,
    configurations.length = 4 ∧ configurations.Nodup ∧
      ∀ configuration, configuration ∈ configurations ↔
        cellLoop.Reaches Memory.cells ⟨⟨0⟩, .empty⟩ configuration := by
  have exhaustive :
      (cellLoop.explore Memory.cells ⟨0⟩ .empty 10 fun _ => false).IsExhaustive :=
    .inl (by decide +kernel)
  obtain ⟨exact, distinct, _⟩ := FlowGraph.explores_reachable exhaustive
  exact ⟨_, by decide +kernel, distinct, exact⟩

end PauseFlow
