import PauseFlow.Flow.Execution

namespace PauseFlow

variable {registry : Variables}

/-- What a completed assignment leaves: the target was forgotten, and then shares the class of the
source or holds the constant. -/
inductive Instruction.Assigns (registry : Variables) (memory : Memory) (target : Var) :
    Operand → Memory → Prop where
  | ofVar {source : Var} {next : Memory}
      (joined : (memory.forget registry target).unite registry target source = (true, next)) :
      Assigns registry memory target (.var source) next
  | ofConstant {value : AbstractValue} {next : Memory}
      (narrowed : (memory.forget registry target).narrow registry target value = (true, next)) :
      Assigns registry memory target (.constant value) next

/-- What instructions report one after the other, and the memory that they leave unless one of them
ends the path. Each completed assignment to another variable is reported, with what is known of its
target then. -/
inductive Instruction.Reports (registry : Variables) :
    List Instruction → Memory → List Event → Option Memory → Prop where
  | done {memory : Memory} : Reports registry [] memory [] (some memory)
  | assign {target : Var} {value : Operand} {rest : List Instruction} {memory next : Memory}
      {events : List Event} {last : Option Memory} (other : value ≠ .var target)
      (assigned : Assigns registry memory target value next)
      (later : Reports registry rest next events last) :
      Reports registry (.assign target value :: rest) memory
        (.assigned target (next.value registry target) :: events) last
  | assignSelf {target : Var} {rest : List Instruction} {memory : Memory} {events : List Event}
      {last : Option Memory} (later : Reports registry rest memory events last) :
      Reports registry (.assign target (.var target) :: rest) memory events last
  | assignEnds {target : Var} {value : Operand} {rest : List Instruction} {memory : Memory}
      (other : value ≠ .var target) (ends : ∀ next, ¬ Assigns registry memory target value next) :
      Reports registry (.assign target value :: rest) memory [] none
  | havoc {target : Var} {rest : List Instruction} {memory : Memory} {events : List Event}
      {last : Option Memory}
      (later : Reports registry rest (memory.forget registry target) events last) :
      Reports registry (.havoc target :: rest) memory events last
  | assume {condition : Condition} {rest : List Instruction} {memory next : Memory}
      {events : List Event} {last : Option Memory}
      (accepted : memory.assume registry condition = (true, next))
      (later : Reports registry rest next events last) :
      Reports registry (.assume condition :: rest) memory events last
  | assumeEnds {condition : Condition} {rest : List Instruction} {memory : Memory}
      (refused : (memory.assume registry condition).1 = false) :
      Reports registry (.assume condition :: rest) memory [] none

/-- What executing a configuration reports: its completed assignments and, if its block ends in an
anchored branch that is come to, which sides of that can be taken. -/
inductive FlowGraph.Reports (graph : FlowGraph) (registry : Variables) (here : Configuration) :
    List Event → Prop where
  | ended {events : List Event}
      (ran : Instruction.Reports registry (graph.block here.place).instructions here.memory events
        none) : Reports graph registry here events
  | decided {events : List Event} {memory : Memory} {condition : Condition}
      {thenTarget elseTarget : BlockId} {anchor : Anchor}
      (ran : Instruction.Reports registry (graph.block here.place).instructions here.memory events
        (some memory))
      (last : (graph.block here.place).terminator =
        .branch condition thenTarget elseTarget (some anchor)) :
      Reports graph registry here (events ++ [.decided anchor (memory.assume registry condition).1
        (memory.assume registry condition.negate).1])
  | silent {events : List Event} {memory : Memory}
      (ran : Instruction.Reports registry (graph.block here.place).instructions here.memory events
        (some memory))
      (last : ∀ condition thenTarget elseTarget anchor, (graph.block here.place).terminator ≠
        .branch condition thenTarget elseTarget (some anchor)) : Reports graph registry here events

namespace Instruction

private theorem run_assign_of_assigns {memory next : Memory} {target : Var} {value : Operand}
    (other : value ≠ .var target) (assigned : Assigns registry memory target value next) :
    run registry memory (.assign target value) =
      some ([.assigned target (next.value registry target)], next) := by
  rw [run, runAssign, if_neg other]
  cases assigned with
  | ofVar joined => simp only [joined, if_true]
  | ofConstant narrowed => simp only [narrowed, if_true]

private theorem run_assign_of_refused {memory : Memory} {target : Var} {value : Operand}
    (other : value ≠ .var target) (ends : ∀ next, ¬ Assigns registry memory target value next) :
    run registry memory (.assign target value) = none := by
  rw [run, runAssign, if_neg other]
  cases value with
  | var source =>
    have refused : ((memory.forget registry target).unite registry target source).1 ≠ true :=
      fun joined => ends _ (.ofVar (Prod.ext joined rfl))
    simp only [if_neg refused]
  | constant constant =>
    have refused : ((memory.forget registry target).narrow registry target constant).1 ≠ true :=
      fun narrowed => ends _ (.ofConstant (Prod.ext narrowed rfl))
    simp only [if_neg refused]

private theorem Reports.runAll_eq {instructions : List Instruction} {memory : Memory}
    {events : List Event} {last : Option Memory}
    (reports : Reports registry instructions memory events last) :
    runAll registry instructions memory = (events, last) := by
  induction reports with
  | done => rfl
  | assign other assigned later ih => simp [runAll, run_assign_of_assigns other assigned, ih]
  | assignSelf later ih => simp [runAll, run, runAssign, ih]
  | assignEnds other ends => simp [runAll, run_assign_of_refused other ends]
  | havoc later ih => simp [runAll, run, ih]
  | assume accepted later ih => simp [runAll, run, accepted, ih]
  | assumeEnds refused => simp [runAll, run, refused]

private theorem exists_reports (registry : Variables) (instructions : List Instruction)
    (memory : Memory) : ∃ events last, Reports registry instructions memory events last := by
  induction instructions generalizing memory with
  | nil => exact ⟨_, _, .done⟩
  | cons instruction rest ih =>
    cases instruction with
    | assign target value =>
      by_cases self : value = .var target
      · subst self
        obtain ⟨events, last, later⟩ := ih memory
        exact ⟨_, _, .assignSelf later⟩
      · by_cases completed : ∃ next, Assigns registry memory target value next
        · obtain ⟨next, assigned⟩ := completed
          obtain ⟨events, last, later⟩ := ih next
          exact ⟨_, _, .assign self assigned later⟩
        · exact ⟨_, _, .assignEnds self fun next assigned => completed ⟨next, assigned⟩⟩
    | havoc target =>
      obtain ⟨events, last, later⟩ := ih (memory.forget registry target)
      exact ⟨_, _, .havoc later⟩
    | assume condition =>
      cases refused : (memory.assume registry condition).1 with
      | false => exact ⟨_, _, .assumeEnds refused⟩
      | true =>
        obtain ⟨events, last, later⟩ := ih (memory.assume registry condition).2
        exact ⟨_, _, .assume (Prod.ext refused rfl) later⟩

end Instruction

private theorem Visit.events_ofTerminator_of_silent {memory : Memory} {terminator : Terminator}
    (silent : ∀ condition thenTarget elseTarget anchor,
      terminator ≠ .branch condition thenTarget elseTarget (some anchor)) :
    (Visit.ofTerminator registry memory terminator).events = [] := by
  cases terminator with
  | goto target => rfl
  | branch condition thenTarget elseTarget anchor =>
    cases anchor with
    | none => rfl
    | some anchor => exact absurd rfl (silent condition thenTarget elseTarget anchor)
  | returns => rfl
  | exits => rfl

private theorem Configuration.events_visit {graph : FlowGraph} {here : Configuration}
    {events : List Event} {last : Option Memory}
    (ran : Instruction.Reports registry (graph.block here.place).instructions here.memory events
      last) :
    (here.visit graph registry).events = events ++ last.elim [] fun memory =>
      (Visit.ofTerminator registry memory (graph.block here.place).terminator).events := by
  rw [visit, ran.runAll_eq]
  cases last with
  | none => exact (List.append_nil events).symm
  | some memory => rfl

theorem FlowGraph.Reports.events_eq {graph : FlowGraph} {here : Configuration}
    {events : List Event} (reports : graph.Reports registry here events) :
    (here.visit graph registry).events = events := by
  cases reports with
  | ended ran => rw [Configuration.events_visit ran, Option.elim_none, List.append_nil]
  | decided ran last =>
    rw [Configuration.events_visit ran, last]
    rfl
  | silent ran last =>
    rw [Configuration.events_visit ran, Option.elim_some,
      Visit.events_ofTerminator_of_silent last, List.append_nil]

theorem FlowGraph.exists_reports (graph : FlowGraph) (registry : Variables)
    (here : Configuration) : ∃ events, graph.Reports registry here events := by
  obtain ⟨events, last, ran⟩ := Instruction.exists_reports registry
    (graph.block here.place).instructions here.memory
  cases last with
  | none => exact ⟨_, .ended ran⟩
  | some memory =>
    by_cases anchored : ∃ condition thenTarget elseTarget anchor,
        (graph.block here.place).terminator =
          .branch condition thenTarget elseTarget (some anchor)
    · obtain ⟨condition, thenTarget, elseTarget, anchor, last⟩ := anchored
      exact ⟨_, .decided ran last⟩
    · exact ⟨_, .silent ran fun condition thenTarget elseTarget anchor last =>
        anchored ⟨condition, thenTarget, elseTarget, anchor, last⟩⟩

/-- Executing a configuration reports what the rules say, and nothing else. -/
theorem FlowGraph.reports_iff {graph : FlowGraph} {here : Configuration} {events : List Event} :
    graph.Reports registry here events ↔ (here.visit graph registry).events = events := by
  refine ⟨Reports.events_eq, ?_⟩
  rintro rfl
  obtain ⟨events, reports⟩ := graph.exists_reports registry here
  rwa [reports.events_eq]

end PauseFlow
