import PauseFlow.Proofs.Flow.Turns

namespace PauseFlow

/-- The executed configurations include the start and the successors of each of them, and the
events are those of their executions. -/
structure Report.Covers (graph : FlowGraph) (registry : Variables) (start : Configuration)
    (report : Report) : Prop where
  started : start ∈ report.executed
  closed : ∀ {configuration}, configuration ∈ report.executed →
    ∀ next ∈ (configuration.visit graph registry).successors, next ∈ report.executed
  events : report.events =
    report.executed.flatMap fun configuration => (configuration.visit graph registry).events

namespace Exploration

variable {graph : FlowGraph} {registry : Variables} {start : Configuration}

/-- Whatever is not executed yet waits. -/
structure Pending (graph : FlowGraph) (registry : Variables) (start : Configuration)
    (stage : Stage) : Prop where
  started : start ∈ stage.executed ∨ start ∈ stage.waiting
  closed : ∀ {configuration}, configuration ∈ stage.executed →
    ∀ next ∈ (configuration.visit graph registry).successors,
      next ∈ stage.executed ∨ next ∈ stage.waiting
  events : stage.progress.events.reverse = stage.executed.reverse.flatMap
    fun configuration => (configuration.visit graph registry).events

private theorem pending_start : Pending graph registry start (.start start) where
  started := .inr List.mem_cons_self
  closed member := by cases member
  events := rfl

private theorem Pending.turn {before after : Stage} (turn : Turn graph registry before after)
    (pending : Pending graph registry start before) : Pending graph registry start after := by
  obtain ⟨first, rest, front, ⟨known, executed, waiting, _, events⟩ |
    ⟨_, executed, waiting, _, events⟩⟩ := turn.effects
  · have moved : ∀ {configuration : Configuration},
        configuration ∈ before.executed ∨ configuration ∈ before.waiting →
        configuration ∈ after.executed ∨ configuration ∈ after.waiting := by
      intro configuration place
      rw [front, List.mem_cons] at place
      rw [executed, waiting]
      rcases place with old | rfl | later
      · exact .inl old
      · exact .inl known
      · exact .inr later
    refine ⟨moved pending.started, fun {configuration} member next successor => ?_, ?_⟩
    · rw [executed] at member
      exact moved (pending.closed member next successor)
    · rw [executed, events]
      exact pending.events
  · have moved : ∀ {configuration : Configuration},
        configuration ∈ before.executed ∨ configuration ∈ before.waiting →
        configuration ∈ after.executed ∨ configuration ∈ after.waiting := by
      intro configuration place
      rw [front, List.mem_cons] at place
      rw [executed, waiting, List.mem_cons, List.mem_append]
      rcases place with old | rfl | later
      · exact .inl (.inr old)
      · exact .inl (.inl rfl)
      · exact .inr (.inl later)
    refine ⟨moved pending.started, fun {configuration} member next successor => ?_, ?_⟩
    · rw [executed, List.mem_cons] at member
      rcases member with rfl | old
      · rw [waiting]
        exact .inr (List.mem_append_right _ successor)
      · exact moved (pending.closed old next successor)
    · rw [executed, events, List.reverse_append, List.reverse_reverse, pending.events,
        List.reverse_cons, List.flatMap_append, List.flatMap_singleton]

private theorem Pending.covers {last : Stage} (pending : Pending graph registry start last)
    (empty : last.waiting = []) (outcome : Outcome) :
    (last.progress.report outcome).Covers graph registry start := by
  have executed : ∀ {configuration : Configuration},
      configuration ∈ last.executed ∨ configuration ∈ last.waiting →
      configuration ∈ (last.progress.report outcome).executed := by
    intro configuration place
    rw [empty] at place
    exact List.mem_reverse.mpr (place.resolve_right List.not_mem_nil)
  refine ⟨executed pending.started, fun {configuration} member next successor => ?_,
    pending.events⟩
  exact executed (pending.closed (List.mem_reverse.mp member) next successor)

end Exploration

theorem FlowGraph.covers_of_isExhaustive {graph : FlowGraph} {registry : Variables}
    {start : BlockId} {memory : Memory} {budget : Nat} {cancelled : Nat → Bool}
    (exhaustive : (graph.explore registry start memory budget cancelled).IsExhaustive) :
    (graph.explore registry start memory budget cancelled).Covers graph registry
      ⟨start, memory⟩ := by
  obtain ⟨last, turns, ends⟩ :=
    Exploration.exists_turns graph registry cancelled budget (.start ⟨start, memory⟩)
  obtain ⟨empty, report⟩ := ends.of_isExhaustive exhaustive
  rw [FlowGraph.explore]
  exact report ▸ (turns.keep Exploration.pending_start .turn).covers empty _

end PauseFlow
