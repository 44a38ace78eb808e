import PauseFlow.Proofs.Flow.Hints

/-! Explorations of one flow that differ only in what may stop them. The one that is stopped
earlier has done a first part of what the other one does, and where nothing stops it they are the
same. -/
namespace PauseFlow

/-- The exploration was about to take more steps than its budget allows. -/
def Report.RanOut (report : Report) (budget : Nat) : Prop :=
  report.outcome = .exhausted ∧ budget < report.polls

/-- The poll of this number, counted from one, is the first one answered by a cancellation. -/
structure FirstCancelledAt (cancelled : Nat → Bool) (poll : Nat) : Prop where
  counted : 0 < poll
  answered : cancelled poll = true
  earlier : ∀ other, 0 < other → other < poll → cancelled other = false

namespace Exploration

variable {graph : FlowGraph} {registry : Variables} {cancelled : Nat → Bool} {budget : Nat}
  {stage : Stage} {report : Report}

theorem Turn.polls_eq {before after : Stage} (turn : Turn graph registry before after) :
    after.progress.polls = before.progress.polls + 1 := by
  cases turn <;> rfl

private theorem Turn.events_suffix {before after : Stage}
    (turn : Turn graph registry before after) :
    before.progress.events <:+ after.progress.events := by
  obtain ⟨first, rest, front, ⟨_, _, _, _, events⟩ | ⟨_, _, _, _, events⟩⟩ := turn.effects
  · rw [events]
  · rw [events]
    exact List.suffix_append _ _

/-- What was reported so far stays at the beginning of the report. -/
theorem Run.keeps_events (run : Run graph registry cancelled budget stage report) :
    stage.progress.events.reverse <+: report.events := by
  induction run with
  | empty _ => exact List.prefix_refl _
  | interrupted _ _ => exact List.prefix_refl _
  | exhausted _ _ _ => exact List.prefix_refl _
  | turn moves _ _ ih =>
    have extended := (Stage.turn_of_move moves).1.events_suffix
    exact (List.reverse_prefix.mpr extended).trans ih

private theorem Run.polls_le (run : Run graph registry cancelled budget stage report) :
    stage.progress.polls ≤ report.polls := by
  induction run with
  | empty _ => exact Nat.le_refl _
  | interrupted _ _ => exact Nat.le_succ _
  | exhausted _ _ _ => exact Nat.le_succ _
  | turn moves _ _ ih =>
    rw [(Stage.turn_of_move moves).1.polls_eq] at ih
    exact Nat.le_of_succ_le ih

/-- As long as something waits there is one more poll. -/
theorem Run.polls_lt (run : Run graph registry cancelled budget stage report)
    (waits : stage.move graph registry ≠ .empty) : stage.progress.polls < report.polls := by
  cases run with
  | empty empty => exact absurd empty waits
  | interrupted _ _ => exact Nat.lt_succ_self _
  | exhausted _ _ _ => exact Nat.lt_succ_self _
  | turn moves _ rest =>
    have later := rest.polls_le
    rwa [(Stage.turn_of_move moves).1.polls_eq] at later

/-- A smaller budget changes nothing unless it runs out, and then it only cuts off an end. -/
theorem Run.of_smaller (run : Run graph registry cancelled budget stage report) {larger : Nat}
    (within : budget ≤ larger) :
    stage.explore graph registry cancelled larger = report ∨
    (report.outcome = .exhausted ∧ report.polls = stage.progress.polls + budget + 1 ∧
      report.events <+: (stage.explore graph registry cancelled larger).events) := by
  induction run generalizing larger with
  | empty empty => exact .inl (Stage.explore_of_empty empty)
  | interrupted waits answer => exact .inl (Stage.explore_of_cancelled waits answer)
  | @exhausted budget stage waits answer stopped =>
    rcases stopped with full | rfl
    · exact .inl (Stage.explore_of_saturated full answer)
    · have kept := (stage.run_explore graph registry cancelled larger).keeps_events
      exact .inr ⟨rfl, rfl, kept⟩
  | @turn budget stage next report moves answer rest ih =>
    obtain ⟨more, rfl⟩ : ∃ more, larger = more + 1 := ⟨larger - 1, by omega⟩
    have counted := (Stage.turn_of_move moves).1.polls_eq
    rw [Stage.explore_succ moves answer]
    rcases ih (Nat.le_of_succ_le_succ within) with same | ⟨outcome, polls, kept⟩
    · exact .inl same
    · exact .inr ⟨outcome, by omega, kept⟩

private theorem Run.outcome_ne_cancelled
    (run : Run graph registry (fun _ => false) budget stage report) :
    report.outcome ≠ .cancelled := by
  induction run with
  | empty _ =>
    simp only [Stage.conclude, Progress.report]
    split
    · exact Outcome.noConfusion
    · exact Outcome.noConfusion
  | interrupted _ impossible => exact absurd impossible Bool.false_ne_true
  | exhausted _ _ _ => exact Outcome.noConfusion
  | turn _ _ _ ih => exact ih

/-- A cancellation changes nothing unless its poll is reached, and then it only cuts off an end. -/
theorem Run.of_cancelled (run : Run graph registry cancelled budget stage report) {poll : Nat}
    (first : FirstCancelledAt cancelled poll) (ahead : stage.progress.polls < poll) :
    let uncancelled := stage.explore graph registry (fun _ => false) budget
    (uncancelled.polls < poll ∧ report = uncancelled) ∨
    (poll ≤ uncancelled.polls ∧ report.outcome = .cancelled ∧
      report.events <+: uncancelled.events) := by
  intro uncancelled
  have notYet : ∀ {stage : Stage}, stage.progress.polls < poll →
      cancelled (stage.progress.polls + 1) = false → stage.progress.polls + 1 < poll := by
    intro stage ahead answer
    refine Nat.lt_of_le_of_ne ahead ?_
    rintro rfl
    rw [first.answered] at answer
    cases answer
  induction run with
  | @empty budget stage empty =>
    have same : uncancelled = stage.conclude := Stage.explore_of_empty empty
    rw [same]
    exact .inl ⟨ahead, rfl⟩
  | @interrupted budget stage waits answer =>
    -- An earlier poll is not answered by a cancellation.
    have now : poll ≤ stage.progress.polls + 1 := by
      by_contra early
      rw [first.earlier _ (Nat.succ_pos _) (Nat.lt_of_not_le early)] at answer
      cases answer
    have whole := stage.run_explore graph registry (fun _ => false) budget
    exact .inr ⟨Nat.le_trans now (whole.polls_lt waits), rfl, whole.keeps_events⟩
  | @exhausted budget stage waits answer stopped =>
    have same : uncancelled = stage.progress.poll.report .exhausted := by
      rcases stopped with full | rfl
      · exact Stage.explore_of_saturated full rfl
      · exact Stage.explore_zero waits rfl
    rw [same]
    exact .inl ⟨notYet ahead answer, rfl⟩
  | @turn budget stage next report moves answer rest ih =>
    have counted := (Stage.turn_of_move moves).1.polls_eq
    have same : uncancelled = next.explore graph registry (fun _ => false) budget :=
      Stage.explore_succ moves rfl
    rw [same]
    exact ih (counted ▸ notYet ahead answer)

end Exploration

/-- What stops an exploration early only truncates it. With a smaller budget the events are a
first part of those with the larger one, and the report is the same unless the steps run out. With
a cancellation the events are a first part of those without it, the exploration is cancelled if it
gets to that poll, and otherwise the report is the same. -/
theorem FlowGraph.explore_truncated (graph : FlowGraph) (registry : Variables) (start : BlockId)
    (memory : Memory) {budget larger : Nat} (within : budget ≤ larger) (cancelled : Nat → Bool)
    {interrupted : Nat → Bool} {poll : Nat} (first : FirstCancelledAt interrupted poll) :
    let smallRun := graph.explore registry start memory budget cancelled
    let largeRun := graph.explore registry start memory larger cancelled
    let cutRun := graph.explore registry start memory budget interrupted
    let wholeRun := graph.explore registry start memory budget fun _ => false
    (smallRun.events <+: largeRun.events ∧ (¬ smallRun.RanOut budget → largeRun = smallRun)) ∧
    (cutRun.events <+: wholeRun.events ∧ (cutRun.outcome = .cancelled ↔ poll ≤ wholeRun.polls) ∧
      (wholeRun.polls < poll → cutRun = wholeRun)) := by
  intro smallRun largeRun cutRun wholeRun
  have budgets := ((Exploration.Stage.start ⟨start, memory⟩).run_explore graph registry cancelled
    budget).of_smaller within
  have cancellations := ((Exploration.Stage.start ⟨start, memory⟩).run_explore graph registry
    interrupted budget).of_cancelled first first.counted
  constructor
  · rcases budgets with same | ⟨outcome, polls, kept⟩
    · have same : largeRun = smallRun := same
      rw [same]
      exact ⟨List.prefix_refl _, fun _ => rfl⟩
    · refine ⟨kept, fun goesOn => absurd ⟨outcome, ?_⟩ goesOn⟩
      have polls : smallRun.polls = 0 + budget + 1 := polls
      omega
  · rcases cancellations with ⟨before, same⟩ | ⟨reached, outcome, kept⟩
    · have same : cutRun = wholeRun := same
      have uncancelled : wholeRun.outcome ≠ .cancelled :=
        ((Exploration.Stage.start ⟨start, memory⟩).run_explore graph registry _
          budget).outcome_ne_cancelled
      rw [same]
      exact ⟨List.prefix_refl _, iff_of_false uncancelled (Nat.not_le_of_lt before), fun _ => rfl⟩
    · have late : ¬ wholeRun.polls < poll := Nat.not_lt_of_le reached
      exact ⟨kept, iff_of_true outcome reached, fun before => absurd before late⟩

/-- Five steps are enough for the loop over cells and one is not; a cancellation at the second poll
is in time. -/
theorem explore_truncated_loop :
    let run := fun budget cancelled =>
      cellLoop.explore Memory.cells ⟨0⟩ .empty budget cancelled
    let never := fun _ : Nat => false
    let second := fun poll : Nat => decide (poll = 2)
    ((run 1 never).RanOut 1 ∧ (run 1 never).events <+: (run 5 never).events) ∧
      run 9 never = run 5 never ∧
      FirstCancelledAt second 2 ∧ (run 5 second).outcome = .cancelled := by
  intro run never second
  have first : FirstCancelledAt second 2 := ⟨by decide, by decide, fun other counted before => by
    have different : other ≠ 2 := Nat.ne_of_lt before
    exact decide_eq_false different⟩
  have short := cellLoop.explore_truncated Memory.cells ⟨0⟩ .empty (by decide : 1 ≤ 5) never first
  have long := cellLoop.explore_truncated Memory.cells ⟨0⟩ .empty (by decide : 5 ≤ 9) never first
  refine ⟨⟨⟨by decide +kernel, by decide +kernel⟩, short.1.1⟩, long.1.2 fun out => ?_, first,
    long.2.2.1.mpr (by decide +kernel)⟩
  exact absurd out.2 (by decide +kernel)

end PauseFlow
