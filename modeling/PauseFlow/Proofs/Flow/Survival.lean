import Mathlib.Data.Fintype.EquivFin
import Mathlib.Order.WellFounded
import PauseFlow.Proofs.Flow.Reachability

/-! What the outcome of an exploration that ends by itself says of the paths from its start. It is
infeasible only if all paths die; it is completed if some path survives, and also if two paths
that die meet. -/
namespace PauseFlow

variable {graph : FlowGraph} {registry : Variables}

/-- The instructions of the block of a configuration succeed, and the code ends there. -/
def Configuration.Finishes (graph : FlowGraph) (registry : Variables) (here : Configuration) :
    Prop :=
  (∃ memory, here.RunsTo graph registry memory) ∧
    ((graph.block here.place).terminator = .returns ∨ (graph.block here.place).terminator = .exits)

/-- Some path from a configuration reaches an end of the code or goes on forever. -/
def FlowGraph.Survives (graph : FlowGraph) (registry : Variables) (start : Configuration) : Prop :=
  (∃ last, graph.Reaches registry start last ∧ last.Finishes graph registry) ∨
    ∃ path : Nat → Configuration, path 0 = start ∧
      ∀ step, graph.Leads registry (path step) (path (step + 1))

/-- Every path from a configuration comes to one that neither finishes nor leads on: an instruction
fails there, or no side of its branch can be taken. -/
inductive FlowGraph.Dies (graph : FlowGraph) (registry : Variables) : Configuration → Prop where
  | intro {here : Configuration} (unfinished : ¬ here.Finishes graph registry)
      (next : ∀ later, graph.Leads registry here later → Dies graph registry later) :
      Dies graph registry here

/-- A configuration is entered at the start of the paths or over a side of another one. -/
inductive FlowGraph.Enters (graph : FlowGraph) (registry : Variables) (start : Configuration) :
    Option (Configuration × Side) → Configuration → Prop where
  | first : Enters graph registry start none start
  | across {here next : Configuration} {side : Side} (reached : graph.Reaches registry start here)
      (takes : graph.Takes registry here side next) :
      Enters graph registry start (some (here, side)) next

/-- Two paths from a configuration meet: one configuration is entered in two ways. -/
def FlowGraph.Rejoins (graph : FlowGraph) (registry : Variables) (start : Configuration) : Prop :=
  ∃ first second meeting, first ≠ second ∧ graph.Enters registry start first meeting ∧
    graph.Enters registry start second meeting

private theorem Configuration.finished_iff {here : Configuration} :
    (here.visit graph registry).finished = true ↔ here.Finishes graph registry := by
  unfold visit Finishes RunsTo
  dsimp only
  cases Instruction.runAll registry (graph.block here.place).instructions here.memory with
  | mk events final =>
    cases final with
    | none => simp
    | some memory =>
      cases (graph.block here.place).terminator <;>
        simp [Visit.ofTerminator, Visit.ofBranch]

section Paths

variable {start : Configuration}

private theorem FlowGraph.Dies.not_finishes (dies : graph.Dies registry start)
    {last : Configuration}
    (reached : graph.Reaches registry start last) : ¬ last.Finishes graph registry := by
  induction dies with
  | intro unfinished _ ih =>
    rcases Relation.ReflTransGen.cases_head reached with rfl | ⟨later, leads, rest⟩
    · exact unfinished
    · exact ih later leads rest

private theorem FlowGraph.Dies.not_endless (dies : graph.Dies registry start)
    (path : Nat → Configuration)
    (first : path 0 = start) : ∃ step, ¬ graph.Leads registry (path step) (path (step + 1)) := by
  induction dies generalizing path with
  | @intro here _ _ ih =>
    by_cases leads : graph.Leads registry (path 0) (path 1)
    · obtain ⟨step, stuck⟩ := ih (path 1) (first ▸ leads) (fun step => path (step + 1)) rfl
      exact ⟨step + 1, stuck⟩
    · exact ⟨0, leads⟩

private theorem FlowGraph.Dies.of_visit (successors : List Configuration)
    (unfinished : (start.visit graph registry).finished = false)
    (visited : (start.visit graph registry).successors = successors)
    (next : ∀ later ∈ successors, graph.Dies registry later) : graph.Dies registry start :=
  .intro (fun finishes => by simp [Configuration.finished_iff.mpr finishes] at unfinished)
    fun later leads => next later (visited ▸ Configuration.mem_successors_iff.mpr leads)

/-- All paths die exactly if none survives. -/
theorem FlowGraph.dies_iff : graph.Dies registry start ↔ ¬ graph.Survives registry start := by
  constructor
  · rintro dies (⟨last, reached, finishes⟩ | ⟨path, first, leads⟩)
    · exact dies.not_finishes reached finishes
    · obtain ⟨step, stuck⟩ := dies.not_endless path first
      exact stuck (leads step)
  · intro dead
    have unfinished : ∀ last, graph.Reaches registry start last → ¬ last.Finishes graph registry :=
      fun last reached finishes => dead (.inl ⟨last, reached, finishes⟩)
    -- Without an endless path the induction goes along the paths themselves.
    have accessible : Acc (fun later here => graph.Leads registry here later) start := by
      by_contra endless
      exact dead (.inr (not_acc_iff_exists_descending_chain.mp endless))
    clear dead
    induction accessible with
    | intro here _ ih =>
      exact .intro (unfinished here .refl) fun later leads =>
        ih later leads fun last reached => unfinished last (.head leads reached)

end Paths

section Entries

variable {start : Configuration}

private theorem FlowGraph.enters_unique (single : ¬ graph.Rejoins registry start)
    {first second : Option (Configuration × Side)} {meeting : Configuration}
    (one : graph.Enters registry start first meeting)
    (other : graph.Enters registry start second meeting) : first = second := by
  by_contra different
  exact single ⟨first, second, meeting, different, one, other⟩

private theorem FlowGraph.reaches_path {path : Nat → Configuration} (first : path 0 = start)
    (leads : ∀ step, graph.Leads registry (path step) (path (step + 1))) (step : Nat) :
    graph.Reaches registry start (path step) := by
  induction step with
  | zero => exact first ▸ .refl
  | succ step ih => exact ih.tail (leads step)

/-- A path that is never met comes to no configuration twice. -/
theorem FlowGraph.path_ne (single : ¬ graph.Rejoins registry start) {path : Nat → Configuration}
    (first : path 0 = start)
    (leads : ∀ step, graph.Leads registry (path step) (path (step + 1))) {early late : Nat}
    (before : early < late) : path early ≠ path late := by
  have entered : ∀ step, ∃ side,
      graph.Enters registry start (some (path step, side)) (path (step + 1)) := by
    intro step
    obtain ⟨side, takes⟩ := leads step
    exact ⟨side, .across (reaches_path first leads step) takes⟩
  -- Equal configurations are entered from equal ones, so a meeting could be moved back to the
  -- start, which is entered over no side.
  induction early generalizing late with
  | zero =>
    obtain ⟨last, rfl⟩ := Nat.exists_eq_succ_of_ne_zero (Nat.ne_of_gt before)
    intro same
    obtain ⟨side, again⟩ := entered last
    have once : graph.Enters registry start none (path (last + 1)) := by
      rw [← same, first]
      exact .first
    cases enters_unique single once again
  | succ early ih =>
    obtain ⟨last, rfl⟩ := Nat.exists_eq_succ_of_ne_zero (Nat.ne_of_gt (Nat.zero_lt_of_lt before))
    intro same
    obtain ⟨side, once⟩ := entered early
    obtain ⟨other, again⟩ := entered last
    rw [same] at once
    have labels := enters_unique single once again
    simp only [Option.some.injEq, Prod.mk.injEq] at labels
    exact ih (Nat.lt_of_succ_lt_succ before) labels.1

/-- Among finitely many configurations, a path that goes on forever meets itself. -/
theorem FlowGraph.rejoins_of_endless {configurations : List Configuration}
    (complete : ∀ configuration, graph.Reaches registry start configuration →
      configuration ∈ configurations) {path : Nat → Configuration} (first : path 0 = start)
    (leads : ∀ step, graph.Leads registry (path step) (path (step + 1))) :
    graph.Rejoins registry start := by
  by_contra single
  let place : Nat → { configuration // configuration ∈ configurations } :=
    fun step => ⟨path step, complete _ (reaches_path first leads step)⟩
  apply not_injective_infinite_finite place
  intro left right same
  have equal : path left = path right := congrArg Subtype.val same
  rcases Nat.lt_trichotomy left right with before | same | after
  · exact absurd equal (path_ne single first leads before)
  · exact same
  · exact absurd equal.symm (path_ne single first leads after)

/-- The ways to enter configurations from the start and from those executed. -/
def Exploration.entries (graph : FlowGraph) (registry : Variables) (start : Configuration)
    (executed : List Configuration) : List (Option (Configuration × Side) × Configuration) :=
  (none, start) :: executed.flatMap fun here =>
    (here.sides graph registry).map fun taken => (some (here, taken.1), taken.2)

/-- What is put into the queue over an exploration. -/
def Exploration.queued (graph : FlowGraph) (registry : Variables) (start : Configuration)
    (executed : List Configuration) : List Configuration :=
  start :: executed.flatMap fun here => (here.visit graph registry).successors

namespace Exploration

private theorem map_snd_entries (executed : List Configuration) :
    (entries graph registry start executed).map Prod.snd =
      queued graph registry start executed := by
  simp only [entries, queued, List.map_cons, List.map_flatMap, List.map_map,
    ← Configuration.map_snd_sides]
  rfl

private theorem nodup_entries {executed : List Configuration} (distinct : executed.Nodup) :
    (entries graph registry start executed).Nodup := by
  refine List.nodup_cons.mpr ⟨by simp, List.nodup_flatMap.mpr ⟨fun here _ => ?_, ?_⟩⟩
  · have sides := List.pairwise_map.mp (here.nodup_map_fst_sides graph registry)
    exact List.pairwise_map.mpr (sides.imp fun different same => different (by simp_all))
  · refine distinct.imp fun {left right} different => ?_
    intro entry one other
    simp only [List.mem_map] at one other
    obtain ⟨_, _, rfl⟩ := one
    obtain ⟨_, _, same⟩ := other
    exact different (by simp_all)

private theorem mem_entries_iff {executed : List Configuration}
    (exact : ∀ here, here ∈ executed ↔ graph.Reaches registry start here)
    (way : Option (Configuration × Side)) (configuration : Configuration) :
    (way, configuration) ∈ entries graph registry start executed ↔
      graph.Enters registry start way configuration := by
  simp only [entries, List.mem_cons, List.mem_flatMap, List.mem_map, Prod.mk.injEq]
  constructor
  · rintro (⟨rfl, rfl⟩ | ⟨here, member, ⟨side, next⟩, taken, rfl, rfl⟩)
    · exact .first
    · exact .across ((exact here).mp member) (Configuration.mem_sides_iff.mp taken)
  · intro enters
    cases enters with
    | first => exact .inl ⟨rfl, rfl⟩
    | @across here _ side reached takes =>
      exact .inr ⟨here, (exact here).mpr reached, (side, configuration),
        Configuration.mem_sides_iff.mpr takes, rfl, rfl⟩

/-- Something is queued twice exactly if two paths meet. -/
theorem nodup_queued_iff {executed : List Configuration} (distinct : executed.Nodup)
    (exact : ∀ here, here ∈ executed ↔ graph.Reaches registry start here) :
    (queued graph registry start executed).Nodup ↔ ¬ graph.Rejoins registry start := by
  rw [← map_snd_entries, List.nodup_map_iff_inj_on (nodup_entries distinct)]
  constructor
  · rintro injective ⟨first, second, meeting, different, one, other⟩
    have same := injective _ ((mem_entries_iff exact first meeting).mpr one) _
      ((mem_entries_iff exact second meeting).mpr other) rfl
    exact different (congrArg Prod.fst same)
  · rintro single ⟨first, meeting⟩ one ⟨second, other⟩ two same
    dsimp only at same
    subst same
    rw [mem_entries_iff exact] at one two
    rw [FlowGraph.enters_unique single one two]

/-- Everything queued was executed, was skipped as known, or waits, and a completed exploration
has executed a configuration that finishes or has skipped one. -/
structure Accounted (graph : FlowGraph) (registry : Variables) (start : Configuration)
    (stage : Stage) (skipped : List Configuration) : Prop where
  balance : (queued graph registry start stage.executed).Perm
    (stage.executed ++ (skipped ++ stage.waiting))
  known : ∀ {configuration}, configuration ∈ skipped → configuration ∈ stage.executed
  completed : stage.progress.completed = true ↔
    (∃ here ∈ stage.executed, here.Finishes graph registry) ∨ skipped ≠ []

private theorem accounted_start : Accounted graph registry start (.start start) [] where
  balance := .refl _
  known member := by cases member
  completed := by simp [Stage.start, Stage.executed, Progress.start, Visited.empty]

private theorem Accounted.turn {before after : Stage} {skipped : List Configuration}
    (turn : Turn graph registry before after)
    (accounted : Accounted graph registry start before skipped) :
    ∃ skipped, Accounted graph registry start after skipped := by
  obtain ⟨first, rest, front, ⟨seen, executed, waiting, completed, _⟩ |
    ⟨_, executed, waiting, completed, _⟩⟩ := turn.effects
  · refine ⟨first :: skipped, ⟨?_, fun {configuration} member => ?_, ?_⟩⟩
    · have balance := accounted.balance
      rw [front] at balance
      rw [executed, waiting]
      exact balance.trans (List.perm_middle.append_left _)
    · rw [executed]
      rcases List.mem_cons.mp member with rfl | old
      · exact seen
      · exact accounted.known old
    · simp [completed]
  · refine ⟨skipped, ⟨?_, fun {configuration} member => ?_, ?_⟩⟩
    · have balance := accounted.balance
      rw [front, List.perm_iff_count] at balance
      rw [executed, waiting, List.perm_iff_count]
      -- The successors join both what was queued and what waits.
      intro configuration
      have same := balance configuration
      simp only [queued, List.flatMap_cons, List.count_cons, List.count_append] at same ⊢
      omega
    · rw [executed]
      exact List.mem_cons_of_mem _ (accounted.known member)
    · rw [completed, Bool.or_eq_true, accounted.completed, Configuration.finished_iff, executed,
        List.exists_mem_cons_iff, or_assoc, or_assoc]
      exact or_rotate.symm

private theorem Turns.accounted {last : Stage} (turns : Turns graph registry (.start start) last) :
    ∃ skipped, Accounted graph registry start last skipped := by
  induction turns with
  | refl => exact ⟨[], accounted_start⟩
  | tail _ turn ih =>
    obtain ⟨_, accounted⟩ := ih
    exact accounted.turn turn

/-- When nothing waits any more, nothing was skipped exactly if nothing was queued twice. -/
theorem Accounted.skipped_eq_nil_iff {last : Stage} {skipped : List Configuration}
    (accounted : Accounted graph registry start last skipped) (emptied : last.waiting = [])
    (distinct : last.executed.Nodup) :
    skipped = [] ↔ (queued graph registry start last.executed).Nodup := by
  rw [accounted.balance.nodup_iff, emptied, List.append_nil]
  constructor
  · rintro rfl
    rwa [List.append_nil]
  · intro nodup
    exact List.eq_nil_iff_forall_not_mem.mpr fun configuration member =>
      (List.nodup_append.mp nodup).2.2 _ (accounted.known member) _ member rfl

end Exploration

/-- An exploration that ends by itself is completed exactly if some path survives or two paths
meet. So it is infeasible only if all paths die, but not whenever they do. -/
theorem FlowGraph.outcome_of_paths {start : BlockId} {memory : Memory} {budget : Nat}
    {cancelled : Nat → Bool}
    (exhaustive : (graph.explore registry start memory budget cancelled).IsExhaustive) :
    ((graph.explore registry start memory budget cancelled).outcome = .completed ↔
      graph.Survives registry ⟨start, memory⟩ ∨ graph.Rejoins registry ⟨start, memory⟩) ∧
    ((graph.explore registry start memory budget cancelled).outcome = .infeasible ↔
      graph.Dies registry ⟨start, memory⟩ ∧ ¬ graph.Rejoins registry ⟨start, memory⟩) := by
  obtain ⟨last, turns, ends⟩ :=
    Exploration.exists_turns graph registry cancelled budget (.start ⟨start, memory⟩)
  have ends : Exploration.Ends last (graph.explore registry start memory budget cancelled) := ends
  obtain ⟨skipped, accounted⟩ := turns.accounted
  obtain ⟨emptied, report⟩ := ends.of_isExhaustive exhaustive
  obtain ⟨exact, distinct, _⟩ := explores_reachable exhaustive
  simp only [ends.executed_eq, List.mem_reverse, List.nodup_reverse] at exact distinct
  have met : skipped ≠ [] ↔ graph.Rejoins registry ⟨start, memory⟩ := by
    rw [Ne, accounted.skipped_eq_nil_iff emptied distinct,
      Exploration.nodup_queued_iff distinct exact, not_not]
  have completed : last.progress.completed = true ↔
      graph.Survives registry ⟨start, memory⟩ ∨ graph.Rejoins registry ⟨start, memory⟩ := by
    rw [accounted.completed, met]
    constructor
    · rintro (⟨here, executed, finishes⟩ | meets)
      · exact .inl (.inl ⟨here, (exact here).mp executed, finishes⟩)
      · exact .inr meets
    · rintro ((⟨here, reached, finishes⟩ | ⟨path, first, leads⟩) | meets)
      · exact .inl ⟨here, (exact here).mpr reached, finishes⟩
      · exact .inr (rejoins_of_endless (fun here => (exact here).mpr) first leads)
      · exact .inr meets
  rw [report, dies_iff, ← not_or, ← completed]
  cases last.progress.completed <;> simp [Exploration.Progress.report]

end Entries

/-- Look at a cell, move on to any cell whatever it is, and require the impossible of it. -/
def detour : FlowGraph where
  entry := ⟨0⟩
  blocks := [⟨[], .branch ⟨⟨0⟩, .equal, .constant .null⟩ ⟨1⟩ ⟨2⟩ none⟩,
    ⟨[.havoc ⟨0⟩], .goto ⟨3⟩⟩,
    ⟨[.havoc ⟨0⟩], .goto ⟨3⟩⟩,
    ⟨[.assume ⟨⟨0⟩, .equal, .constant .null⟩,
      .assume ⟨⟨0⟩, .different, .constant .null⟩], .returns⟩]
  anchors := []

/-- What is known on one side of the detour. -/
def besideDetour (relation : Relation) : Memory :=
  (Memory.empty.assume Memory.cells ⟨⟨0⟩, relation, .constant .null⟩).2

private theorem dies_detour : detour.Dies Memory.cells ⟨⟨0⟩, .empty⟩ := by
  have impossible : detour.Dies Memory.cells ⟨⟨3⟩, .empty⟩ :=
    .of_visit [] (by decide +kernel) (by decide +kernel) (by simp)
  have isNull : detour.Dies Memory.cells ⟨⟨1⟩, besideDetour .equal⟩ :=
    .of_visit [⟨⟨3⟩, .empty⟩] (by decide +kernel) (by decide +kernel) (by simp [impossible])
  have notNull : detour.Dies Memory.cells ⟨⟨2⟩, besideDetour .different⟩ :=
    .of_visit [⟨⟨3⟩, .empty⟩] (by decide +kernel) (by decide +kernel) (by simp [impossible])
  exact .of_visit [⟨⟨1⟩, besideDetour .equal⟩, ⟨⟨2⟩, besideDetour .different⟩]
    (by decide +kernel) (by decide +kernel) (by simp [isNull, notNull])

/-- Both ways through the detour meet and die, and the exploration is completed. -/
theorem outcome_of_paths_detour : detour.Dies Memory.cells ⟨⟨0⟩, .empty⟩ ∧
    (detour.explore Memory.cells ⟨0⟩ .empty 10 fun _ => false).outcome = .completed ∧
    detour.Rejoins Memory.cells ⟨⟨0⟩, .empty⟩ := by
  have completed :
      (detour.explore Memory.cells ⟨0⟩ .empty 10 fun _ => false).outcome = .completed := by
    decide +kernel
  refine ⟨dies_detour, completed, ?_⟩
  exact ((FlowGraph.outcome_of_paths (.inl completed)).1.mp completed).resolve_left
    (FlowGraph.dies_iff.mp dies_detour)

end PauseFlow
