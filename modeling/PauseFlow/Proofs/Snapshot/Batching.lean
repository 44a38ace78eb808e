import PauseFlow.Proofs.Debuggee.Quiet
import PauseFlow.Proofs.Snapshot.Taking

/-! A batch of snapshots at which nothing happens. The loader filter only remembers what reading the
heap again would give, so each value is classified as if it were alone. -/
namespace PauseFlow

/-- The filter is of the frame's loader, and what it has learnt is what the heap says. -/
structure LoaderFilter.Honest (heap : Heap) (loader : Option ObjectId) (filter : LoaderFilter) :
    Prop where
  frameLoader : filter.frameLoader = loader
  chain : ∀ chain, filter.chain = some chain → (readChain loader).onHeap heap = .ok chain

theorem LoaderFilter.honest_ofLoader (heap : Heap) (loader : Option ObjectId) :
    Honest heap loader (.ofLoader loader) where
  frameLoader := rfl
  chain _ known := by cases known

namespace FilteredQuery

variable {Answer Next : Type} {heap : Heap} {loader : Option ObjectId}

/-- On every session over the heap the query only makes queries. If nothing happens at them and the
filter is honest, the query gives the answer and the filter stays honest. -/
def Reads (query : FilteredQuery Answer) (heap : Heap) (loader : Option ObjectId)
    (answer : Except Fault Answer) : Prop :=
  ∀ (filter : LoaderFilter) (session : Session), session.heap = heap →
    session.Leads ((query.run.run filter).run session).2 (filter.Honest heap loader →
      ((query.run.run filter).run session).1.1 = answer ∧
        LoaderFilter.Honest heap loader ((query.run.run filter).run session).1.2)

theorem run_lift (query : Query Answer) (filter : LoaderFilter) (session : Session) :
    ((liftM query : FilteredQuery Answer).run.run filter).run session =
      (((query.run session).1, filter), (query.run session).2) :=
  rfl

/-- What the query answers depends on the heap and the frame's loader alone. -/
def ReadsOnly (query : FilteredQuery Answer) (heap : Heap) (loader : Option ObjectId) : Prop :=
  ∃ answer, query.Reads heap loader answer

namespace ReadsOnly

theorem pure (answer : Answer) : (Pure.pure answer : FilteredQuery Answer).ReadsOnly heap loader :=
  ⟨.ok answer, fun _ session _ => .refl session fun honest => ⟨rfl, honest⟩⟩

theorem lift {asks : Question → Prop} {query : Query Answer} (strict : query.Strict asks) :
    (liftM query : FilteredQuery Answer).ReadsOnly heap loader := by
  refine ⟨PauseM.onHeap query heap, fun filter session same => ?_⟩
  exact (strict.reads heap session same).imp fun answered honest => ⟨answered, honest⟩

theorem bind {query : FilteredQuery Answer} {next : Answer → FilteredQuery Next}
    (first : query.ReadsOnly heap loader) (rest : ∀ answer, (next answer).ReadsOnly heap loader) :
    (query >>= next).ReadsOnly heap loader := by
  obtain ⟨answer, reads⟩ := first
  choose results continued using rest
  refine ⟨answer.bind results, fun filter session same => ?_⟩
  have start := reads filter session same
  rw [run_bind]
  rcases ran : (query.run.run filter).run session with ⟨⟨failure | result, learnt⟩, middle⟩
  all_goals rw [ran] at start
  · refine start.imp fun failed honest => ?_
    exact ⟨(failed honest).1 ▸ rfl, (failed honest).2⟩
  · have onward := continued result learnt middle (start.heap.trans same)
    refine (start.trans onward).imp fun ⟨answered, ended⟩ honest => ?_
    obtain ⟨given, stillHonest⟩ := answered honest
    obtain ⟨last, honestLast⟩ := ended stillHonest
    refine ⟨?_, honestLast⟩
    rw [last, ← given]
    rfl

end ReadsOnly

/-- What is certain after a query, and after what goes on with the filter, holds of both. -/
theorem Reads.onward {query : FilteredQuery Answer} {answer result : Except Fault Answer}
    (reads : query.Reads heap loader answer) {filter learnt : LoaderFilter}
    {session middle after : Session} (same : session.heap = heap)
    (ran : (query.run.run filter).run session = ((result, learnt), middle)) {outcome : Prop}
    (rest : middle.Leads after
      (learnt.Honest heap loader → middle.cancelled = false → outcome)) :
    session.Leads after
      (filter.Honest heap loader → session.cancelled = false → result = answer ∧ outcome) := by
  have start := (reads filter session same).and_cancelled_eq
  rw [ran] at start
  refine (start.trans rest).imp fun ⟨⟨answered, kept⟩, ended⟩ honest running => ?_
  obtain ⟨given, stillHonest⟩ := answered honest
  exact ⟨given, ended stillHonest (kept.trans running)⟩

end FilteredQuery

namespace LoaderFilter

variable {heap : Heap}

/-- The chain is read when it is needed and not known. -/
theorem run_accepts (target : ObjectId) (filter : LoaderFilter) (session : Session) :
    ((accepts (some target)).run.run filter).run session =
      if filter.frameLoader = some target then ((.ok true, filter), session)
      else
        match filter.chain with
        | some chain => ((.ok (decide (target ∈ chain)), filter), session)
        | none =>
          match (readChain filter.frameLoader).run session with
          | (.ok chain, after) =>
            ((.ok (decide (target ∈ chain)), { filter with chain := some chain }), after)
          | (.error fault, after) => ((.error fault, filter), after) := by
  have asked : ((getThe LoaderFilter : FilteredQuery LoaderFilter).run.run filter).run session =
    ((.ok filter, filter), session) := rfl
  unfold accepts
  rw [FilteredQuery.run_bind, asked]
  by_cases own : filter.frameLoader = some target
  · simp only [own, if_true]
    rfl
  · simp only [own, if_false]
    cases known : filter.chain with
    | some chain => rfl
    | none =>
      dsimp only
      rw [FilteredQuery.run_bind, FilteredQuery.run_lift]
      rcases (readChain filter.frameLoader).run session with ⟨_ | _, _⟩ <;> rfl

/-- A chain that was learnt earlier is the one that would be read now. -/
theorem accepts_readsOnly (frameLoader target : Option ObjectId) :
    (accepts target).ReadsOnly heap frameLoader := by
  cases target with
  | none => exact .pure true
  | some target =>
    refine ⟨if frameLoader = some target then .ok true
      else ((readChain frameLoader).onHeap heap).map fun chain => decide (target ∈ chain),
      fun filter session same => ?_⟩
    rw [run_accepts]
    by_cases own : filter.frameLoader = some target
    · rw [if_pos own]
      refine .refl session fun honest => ⟨?_, honest⟩
      rw [← honest.frameLoader, if_pos own]
    · rw [if_neg own]
      cases known : filter.chain with
      | some chain =>
        -- No query is made, and none would have answered anything else.
        refine .refl session fun honest => ⟨?_, honest⟩
        have learnt := honest.chain chain known
        rw [← honest.frameLoader] at learnt ⊢
        rw [if_neg own, learnt]
        rfl
      | none =>
        have read := (readChain_strict filter.frameLoader).reads heap session same
        rcases ran : (readChain filter.frameLoader).run session with ⟨fault | chain, after⟩
        all_goals rw [ran] at read
        · refine read.imp fun failed honest => ⟨?_, honest⟩
          rw [← honest.frameLoader, if_neg own, ← failed]
          rfl
        · refine read.imp fun answered honest => ⟨?_, honest.frameLoader, fun learnt same => ?_⟩
          · rw [← honest.frameLoader, if_neg own, ← answered]
            rfl
          · cases same
            rw [← honest.frameLoader]
            exact answered.symm

end LoaderFilter

namespace Snapshot

open FilteredQuery.ReadsOnly

variable {heap : Heap} {loader : Option ObjectId}

/-- How a value is classified over a heap by itself, with a filter that has learnt nothing. -/
def alone (heap : Heap) (loader : Option ObjectId) (value : LiveValue) :
    Except Fault (Option Snapshot) :=
  ((classify value).startingFrom (.ofLoader loader)).onHeap heap

private theorem ofObject_readsOnly (id : ObjectId) : (ofObject id).ReadsOnly heap loader := by
  refine .bind (.lift (typeOf_strict id)) fun info => ?_
  refine .bind (LoaderFilter.accepts_readsOnly _ _) fun visible => ?_
  split
  · exact .bind (.lift (ofVisibleObject_strict id info)) fun _ => .pure _
  · exact .pure _

private theorem classify_readsOnly (value : LiveValue) : (classify value).ReadsOnly heap loader :=
    by
  unfold classify
  split
  · exact .pure _
  · exact ofObject_readsOnly _
  · exact .pure _

/-- What an honest filter has learnt makes no difference to how a value is classified. -/
theorem classify_reads (value : LiveValue) :
    (classify value).Reads heap loader (alone heap loader value) := by
  obtain ⟨answer, reads⟩ : (classify value).ReadsOnly heap loader := classify_readsOnly value
  have single := ((reads (.ofLoader loader) (.ofHeap heap) rfl).certain
    (Session.quietUntil_ofHeap heap _)).1 (LoaderFilter.honest_ofLoader heap loader)
  have same : alone heap loader value = answer := single.1
  rwa [same]

end Snapshot

namespace Snapshots

/-- The fault that ends a batch, if a value is classified with one. -/
def fatal? : Except Fault (Option Snapshot) → Option Fault
  | .error fault => if fault.isCollected then none else some fault
  | .ok _ => none

/-- The snapshot that a batch keeps of a value, if it is classified with one. -/
def kept? : Except Fault (Option Snapshot) → Option Snapshot
  | .ok snapshot => snapshot
  | .error _ => none

/-- The batch of values that are classified one by one. -/
def oneByOne (classified : LiveValue → Except Fault (Option Snapshot)) (values : List LiveValue) :
    Except AssistFailure (List (LiveValue × Snapshot)) :=
  match values.findSome? fun value => fatal? (classified value) with
  | some fault => .error (.remote fault)
  | none => .ok (values.filterMap fun value => (kept? (classified value)).map (value, ·))

private theorem oneByOne_cons (classified : LiveValue → Except Fault (Option Snapshot))
    (value : LiveValue) (rest : List LiveValue) : oneByOne classified (value :: rest) =
      match classified value with
      | .ok (some snapshot) => ((value, snapshot) :: ·) <$> oneByOne classified rest
      | .ok none => oneByOne classified rest
      | .error fault =>
        if fault.isCollected then oneByOne classified rest else .error (.remote fault) := by
  unfold oneByOne
  rw [List.findSome?_cons, List.filterMap_cons]
  rcases classified value with fault | _ | snapshot
  · by_cases collected : fault.isCollected <;> simp [fatal?, kept?, collected]
  · rfl
  · cases rest.findSome? fun value => fatal? (classified value) <;> rfl

/-- After a value the batch goes on with what the filter has learnt, or it ends. -/
theorem run_takeAll_cons (filter : LoaderFilter) (value : LiveValue) (rest : List LiveValue)
    (session : Session) : (takeAll filter (value :: rest)).run session =
      if session.cancelled then (.error .cancelled, session)
      else
        match ((Snapshot.classify value).run.run filter).run session with
        | ((.ok (some snapshot), learnt), after) =>
          (((value, snapshot) :: ·) <$> takeAll learnt rest).run after
        | ((.ok none, learnt), after) => (takeAll learnt rest).run after
        | ((.error fault, learnt), after) =>
          if fault.isCollected then (takeAll learnt rest).run after
          else (.error (.remote fault), after) := by
  have asked : (get : Assist Session).run session = (.ok session, session) := rfl
  conv_lhs => rw [takeAll, PauseM.run_bind, asked]
  by_cases cancelled : session.cancelled
  · simp only [cancelled, if_true]
    rfl
  · simp only [cancelled, Bool.false_eq_true, if_false]
    rw [FilteredQuery.run_attempt]
    rcases ((Snapshot.classify value).run.run filter).run session with
      ⟨⟨fault | _ | snapshot, learnt⟩, after⟩
    · dsimp only
      split <;> rfl
    · rfl
    · rfl

/-- An honest filter does not show in the batch. -/
theorem takeAll_leads {heap : Heap} (loader : Option ObjectId) (filter : LoaderFilter)
    (values : List LiveValue) (session : Session) (same : session.heap = heap) :
    session.Leads ((takeAll filter values).run session).2
      (filter.Honest heap loader → session.cancelled = false →
        ((takeAll filter values).run session).1 =
          oneByOne (Snapshot.alone heap loader) values) := by
  induction values generalizing filter session with
  | nil => exact .refl session fun _ _ => rfl
  | cons value rest ih =>
    rw [run_takeAll_cons, oneByOne_cons]
    by_cases cancelled : session.cancelled
    · rw [if_pos cancelled]
      exact .refl session fun _ running => absurd cancelled (by simp [running])
    rw [if_neg cancelled]
    have reads : (Snapshot.classify value).Reads heap loader (Snapshot.alone heap loader value) :=
      Snapshot.classify_reads value
    have start := reads filter session same
    rcases ran : ((Snapshot.classify value).run.run filter).run session with
      ⟨⟨answer, learnt⟩, middle⟩
    rw [ran] at start
    -- The filter is honest after each value, so the rest is a batch of the same kind.
    have goesOn := reads.onward same ran (ih learnt middle (start.heap.trans same))
    rcases answer with fault | _ | snapshot
    · dsimp only
      by_cases collected : fault.isCollected
      · rw [if_pos collected]
        refine goesOn.imp fun ended honest running => ?_
        rw [← (ended honest running).1, (ended honest running).2]
        simp [collected]
      · rw [if_neg collected]
        refine start.imp fun ended honest _ => ?_
        rw [← (ended honest).1]
        simp [collected]
    · refine goesOn.imp fun ended honest running => ?_
      rw [← (ended honest running).1]
      exact (ended honest running).2
    · dsimp only
      rw [PauseM.run_map]
      rcases taken : (takeAll learnt rest).run middle with ⟨_ | _, after⟩
      all_goals
        rw [taken] at goesOn
        refine goesOn.imp fun ended honest running => ?_
        rw [← (ended honest running).1, ← (ended honest running).2]
        rfl

/-- What is taken of each value does not depend on the others: a batch at which nothing happens ends
with the first fault that is not about a collected object, and otherwise keeps every snapshot. -/
theorem fetch_eq_oneByOne (frame : FrameRef) (aliases : Aliases) (session : Session)
    {content : Frame} (known : session.heap.frame? frame = some content)
    (running : session.cancelled = false)
    (quiet : session.QuietUntil ((fetch frame aliases).run session).2) :
    ((fetch frame aliases).run session).1 = Snapshots.mk <$>
      oneByOne (Snapshot.alone session.heap content.loader) aliases.values := by
  have asked : session.Leads ((Query.frameLoader frame).run session).2
      (((Query.frameLoader frame).run session).1 = .ok content.loader) := by
    refine (session.leads_ask (.frameLoader frame) fun heap =>
      (Query.orFail (heap.frame? frame) (.unknownFrame frame)).map (·.loader)).imp ?_
    intro answered
    rw [known] at answered
    exact answered
  unfold fetch at quiet ⊢
  rw [PauseM.run_bind, Assist.run_lift] at quiet ⊢
  rcases ran : (Query.frameLoader frame).run session with ⟨fault | loader, middle⟩
  all_goals
    rw [ran] at asked quiet
    dsimp only at quiet ⊢
  · cases (asked.certain quiet).1
  · have whole := asked.and_cancelled_eq.trans
      (takeAll_leads loader (.ofLoader loader) aliases.values middle asked.heap)
    rw [PauseM.run_bind] at quiet ⊢
    rcases taken : (takeAll (.ofLoader loader) aliases.values).run middle with ⟨answer, after⟩
    rw [taken] at whole quiet
    have ended : session.QuietUntil after := by cases answer <;> exact quiet
    obtain ⟨⟨⟨found, kept⟩, classified⟩, _⟩ := whole.certain ended
    cases found
    rw [← classified (LoaderFilter.honest_ofLoader _ _) (kept.trans running)]
    cases answer <;> rfl

/-- A frame of a plugin, with a loader whose parent loads the cells, and one loader besides. -/
def pluginHeap : Heap where
  lastId := 23
  types := [⟨⟨1, "Ljava/lang/ClassLoader;", none, none, false⟩, [(2, "parent")]⟩,
    ⟨⟨3, "LCell;", some 11, none, false⟩, []⟩, ⟨⟨4, "LOther;", some 12, none, false⟩, []⟩]
  instances := [⟨10, 1, [(2, .object ⟨11, ""⟩)], none, none⟩, ⟨11, 1, [], none, none⟩,
    ⟨12, 1, [], none, none⟩, ⟨20, 3, [], none, none⟩, ⟨21, 4, [], none, none⟩,
    ⟨23, 3, [], none, none⟩]
  frames := [(⟨0, 0⟩, ⟨⟨"LMain;", "run", 1, 0⟩, some 10, none, []⟩)]
  assertions := []

theorem fetch_eq_oneByOne_plugin :
    ((fetch ⟨0, 0⟩ ⟨[(.object ⟨20, ""⟩, []), (.object ⟨21, ""⟩, []), (.object ⟨22, ""⟩, []),
      (.object ⟨23, ""⟩, [])]⟩).run (.ofHeap pluginHeap)).1 =
      .ok ⟨[(.object ⟨20, ""⟩, .object "LCell;"), (.object ⟨23, ""⟩, .object "LCell;")]⟩ :=
  (fetch_eq_oneByOne _ _ _ rfl rfl (Session.quietUntil_ofHeap _ _)).trans (by decide +kernel)

end Snapshots

end PauseFlow
