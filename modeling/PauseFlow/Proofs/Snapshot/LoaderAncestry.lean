import Mathlib.Logic.Relation
import PauseFlow.Proofs.Debuggee.Ancestry
import PauseFlow.Proofs.Snapshot.Batching

/-! What the loader filter accepts: the loaders that the frame sees over the heap, whatever it was
asked before. The walk over parents ends also where they form a cycle, and it is made once. -/
namespace PauseFlow

/-- The object that a value is. -/
def LiveValue.object? : LiveValue → Option ObjectId
  | .object ref => some ref.id
  | _ => none

namespace Heap

/-- The object that a field of a live object leads to. -/
def parent? (heap : Heap) (field : FieldId) (loader : ObjectId) : Option ObjectId :=
  (heap.instance? loader).bind fun object => (object.value field).object?

/-- A field leads from one object to the other, over any number of objects. -/
def Leads (heap : Heap) (field : FieldId) (lower upper : ObjectId) : Prop :=
  Relation.ReflTransGen (fun lower upper => heap.parent? field lower = some upper) lower upper

/-- The object is a class loader: the nearest type of that name above its own declares the field
that keeps the parent. -/
def KeepsParent (heap : Heap) (loader : ObjectId) (field : FieldId) : Prop :=
  ∃ object distance root, heap.instance? loader = some object ∧
    heap.Nearest (·.named? Query.classLoaderName) distance object.typeId root ∧
    heap.declaredField? root.id "parent" = some field

/-- The loaders that a frame sees: the bootstrap loader, its own one, and the ancestors of that. -/
inductive Sees (heap : Heap) (frame : Option ObjectId) : Option ObjectId → Prop where
  | bootstrap : Sees heap frame none
  | own : Sees heap frame frame
  | ancestor {start target : ObjectId} {field : FieldId} (own : frame = some start)
      (keeps : heap.KeepsParent start field) (leads : heap.Leads field start target) :
      Sees heap frame (some target)

variable {heap : Heap} {field : FieldId} {start current parent target : ObjectId}
  {chain : List ObjectId}

private theorem keepsParent_iff {object : Instance} (live : heap.instance? start = some object) :
    heap.KeepsParent start field ↔
      ∃ root, heap.climbFrom (·.named? Query.classLoaderName) object.typeId = .ok (some root) ∧
        heap.declaredField? root.id "parent" = some field := by
  constructor
  · rintro ⟨_, distance, root, again, nearest, declared⟩
    cases live.symm.trans again
    exact ⟨root, climbFrom_eq_some_iff.mpr ⟨distance, nearest⟩, declared⟩
  · rintro ⟨root, climbed, declared⟩
    obtain ⟨distance, nearest⟩ := climbFrom_eq_some_iff.mp climbed
    exact ⟨object, distance, root, live, nearest, declared⟩

private theorem mem_ids_of_parent? (leads : heap.parent? field current = some parent) :
    current ∈ heap.instances.map (·.id) := by
  cases live : heap.instance? current with
  | none => simp [parent?, live] at leads
  | some object =>
    have same : object.id = current := by simpa using List.find?_some live
    exact same ▸ List.mem_map_of_mem (List.mem_of_find?_eq_some live)

/-- What a walk over parents has collected when it comes to an object: different objects that are
led to from the start, each with its parent, except for the one the walk is at. -/
structure Walked (heap : Heap) (field : FieldId) (start : ObjectId) (chain : List ObjectId)
    (current : ObjectId) : Prop where
  distinct : chain.Nodup
  fromStart : start ∈ chain
  isAt : current ∈ chain
  led : ∀ lower ∈ chain, heap.Leads field start lower
  followed : ∀ lower ∈ chain, lower ≠ current →
    ∃ upper ∈ chain, heap.parent? field lower = some upper

private theorem walked_start (heap : Heap) (field : FieldId) (start : ObjectId) :
    heap.Walked field start [start] start where
  distinct := List.nodup_singleton start
  fromStart := List.mem_singleton_self start
  isAt := List.mem_singleton_self start
  led _ member := List.mem_singleton.mp member ▸ .refl
  followed _ member other := absurd (List.mem_singleton.mp member) other

private theorem Walked.step (walked : heap.Walked field start chain current)
    (leads : heap.parent? field current = some parent) (fresh : parent ∉ chain) :
    heap.Walked field start (chain ++ [parent]) parent where
  distinct := List.nodup_append_comm.mp (List.nodup_cons.mpr ⟨fresh, walked.distinct⟩)
  fromStart := List.mem_append_left _ walked.fromStart
  isAt := by simp
  led lower member := by
    rcases List.mem_append.mp member with earlier | last
    · exact walked.led lower earlier
    · rw [List.mem_singleton.mp last]
      exact (walked.led current walked.isAt).tail leads
  followed lower member other := by
    rcases List.mem_append.mp member with earlier | last
    · by_cases same : lower = current
      · exact ⟨parent, by simp, same ▸ leads⟩
      · obtain ⟨upper, listed, known⟩ := walked.followed lower earlier same
        exact ⟨upper, List.mem_append_left _ listed, known⟩
    · exact absurd (List.mem_singleton.mp last) other

/-- All objects but the one the walk is at are live, so there are not more of them than objects. -/
theorem Walked.length_le (walked : heap.Walked field start chain current) :
    chain.length ≤ heap.instances.length + 1 := by
  have live : chain.erase current ⊆ heap.instances.map (·.id) := by
    intro lower member
    have ⟨other, listed⟩ := (List.Nodup.mem_erase_iff walked.distinct).mp member
    obtain ⟨upper, _, known⟩ := walked.followed lower listed other
    exact mem_ids_of_parent? known
  have bound := (walked.distinct.erase current).length_le_of_subset live
  rw [List.length_erase_of_mem walked.isAt, List.length_map] at bound
  omega

/-- A walk that leads nowhere new has collected what the start leads to. -/
theorem Walked.mem_iff (walked : heap.Walked field start chain current)
    (ended : ∀ parent, heap.parent? field current = some parent → parent ∈ chain) :
    target ∈ chain ↔ heap.Leads field start target := by
  refine ⟨walked.led target, fun leads => ?_⟩
  induction leads with
  | refl => exact walked.fromStart
  | @tail lower upper _ known ih =>
    by_cases same : lower = current
    · exact ended upper (same ▸ known)
    · obtain ⟨found, listed, again⟩ := walked.followed lower ih same
      cases known.symm.trans again
      exact listed

end Heap

namespace LoaderFilter

variable {heap : Heap} {session after : Session} {field : FieldId} {start current target : ObjectId}
  {chain result : List ObjectId} {steps more : Nat}

private theorem followParents_succ (field : FieldId) (steps : Nat) (chain : List ObjectId)
    (current : ObjectId) : followParents field (steps + 1) chain current =
      Query.fieldValue current field >>= fun value =>
        match value.object? with
        | some parent =>
          if parent ∈ chain then pure chain
          else followParents field steps (chain ++ [parent]) parent
        | none => pure chain := by
  rw [followParents]
  congr 1
  funext value
  cases value <;> rfl

/-- A field that is read leads where the heap says. -/
theorem parent?_of_fieldValue {value : LiveValue}
    (ran : (Query.fieldValue current field).run session = (.ok value, after)) :
    session.heap.parent? field current = value.object? ∧ after.heap = session.heap := by
  have strict : (Query.fieldValue current field).Strict (·.isOfField) := .ask (by rfl) _
  have read := strict.onHeap_of_run ran
  refine ⟨?_, strict.composed.heap_of_run ran⟩
  rw [Query.fieldValue, Query.onHeap_ask] at read
  cases live : session.heap.instance? current with
  | none => simp [live, Query.orFail, Except.map] at read
  | some object =>
    simp only [live, Query.orFail, Option.elim, Except.map, Except.ok.injEq] at read
    simp [Heap.parent?, live, read]

/-- With a step for each object that is left, the walk ends by itself. More steps make no
difference, whatever happens meanwhile. -/
theorem run_followParents (walked : session.heap.Walked field start chain current)
    (enough : session.heap.instances.length + 1 < steps + chain.length)
    (plenty : session.heap.instances.length + 1 < more + chain.length) :
    (followParents field steps chain current).run session =
      (followParents field more chain current).run session := by
  have short := walked.length_le
  induction steps generalizing more chain current session with
  | zero => omega
  | succ steps ih =>
    obtain ⟨more, rfl⟩ := Nat.exists_eq_succ_of_ne_zero (show more ≠ 0 by omega)
    rw [followParents_succ, followParents_succ, PauseM.run_bind, PauseM.run_bind]
    rcases ran : (Query.fieldValue current field).run session with ⟨fault | value, after⟩
    · rfl
    · obtain ⟨leads, same⟩ := parent?_of_fieldValue ran
      dsimp only
      split
      · rename_i parent isObject
        split
        · rfl
        · rename_i fresh
          have next := walked.step (leads.trans isObject) fresh
          rw [← same] at next enough plenty
          have longer : (chain ++ [parent]).length = chain.length + 1 := by simp
          exact ih next (by omega) (by omega) next.length_le
      · rfl

/-- A walk that succeeds has collected what the start leads to. -/
theorem mem_followParents_iff (walked : session.heap.Walked field start chain current)
    (enough : session.heap.instances.length + 1 < steps + chain.length)
    (ran : (followParents field steps chain current).run session = (.ok result, after)) :
    target ∈ result ↔ session.heap.Leads field start target := by
  have short := walked.length_le
  induction steps generalizing chain current session with
  | zero => omega
  | succ steps ih =>
    rw [followParents_succ] at ran
    obtain ⟨value, middle, read, ran⟩ := PauseM.exists_of_bind ran
    obtain ⟨leads, same⟩ := parent?_of_fieldValue read
    split at ran
    · rename_i parent isObject
      rw [isObject] at leads
      split at ran
      · rename_i visited
        cases ran
        exact walked.mem_iff fun upper known => Option.some.inj (leads.symm.trans known) ▸ visited
      · rename_i fresh
        have next := walked.step leads fresh
        have longer : (chain ++ [parent]).length = chain.length + 1 := by simp
        rw [← same] at next enough ⊢
        exact ih next (by omega) ran next.length_le
    · rename_i isNone
      cases ran
      exact walked.mem_iff fun upper known => by simp [leads, isNone] at known

/-- The chain that is read from a loader, given the field that keeps the parents. -/
def chainOver (start : ObjectId) : Option FieldId → Query (List ObjectId)
  | some parentField =>
    MonadStateOf.get >>= fun session : Session =>
      followParents parentField (session.heap.instances.length + 1) [start] start
  | none => pure []

/-- The chain that is read from a loader, given its root type. -/
def chainBelow (start : ObjectId) : Option TypeInfo → Query (List ObjectId)
  | some root => Query.fieldByName root.id "parent" >>= chainOver start
  | none => pure []

private theorem readChain_some (start : ObjectId) :
    readChain (some start) = Query.objectType start >>= fun type =>
      Query.findSupertype type Query.classLoaderName >>= chainBelow start := by
  refine congrArg (Query.objectType start >>= ·) (funext fun type => ?_)
  refine congrArg (Query.findSupertype type Query.classLoaderName >>= ·) (funext fun root => ?_)
  cases root with
  | none => rfl
  | some root =>
    refine congrArg (Query.fieldByName root.id "parent" >>= ·) (funext fun field => ?_)
    cases field <;> rfl

private theorem chainOver_composed (start : ObjectId) (field : Option FieldId) :
    (chainOver start field).Composed := by
  cases field with
  | none => exact .pure _
  | some parentField =>
    exact .look (fun heap =>
      followParents parentField (heap.instances.length + 1) [start] start) fun _ =>
        (followParents_strict _ _ _ _).composed

private theorem chainBelow_composed (start : ObjectId) (root : Option TypeInfo) :
    (chainBelow start root).Composed := by
  cases root with
  | none => exact .pure _
  | some root => exact .bind (.ask _ _) (chainOver_composed start)

/-- Over a heap the chain is read in three parts: the root type, its field, the parents. -/
theorem readChain_onHeap (start : ObjectId) :
    (readChain (some start)).onHeap heap =
      (PauseM.onHeap (Query.objectType start) heap).bind fun type =>
        (heap.climbFrom (·.named? Query.classLoaderName) type).bind fun root =>
          (chainOver start (root.bind fun root => heap.declaredField? root.id "parent")).onHeap
            heap := by
  have below : ∀ type, (Query.findSupertype type Query.classLoaderName >>=
      chainBelow start).Composed := fun type =>
    .bind (Query.findSupertype_strict _ _).composed (chainBelow_composed start)
  have typed : (Query.objectType start).Composed := .ask _ _
  rw [readChain_some, typed.onHeap_bind below]
  congr 1
  funext type
  rw [(Query.findSupertype_strict _ _).composed.onHeap_bind (chainBelow_composed start),
    Query.findSupertype_onHeap]
  congr 1
  funext root
  cases root with
  | none => rfl
  | some root => exact Query.Composed.onHeap_bind (.ask _ _) (chainOver_composed start)

private theorem mem_chainOver_iff {field : Option FieldId}
    (read : (chainOver start field).onHeap heap = .ok chain) :
    target ∈ chain ↔ ∃ parentField, field = some parentField ∧
      heap.Leads parentField start target := by
  cases field with
  | none =>
    cases read
    simp
  | some parentField =>
    have ran : (followParents parentField (heap.instances.length + 1) [start] start).run
        (.ofHeap heap) = (.ok chain, _) := Prod.ext read rfl
    have enough : heap.instances.length + 1 < heap.instances.length + 1 + [start].length :=
      Nat.lt_succ_self _
    simp only [Option.some.injEq, exists_eq_left']
    exact mem_followParents_iff (heap.walked_start parentField start) enough ran

/-- The chain has the loaders that the frame's one leads to, and none if it is no class loader. -/
theorem mem_readChain_iff {frame : Option ObjectId}
    (read : (readChain frame).onHeap heap = .ok chain) :
    target ∈ chain ↔ ∃ start field, frame = some start ∧ heap.KeepsParent start field ∧
      heap.Leads field start target := by
  cases frame with
  | none =>
    cases read
    simp
  | some start =>
    rw [readChain_onHeap, Query.objectType, Query.onHeap_ask] at read
    cases live : heap.instance? start with
    | none => simp [live, Query.orFail, Except.map, Except.bind] at read
    | some object =>
      simp only [live, Query.orFail, Option.elim, Except.map, Except.bind] at read
      cases climbed : heap.climbFrom (·.named? Query.classLoaderName) object.typeId with
      | error fault => simp [climbed] at read
      | ok root =>
        simp only [climbed] at read
        simp only [mem_chainOver_iff read, Option.bind_eq_some_iff, Option.some.injEq,
          exists_and_left, exists_eq_left', Heap.keepsParent_iff live, climbed, Except.ok.injEq]

private theorem sees_some_iff {frame : Option ObjectId} :
    heap.Sees frame (some target) ↔ frame = some target ∨ ∃ start field, frame = some start ∧
      heap.KeepsParent start field ∧ heap.Leads field start target := by
  constructor
  · rintro (_ | _ | ⟨own, keeps, leads⟩)
    · exact .inl rfl
    · exact .inr ⟨_, _, own, keeps, leads⟩
  · rintro (rfl | ⟨start, field, own, keeps, leads⟩)
    · exact .own
    · exact .ancestor own keeps leads

/-- What a filter knows after it was asked about loaders, each time in a session of its own. -/
def asked (filter : LoaderFilter) (calls : List (Option ObjectId × Session)) : LoaderFilter :=
  calls.foldl (fun filter call => (((accepts call.1).run.run filter).run call.2).1.2) filter

variable {frame loader : Option ObjectId} {filter learnt : LoaderFilter} {seen : Bool}
  {answer : Except Fault Bool}

/-- The chain has to be read: the loader is not the frame's one, and no chain is known. -/
def Needs (filter : LoaderFilter) (loader : Option ObjectId) : Prop :=
  ∃ target, loader = some target ∧ filter.frameLoader ≠ some target ∧ filter.chain = none

private theorem not_needs_of_chain (known : filter.chain = some chain) (loader : Option ObjectId) :
    ¬ filter.Needs loader := by
  rintro ⟨_, _, _, unknown⟩
  cases known.symm.trans unknown

/-- A filter that does not need the chain makes no query and learns nothing. -/
theorem run_accepts_spared (spared : ¬ filter.Needs loader) (session : Session) :
    ∃ seen, ((accepts loader).run.run filter).run session = ((.ok seen, filter), session) := by
  cases loader with
  | none => exact ⟨true, rfl⟩
  | some target =>
    rw [run_accepts]
    by_cases own : filter.frameLoader = some target
    · exact ⟨true, by rw [if_pos own]⟩
    · cases known : filter.chain with
      | some chain => exact ⟨_, by rw [if_neg own]⟩
      | none => exact absurd ⟨target, rfl, own, known⟩ spared

/-- A filter that needs the chain reads it, and keeps it unless reading it fails. -/
theorem run_accepts_needed (needs : filter.Needs loader) (session : Session) :
    ((accepts loader).run.run filter).run session =
      match (readChain filter.frameLoader).run session with
      | (.ok chain, after) =>
        ((.ok (loader.any (decide <| · ∈ chain)), { filter with chain := some chain }), after)
      | (.error fault, after) => ((.error fault, filter), after) := by
  obtain ⟨target, rfl, other, unknown⟩ := needs
  rw [run_accepts, if_neg other, unknown]
  rcases (readChain filter.frameLoader).run session with ⟨_ | _, _⟩ <;> rfl

private theorem Honest.learn (honest : filter.Honest heap frame) (same : session.heap = heap)
    (ran : ((accepts loader).run.run filter).run session = ((answer, learnt), after)) :
    learnt.Honest heap frame := by
  by_cases needs : filter.Needs loader
  · rw [run_accepts_needed needs] at ran
    rcases read : (readChain filter.frameLoader).run session with ⟨fault | chain, ended⟩
    all_goals
      rw [read] at ran
      cases ran
    · exact honest
    · refine ⟨honest.frameLoader, fun learnt known => ?_⟩
      cases known
      rw [← same, ← honest.frameLoader]
      exact (readChain_strict _).onHeap_of_run read
  · obtain ⟨seen, spared⟩ := run_accepts_spared needs session
    cases spared.symm.trans ran
    exact honest

private theorem Honest.asked (honest : filter.Honest heap frame)
    {calls : List (Option ObjectId × Session)} (overHeap : ∀ call ∈ calls, call.2.heap = heap) :
    (filter.asked calls).Honest heap frame := by
  induction calls generalizing filter with
  | nil => exact honest
  | cons call rest ih =>
    obtain ⟨first, later⟩ := List.forall_mem_cons.mp overHeap
    exact ih (honest.learn first rfl) later

/-- A filter that knows the chain stays as it is. -/
theorem asked_of_chain (known : filter.chain = some chain)
    (calls : List (Option ObjectId × Session)) : filter.asked calls = filter := by
  induction calls with
  | nil => rfl
  | cons call rest ih =>
    obtain ⟨seen, spared⟩ := run_accepts_spared (not_needs_of_chain known call.1) call.2
    rw [asked, List.foldl_cons, spared]
    exact ih

/-- A successful answer of an honest filter says whether the frame sees the loader. -/
theorem Honest.seen_iff (honest : filter.Honest heap frame) (same : session.heap = heap)
    (ran : ((accepts loader).run.run filter).run session = ((.ok seen, learnt), after)) :
    seen = true ↔ heap.Sees frame loader := by
  cases loader with
  | none =>
    cases ran
    exact iff_of_true rfl .bootstrap
  | some target =>
    rw [sees_some_iff, ← honest.frameLoader]
    by_cases own : filter.frameLoader = some target
    · rw [run_accepts, if_pos own] at ran
      cases ran
      exact iff_of_true rfl (.inl own)
    · -- The answer is looked up in a chain that is what the heap says.
      have looked : ∃ chain, (readChain frame).onHeap heap = .ok chain ∧
          seen = decide (target ∈ chain) := by
        rw [run_accepts, if_neg own] at ran
        cases known : filter.chain with
        | some chain =>
          simp only [known] at ran
          cases ran
          exact ⟨chain, honest.chain chain known, rfl⟩
        | none =>
          simp only [known] at ran
          rcases read : (readChain filter.frameLoader).run session with ⟨fault | chain, ended⟩
          all_goals
            rw [read] at ran
            cases ran
          have found := (readChain_strict _).onHeap_of_run read
          rw [same, honest.frameLoader] at found
          exact ⟨chain, found, rfl⟩
      obtain ⟨chain, read, rfl⟩ := looked
      rw [decide_eq_true_iff, mem_readChain_iff read, honest.frameLoader, or_iff_right]
      exact honest.frameLoader ▸ own

/-- A call fails as reading the chain fails, if it is needed. -/
theorem accepts_error_iff {fault : Fault}
    (ran : ((accepts loader).run.run filter).run session = ((answer, learnt), after)) :
    answer = .error fault ↔
      filter.Needs loader ∧ ((readChain filter.frameLoader).run session).1 = .error fault := by
  by_cases needs : filter.Needs loader
  · rw [run_accepts_needed needs] at ran
    rcases read : (readChain filter.frameLoader).run session with ⟨cause | chain, ended⟩
    all_goals
      rw [read] at ran
      cases ran
      simp [needs]
  · obtain ⟨seen, spared⟩ := run_accepts_spared needs session
    cases spared.symm.trans ran
    simp [needs]

private theorem learnt_of_error {fault : Fault}
    (ran : ((accepts loader).run.run filter).run session = ((.error fault, learnt), after)) :
    learnt = filter := by
  obtain ⟨needs, failed⟩ := (accepts_error_iff ran).mp rfl
  rw [run_accepts_needed needs] at ran
  rcases read : (readChain filter.frameLoader).run session with ⟨cause | chain, ended⟩
  all_goals rw [read] at ran failed; cases failed
  cases ran
  rfl

/-- A call about a loader that is not the frame's one leaves the chain behind, unless it fails. -/
theorem exists_chain_of_ok (other : filter.frameLoader ≠ some target)
    (ran : ((accepts (some target)).run.run filter).run session = ((.ok seen, learnt), after)) :
    ∃ chain, learnt.chain = some chain := by
  by_cases needs : filter.Needs (some target)
  · rw [run_accepts_needed needs] at ran
    rcases read : (readChain filter.frameLoader).run session with ⟨cause | chain, ended⟩
    all_goals
      rw [read] at ran
      cases ran
    exact ⟨chain, rfl⟩
  · obtain ⟨_, spared⟩ := run_accepts_spared needs session
    cases spared.symm.trans ran
    cases unknown : filter.chain with
    | some chain => exact ⟨chain, rfl⟩
    | none => exact absurd ⟨target, rfl, other, unknown⟩ needs

/-- A filter of a frame answers which loaders the frame sees, whatever it was asked before. A call
fails only if it needs the chain and reading it fails, with that fault, and then the filter stays as
it was. After a call that needed the chain and did not fail, no call makes a query. The walk over
parents ends by itself within one step for each object and one more. -/
theorem accepts_sees {earlier : List (Option ObjectId × Session)}
    (overHeap : ∀ call ∈ earlier, call.2.heap = heap) (same : session.heap = heap)
    (ran : ((accepts loader).run.run ((ofLoader frame).asked earlier)).run session =
      ((answer, learnt), after)) :
    (∀ seen, answer = .ok seen → (seen = true ↔ heap.Sees frame loader)) ∧
    (∀ fault, answer = .error fault ↔ ((ofLoader frame).asked earlier).Needs loader ∧
      ((readChain frame).run session).1 = .error fault) ∧
    (∀ fault, answer = .error fault → learnt = (ofLoader frame).asked earlier) ∧
    (∀ seen target, answer = .ok seen → loader = some target → frame ≠ some target →
      ∀ (later : List (Option ObjectId × Session)) (next : Option ObjectId) (last : Session),
        (((accepts next).run.run (learnt.asked later)).run last).2 = last) ∧
    ∀ field start steps, heap.instances.length < steps →
      (followParents field steps [start] start).run session =
        (followParents field (heap.instances.length + 1) [start] start).run session := by
  have honest := (honest_ofLoader heap frame).asked overHeap
  set filter := (ofLoader frame).asked earlier
  refine ⟨?_, ?_, ?_, ?_, ?_⟩
  · rintro seen rfl
    exact honest.seen_iff same ran
  · intro fault
    rw [accepts_error_iff ran, honest.frameLoader]
  · rintro fault rfl
    exact learnt_of_error ran
  · rintro seen target rfl rfl other later next last
    obtain ⟨chain, known⟩ := exists_chain_of_ok (honest.frameLoader ▸ other) ran
    rw [asked_of_chain known]
    obtain ⟨_, spared⟩ := run_accepts_spared (not_needs_of_chain known next) last
    rw [spared]
  · intro field start steps enough
    subst same
    exact run_followParents (session.heap.walked_start field start) (by simpa using enough)
      (by simp)

/-- Two loaders that are each other's parent, and one beside. -/
def loaderHeap : Heap where
  lastId := 12
  types := [⟨⟨1, Heap.classLoaderSignature, none, none, false⟩, [(2, "parent")]⟩]
  instances := [⟨10, 1, [(2, .object ⟨11, ""⟩)], none, none⟩,
    ⟨11, 1, [(2, .object ⟨10, ""⟩)], none, none⟩, ⟨12, 1, [], none, none⟩]
  frames := []
  assertions := []

/-- What the filter of the first loader knows after it was asked about the one beside. -/
def loaderFilter : LoaderFilter := (ofLoader (some 10)).asked [(some 12, .ofHeap loaderHeap)]

theorem accepts_sees_parent :
    (((accepts (some 11)).run.run loaderFilter).run (.ofHeap loaderHeap)).1.1 = .ok true ∧
      loaderHeap.Sees (some 10) (some 11) := by
  have overHeap : ∀ call ∈ [((some 12 : Option ObjectId), Session.ofHeap loaderHeap)],
      call.2.heap = loaderHeap := List.forall_mem_singleton.mpr rfl
  have answer : (((accepts (some 11)).run.run loaderFilter).run (.ofHeap loaderHeap)).1.1 =
      .ok true := rfl
  have seen := accepts_sees overHeap rfl (Prod.ext (Prod.ext answer rfl) rfl)
  exact ⟨answer, (seen.1 true rfl).mp rfl⟩

end LoaderFilter

end PauseFlow
