import PauseFlow.Proofs.Assist.Reading
import PauseFlow.Snapshot.Batch

namespace PauseFlow

/-- What is asked to classify a value. -/
def Question.isOfValue : Question → Bool
  | .stringText _ => true
  | .arrayLength _ => true
  | question => question.isOfField

private theorem Question.isOfValue_of_isOfField {question : Question}
    (ofField : question.isOfField) : question.isOfValue := by
  cases question <;> first | rfl | cases ofField

namespace Conduct

/-- Ask what is asked to classify values, and pass every fault on. -/
def classifying : Conduct := strict fun question => question.isOfValue

/-- Go on without an entry when an object is gone while the entry is classified. -/
def snapshotting : Conduct where
  asks _ := True
  forgives question fault := question.isOfValue ∧ fault.isCollected

end Conduct

namespace FilteredQuery

variable {Answer Next : Type}

/-- A query with the filter it starts from; what the filter learns is left out. -/
def startingFrom (query : FilteredQuery Answer) (filter : LoaderFilter) : Query Answer :=
  ExceptT.mk (Prod.fst <$> query.run.run filter)

private theorem exists_of_startingFrom {query : FilteredQuery Answer} {filter : LoaderFilter}
    {session after : Session} {answer : Except Fault Answer}
    (ran : (query.startingFrom filter).run session = (answer, after)) :
    ∃ learnt, (query.run.run filter).run session = ((answer, learnt), after) := by
  have result : (((query.run.run filter).run session).1.1, ((query.run.run filter).run session).2) =
    (answer, after) := ran
  cases result
  exact ⟨_, rfl⟩

theorem run_startingFrom {query : FilteredQuery Answer} {filter learnt : LoaderFilter}
    {session after : Session} {answer : Except Fault Answer}
    (ran : (query.run.run filter).run session = ((answer, learnt), after)) :
    (query.startingFrom filter).run session = (answer, after) := by
  have result : (query.startingFrom filter).run session =
    (((query.run.run filter).run session).1.1, ((query.run.run filter).run session).2) := rfl
  rw [result, ran]

theorem run_bind (query : FilteredQuery Answer) (next : Answer → FilteredQuery Next)
    (filter : LoaderFilter) (session : Session) :
    ((query >>= next).run.run filter).run session =
      match (query.run.run filter).run session with
      | ((.ok answer, learnt), after) => ((next answer).run.run learnt).run after
      | ((.error fault, learnt), after) => ((.error fault, learnt), after) := by
  change ExceptT.bindCont next ((query.run.run filter).run session).1.1
    ((query.run.run filter).run session).1.2 ((query.run.run filter).run session).2 = _
  rcases (query.run.run filter).run session with ⟨⟨_ | _, _⟩, _⟩ <;> rfl

theorem run_startingFrom_bind (query : FilteredQuery Answer) (next : Answer → FilteredQuery Next)
    (filter : LoaderFilter) (session : Session) :
    ((query >>= next).startingFrom filter).run session =
      match (query.run.run filter).run session with
      | ((.ok answer, learnt), after) => ((next answer).startingFrom learnt).run after
      | ((.error fault, _), after) => (.error fault, after) := by
  have whole := run_bind query next filter session
  rcases ran : (query.run.run filter).run session with ⟨⟨_ | _, _⟩, _⟩
  all_goals rw [ran] at whole
  · exact run_startingFrom whole
  · exact run_startingFrom whole

/-- A query whose faults are looked at. -/
theorem run_attempt (query : FilteredQuery Answer) (filter : LoaderFilter)
    (next : Except Fault Answer × LoaderFilter → Assist Next) (session : Session) :
    ((liftM (query.run.run filter) : Assist _) >>= next).run session =
      (next ((query.run.run filter).run session).1).run ((query.run.run filter).run session).2 :=
  rfl

/-- Whatever the filter knows, the query follows the conduct. -/
def Follows (query : FilteredQuery Answer) (conduct : Conduct) : Prop :=
  ∀ filter, (query.startingFrom filter).Follows conduct

namespace Follows

variable {conduct : Conduct}

theorem pure (answer : Answer) : (Pure.pure answer : FilteredQuery Answer).Follows conduct :=
  fun _ => PauseM.Follows.pure answer

theorem get : (getThe LoaderFilter : FilteredQuery LoaderFilter).Follows conduct :=
  fun filter => PauseM.Follows.pure filter

theorem set (filter : LoaderFilter) :
    (MonadStateOf.set filter : FilteredQuery PUnit).Follows conduct :=
  fun _ => PauseM.Follows.pure PUnit.unit

theorem lift {query : Query Answer} (follows : query.Follows conduct) :
    (liftM query : FilteredQuery Answer).Follows conduct :=
  fun _ => follows

theorem bind {query : FilteredQuery Answer} {next : Answer → FilteredQuery Next}
    (first : query.Follows conduct) (rest : ∀ answer, (next answer).Follows conduct) :
    (query >>= next).Follows conduct := by
  intro filter session
  rw [run_startingFrom_bind]
  obtain ⟨made, after, asked, ⟨answer, ran, allowed⟩ | ⟨fault, ran, blames⟩⟩ :=
    (first filter).cases session
  all_goals obtain ⟨learnt, ran⟩ := exists_of_startingFrom ran; rw [ran]
  · exact (rest answer learnt).onward asked allowed
  · exact ⟨made, asked, .inr ⟨fault, rfl, blames⟩⟩

/-- The faults of a query are looked at: steps go on after those that are forgiven, and pass the
others on. -/
theorem attempt {query : FilteredQuery Answer} {narrow : Conduct} {refuses : AssistFailure → Prop}
    {filter : LoaderFilter} {next : Except Fault Answer × LoaderFilter → Assist Next}
    (follows : query.Follows narrow) (within : narrow.Within conduct)
    (succeeded : ∀ answer learnt, (next (.ok answer, learnt)).Follows conduct refuses)
    (failed : ∀ fault learnt, ((∀ {question}, narrow.asks question →
        conduct.forgives question fault) ∧ (next (.error fault, learnt)).Follows conduct refuses) ∨
      next (.error fault, learnt) = throw (.remote fault)) :
    ((liftM (query.run.run filter) : Assist _) >>= next).Follows conduct refuses := by
  intro session
  rw [run_attempt]
  obtain ⟨made, after, asked, ⟨answer, ran, allowed⟩ | ⟨fault, ran, blames⟩⟩ :=
    (follows filter).cases session
  all_goals obtain ⟨learnt, ran⟩ := exists_of_startingFrom ran; rw [ran]
  · exact (succeeded answer learnt).onward asked
      fun record member => within.allows (allowed record member)
  · rcases failed fault learnt with ⟨forgives, goesOn⟩ | rethrown
    · exact goesOn.onward asked (blames.forgiven within forgives)
    · rw [rethrown]
      exact ⟨made, asked, Or.inr ⟨fault, rfl, within.blames blames⟩⟩

end Follows

end FilteredQuery

namespace LoaderFilter

open Query.Strict

theorem followParents_strict (parentField : FieldId) (steps : Nat) (chain : List ObjectId)
    (current : ObjectId) :
    (followParents parentField steps chain current).Strict (·.isOfField) := by
  induction steps generalizing chain current with
  | zero => exact .pure _
  | succ steps ih =>
    refine .bind (.ask (by rfl) _) fun value => ?_
    split
    · split
      · exact .pure _
      · exact ih _ _
    · exact .pure _

theorem readChain_strict (loader : Option ObjectId) :
    (readChain loader).Strict (·.isOfField) := by
  unfold readChain
  split
  · rename_i start
    refine .bind (.ask (by rfl) _) fun type => ?_
    refine .bind (Query.findSupertype_strict _ _) fun root => ?_
    split
    · refine .bind (.ask (by rfl) _) fun field => ?_
      split
      · rename_i parentField
        exact .look (fun heap =>
          followParents parentField (heap.instances.length + 1) [start] start) fun _ =>
            followParents_strict _ _ _ _
      · exact .pure _
    · exact .pure _
  · exact .pure _

private theorem accepts_follows (loader : Option ObjectId) :
    (accepts loader).Follows .classifying := by
  unfold accepts
  split
  · refine .bind .get fun filter => ?_
    split
    · exact .pure _
    · split
      · exact .pure _
      · have reading := (readChain_strict filter.frameLoader).mono Question.isOfValue_of_isOfField
        exact .bind (.lift reading.follows) fun _ => .bind (.set _) fun _ => .pure _
  · exact .pure _

end LoaderFilter

namespace Snapshot

open Query.Strict

theorem readField_strict (id : ObjectId) (name : String) :
    (Query.readField id name).Strict (·.isOfValue) :=
  (Query.readField_strict id name).mono Question.isOfValue_of_isOfField

theorem declaringEnum?_strict (info : TypeInfo) :
    (declaringEnum? info).Strict (·.isOfValue) := by
  unfold declaringEnum?
  split
  · exact .pure _
  · split
    · exact .bind (.ask (by rfl) _) fun _ => .pure _
    · exact .pure _

theorem ofEnumCase_strict (id : ObjectId) (enumeration : TypeInfo) :
    (ofEnumCase id enumeration).Strict (·.isOfValue) := by
  refine .bind (readField_strict id _) fun value => ?_
  split
  · exact .bind (.ask (by rfl) _) fun _ => .pure _
  · exact .pure _

theorem ofBox_strict (id : ObjectId) (signature : String) (kind : PrimitiveKind) :
    (ofBox id signature kind).Strict (·.isOfValue) := by
  refine .bind (readField_strict id _) fun value => ?_
  dsimp only
  split
  · split
    · exact .pure _
    · exact .pure _
  · exact .pure _

theorem ofCollection_strict (id : ObjectId) (signature : String) :
    (ofCollection id signature).Strict (·.isOfValue) := by
  refine .bind (readField_strict id _) fun value => ?_
  split
  · exact .pure _
  · exact .pure _

private theorem ofPlainObject_strict (id : ObjectId) (info : TypeInfo) :
    (ofPlainObject id info).Strict (·.isOfValue) := by
  refine .bind (declaringEnum?_strict info) fun enumeration => ?_
  split
  · exact ofEnumCase_strict id _
  · split
    · exact ofBox_strict id _ _
    · split
      · exact ofCollection_strict id _
      · exact .pure _

theorem ofVisibleObject_strict (id : ObjectId) (info : TypeInfo) :
    (ofVisibleObject id info).Strict (·.isOfValue) := by
  unfold ofVisibleObject
  split
  · exact .bind (.ask (by rfl) _) fun _ => .pure _
  · split
    · exact .bind (.ask (by rfl) _) fun _ => .pure _
    · exact ofPlainObject_strict id info

theorem typeOf_strict (id : ObjectId) :
    (Query.objectType id >>= Query.typeInfo).Strict (·.isOfValue) :=
  .bind (.ask (by rfl) _) fun _ => .ask (by rfl) _

private theorem ofObject_follows (id : ObjectId) : (ofObject id).Follows .classifying := by
  refine .bind (.lift (typeOf_strict id).follows) fun info => ?_
  refine .bind (LoaderFilter.accepts_follows _) fun visible => ?_
  split
  · exact .bind (.lift (ofVisibleObject_strict id info).follows) fun _ => .pure _
  · exact .pure _

private theorem classify_follows (value : LiveValue) : (classify value).Follows .classifying := by
  unfold classify
  split
  · exact .pure _
  · exact ofObject_follows _
  · exact .pure _

end Snapshot

namespace Snapshots

open PauseM.Follows

private theorem within_classifying : Conduct.classifying.Within .snapshotting :=
  Conduct.within_strict fun _ => trivial

/-- A batch only fails in a way of its own when the user cancels. -/
theorem takeAll_follows (filter : LoaderFilter) (values : List LiveValue) :
    (takeAll filter values).Follows .snapshotting (· = .cancelled) := by
  induction values generalizing filter with
  | nil => exact .pure _
  | cons value rest ih =>
    unfold takeAll
    refine .bind .get fun session => ?_
    split
    · exact .throw_bind rfl
    · refine (Snapshot.classify_follows value).attempt within_classifying (fun answer learnt => ?_)
        (fun fault learnt => ?_)
      · cases answer with
        | none => exact ih learnt
        | some snapshot => exact .bind (ih learnt) fun _ => .pure _
      · by_cases collected : fault.isCollected
        · exact .inl ⟨fun asks => ⟨asks, collected⟩, by simpa [collected] using ih learnt⟩
        · exact .inr (by simp [collected])

theorem fetch_follows (frame : FrameRef) (aliases : Aliases) :
    (fetch frame aliases).Follows .snapshotting (· = .cancelled) :=
  .bind (.lift (.ask trivial _)) fun _ => .bind (takeAll_follows _ _) fun _ => .pure _

end Snapshots

end PauseFlow
