import PauseFlow.Proofs.Data.PositionIndex
import PauseFlow.Proofs.Variable.Derivation

namespace PauseFlow

namespace Variables

variable {registry : Variables} {origin : Origin} {var : Var}

private theorem origin?_eq_some_iff :
    registry.origin? var = some origin ↔
      ∃ info, registry.info? var = some info ∧ info.origin = origin :=
  Option.map_eq_some_iff

/-- No two variables have one origin. -/
def Distinct (registry : Variables) : Prop :=
  ∀ left right origin, registry.origin? left = some origin →
    registry.origin? right = some origin → left = right

private theorem origin?_ne_of_find? (missing : registry.find? origin = none) (var : Var) :
    registry.origin? var ≠ some origin := by
  intro own
  obtain ⟨info, known, same⟩ := origin?_eq_some_iff.mp own
  have unlike := List.findIdx?_eq_none_iff.mp (Option.map_eq_none_iff.mp missing) info
    (List.mem_of_getElem? known)
  simp [same] at unlike

private theorem distinct_ofTable (table : ClassTable) : (ofTable table).Distinct := by
  intro left right origin own _
  obtain ⟨info, known, _⟩ := origin?_eq_some_iff.mp own
  simp [ofTable, info?] at known

private theorem Distinct.request (distinct : registry.Distinct) (origin : Origin)
    (declared : AbstractValue) : (registry.request origin declared).1.Distinct := by
  cases found : registry.find? origin with
  | some var =>
    rw [Variables.request, found]
    exact distinct
  | none =>
    intro left right other leftOwn rightOwn
    obtain ⟨leftInfo, leftKnown, leftSame⟩ := origin?_eq_some_iff.mp leftOwn
    obtain ⟨rightInfo, rightKnown, rightSame⟩ := origin?_eq_some_iff.mp rightOwn
    rcases info?_request_cases leftKnown with leftOld | ⟨leftNew, rfl⟩
    all_goals rcases info?_request_cases rightKnown with rightOld | ⟨rightNew, rfl⟩
    · exact distinct left right other (origin?_eq_some_iff.mpr ⟨leftInfo, leftOld, leftSame⟩)
        (origin?_eq_some_iff.mpr ⟨rightInfo, rightOld, rightSame⟩)
    · have own := origin?_eq_some_iff.mpr ⟨leftInfo, leftOld, leftSame.trans rightSame.symm⟩
      exact absurd own (origin?_ne_of_find? found left)
    · have own := origin?_eq_some_iff.mpr ⟨rightInfo, rightOld, rightSame.trans leftSame.symm⟩
      exact absurd own (origin?_ne_of_find? found right)
    · exact leftNew.trans rightNew.symm

/-- A search by origin undoes the look-up of an origin. -/
theorem Distinct.find?_eq_some_iff (distinct : registry.Distinct) :
    registry.find? origin = some var ↔ registry.origin? var = some origin := by
  constructor
  · intro found
    exact origin?_eq_some_iff.mpr (info?_of_find? found)
  · intro own
    cases found : registry.find? origin with
    | none => exact absurd own (origin?_ne_of_find? found var)
    | some other =>
      have again := origin?_eq_some_iff.mpr (info?_of_find? found)
      rw [distinct var other origin own again]

private theorem dependents_ascending (registry : Variables) (upper : Var) :
    (registry.dependents upper).Pairwise fun earlier later => earlier.index < later.index := by
  have positions : registry.infos.zipIdx.Pairwise fun earlier later => earlier.2 < later.2 := by
    rw [← List.pairwise_map (f := Prod.snd), List.zipIdx_map_snd]
    exact List.pairwise_lt_range'
  refine positions.filterMap _ fun entry other before lower shown next follows => ?_
  simp only [Option.ite_none_right_eq_some, Option.some.injEq] at shown follows
  obtain ⟨_, rfl⟩ := shown
  obtain ⟨_, rfl⟩ := follows
  exact before

/-- What a flow can ask for. -/
inductive Request where
  | ofOrigin (origin : Origin) (declared : AbstractValue)
  | ofLocal (name : String) (type : JvmType)
  | assertionsDisabled
  /-- A derived field of a variable, of which something is known. -/
  | derived (field : DerivedField) (qualifier : Var) (known : AbstractValue)

/-- The variable that a request hangs something off. -/
def Request.qualifier? : Request → Option Var
  | ofOrigin origin _ => origin.qualifier?
  | ofLocal _ _ => none
  | assertionsDisabled => none
  | derived _ qualifier _ => some qualifier

/-- The registry after a request, and the variable it gives. -/
def answer (registry : Variables) : Request → Variables × Option Var
  | .ofOrigin origin declared =>
    let (registry, var) := registry.request origin declared
    (registry, some var)
  | .ofLocal name type =>
    let (registry, var) := registry.request (.localName name) (.ofType type)
    (registry, some var)
  | .assertionsDisabled =>
    let (registry, var) := registry.requestAssertionsDisabled
    (registry, some var)
  | .derived field qualifier known => registry.requestDerived field qualifier known

/-- The registry after requests, one after the other. -/
def answerAll (registry : Variables) (requests : List Request) : Variables :=
  requests.foldl (fun registry request => (registry.answer request).1) registry

/-- Whether each request names a variable that was issued before it, if it names one. -/
def Orderly (registry : Variables) : List Request → Prop
  | [] => True
  | request :: rest =>
    (∀ qualifier, request.qualifier? = some qualifier → registry.Issued qualifier) ∧
      (registry.answer request).1.Orderly rest

/-- Whatever is asked for, an origin is requested, or nothing happens. -/
theorem answer_cases (registry : Variables) (request : Request) :
    (∃ origin declared, origin.qualifier? = request.qualifier? ∧
      (registry.answer request).1 = (registry.request origin declared).1) ∨
    (registry.answer request).1 = registry := by
  cases request with
  | ofOrigin origin declared => exact .inl ⟨origin, declared, rfl, rfl⟩
  | ofLocal name type => exact .inl ⟨.localName name, .ofType type, rfl, rfl⟩
  | assertionsDisabled =>
    exact .inl ⟨.assertionsDisabled, .ofType (.primitive .boolean), rfl, rfl⟩
  | derived field qualifier known =>
    rcases requestDerived_cases registry field qualifier known with ⟨declared, _, result⟩ | result
    · exact .inl ⟨.derived qualifier field, declared, rfl, congrArg Prod.fst result⟩
    · exact .inr (congrArg Prod.fst result)

private theorem grows_answer (registry : Variables) (request : Request) :
    Grows registry (registry.answer request).1 := by
  rcases registry.answer_cases request with ⟨origin, declared, _, result⟩ | result
  all_goals rw [result]
  · exact grows_request registry origin declared
  · exact Grows.refl registry

theorem Distinct.answer (distinct : registry.Distinct) (request : Request) :
    (registry.answer request).1.Distinct := by
  rcases registry.answer_cases request with ⟨origin, declared, _, result⟩ | result
  all_goals rw [result]
  · exact distinct.request origin declared
  · exact distinct

theorem Built.answer (built : registry.Built fun _ => True) {request : Request}
    (issued : ∀ qualifier, request.qualifier? = some qualifier → registry.Issued qualifier) :
    (registry.answer request).1.Built fun _ => True := by
  rcases registry.answer_cases request with ⟨origin, declared, hangs, result⟩ | result
  all_goals rw [result]
  · exact built.request trivial fun qualifier named => issued qualifier (hangs ▸ named)
  · exact built

/-- A request issues one variable at most. -/
theorem size_answer_le (registry : Variables) (request : Request) :
    (registry.answer request).1.size ≤ registry.size + 1 := by
  rcases registry.answer_cases request with ⟨origin, declared, _, result⟩ | result
  all_goals rw [result]
  · unfold Variables.request
    split
    · exact Nat.le_succ _
    · exact Nat.le_of_eq List.length_append
  · exact Nat.le_succ _

private theorem grows_answerAll (registry : Variables) (requests : List Request) :
    Grows registry (registry.answerAll requests) := by
  induction requests generalizing registry with
  | nil => exact Grows.refl registry
  | cons request rest ih => exact (registry.grows_answer request).trans (ih _)

private theorem Distinct.answerAll (distinct : registry.Distinct) (requests : List Request) :
    (registry.answerAll requests).Distinct := by
  induction requests generalizing registry with
  | nil => exact distinct
  | cons request rest ih => exact ih (distinct.answer request)

/-- Orderly requests build a registry. -/
theorem Built.answerAll (built : registry.Built fun _ => True) {requests : List Request}
    (orderly : registry.Orderly requests) :
    (registry.answerAll requests).Built fun _ => True := by
  induction requests generalizing registry with
  | nil => exact built
  | cons request rest ih => exact ih (built.answer orderly.1) orderly.2

private theorem size_answerAll_le (registry : Variables) (requests : List Request) :
    (registry.answerAll requests).size ≤ registry.size + requests.length := by
  induction requests generalizing registry with
  | nil => exact Nat.le_refl _
  | cons request rest ih =>
    have first := registry.size_answer_le request
    have later := ih (registry.answer request).1
    rw [List.length_cons]
    change ((registry.answer request).1.answerAll rest).size ≤ _
    omega

private theorem answerAll_append (registry : Variables) (earlier later : List Request) :
    registry.answerAll (earlier ++ later) = (registry.answerAll earlier).answerAll later :=
  List.foldl_append

/-- After any orderly requests a search by origin is the inverse of the look-up of an origin. A
variable once issued keeps its origin and declaration, and a request for its origin gives it again,
whatever type the request passes. Qualifiers come before what hangs off them, and the dependents of
a variable are what it qualifies, in order; so chains of either kind end. Fewer requests than 32
bits can count issue no number beyond. -/
theorem requests_intern (table : ClassTable) (requests : List Request)
    (orderly : (ofTable table).Orderly requests) :
    let registry := (ofTable table).answerAll requests
    (∀ origin var, registry.find? origin = some var ↔ registry.origin? var = some origin) ∧
      (∀ earlier later, requests = earlier ++ later → ∀ var info,
        ((ofTable table).answerAll earlier).info? var = some info →
          registry.info? var = some info) ∧
      (∀ origin var, registry.origin? var = some origin → ∀ declared,
        registry.request origin declared = (registry, var)) ∧
      (∀ lower upper, registry.HangsOff lower upper → upper.index < lower.index) ∧
      (∀ upper, (∀ lower, lower ∈ registry.dependents upper ↔ registry.HangsOff lower upper) ∧
        (registry.dependents upper).Pairwise fun earlier later => earlier.index < later.index) ∧
      ((WellFounded fun upper lower => registry.HangsOff lower upper) ∧
        WellFounded fun lower upper => registry.HangsOff lower upper) ∧
      (requests.length < 2 ^ 32 → ∀ var, registry.Issued var → var.index < 2 ^ 32) := by
  intro registry
  have distinct : registry.Distinct := (distinct_ofTable table).answerAll requests
  have ordered : registry.Ordered := (Built.answerAll (.ofTable table) orderly).ordered
  refine ⟨fun origin var => distinct.find?_eq_some_iff, ?_, ?_, ordered,
    fun upper => ⟨fun lower => mem_dependents_iff, registry.dependents_ascending upper⟩,
    ⟨wellFounded_qualifies ordered, wellFounded_hangsOff ordered⟩, ?_⟩
  · rintro earlier later rfl var info known
    have grows := grows_answerAll ((ofTable table).answerAll earlier) later
    rw [← answerAll_append] at grows
    exact (grows.info? (issued_iff.mpr ⟨info, known⟩)).trans known
  · intro origin var own declared
    rw [request, distinct.find?_eq_some_iff.mpr own]
  · intro few var issued
    have most := size_answerAll_le (ofTable table) requests
    have below : var.index < registry.size := issued
    have none : (ofTable table).size = 0 := rfl
    change registry.size ≤ _ at most
    omega

/-- A cell, its successor, the length of that, the assertion flag, and the cell once more, now said
to be a number. -/
def cellRequests : List Request :=
  [.ofLocal "cell" (.ofClass ⟨0⟩), .ofOrigin (.field ⟨0⟩ "next") .top,
    .derived .arrayLength ⟨1⟩ .top, .assertionsDisabled, .ofLocal "cell" (.primitive .int)]

theorem requests_intern_cells :
    (ofTable .wellKnown).Orderly cellRequests ∧
      let registry := (ofTable .wellKnown).answerAll cellRequests
      registry.size = 4 ∧ registry.find? (.localName "cell") = some ⟨0⟩ ∧
        registry.info? ⟨0⟩ = some ⟨.localName "cell", .ofType (.ofClass ⟨0⟩)⟩ ∧
        ⟨2⟩ ∈ registry.dependents ⟨1⟩ := by
  have orderly : (ofTable .wellKnown).Orderly cellRequests := by
    refine ⟨nofun, ?_, ?_, nofun, nofun, trivial⟩
    all_goals
      rintro qualifier ⟨⟩
      decide
  obtain ⟨inverse, kept, _, _, dependents, _⟩ := requests_intern .wellKnown cellRequests orderly
  refine ⟨orderly, by decide, ?_, ?_, ?_⟩
  · exact (inverse _ _).mpr (by decide)
  · exact kept (cellRequests.take 1) (cellRequests.drop 1) rfl ⟨0⟩ _ (by decide)
  · exact ((dependents ⟨1⟩).1 ⟨2⟩).mpr ⟨_, rfl, rfl⟩

end Variables

deriving instance Hashable for Var, DerivedField, Origin

/-- A registry with a map from origins to variables. -/
structure IndexedVariables where
  registry : Variables
  byOrigin : PositionIndex VariableInfo.origin registry.infos

namespace IndexedVariables

def ofTable (table : ClassTable) : IndexedVariables := ⟨.ofTable table, .empty _⟩

/-- The variable of an origin, by the map alone. -/
def find? (indexed : IndexedVariables) (origin : Origin) : Option Var :=
  (indexed.byOrigin.find? origin).map .mk

/-- The variable that the map knows for an origin, or a new one that is entered. -/
def request (indexed : IndexedVariables) (origin : Origin) (declared : AbstractValue) :
    IndexedVariables × Var :=
  match known : indexed.byOrigin.find? origin with
  | some position => (indexed, ⟨position⟩)
  | none =>
    (⟨{ indexed.registry with infos := indexed.registry.infos ++ [⟨origin, declared⟩] },
      indexed.byOrigin.push ⟨origin, declared⟩ known⟩, ⟨indexed.registry.size⟩)

def requestDerived (indexed : IndexedVariables) (field : DerivedField) (qualifier : Var)
    (known : AbstractValue) : IndexedVariables × Option Var :=
  if known.isReference || known = .top then
    match field.declaredValue? indexed.registry.table known with
    | some declared =>
      let (indexed, var) := indexed.request (.derived qualifier field) declared
      (indexed, some var)
    | none => (indexed, none)
  else (indexed, none)

/-- The registry and the map after a request, and the variable that it gives. -/
def answer (indexed : IndexedVariables) : Variables.Request → IndexedVariables × Option Var
  | .ofOrigin origin declared =>
    let (indexed, var) := indexed.request origin declared
    (indexed, some var)
  | .ofLocal name type =>
    let (indexed, var) := indexed.request (.localName name) (.ofType type)
    (indexed, some var)
  | .assertionsDisabled =>
    let (indexed, var) := indexed.request .assertionsDisabled (.ofType (.primitive .boolean))
    (indexed, some var)
  | .derived field qualifier known => indexed.requestDerived field qualifier known

def answerAll (indexed : IndexedVariables) (requests : List Variables.Request) :
    IndexedVariables :=
  requests.foldl (fun indexed request => (indexed.answer request).1) indexed

theorem find?_eq (indexed : IndexedVariables) (origin : Origin) :
    indexed.find? origin = indexed.registry.find? origin := by
  rw [find?, PositionIndex.find?_eq, Variables.find?]

theorem request_eq (indexed : IndexedVariables) (origin : Origin) (declared : AbstractValue) :
    ((indexed.request origin declared).1.registry, (indexed.request origin declared).2) =
      indexed.registry.request origin declared := by
  have looked := indexed.find?_eq origin
  unfold request Variables.request
  split
  · rename_i position known
    rw [find?, known, Option.map_some] at looked
    rw [← looked]
  · rename_i fresh
    rw [find?, fresh, Option.map_none] at looked
    rw [← looked]

/-- A request that is answered by the map is answered as by search: it gives the same variable, and
leaves the same registry. -/
theorem answer_eq (indexed : IndexedVariables) (request : Variables.Request) :
    ((indexed.answer request).1.registry, (indexed.answer request).2) =
      indexed.registry.answer request := by
  cases request with
  | ofOrigin origin declared =>
    rw [Variables.answer, ← indexed.request_eq]
    rfl
  | ofLocal name type =>
    rw [Variables.answer, ← indexed.request_eq]
    rfl
  | assertionsDisabled =>
    rw [Variables.answer, Variables.requestAssertionsDisabled, ← indexed.request_eq]
    rfl
  | derived field qualifier known =>
    simp only [answer, requestDerived, Variables.answer, Variables.requestDerived]
    split
    · cases field.declaredValue? indexed.registry.table known with
      | none => rfl
      | some declared => simp only [← indexed.request_eq]
    · rfl

/-- Whatever a flow asks for, the map answers as the search does. -/
theorem answerAll_eq (indexed : IndexedVariables) (requests : List Variables.Request) :
    (indexed.answerAll requests).registry = indexed.registry.answerAll requests ∧
      ∀ origin, (indexed.answerAll requests).find? origin =
        (indexed.registry.answerAll requests).find? origin := by
  have same : (indexed.answerAll requests).registry = indexed.registry.answerAll requests := by
    induction requests generalizing indexed with
    | nil => rfl
    | cons request rest ih =>
      have grown : (indexed.answer request).1.registry =
          (indexed.registry.answer request).1 := congrArg Prod.fst (indexed.answer_eq request)
      have next := ih (indexed.answer request).1
      rw [grown] at next
      exact next
  exact ⟨same, fun origin => by rw [find?_eq, same]⟩

end IndexedVariables

end PauseFlow
