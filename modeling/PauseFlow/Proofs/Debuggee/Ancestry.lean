import Mathlib.Data.List.Nodup
import PauseFlow.Proofs.Debuggee.Answering

namespace PauseFlow

/-- The field of that name that the type declares itself. -/
def LoadedType.field? (type : LoadedType) (name : String) : Option FieldId :=
  (type.fields.find? fun field => field.2 = name).map (·.1)

/-- What is known of the type, if it has the name. -/
def LoadedType.named? (type : LoadedType) (name : String) : Option TypeInfo :=
  if type.info.typeName = name then some type.info else none

namespace Heap

variable {Found : Type}

/-- The way up from a type, with the types that are passed before the last one. -/
inductive Climbs (heap : Heap) : TypeId → List LoadedType → TypeId → Prop where
  | here (id : TypeId) : Climbs heap id [] id
  | up {id parent top : TypeId} {type : LoadedType} {below : List LoadedType}
      (known : heap.type? id = some type) (next : type.info.superclass = some parent)
      (rest : Climbs heap parent below top) : Climbs heap id (type :: below) top

/-- What a test finds nearest at or above a type, at a number of superclass links. -/
inductive Nearest (heap : Heap) (test : LoadedType → Option Found) :
    (distance : Nat) → TypeId → Found → Prop where
  | here {id : TypeId} {type : LoadedType} {found : Found} (known : heap.type? id = some type)
      (passes : test type = some found) : Nearest heap test 0 id found
  | above {distance : Nat} {id parent : TypeId} {type : LoadedType} {found : Found}
      (known : heap.type? id = some type) (fails : test type = none)
      (next : type.info.superclass = some parent)
      (rest : Nearest heap test distance parent found) : Nearest heap test (distance + 1) id found

/-- Walk upward to the first type that passes a test. -/
def climb (heap : Heap) (test : LoadedType → Option Found) :
    (steps : Nat) → (visited : List TypeId) → Option TypeId → Except Fault (Option Found)
  | 0, _, _ => .ok none
  | _ + 1, _, none => .ok none
  | steps + 1, visited, some id =>
    if id ∈ visited then .ok none
    else
      match heap.type? id with
      | none => .error (.unknownType id)
      | some type =>
        match test type with
        | some found => .ok (some found)
        | none => heap.climb test steps (id :: visited) type.info.superclass

/-- A walk from a type that visits every loaded type if it must. -/
def climbFrom (heap : Heap) (test : LoadedType → Option Found) (id : TypeId) :
    Except Fault (Option Found) :=
  heap.climb test (heap.types.length + 1) [] (some id)

variable {heap : Heap} {test : LoadedType → Option Found} {id : TypeId} {found : Found}

theorem mem_ids_of_type? {type : LoadedType} (known : heap.type? id = some type) :
    id ∈ heap.types.map (·.info.id) := by
  have same : type.info.id = id := by simpa using List.find?_some known
  exact same ▸ List.mem_map_of_mem (List.mem_of_find?_eq_some known)

private theorem Nearest.known {distance : Nat} (nearest : heap.Nearest test distance id found) :
    ∃ type, heap.type? id = some type := by
  cases nearest with
  | here known _ => exact ⟨_, known⟩
  | above known _ _ _ => exact ⟨_, known⟩

/-- There is one way up, so a test finds one thing, at one distance. -/
theorem Nearest.unique {distance further : Nat} {other : Found}
    (nearest : heap.Nearest test distance id found) (again : heap.Nearest test further id other) :
    distance = further ∧ found = other := by
  induction nearest generalizing further with
  | here known passes =>
    cases again with
    | here knownAgain passesAgain =>
      cases known.symm.trans knownAgain
      exact ⟨rfl, Option.some.inj (passes.symm.trans passesAgain)⟩
    | above knownAgain failsAgain _ _ =>
      cases known.symm.trans knownAgain
      cases passes.symm.trans failsAgain
  | above known fails next _ ih =>
    cases again with
    | here knownAgain passesAgain =>
      cases known.symm.trans knownAgain
      cases fails.symm.trans passesAgain
    | above knownAgain _ nextAgain rest =>
      cases known.symm.trans knownAgain
      cases next.symm.trans nextAgain
      exact ⟨congrArg (· + 1) (ih rest).1, (ih rest).2⟩

private theorem nearest_of_climb {steps : Nat} {visited : List TypeId} {start : Option TypeId}
    (climbed : heap.climb test steps visited start = .ok (some found)) :
    ∃ id distance, start = some id ∧ heap.Nearest test distance id found := by
  fun_induction heap.climb test steps visited start with
  | case1 => cases climbed
  | case2 => cases climbed
  | case3 => cases climbed
  | case4 => cases climbed
  | case5 steps visited id fresh type known result passes =>
    cases climbed
    exact ⟨id, 0, rfl, .here known passes⟩
  | case6 steps visited id fresh type known fails ih =>
    obtain ⟨parent, distance, next, nearest⟩ := ih climbed
    exact ⟨id, distance + 1, rfl, .above known fails next nearest⟩

/-- Types that were visited lie below what is searched for, at greater distances. So the walk does
not end at a type it has visited, and it has a step left. -/
private theorem Nearest.exists_step {distance steps : Nat} {visited : List TypeId}
    (nearest : heap.Nearest test distance id found) (distinct : visited.Nodup)
    (loaded : visited ⊆ heap.types.map (·.info.id))
    (passed : ∀ lower ∈ visited, ∃ further, distance < further ∧
      heap.Nearest test further lower found)
    (enough : heap.types.length < steps + visited.length) :
    id ∉ visited ∧ ∃ fewer, steps = fewer + 1 := by
  have fresh : id ∉ visited := by
    intro member
    obtain ⟨further, greater, again⟩ := passed id member
    exact absurd (nearest.unique again).1 greater.ne
  obtain ⟨type, known⟩ := nearest.known
  have inside : id :: visited ⊆ heap.types.map (·.info.id) :=
    List.cons_subset.mpr ⟨mem_ids_of_type? known, loaded⟩
  have bound := (List.nodup_cons.mpr ⟨fresh, distinct⟩).length_le_of_subset inside
  simp only [List.length_cons, List.length_map] at bound
  exact ⟨fresh, Nat.exists_eq_succ_of_ne_zero (by omega)⟩

private theorem climb_of_nearest {distance steps : Nat} {visited : List TypeId}
    (nearest : heap.Nearest test distance id found) (distinct : visited.Nodup)
    (loaded : visited ⊆ heap.types.map (·.info.id))
    (passed : ∀ lower ∈ visited, ∃ further, distance < further ∧
      heap.Nearest test further lower found)
    (enough : heap.types.length < steps + visited.length) :
    heap.climb test steps visited (some id) = .ok (some found) := by
  induction nearest generalizing steps visited with
  | here known passes =>
    obtain ⟨fresh, steps, rfl⟩ :=
      (Nearest.here known passes).exists_step distinct loaded passed enough
    simp [climb, fresh, known, passes]
  | above known fails next rest ih =>
    have nearest := Nearest.above known fails next rest
    obtain ⟨fresh, steps, rfl⟩ := nearest.exists_step distinct loaded passed enough
    simp only [climb, fresh, if_false, known, fails, next]
    refine ih (List.nodup_cons.mpr ⟨fresh, distinct⟩)
      (List.cons_subset.mpr ⟨mem_ids_of_type? known, loaded⟩) (fun lower member => ?_) ?_
    · rcases List.mem_cons.mp member with rfl | earlier
      · exact ⟨_, Nat.lt_succ_self _, nearest⟩
      · obtain ⟨further, greater, again⟩ := passed lower earlier
        exact ⟨further, Nat.lt_of_succ_lt greater, again⟩
    · rw [List.length_cons]
      omega

/-- A walk finds exactly what is nearest. -/
theorem climbFrom_eq_some_iff :
    heap.climbFrom test id = .ok (some found) ↔
      ∃ distance, heap.Nearest test distance id found := by
  constructor
  · intro climbed
    obtain ⟨start, distance, same, nearest⟩ := nearest_of_climb climbed
    cases same
    exact ⟨distance, nearest⟩
  · rintro ⟨distance, nearest⟩
    exact climb_of_nearest nearest .nil (List.nil_subset _) (fun _ member => nomatch member)
      (Nat.lt_succ_self _)

/-- What types on the way up have hides what is above them. -/
theorem Climbs.nearest {distance : Nat} {top : TypeId} {below : List LoadedType}
    (climbs : heap.Climbs id below top) (nearest : heap.Nearest test distance top found) :
    ∃ distance, heap.Nearest test distance id ((below.findSome? test).getD found) := by
  induction climbs with
  | here id => exact ⟨distance, nearest⟩
  | @up id parent top type below known next rest ih =>
    cases passes : test type with
    | some own => exact ⟨0, .here known (by simp [passes])⟩
    | none =>
      obtain ⟨distance, nearest⟩ := ih nearest
      exact ⟨distance + 1, .above known passes next (by simpa [passes] using nearest)⟩

end Heap

namespace Query

variable {heap : Heap}

private theorem findSupertypeWithin_onHeap (name : String) (steps : Nat) (visited : List TypeId)
    (start : Option TypeId) :
    PauseM.onHeap (findSupertypeWithin name steps visited start) heap =
      heap.climb (·.named? name) steps visited start := by
  fun_induction findSupertypeWithin name steps visited start with
  | case1 => rfl
  | case2 => rfl
  | case3 steps visited id seen => simp [Heap.climb, seen]
  | case4 steps visited id fresh ih =>
    refine (Composed.onHeap_bind (.ask _ _) fun info => ?_).trans ?_
    · split
      · exact .pure _
      · exact (findSupertypeWithin_strict _ _ _ _).composed
    · simp only [Heap.climb, fresh, if_false, onHeap_ask]
      cases known : heap.type? id with
      | none => rfl
      | some type =>
        by_cases named : type.info.typeName = name
        · simp [orFail, Except.map, Except.bind, LoadedType.named?, named]
        · simpa [orFail, Except.map, Except.bind, LoadedType.named?, named] using ih type.info

private theorem walkSteps_onHeap : PauseM.onHeap walkSteps heap = .ok (heap.types.length + 1) := rfl

theorem findSupertype_onHeap (id : TypeId) (name : String) :
    PauseM.onHeap (findSupertype id name) heap = heap.climbFrom (·.named? name) id := by
  refine (walkSteps_strict.composed.onHeap_bind fun _ =>
    (findSupertypeWithin_strict _ _ _ _).composed).trans ?_
  rw [walkSteps_onHeap]
  exact findSupertypeWithin_onHeap _ _ _ _

private theorem readFieldWithin_onHeap {id : ObjectId} {object : Instance}
    (live : heap.instance? id = some object) (name : String) (steps : Nat)
    (visited : List TypeId) (start : Option TypeId) :
    PauseM.onHeap (readFieldWithin id name steps visited start) heap =
      (heap.climb (·.field? name) steps visited start).map (Option.map object.value) := by
  fun_induction readFieldWithin id name steps visited start with
  | case1 => rfl
  | case2 => rfl
  | case3 steps visited id seen => simp [Heap.climb, seen, Except.map]
  | case4 steps visited id fresh ih =>
    refine (Composed.onHeap_bind (.ask _ _) fun declared => ?_).trans ?_
    · split
      · exact .bind (.ask _ _) fun _ => .pure _
      · exact .bind (.ask _ _) fun _ => (readFieldWithin_strict _ _ _ _ _).composed
    simp only [Heap.climb, fresh, if_false, onHeap_ask, Except.bind]
    cases known : heap.type? id with
    | none =>
      -- An unknown type declares nothing, and what is above it cannot be asked.
      have undeclared : heap.declaredField? id name = none := by simp [Heap.declaredField?, known]
      rw [undeclared]
      refine (Composed.onHeap_bind (.ask _ _) fun info =>
        (readFieldWithin_strict _ _ _ _ _).composed).trans ?_
      simp [known, orFail, Except.map, Except.bind]
    | some type =>
      have declared : heap.declaredField? id name = type.field? name := by
        simp [Heap.declaredField?, known, LoadedType.field?]
      rw [declared]
      cases own : type.field? name with
      | some field =>
        refine (Composed.onHeap_map (.ask _ _) _).trans ?_
        simp [live, own, orFail, Except.map]
      | none =>
        refine (Composed.onHeap_bind (.ask _ _) fun info =>
          (readFieldWithin_strict _ _ _ _ _).composed).trans ?_
        simpa [known, own, orFail, Except.map, Except.bind] using ih type.info

/-- A field of a live object is read from the nearest type at or above its own that declares it. -/
theorem readField_onHeap {id : ObjectId} {object : Instance}
    (live : heap.instance? id = some object) (name : String) :
    PauseM.onHeap (readField id name) heap =
      (heap.climbFrom (·.field? name) object.typeId).map (Option.map object.value) := by
  refine (Composed.onHeap_bind (.ask _ _) fun type => .bind walkSteps_strict.composed fun _ =>
    (readFieldWithin_strict _ _ _ _ _).composed).trans ?_
  simp only [onHeap_ask, live, orFail, Option.elim, Except.map, Except.bind]
  refine (walkSteps_strict.composed.onHeap_bind fun _ =>
    (readFieldWithin_strict _ _ _ _ _).composed).trans ?_
  rw [walkSteps_onHeap]
  exact readFieldWithin_onHeap live _ _ _ _

end Query

end PauseFlow
