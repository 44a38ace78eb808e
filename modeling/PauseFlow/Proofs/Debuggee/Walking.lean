import PauseFlow.Proofs.Debuggee.Ancestry

/-! How walks over superclasses end. A walk halts at a type that passes the test, at one that is not
known, or at one without a superclass; or the links lead it round, and it meets a type again. The
walk of the queries looks back and ends then as well, the search of the debuggee does not. -/
namespace PauseFlow.Heap

variable {heap : Heap} {Found : Type} {test : LoadedType → Option Found} {id top : TypeId}
  {below : List LoadedType} {type : LoadedType} {result : Except Fault (Option Found)}

theorem id_of_type? (known : heap.type? id = some type) : type.info.id = id := by
  simpa using List.find?_some known

private theorem type?_info_id (known : heap.type? id = some type) :
    heap.type? type.info.id = some type := by
  rw [id_of_type? known, known]

theorem Climbs.snoc {parent : TypeId} (climbs : heap.Climbs id below top)
    (known : heap.type? top = some type) (next : type.info.superclass = some parent) :
    heap.Climbs id (below ++ [type]) parent := by
  induction climbs with
  | here id => exact .up known next (.here parent)
  | up lower step _ ih => exact .up lower step (ih known)

/-- Of two ways up from a type, one goes on where the other one stops. -/
theorem Climbs.compare {others : List LoadedType} {other : TypeId}
    (climbs : heap.Climbs id below top) (again : heap.Climbs id others other) :
    (∃ rest, others = below ++ rest ∧ heap.Climbs top rest other) ∨
      ∃ rest, below = others ++ rest ∧ heap.Climbs other rest top := by
  induction climbs generalizing others with
  | here id => exact .inl ⟨others, rfl, again⟩
  | @up id parent top type below known next rest ih =>
    cases again with
    | here => exact .inr ⟨_, rfl, .up known next rest⟩
    | up knownAgain nextAgain restAgain =>
      cases known.symm.trans knownAgain
      cases next.symm.trans nextAgain
      exact (ih restAgain).imp (fun ⟨further, same, onward⟩ => ⟨further, by rw [same]; rfl, onward⟩)
        fun ⟨further, same, onward⟩ => ⟨further, by rw [same]; rfl, onward⟩

/-- A type that is passed is known and has a superclass, which is passed too or comes last. -/
theorem Climbs.parent_of_mem (climbs : heap.Climbs id below top) (passed : type ∈ below) :
    heap.type? type.info.id = some type ∧ ∃ parent, type.info.superclass = some parent ∧
      (parent = top ∨ ∃ other ∈ below, other.info.id = parent) := by
  induction climbs with
  | here id => cases passed
  | @up id parent top lower below known next rest ih =>
    rcases List.mem_cons.mp passed with rfl | later
    · refine ⟨type?_info_id known, parent, next, ?_⟩
      cases rest with
      | here => exact .inl rfl
      | up knownNext _ _ => exact .inr ⟨_, by simp, id_of_type? knownNext⟩
    · obtain ⟨itself, above, link, place⟩ := ih later
      exact ⟨itself, above, link, place.imp_right fun ⟨other, member, same⟩ =>
        ⟨other, List.mem_cons_of_mem _ member, same⟩⟩

/-- A way up on which no type passes the test. -/
structure Fruitless (heap : Heap) (test : LoadedType → Option Found) (id : TypeId)
    (below : List LoadedType) (top : TypeId) : Prop where
  climbs : heap.Climbs id below top
  fails : ∀ type ∈ below, test type = none

private theorem Fruitless.start (id : TypeId) : heap.Fruitless test id [] id where
  climbs := .here id
  fails _ member := nomatch member

private theorem Fruitless.snoc {parent : TypeId} (way : heap.Fruitless test id below top)
    (known : heap.type? top = some type) (fails : test type = none)
    (next : type.info.superclass = some parent) :
    heap.Fruitless test id (below ++ [type]) parent where
  climbs := way.climbs.snoc known next
  fails := List.forall_mem_append.mpr ⟨way.fails, List.forall_mem_singleton.mpr fails⟩

/-- A walk is over at a type, for one of three reasons. -/
inductive StopsAt (heap : Heap) (test : LoadedType → Option Found) (top : TypeId) :
    Except Fault (Option Found) → Prop where
  | found {type : LoadedType} {found : Found} (known : heap.type? top = some type)
      (passes : test type = some found) : StopsAt heap test top (.ok (some found))
  | unknown (missing : heap.type? top = none) :
      StopsAt heap test top (.error (.unknownType top))
  | ended {type : LoadedType} (known : heap.type? top = some type) (fails : test type = none)
      (last : type.info.superclass = none) : StopsAt heap test top (.ok none)

/-- The walk from a type comes to one at which it is over. -/
def Halts (heap : Heap) (test : LoadedType → Option Found) (id : TypeId)
    (result : Except Fault (Option Found)) : Prop :=
  ∃ below top, heap.Fruitless test id below top ∧ heap.StopsAt test top result

/-- The walk from a type meets a type again before it is over. -/
def Circles (heap : Heap) (test : LoadedType → Option Found) (id : TypeId) : Prop :=
  ∃ below type, heap.Fruitless test id below type.info.id ∧ type ∈ below

/-- The superclass links above a type lead to one without a superclass, or to none that is known. -/
def Ends (heap : Heap) (id : TypeId) : Prop :=
  ∃ below top, heap.Climbs id below top ∧ heap.superclass? top = none

theorem StopsAt.unique {other : Except Fault (Option Found)}
    (stops : heap.StopsAt test top result) (again : heap.StopsAt test top other) :
    result = other := by
  cases stops <;> cases again <;> simp_all

private theorem StopsAt.not_onward {parent : TypeId} (stops : heap.StopsAt test top result)
    (known : heap.type? top = some type) (fails : test type = none) :
    type.info.superclass ≠ some parent := by
  cases stops <;> simp_all

private theorem StopsAt.eq_of_onward {other : Except Fault (Option Found)} {last : TypeId}
    {rest : List LoadedType} (stops : heap.StopsAt test top result)
    (onward : heap.Climbs top rest last) (fails : ∀ type ∈ rest, test type = none)
    (again : heap.StopsAt test last other) : result = other := by
  cases onward with
  | here => exact stops.unique again
  | up known next _ => exact absurd next (stops.not_onward known (fails _ List.mem_cons_self))

/-- A walk is over once. -/
theorem Halts.unique {other : Except Fault (Option Found)} (halts : heap.Halts test id result)
    (again : heap.Halts test id other) : result = other := by
  obtain ⟨below, top, way, stops⟩ := halts
  obtain ⟨others, last, otherWay, stopsAgain⟩ := again
  rcases way.climbs.compare otherWay.climbs with ⟨rest, rfl, onward⟩ | ⟨rest, rfl, onward⟩
  · exact stops.eq_of_onward onward (List.forall_mem_append.mp otherWay.fails).2 stopsAgain
  · exact (stopsAgain.eq_of_onward onward (List.forall_mem_append.mp way.fails).2 stops).symm

/-- Where links lead round, every type on the way up has been passed. -/
theorem Circles.onward (circles : heap.Circles test id) (climbs : heap.Climbs id below top) :
    ∃ type parent, heap.type? top = some type ∧ test type = none ∧
      type.info.superclass = some parent := by
  obtain ⟨passed, again, way, member⟩ := circles
  have closed : ∀ {lower upper : TypeId} {between : List LoadedType},
      heap.Climbs lower between upper → (∃ type ∈ passed, type.info.id = lower) →
        ∃ type ∈ passed, type.info.id = upper := by
    intro lower upper between climbs
    induction climbs with
    | here => exact fun found => found
    | up known next _ ih =>
      rintro ⟨type, seen, rfl⟩
      obtain ⟨itself, parent, link, place⟩ := way.climbs.parent_of_mem seen
      cases known.symm.trans itself
      cases next.symm.trans link
      exact ih (place.elim (fun last => ⟨again, member, last.symm⟩) fun found => found)
  have first : ∃ type ∈ passed, type.info.id = id := by
    obtain ⟨climbs, _⟩ := way
    cases climbs with
    | here => cases member
    | up known _ _ => exact ⟨_, List.mem_cons_self, id_of_type? known⟩
  obtain ⟨type, seen, rfl⟩ := closed climbs first
  obtain ⟨itself, parent, link, _⟩ := way.climbs.parent_of_mem seen
  exact ⟨type, parent, itself, way.fails type seen, link⟩

private theorem Halts.not_circles (halts : heap.Halts test id result) : ¬ heap.Circles test id := by
  intro circles
  obtain ⟨below, top, way, stops⟩ := halts
  obtain ⟨type, parent, known, fails, next⟩ := circles.onward way.climbs
  exact stops.not_onward known fails next

theorem Ends.not_circles (ends : heap.Ends id) : ¬ heap.Circles test id := by
  intro circles
  obtain ⟨below, top, climbs, last⟩ := ends
  obtain ⟨type, parent, known, _, next⟩ := circles.onward climbs
  simp [superclass?, known, next] at last

/-- Types that were passed are loaded, so that fewer of them than there are types were passed
without a repetition. -/
theorem Climbs.length_le (climbs : heap.Climbs id below top)
    (distinct : (below.map (·.info.id)).Nodup) : below.length ≤ heap.types.length := by
  have loaded : below.map (·.info.id) ⊆ heap.types.map (·.info.id) := by
    intro lower member
    obtain ⟨type, passed, rfl⟩ := List.mem_map.mp member
    exact mem_ids_of_type? (climbs.parent_of_mem passed).1
  simpa using distinct.length_le_of_subset loaded

private theorem climb_concludes {steps : Nat} {visited : List TypeId}
    (way : heap.Fruitless test id below top) (passed : visited = (below.map (·.info.id)).reverse)
    (distinct : visited.Nodup) (enough : heap.types.length < steps + visited.length) :
    heap.Halts test id (heap.climb test steps visited (some top)) ∨
      heap.Circles test id ∧ heap.climb test steps visited (some top) = .ok none := by
  induction steps generalizing visited below top with
  | zero =>
    have bound := way.climbs.length_le (by simpa [passed] using distinct)
    simp only [passed, List.length_reverse, List.length_map] at enough
    omega
  | succ steps ih =>
    by_cases seen : top ∈ visited
    · have again := seen
      simp only [passed, List.mem_reverse, List.mem_map] at again
      obtain ⟨type, member, rfl⟩ := again
      exact .inr ⟨⟨below, type, way, member⟩, by simp [climb, seen]⟩
    · simp only [climb, seen, if_false]
      cases known : heap.type? top with
      | none => exact .inl ⟨below, top, way, .unknown known⟩
      | some type =>
        dsimp only
        cases passes : test type with
        | some found => exact .inl ⟨below, top, way, .found known passes⟩
        | none =>
          cases next : type.info.superclass with
          | none =>
            have stopped : heap.climb test steps (top :: visited) none = .ok none := by
              cases steps <;> rfl
            rw [stopped]
            exact .inl ⟨below, top, way, .ended known passes next⟩
          | some parent =>
            refine ih (way.snoc known passes next) ?_ (List.nodup_cons.mpr ⟨seen, distinct⟩) ?_
            · simp [passed, id_of_type? known]
            · rw [List.length_cons]
              omega

/-- What a walk that looks back concludes. -/
def Concludes (heap : Heap) (test : LoadedType → Option Found) (id : TypeId)
    (result : Except Fault (Option Found)) : Prop :=
  heap.Halts test id result ∨ heap.Circles test id ∧ result = .ok none

/-- A walk from any type comes to an end. -/
theorem climbFrom_eq_iff : heap.climbFrom test id = result ↔ heap.Concludes test id result := by
  have concludes : heap.Concludes test id (heap.climbFrom test id) :=
    climb_concludes (.start id) rfl .nil (Nat.lt_succ_self _)
  constructor
  · rintro rfl
    exact concludes
  · rcases concludes with halts | ⟨circles, fruitless⟩
    · rintro (again | ⟨circles, _⟩)
      · exact halts.unique again
      · exact absurd circles halts.not_circles
    · rintro (halts | ⟨_, rfl⟩)
      · exact absurd circles halts.not_circles
      · exact fruitless

/-- What is found is what is nearest. -/
theorem halts_found_iff {found : Found} :
    heap.Halts test id (.ok (some found)) ↔ ∃ distance, heap.Nearest test distance id found := by
  rw [← climbFrom_eq_some_iff, climbFrom_eq_iff]
  simp [Concludes]

/-- How a search comes out where a walk halts. It takes an unknown type for one that declares
nothing and has no superclass. -/
def searchOf : Except Fault (Option FieldId) → FieldSearch
  | .ok (some field) => .declared field
  | .ok none => .undeclared
  | .error _ => .undeclared

variable {name : String} {steps : Nat}

private theorem declaredField?_of_type? (known : heap.type? id = some type) :
    heap.declaredField? id name = type.field? name := by
  rw [declaredField?, known]
  rfl

theorem superclass?_of_type? (known : heap.type? id = some type) :
    heap.superclass? id = type.info.superclass := by
  rw [superclass?, known]
  rfl

private theorem seekField_of_unknown (missing : heap.type? id = none) :
    heap.seekField name (steps + 1) id = .undeclared := by
  simp [seekField, declaredField?, superclass?, missing]

private theorem seekField_of_type? (known : heap.type? id = some type) :
    heap.seekField name (steps + 1) id =
      match type.field? name with
      | some field => .declared field
      | none => type.info.superclass.elim .undeclared (heap.seekField name steps) := by
  rw [seekField, declaredField?_of_type? known, superclass?_of_type? known]
  cases type.field? name with
  | some field => rfl
  | none => cases type.info.superclass <;> rfl

/-- Links that lead round are followed for ever. -/
theorem Circles.seekField_eq (circles : heap.Circles (·.field? name) id)
    (climbs : heap.Climbs id below top) : heap.seekField name steps top = .endless := by
  induction steps generalizing below top with
  | zero => rfl
  | succ steps ih =>
    obtain ⟨type, parent, known, fails, next⟩ := circles.onward climbs
    rw [seekField_of_type? known, fails, next]
    exact ih (climbs.snoc known next)

/-- A search at enough types comes out, unless the links lead round. -/
private theorem seekField_comes_out (way : heap.Fruitless (·.field? name) id below top)
    (distinct : (below.map (·.info.id)).Nodup) (enough : heap.types.length < steps + below.length) :
    heap.Circles (·.field? name) id ∨
      ∃ result, heap.Halts (·.field? name) id result ∧
        heap.seekField name steps top = searchOf result := by
  induction steps generalizing below top with
  | zero =>
    have bound := way.climbs.length_le distinct
    omega
  | succ steps ih =>
    by_cases seen : top ∈ below.map (·.info.id)
    · obtain ⟨type, passed, rfl⟩ := List.mem_map.mp seen
      exact .inl ⟨below, type, way, passed⟩
    · cases known : heap.type? top with
      | none => exact .inr ⟨_, ⟨below, top, way, .unknown known⟩, seekField_of_unknown known⟩
      | some type =>
        rw [seekField_of_type? known]
        cases passes : type.field? name with
        | some field => exact .inr ⟨_, ⟨below, top, way, .found known passes⟩, rfl⟩
        | none =>
          cases next : type.info.superclass with
          | none => exact .inr ⟨_, ⟨below, top, way, .ended known passes next⟩, rfl⟩
          | some parent =>
            refine ih (way.snoc known passes next) ?_ ?_
            · simp only [List.map_append, List.map_cons, List.map_nil, id_of_type? known]
              exact List.Nodup.append distinct (List.nodup_singleton _)
                (List.disjoint_singleton.mpr seen)
            · rw [List.length_append]
              simpa using by omega

private theorem inheritedField_cases (heap : Heap) (name : String) (id : TypeId) :
    heap.Circles (·.field? name) id ∧ heap.inheritedField name id = .endless ∨
      ∃ result, heap.Halts (·.field? name) id result ∧
        heap.inheritedField name id = searchOf result := by
  by_cases circles : heap.Circles (·.field? name) id
  · exact .inl ⟨circles, circles.seekField_eq (.here id)⟩
  · exact .inr ((seekField_comes_out (.start id) .nil (Nat.lt_succ_self _)).resolve_left circles)

/-- The search for a field is over exactly if the walk halts, and then it finds the same. -/
theorem inheritedField_of_halts {result : Except Fault (Option FieldId)}
    (halts : heap.Halts (·.field? name) id result) :
    heap.inheritedField name id = searchOf result := by
  rcases heap.inheritedField_cases name id with ⟨circles, _⟩ | ⟨other, again, found⟩
  · exact absurd circles halts.not_circles
  · rw [found, halts.unique again]

theorem inheritedField_eq_endless_iff :
    heap.inheritedField name id = .endless ↔ heap.Circles (·.field? name) id := by
  refine ⟨fun endless => ?_, fun circles => circles.seekField_eq (.here id)⟩
  rcases heap.inheritedField_cases name id with ⟨circles, _⟩ | ⟨result, _, found⟩
  · exact circles
  · rw [endless] at found
    rcases result with _ | _ | _ <;> cases found

theorem inheritedField_eq_declared_iff {field : FieldId} :
    heap.inheritedField name id = .declared field ↔
      ∃ distance, heap.Nearest (·.field? name) distance id field := by
  rw [← halts_found_iff]
  refine ⟨fun declared => ?_, fun halts => inheritedField_of_halts halts⟩
  rcases heap.inheritedField_cases name id with ⟨_, endless⟩ | ⟨result, halts, found⟩
  · cases declared.symm.trans endless
  · rw [declared] at found
    rcases result with _ | _ | _ <;> cases found
    exact halts

/-- The search comes out from where the links end, and where the field is declared before they lead
round. -/
theorem not_circles_iff : ¬ heap.Circles (·.field? name) id ↔
    heap.Ends id ∨ ∃ field, heap.inheritedField name id = .declared field := by
  constructor
  · intro straight
    rcases heap.inheritedField_cases name id with ⟨circles, _⟩ | ⟨result, halts, found⟩
    · exact absurd circles straight
    · obtain ⟨below, top, way, stops⟩ := halts
      cases stops with
      | found _ _ => exact .inr ⟨_, found⟩
      | unknown missing => exact .inl ⟨below, top, way.climbs, by simp [superclass?, missing]⟩
      | ended known _ last =>
        exact .inl ⟨below, top, way.climbs, (superclass?_of_type? known).trans last⟩
  · rintro (ends | ⟨field, declared⟩)
    · exact ends.not_circles
    · rw [← inheritedField_eq_endless_iff, declared]
      exact nofun

/-- No number of types is enough for a search that does not come out. -/
theorem exists_seekField_iff :
    (∃ steps, heap.seekField name steps id ≠ .endless) ↔ ¬ heap.Circles (·.field? name) id := by
  constructor
  · rintro ⟨steps, comesOut⟩ circles
    exact comesOut (circles.seekField_eq (.here id))
  · intro straight
    exact ⟨_, mt inheritedField_eq_endless_iff.mp straight⟩

end PauseFlow.Heap
