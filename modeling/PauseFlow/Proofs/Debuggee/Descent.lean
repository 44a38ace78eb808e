import PauseFlow.Proofs.Debuggee.Building

/-! Where superclass links end. Types that are loaded below numbers handed out before have links to
lower numbers, which end. A type may be loaded below its own number or a later one, though, and then
a search that does not look back may go round for ever. -/
namespace PauseFlow.Heap

variable {allowed : Heap → Option TypeId → Prop} {heap after : Heap} {id : TypeId}

/-- Links to lower numbers come to an end. -/
theorem ends_of_descends (descends : ∀ below upper, heap.Climbs id below upper → ∀ type ∈ below,
    ∀ parent ∈ type.info.superclass, parent < type.info.id) : heap.Ends id := by
  induction id using Nat.strong_induction_on with
  | _ id ih =>
    cases known : heap.type? id with
    | none => exact ⟨[], id, .here id, by simp [superclass?, known]⟩
    | some type =>
      cases next : type.info.superclass with
      | none => exact ⟨[], id, .here id, (superclass?_of_type? known).trans next⟩
      | some parent =>
        have lower : parent < id := by
          rw [← id_of_type? known]
          exact descends _ _ (.up known next (.here parent)) type List.mem_cons_self parent next
        obtain ⟨below, top, climbs, last⟩ := ih parent lower fun below upper climbs =>
          (List.forall_mem_cons.mp (descends _ _ (.up known next climbs))).2
        exact ⟨_, top, .up known next climbs, last⟩

/-- Superclasses have lower numbers. -/
structure Descends (heap : Heap) : Prop extends Numbered heap where
  links : ∀ type ∈ heap.types, ∀ parent ∈ type.info.superclass, parent < type.info.id

private theorem Descends.ends (descends : heap.Descends) (id : TypeId) : heap.Ends id :=
  ends_of_descends fun _ _ climbs type passed =>
    descends.links type (List.mem_of_find?_eq_some (climbs.parent_of_mem passed).1)

/-- A superclass whose number was handed out before, or none. -/
def HandedOut (heap : Heap) (superclass : Option TypeId) : Prop :=
  ∀ id ∈ superclass, id ≤ heap.lastId

private theorem Descends.change (descends : heap.Descends) (change : Change HandedOut heap after) :
    after.Descends where
  toNumbered := descends.toNumbered.change change
  links := by
    cases change with
    | load fits signature loader isEnum =>
      intro type member parent above
      rcases List.mem_cons.mp member with rfl | old
      · rcases fits with handedOut | loaded
        · exact Nat.lt_succ_of_le (handedOut parent above)
        · obtain ⟨type, known, rfl⟩ := loaded parent above
          exact Nat.lt_succ_of_le (descends.types type known)
      · exact descends.links type old parent above
    | addField id name =>
      intro type member parent above
      obtain ⟨old, loaded, same, _⟩ := exists_of_mem_addField member
      rw [same] at above ⊢
      exact descends.links old loaded parent above
    | beside types numbers =>
      intro type member
      exact descends.links type (types ▸ member)

private theorem Descends.evolve (descends : heap.Descends)
    (evolves : Evolves HandedOut heap after) : after.Descends :=
  evolves.keep (fun change kept => kept.change change) descends

theorem Built.descends (built : heap.Built HandedOut) : heap.Descends := by
  have start : Heap.empty.Descends := ⟨numbered_empty, fun _ member => nomatch member⟩
  exact start.evolve built.evolves

private theorem setField_eq_none_iff {id : ObjectId} {name : String} {value : LiveValue} :
    heap.setField id name value = none ↔ ∃ object, heap.instance? id = some object ∧
      heap.inheritedField name object.typeId = .endless := by
  unfold setField
  cases heap.instance? id with
  | none => simp
  | some object => cases searched : heap.inheritedField name object.typeId <;> simp [searched]

private theorem Descends.exists_setField (descends : heap.Descends) (id : ObjectId) (name : String)
    (value : LiveValue) : ∃ after, heap.setField id name value = some after := by
  rw [← Option.ne_none_iff_exists', Ne, setField_eq_none_iff]
  rintro ⟨object, _, endless⟩
  exact (descends.ends _).not_circles (inheritedField_eq_endless_iff.mp endless)

private theorem Descends.exists_newEnumConstant (descends : heap.Descends) (typeId : TypeId)
    (name : String) : ∃ created, heap.newEnumConstant typeId name = some created := by
  obtain ⟨after, written⟩ := (descends.evolve (evolves_enumCase heap typeId name)).exists_setField
    (heap.newObject typeId).2.id "name" (.object ((heap.newObject typeId).1.newString name).2)
  exact ⟨_, Option.map_eq_some_iff.mpr ⟨after, written, rfl⟩⟩

private theorem Descends.exists_newClassLoader (descends : heap.Descends)
    (parent : Option ObjectRef) : ∃ created, heap.newClassLoader parent = some created := by
  obtain ⟨after, written⟩ := (descends.evolve (evolves_classLoader heap)).exists_setField
    (heap.withLoaderType.1.newObject heap.withLoaderType.2).2.id "parent"
    (parent.elim .null .object)
  exact ⟨_, Option.map_eq_some_iff.mpr ⟨after, written, rfl⟩⟩

/-- Where every type was loaded below a number handed out before, or none, links end and every write
comes back. Where links do not end, they lead over a type that was loaded below its own number or a
later one. The search for a field that no type declares before they lead round never comes out, nor
does the write that needs it. -/
theorem superclass_links_end (heap : Heap) :
    (heap.Built HandedOut → (∀ id, heap.Ends id) ∧
      (∀ id name value, ∃ after, heap.setField id name value = some after) ∧
      (∀ typeId name, ∃ created, heap.newEnumConstant typeId name = some created) ∧
      ∀ parent, ∃ created, heap.newClassLoader parent = some created) ∧
    (∀ id, ¬ heap.Ends id → ∃ below upper, heap.Climbs id below upper ∧
      ∃ type ∈ below, ∃ parent ∈ type.info.superclass, type.info.id ≤ parent) ∧
    (∀ id name, (∃ steps, heap.seekField name steps id ≠ .endless) ↔
      heap.Ends id ∨ ∃ field, heap.inheritedField name id = .declared field) ∧
    ∀ id name value, heap.setField id name value = none ↔
      ∃ object, heap.instance? id = some object ∧
        ∀ steps, heap.seekField name steps object.typeId = .endless := by
  refine ⟨fun built => ?_, fun id endless => ?_, fun id name => ?_, fun id name value => ?_⟩
  · have descends := built.descends
    exact ⟨descends.ends, descends.exists_setField, descends.exists_newEnumConstant,
      descends.exists_newClassLoader⟩
  · by_contra descending
    push Not at descending
    exact endless (ends_of_descends descending)
  · rw [exists_seekField_iff, not_circles_iff]
  · rw [setField_eq_none_iff]
    simp only [inheritedField_eq_endless_iff, ← not_exists_not, exists_seekField_iff, not_not]

def snakeType : LoadedType := ⟨⟨1, "LSnake;", none, some 1, false⟩, []⟩

/-- A snake, whose type was loaded below its own number. -/
def snakeHeap : Heap := ((Heap.empty.load "LSnake;" (some 1) none false).1.newObject 1).1

theorem superclass_links_end_not_snake :
    snakeHeap.Built (fun _ _ => True) ∧ ¬ snakeHeap.Ends 1 ∧
      snakeHeap.setField 2 "age" .null = none ∧
      (Heap.empty.load "LSnake;" none none false).1.Ends 1 := by
  have circles : snakeHeap.Circles (·.field? "age") 1 :=
    ⟨[snakeType], snakeType, ⟨.up rfl rfl (.here 1), by decide⟩, List.mem_cons_self⟩
  have endless : ∀ steps, snakeHeap.seekField "age" steps 1 = .endless :=
    fun _ => circles.seekField_eq (.here 1)
  obtain ⟨_, _, comesOut, writes⟩ := superclass_links_end snakeHeap
  refine ⟨.newObject (.load .empty trivial _ _) 1, fun ends => ?_,
    (writes 2 "age" .null).mpr ⟨_, rfl, endless⟩, ?_⟩
  · obtain ⟨steps, comes⟩ := (comesOut 1 "age").mpr (.inl ends)
    exact comes (endless steps)
  · have built : (Heap.empty.load "LSnake;" none none false).1.Built HandedOut :=
      .load .empty (fun _ member => nomatch member) _ _
    exact ((superclass_links_end _).1 built).1 1

end PauseFlow.Heap
