import PauseFlow.Proofs.Abstract.Swapping
import PauseFlow.Proofs.Hierarchy.Rooting

/-! Declarations as the root class and as an array of it. Every array fits the first one. What is
an array of interfaces that extend interfaces only does not fit the second one. -/
namespace PauseFlow

namespace AbstractValue

variable {declared : JvmType}

private theorem ofType_of_isReference (reference : declared.isReference = true) :
    ofType declared = .reference ⟨.nullable, .instanceOf declared, none⟩ := by
  cases declared with
  | primitive kind => cases reference
  | ofClass id => rfl
  | arrayOf element => rfl

private theorem fits_exact_iff {table : ClassTable} {type : JvmType} :
    ReferenceFact.Fits table ⟨.nullable, .instanceOf declared, none⟩ ⟨.notNull, .exact type, none⟩ ↔
      table.isAssignable type declared = true := by
  constructor
  · intro fits
    exact TypeBound.meet_instanceOf_exact_ne_bottom_iff.mp fits.bound
  · intro below
    have bound := TypeBound.meet_instanceOf_exact_ne_bottom_iff.mpr below
    exact ⟨nofun, nofun, bound, concur_none _⟩

/-- An object of known type contradicts no declaration that its type is assignable to, in either
order. -/
theorem meet_ofType_exact_iff (table : ClassTable) (type : JvmType)
    (reference : declared.isReference = true) :
    ((ofType declared).meet table (notNull (.exact type)) ≠ .bottom ↔
      table.isAssignable type declared = true) ∧
    ((notNull (.exact type)).meet table (ofType declared) ≠ .bottom ↔
      table.isAssignable type declared = true) := by
  have first : (ofType declared).meet table (notNull (.exact type)) ≠ .bottom ↔
      table.isAssignable type declared = true := by
    have nonNull : ¬ ReferenceFact.AdmitsNull ⟨.notNull, .exact type, none⟩ :=
      fun admits => admits.1 rfl
    rw [ofType_of_isReference reference, notNull, meet, ne_eq, meetReferences_eq_bottom_iff,
      fits_exact_iff]
    simp only [nonNull, and_false, not_false_eq_true, and_true, not_not]
  exact ⟨first, (meet_ne_bottom_comm _ _).trans first⟩

end AbstractValue

namespace ClassTable

/-- Of the types over loaded classes, exactly those with a class at or above them, arrays among
them, are objects: they are assignable to the root class, and arrays of them to arrays of it. So an
array that is known exactly never contradicts a declaration as the root class, and one as an array
of it exactly if its elements are not objects. -/
theorem Loaded.objects_iff_reachesClass {table : ClassTable} (loaded : table.Loaded)
    (linked : table.Linked) :
    ∃ root, table.lookup objectName = some root ∧ ∀ type,
      let object := AbstractValue.ofType (.ofClass root)
      let objects := AbstractValue.ofType (.arrayOf (.ofClass root))
      let live := AbstractValue.notNull (.exact (.arrayOf type))
      (table.isAssignable type (.ofClass root) = true ↔ table.ReachesClass type) ∧
      (table.isAssignable (.arrayOf type) (.arrayOf (.ofClass root)) = true ↔
        table.ReachesClass type) ∧
      (object.meet table live ≠ .bottom ∧ live.meet table object ≠ .bottom) ∧
      (objects.meet table live ≠ .bottom ↔ table.ReachesClass type) ∧
      (live.meet table objects ≠ .bottom ↔ table.ReachesClass type) := by
  have anchored := loaded.anchored
  refine ⟨⟨0⟩, anchored.named, fun type => ?_⟩
  have single := anchored.isAssignable_root_iff linked
  have arrays := anchored.isAssignable_arrayOf_root_iff linked type
  have ofObject : (JvmType.ofClass ⟨0⟩).isReference = true := rfl
  have ofObjects : (JvmType.arrayOf (.ofClass ⟨0⟩)).isReference = true := rfl
  have fitsObject := AbstractValue.meet_ofType_exact_iff table (.arrayOf type) ofObject
  have fitsObjects := AbstractValue.meet_ofType_exact_iff table (.arrayOf type) ofObjects
  have isObject := (single (.arrayOf type)).mpr trivial
  exact ⟨single type, arrays, ⟨fitsObject.1.mpr isObject, fitsObject.2.mpr isObject⟩,
    fitsObjects.1.trans arrays, fitsObjects.2.trans arrays⟩

/-- An interface, another one that extends it, and an enumeration. -/
def pets : ClassTable :=
  let withPet := (wellKnown.add (.interface "zoo.Pet")).1
  let withKitten := (withPet.add { ClassInfo.interface "zoo.Kitten" with interfaces := [⟨15⟩] }).1
  (withKitten.add (.enumeration "zoo.Color" ["RED", "BLACK"])).1

/-- Arrays of colors are arrays of objects. Arrays of kittens contradict a declaration as such. -/
theorem objects_iff_reachesClass_pets :
    pets.Loaded ∧ pets.Linked ∧ ∃ root, pets.lookup objectName = some root ∧
      pets.isAssignable (.arrayOf (.ofClass ⟨17⟩)) (.arrayOf (.ofClass root)) = true ∧
      pets.isAssignable (.arrayOf (.ofClass ⟨16⟩)) (.arrayOf (.ofClass root)) = false ∧
      (AbstractValue.ofType (.arrayOf (.ofClass root))).meet pets
        (.notNull (.exact (.arrayOf (.ofClass ⟨16⟩)))) = .bottom := by
  have loaded : pets.Loaded := .add (.add (.add .wellKnown rfl) rfl) rfl
  have linked : pets.Linked := linked_of_isOrderly (by decide +kernel)
  have color : pets.ReachesClass (.ofClass ⟨17⟩) :=
    IsRuntimeType.reachesClass ⟨_, rfl, rfl⟩
  have kitten : ¬ pets.ReachesClass (.ofClass ⟨16⟩) := by
    intro ⟨upper, info, path, found, plain⟩
    have above : upper ∈ [⟨16⟩, ⟨15⟩] :=
      mem_of_below (by decide +kernel) (List.mem_cons_self ..) path
    have interfaces : ∀ id ∈ [⟨16⟩, ⟨15⟩], (pets.get? id).all ClassInfo.isInterface = true := by
      decide +kernel
    have interface := interfaces upper above
    simp [found, plain] at interface
  obtain ⟨root, known, judged⟩ := loaded.objects_iff_reachesClass linked
  obtain ⟨_, colors, _⟩ := judged (.ofClass ⟨17⟩)
  obtain ⟨_, kittens, _, declared, _⟩ := judged (.ofClass ⟨16⟩)
  refine ⟨loaded, linked, root, known, colors.mpr color, ?_, ?_⟩
  · exact Bool.eq_false_iff.mpr (kittens.not.mpr kitten)
  · exact not_not.mp (declared.not.mpr kitten)

end ClassTable

end PauseFlow
