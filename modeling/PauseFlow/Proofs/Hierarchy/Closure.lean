import PauseFlow.Proofs.Hierarchy.Issuing
import PauseFlow.Proofs.Hierarchy.Search

/-! The supertype search as a loop over a stack. It comes to an end on every table whose links
stay inside, also where a class was redefined below its own subclass, and it finds exactly the
classes that links lead to. -/
namespace PauseFlow.ClassTable

/-- Links lead to classes of the table. -/
def LinksInside (table : ClassTable) : Prop :=
  ∀ id info, table.get? id = some info → ∀ upper ∈ info.supertypes, upper.index < table.size

/-- A run of the loop that ends: how many classes it takes from the stack, the classes it has
expanded, the stack with the next class in front, and the answer. The supertypes of a class go on
the stack one after the other. A class outside the table has no definition to go on with. -/
inductive Searches (table : ClassTable) (target : ClassId) :
    (steps : Nat) → (expanded stack : List ClassId) → (answer : Bool) → Prop where
  | exhausted {expanded : List ClassId} : Searches table target 0 expanded [] false
  | hit {expanded stack : List ClassId} : Searches table target 1 expanded (target :: stack) true
  | skip {steps : Nat} {current : ClassId} {expanded stack : List ClassId} {answer : Bool}
      (other : current ≠ target) (known : current ∈ expanded)
      (rest : Searches table target steps expanded stack answer) :
      Searches table target (steps + 1) expanded (current :: stack) answer
  | expand {steps : Nat} {current : ClassId} {expanded stack : List ClassId} {answer : Bool}
      {info : ClassInfo} (other : current ≠ target) (fresh : current ∉ expanded)
      (found : table.get? current = some info)
      (rest : Searches table target steps (current :: expanded) (info.supertypes.reverse ++ stack)
        answer) :
      Searches table target (steps + 1) expanded (current :: stack) answer

section Loop

variable {table : ClassTable} {target : ClassId} {expanded stack : List ClassId}

private theorem supertypes_of_get? {id : ClassId} {info : ClassInfo}
    (found : table.get? id = some info) : table.supertypes id = info.supertypes := by
  simp [supertypes, found]

/-- The loop ends. What is left to do are the classes on the stack and the links that leave a
class not yet expanded. -/
theorem LinksInside.exists_searches (inside : table.LinksInside) (target : ClassId) {bound : Nat}
    (onStack : ∀ id ∈ stack, id.index < table.size)
    (left : stack.length + table.unexpandedLinks expanded ≤ bound) :
    ∃ steps ≤ bound, ∃ answer, table.Searches target steps expanded stack answer := by
  induction bound generalizing expanded stack with
  | zero =>
    have empty : stack = [] := List.eq_nil_of_length_eq_zero (by omega)
    subst empty
    exact ⟨0, Nat.le_refl 0, false, .exhausted⟩
  | succ bound ih =>
    cases stack with
    | nil => exact ⟨0, Nat.zero_le _, false, .exhausted⟩
    | cons current stack =>
      rw [List.length_cons] at left
      obtain ⟨currentInside, restInside⟩ := List.forall_mem_cons.mp onStack
      by_cases same : current = target
      · subst same
        exact ⟨1, Nat.le_add_left 1 bound, true, .hit⟩
      by_cases known : current ∈ expanded
      · have fewer : stack.length + table.unexpandedLinks expanded ≤ bound := by omega
        obtain ⟨steps, few, answer, run⟩ := ih restInside fewer
        exact ⟨steps + 1, Nat.succ_le_succ few, answer, .skip same known run⟩
      · have found : table.get? current = some table.classes[current.index] :=
          List.getElem?_eq_getElem currentInside
        have spent := unexpandedLinks_cons table known
        rw [supertypes_of_get? found] at spent
        have pushedInside : ∀ id ∈ table.classes[current.index].supertypes.reverse ++ stack,
            id.index < table.size := by
          intro id member
          rcases List.mem_append.mp member with above | waiting
          · exact inside current _ found id (List.mem_reverse.mp above)
          · exact restInside id waiting
        have fewer : (table.classes[current.index].supertypes.reverse ++ stack).length +
            table.unexpandedLinks (current :: expanded) ≤ bound := by
          rw [List.length_append, List.length_reverse]
          omega
        obtain ⟨steps, few, answer, run⟩ := ih pushedInside fewer
        exact ⟨steps + 1, Nat.succ_le_succ few, answer, .expand same known found run⟩

/-- What the loop finds, links lead to from a class on the stack. -/
theorem Searches.exists_below {steps : Nat} {answer : Bool}
    (run : table.Searches target steps expanded stack answer) (positive : answer = true) :
    ∃ start ∈ stack, table.Below start target := by
  induction run with
  | exhausted => cases positive
  | hit => exact ⟨target, List.mem_cons_self .., Below.refl table target⟩
  | skip _ _ _ ih =>
    obtain ⟨start, member, path⟩ := ih positive
    exact ⟨start, List.mem_cons_of_mem _ member, path⟩
  | @expand _ current _ _ _ info _ _ found _ ih =>
    obtain ⟨start, member, path⟩ := ih positive
    rcases List.mem_append.mp member with above | waiting
    · have link : table.Extends current start := by
        rw [Extends, supertypes_of_get? found]
        exact List.mem_reverse.mp above
      exact ⟨current, List.mem_cons_self .., .head link path⟩
    · exact ⟨start, List.mem_cons_of_mem _ waiting, path⟩

/-- The invariant does not depend on the order of the pending classes. -/
theorem SearchInvariant.of_subset {pending other : List ClassId}
    (invariant : SearchInvariant table target expanded pending) (subset : pending ⊆ other) :
    SearchInvariant table target expanded other :=
  ⟨invariant.missed, fun id member upper link =>
    (invariant.closed id member upper link).imp_right fun waiting => subset waiting⟩

/-- What the loop does not find, links lead to from no class expanded or on the stack. -/
theorem Searches.not_below {steps : Nat} {answer : Bool}
    (run : table.Searches target steps expanded stack answer) (negative : answer = false)
    (invariant : SearchInvariant table target expanded stack) {start : ClassId}
    (member : start ∈ expanded ∨ start ∈ stack) : ¬ table.Below start target := by
  induction run with
  | exhausted => exact invariant.not_below (by simpa using member)
  | hit => cases negative
  | skip _ known _ ih =>
    refine ih negative (invariant.skip known) ?_
    rcases member with old | waiting
    · exact .inl old
    · rcases List.mem_cons.mp waiting with rfl | waiting
      · exact .inl known
      · exact .inr waiting
  | expand other _ found _ ih =>
    have onward := invariant.expand other
    rw [supertypes_of_get? found] at onward
    refine ih negative (onward.of_subset ?_) ?_
    · intro id waiting
      simpa using waiting
    · rcases member with old | waiting
      · exact .inl (List.mem_cons_of_mem _ old)
      · rcases List.mem_cons.mp waiting with rfl | waiting
        · exact .inl (List.mem_cons_self ..)
        · exact .inr (List.mem_append_right _ waiting)

/-- A run from one class answers whether links lead from it to the target. -/
theorem Searches.answer_iff {steps : Nat} {answer : Bool} {lower : ClassId}
    (run : table.Searches target steps [] [lower] answer) :
    answer = true ↔ table.Below lower target := by
  constructor
  · intro positive
    obtain ⟨start, member, path⟩ := run.exists_below positive
    exact List.mem_singleton.mp member ▸ path
  · intro path
    by_contra negative
    exact run.not_below (Bool.eq_false_of_not_eq_true negative) (.start table target [lower])
      (.inr (List.mem_singleton_self lower)) path

end Loop

/-- On a table whose links stay inside, the search from any class comes to an end, after as many
steps as there are links and one more at most; however it ends, its answer is the one computed, and
that is whether links lead from the one class to the other. -/
theorem search_computes_closure {table : ClassTable} (inside : table.LinksInside)
    {lower : ClassId} (known : lower.index < table.size) (upper : ClassId) :
    (∃ steps ≤ table.linkCount + 1, ∃ answer, table.Searches upper steps [] [lower] answer) ∧
      (∀ steps answer, table.Searches upper steps [] [lower] answer →
        answer = table.isSubclass lower upper) ∧
      (table.isSubclass lower upper = true ↔ table.Below lower upper) := by
  refine ⟨?_, ?_, isSubclass_iff_below table lower upper⟩
  · apply inside.exists_searches upper
    · intro id member
      rwa [List.mem_singleton.mp member]
    · rw [unexpandedLinks_nil, List.length_singleton, Nat.add_comm]
  · intro steps answer run
    rw [Bool.eq_iff_iff, run.answer_iff, isSubclass_iff_below]

private theorem index_lt_of_lookup {table : ClassTable} {name : String} {id : ClassId}
    (found : table.lookup name = some id) : id.index < table.size := by
  obtain ⟨index, position, rfl⟩ := Option.map_eq_some_iff.mp found
  exact (List.findIdx?_eq_some_iff_getElem.mp position).1

private theorem linksInside_empty : empty.LinksInside := by
  intro id info found
  simp [empty, get?] at found

/-- A superclass that is filled in is one of the table. -/
theorem index_lt_of_withImplicitSuperclass {table : ClassTable} {declared : ClassInfo}
    (issued : ∀ upper ∈ declared.supertypes, upper.index < table.size) :
    ∀ upper ∈ (table.withImplicitSuperclass declared).supertypes, upper.index < table.size := by
  intro upper member
  unfold withImplicitSuperclass at member
  split at member
  · rcases List.mem_append.mp member with above | listed
    · exact index_lt_of_lookup (Option.mem_toList.mp above)
    · exact issued upper (List.mem_append_right _ listed)
  · exact issued upper member

/-- An addition that mentions classes of the table, or replaces one of them, leaves no link that
leads out of it. -/
theorem LinksInside.add {table : ClassTable} (inside : table.LinksInside) {declared : ClassInfo}
    (issued : ∀ upper ∈ declared.supertypes, upper.index < table.size) :
    (table.add declared).1.LinksInside := by
  have added := index_lt_of_withImplicitSuperclass issued
  intro id info found upper member
  cases known : table.lookup declared.name with
  | some own =>
    rw [add_of_known known] at found ⊢
    simp only [get?, size, List.length_set] at found ⊢
    rw [List.getElem?_set] at found
    split at found
    · split at found
      · exact added upper (Option.some.inj found ▸ member)
      · cases found
    · exact inside id info found upper member
  | none =>
    rw [add_of_fresh known] at found ⊢
    have wider : (table.grow (table.withImplicitSuperclass declared)).size = table.size + 1 :=
      List.length_append
    rw [wider]
    rcases get?_grow_cases found with old | ⟨_, rfl⟩
    · exact Nat.lt_succ_of_lt (inside id info old upper member)
    · exact Nat.lt_succ_of_lt (added upper member)

/-- A node class that is replaced by one below its own subclass. Both are pets. -/
def ringOfTwo : List ClassInfo :=
  [.plain objectName, .interface "zoo.Pet", .plain "zoo.Node",
    { ClassInfo.plain "zoo.Cat" with superclass := some ⟨2⟩, interfaces := [⟨1⟩] },
    { ClassInfo.plain "zoo.Node" with superclass := some ⟨3⟩, interfaces := [⟨1⟩] }]

private theorem linksInside_ringOfTwo : (empty.addAll ringOfTwo).LinksInside :=
  ((((linksInside_empty.add (by decide)).add (by decide)).add (by decide)).add
    (by decide +kernel)).add (by decide +kernel)

/-- In the ring both classes lie above each other, and the search for the root class ends without
it. -/
theorem search_computes_closure_ring :
    let table := empty.addAll ringOfTwo
    let node : ClassId := ⟨2⟩
    let cat : ClassId := ⟨3⟩
    table.LinksInside ∧ node.index < table.size ∧ table.Below node cat ∧ table.Below cat node ∧
      ¬ table.Below node ⟨0⟩ ∧
      ∃ steps ≤ table.linkCount + 1, table.Searches ⟨0⟩ steps [] [node] false := by
  intro table node cat
  have inside : table.LinksInside := linksInside_ringOfTwo
  have nodeKnown : node.index < table.size := by decide +kernel
  have catKnown : cat.index < table.size := by decide +kernel
  obtain ⟨⟨steps, few, answer, run⟩, computed, reached⟩ :=
    search_computes_closure inside nodeKnown ⟨0⟩
  have missed : table.isSubclass node ⟨0⟩ = false := by decide +kernel
  rw [computed steps answer run, missed] at run
  refine ⟨inside, nodeKnown, ?_, ?_, ?_, steps, few, run⟩
  · exact (search_computes_closure inside nodeKnown cat).2.2.mp (by decide +kernel)
  · exact (search_computes_closure inside catKnown node).2.2.mp (by decide +kernel)
  · rw [← reached, missed]
    decide

end PauseFlow.ClassTable
