import PauseFlow.Proofs.Flow.Running
import PauseFlow.Proofs.Memory.Shape

/-! Assigning one variable to another. The target is forgotten before it joins the class of
the source, so a source that hangs off the target is forgotten with it and then said to equal
the target, whatever it holds afterwards. -/
namespace PauseFlow.Memory

variable {registry : Variables} {memory : Memory} {env later : Environment} {target source : Var}

/-- What a declaration leaves of a class is not excluded for it. -/
theorem Shaped.not_isExcluded_meet (shaped : Shaped memory)
    (built : registry.Built AbstractValue.Declared) {declared : AbstractValue}
    (form : declared.Declared) (var : Var) :
    memory.isExcluded (memory.root var)
      (declared.meet registry.table (memory.value registry var)) = false := by
  rw [isExcluded_eq_false_iff]
  intro constant member
  rcases AbstractValue.meet_declared form
    (shaped.regular_value (regular_declared built) var) constant with same | isNull
  · rw [same] at constant member
    exact isExcluded_eq_false_iff.mp (shaped.not_isExcluded_value built var) constant member
  · rw [isNull] at member
    have plain := shaped.plain member
    simp [complement?, AbstractValue.null] at plain

/-- A forgotten variable joins the class of another one if one value suits both. -/
theorem unite_forgotten (legal : registry.table.Legal) {forgotten : Memory}
    {lost : Var → Prop} (forgets : Forgets registry lost memory forgotten)
    (shaped : Shaped forgotten)
    (built : registry.Built AbstractValue.Declared) (gone : lost target)
    {world : World registry.table} (fits : Fits world registry forgotten env)
    (different : source ≠ target) (same : env target = env source) :
    forgotten.root target ≠ forgotten.root source ∧
      forgotten.unite registry target source =
        (true, forgotten.merged (forgotten.root target) (forgotten.root source)
          (forgotten.overlap registry target source)) := by
  have alone : forgotten.root target ≠ forgotten.root source := by
    intro joined
    exact different (forgets.alone gone ((areEqual_iff forgotten target source).mpr joined)).symm
  have met := fits.contains_overlap legal rfl same
  refine ⟨alone, ?_⟩
  rcases unite_cases forgotten registry target source with
    ⟨joined, _⟩ | ⟨_, clash, _⟩ | ⟨_, _, _, _, _, result⟩
  · exact absurd joined alone
  · rcases clash with apart | empty | excluded | excluded
    · exact absurd ((areDistinct_iff forgotten target source).mpr apart) (forgets.unrelated gone)
    · rw [empty] at met
      exact (AbstractValue.not_contains_bottom _ met).elim
    · simp [isExcluded, forgets.unrestricted gone] at excluded
    · rw [overlap, forgets.lostValue gone,
        shaped.not_isExcluded_meet built (declared_or_top built target) source] at excluded
      cases excluded
  · exact result

/-- Assigning a variable whose value suits the target succeeds. The values after it fit the
memory it leaves exactly if a source that hung off the target still has the value of the
target. -/
theorem Reachable.assign_fits_iff (legal : registry.table.Legal)
    (reached : Reachable AbstractValue.Declared registry memory) {world : World registry.table}
    (fits : Fits world registry memory env) (different : source ≠ target)
    (typed : (registry.declared target).Contains world (env source)) :
    ∃ events next,
      (Instruction.assign target (.var source)).run registry memory = some (events, next) ∧
      ∀ later, Changes world registry (registry.Within · target) env later →
        later target = env source →
        (Fits world registry next later ↔
          (registry.Within source target → later source = later target)) := by
  have built := reached.built
  have forgets := forgets_forget reached.wellFormed built.ordered target
  have wellFormed := reached.wellFormed.forget registry target
  have shaped := reached.shaped.forget reached.wellFormed registry target
  have gone : registry.Within target target := Relation.ReflTransGen.refl
  have copied : Changes world registry (registry.Within · target) env
      (Function.update env target (env source)) := by
    refine ⟨fun {var} kept => ?_, fun {var} lost => ?_⟩
    · refine Function.update_of_ne ?_ _ _
      intro same
      subst same
      exact kept gone
    · by_cases here : var = target
      · rw [here, Function.update_self]
        exact typed
      · rw [Function.update_of_ne here]
        exact fits.declared var
  obtain ⟨apart, result⟩ := unite_forgotten legal forgets shaped built gone
    (fits.forgets forgets copied) different
    (by rw [Function.update_self, Function.update_of_ne different])
  have other : Operand.var source ≠ .var target := by simp [different]
  refine ⟨_, _, Instruction.run_assign other result, fun later changes assigned => ?_⟩
  constructor
  · intro after _
    refine (after.eq_of_root ?_).symm
    rw [root_merged wellFormed apart (root_top wellFormed.grounded target)
      (root_top wellFormed.grounded source), root_merged wellFormed apart
      (root_top wellFormed.grounded target) (root_top wellFormed.grounded source), relabel_self,
      relabel_of_ne apart]
  · intro still
    have same : later target = later source := by
      by_cases hanging : registry.Within source target
      · exact (still hanging).symm
      · rw [assigned, changes.kept hanging]
    have before := fits.forgets forgets changes
    exact before.merged wellFormed apart same (before.contains_overlap legal rfl same)

/-- Moving on to the successor of a cell leaves a memory in which the cell is its own successor. -/
theorem assign_fits_iff_successor : ∃ events next later,
    (Instruction.assign ⟨0⟩ (.var ⟨1⟩)).run cells .empty = some (events, next) ∧
    Changes cellWorld cells (cells.Within · ⟨0⟩) (fun var => .object var.index) later ∧
    later ⟨0⟩ = .object 1 ∧ ¬ Fits cellWorld cells next later := by
  have fits : Fits cellWorld cells .empty fun var => .object var.index :=
    (satisfies_empty fun var => declared_cells var var.index).toFits
  obtain ⟨events, next, ran, agrees⟩ := Reachable.assign_fits_iff ClassTable.legal_small
    (reachable_cells (.ofType _)) fits (by decide) (declared_cells ⟨0⟩ 1)
  have successor : cells.Within ⟨1⟩ ⟨0⟩ := .single ⟨_, rfl, rfl⟩
  let later : Environment := fun var => if var.index < 2 then .object (var.index + 1)
    else .object var.index
  have changes : Changes cellWorld cells (cells.Within · ⟨0⟩) (fun var => .object var.index)
      later := by
    refine ⟨fun {var} kept => if_neg fun inside => ?_, fun {var} _ => ?_⟩
    · match var with
      | ⟨0⟩ => exact kept .refl
      | ⟨1⟩ => exact kept successor
      | ⟨_ + 2⟩ =>
        simp only at inside
        omega
    · simp only [later]
      split
      · exact declared_cells var _
      · exact declared_cells var _
  refine ⟨events, next, later, ran, changes, rfl, fun after => ?_⟩
  have same := (agrees later changes rfl).mp after successor
  cases same

end PauseFlow.Memory
