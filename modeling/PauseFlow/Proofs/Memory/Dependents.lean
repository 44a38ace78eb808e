import PauseFlow.Proofs.Memory.Coherence

namespace PauseFlow

namespace Memory

/-- The dependents are forgotten first, each with its own dependents, and then the variable
leaves its class. -/
theorem forget_eq {registry : Variables} (ordered : registry.Ordered) (memory : Memory)
    (var : Var) :
    memory.forget registry var =
      ((registry.dependents var).foldl (fun memory dependent => memory.forget registry dependent)
        memory).detach var := by
  rw [forget, Variables.invalidatedBy_eq ordered, List.foldl_append, List.foldl_flatMap]
  rfl

/-- Forgetting recurs over dependents, which ends. It loses the variable and what hangs off it,
whatever their places in their classes, and nothing else. -/
theorem Arises.forget_loses {registry : Variables} {memory : Memory}
    {allowed : AbstractValue → Prop} (arises : Arises registry memory)
    (built : registry.Built allowed) (var : Var) :
    Forgets registry (registry.Within · var) memory (memory.forget registry var) ∧
      WellFounded registry.HangsOff ∧
      memory.forget registry var =
        ((registry.dependents var).foldl (fun memory dependent => memory.forget registry dependent)
          memory).detach var :=
  ⟨forgets_forget arises.wellFormed built.ordered var, Variables.wellFounded_hangsOff built.ordered,
    forget_eq built.ordered memory var⟩

/-- A cell, its successor, the successor of that, and two more cells. -/
def linkedCells : Variables :=
  [Origin.localName "cell", .field ⟨0⟩ "next", .field ⟨1⟩ "next", .localName "same",
    .localName "other"].foldl
      (fun registry origin => (registry.request origin (.ofType (.ofClass ⟨2⟩))).1)
      (.ofTable .small)

private theorem built_linkedCells : linkedCells.Built fun _ => True := by
  refine .request (.request (.request (.request (.request (.ofTable .small) trivial ?_) trivial ?_)
    trivial ?_) trivial ?_) trivial ?_
  all_goals
    rintro qualifier ⟨⟩ <;> decide

/-- The first cell leads a class and differs from the last one; its second successor is known to
be there. -/
def linkedMemory : Memory :=
  [Operation.unite ⟨0⟩ ⟨3⟩, .assume ⟨⟨0⟩, .different, .var ⟨4⟩⟩,
    .narrow ⟨2⟩ (.notNull .top)].foldl
      (fun memory operation => (operation.run linkedCells memory).2) .empty

/-- The cell that shared the class keeps what is known of it, and both successors are lost. -/
theorem forget_loses_cells :
    Forgets linkedCells (linkedCells.Within · ⟨0⟩) linkedMemory
        (linkedMemory.forget linkedCells ⟨0⟩) ∧
      linkedMemory.areEqual ⟨0⟩ ⟨3⟩ = true ∧
      (linkedMemory.forget linkedCells ⟨0⟩).areDistinct ⟨3⟩ ⟨4⟩ = true ∧
      linkedMemory.value linkedCells ⟨2⟩ ≠ linkedCells.declared ⟨2⟩ ∧
      (linkedMemory.forget linkedCells ⟨0⟩).value linkedCells ⟨2⟩ = linkedCells.declared ⟨2⟩ :=
  ⟨(Arises.forget_loses ((Arises.start linkedCells).operateAll _ (by decide))
    built_linkedCells ⟨0⟩).1, by decide, by decide, by decide, by decide⟩

end Memory

end PauseFlow
