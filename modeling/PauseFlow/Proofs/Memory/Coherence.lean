import PauseFlow.Proofs.Memory.Locality
import PauseFlow.Proofs.Memory.Shape

namespace PauseFlow.Memory

def operandVars : Operand → List Var
  | .var var => [var]
  | .constant _ => []

/-- The variables whose declarations an operation reads. Forgetting reads none. -/
def Operation.operands : Operation → List Var
  | assume condition => condition.left :: operandVars condition.right
  | unite left right => [left, right]
  | narrow var _ => [var]
  | forget _ => []

/-- The memories that operations build, whatever they answer, while variables are added. What an
operation reads was issued before it. -/
inductive Arises : Variables → Memory → Prop where
  | start (registry : Variables) : Arises registry .empty
  | grow {old new : Variables} {memory : Memory} (arises : Arises old memory)
      (grows : old.Grows new) : Arises new memory
  | operate {registry : Variables} {memory : Memory} (arises : Arises registry memory)
      (operation : Operation) (issued : ∀ var ∈ operation.operands, registry.Issued var) :
      Arises registry (operation.run registry memory).2

/-- The first variable has a parent link to the second one. -/
def LinksTo (memory : Memory) (child parent : Var) : Prop :=
  memory.links.get? child = some parent

structure Coherent (registry : Variables) (memory : Memory) : Prop where
  acyclic : ∀ var, ¬ Relation.TransGen memory.LinksTo var var
  /-- The way up from a variable ends at its root. -/
  rooted : ∀ var, Relation.ReflTransGen memory.LinksTo var (memory.root var) ∧
    ∀ parent, ¬ memory.LinksTo (memory.root var) parent
  factsAtRoots : ∀ var value, memory.facts.get? var = some value → memory.root var = var
  exclusionsAtRoots : ∀ var values, memory.excluded.get? var = some values →
    memory.root var = var
  pairsAtRoots : ∀ pair ∈ memory.distinctPairs,
    memory.root pair.1 = pair.1 ∧ memory.root pair.2 = pair.2
  pairsOrdered : ∀ pair ∈ memory.distinctPairs, pair.1.index < pair.2.index
  /-- A class of several members has a fact of its own. -/
  sharedKnown : ∀ left right, left ≠ right → memory.areEqual left right = true →
    ∃ value, memory.facts.get? (memory.root left) = some value
  possible : ∀ var value, memory.facts.get? var = some value → value ≠ .bottom
  /-- What is known of a class is no constant among its exclusions. -/
  unexcluded : ∀ var, memory.isExcluded (memory.root var) (memory.value registry var) = false

section Links

variable {memory : Memory}

private theorem Rooted.reaches {steps : Nat} {var root : Var}
    (rooted : Rooted memory.links steps var root) :
    Relation.ReflTransGen memory.LinksTo var root := by
  induction rooted with
  | here _ => exact .refl
  | up link _ ih => exact .head link ih

/-- Each link is a step closer to the root. -/
theorem Rooted.shorter {steps : Nat} {var root above : Var}
    (rooted : Rooted memory.links steps var root)
    (path : Relation.TransGen memory.LinksTo var above) :
    ∃ fewer < steps, Rooted memory.links fewer above root := by
  have parentOf : ∀ {steps : Nat} {child parent : Var}, Rooted memory.links steps child root →
      memory.LinksTo child parent → ∃ fewer < steps, Rooted memory.links fewer parent root := by
    intro steps child parent rooted link
    cases rooted with
    | here top =>
      rw [LinksTo, top] at link
      cases link
    | @up _ next _ fewer own rest =>
      have same : next = parent := Option.some.inj (own.symm.trans link)
      exact ⟨fewer, Nat.lt_succ_self fewer, same ▸ rest⟩
  induction path with
  | single link => exact parentOf rooted link
  | tail _ link ih =>
    obtain ⟨middle, bound, higher⟩ := ih
    obtain ⟨fewer, less, highest⟩ := parentOf higher link
    exact ⟨fewer, Nat.lt_trans less bound, highest⟩

private theorem Grounded.acyclic (grounded : Grounded memory.links) (var : Var) :
    ¬ Relation.TransGen memory.LinksTo var var := by
  intro cycle
  obtain ⟨steps, rooted⟩ := rooted_root grounded var
  obtain ⟨fewer, less, again⟩ := rooted.shorter cycle
  have same := (rooted.unique again).1
  omega

end Links

/-- No class is known to hold a constant excluded for it. A variable that is not issued shares no
class and has no exclusions, so whatever it will be declared with is possible. -/
structure Settled (registry : Variables) (memory : Memory) : Prop where
  free : ∀ var, memory.isExcluded (memory.root var) (memory.value registry var) = false
  related : ∀ {var}, memory.root var ≠ var → registry.Issued var ∧ registry.Issued (memory.root var)
  restricted : ∀ {var value}, value ∈ memory.exclusions var → registry.Issued var

section Settling

variable {memory : Memory} {registry : Variables}

private theorem settled_empty (registry : Variables) : Settled registry .empty where
  free _ := isExcluded_eq_false_iff.mpr fun _ member => by cases member
  related different := absurd rfl different
  restricted member := by cases member

theorem Settled.issued_root (settled : Settled registry memory) {var : Var}
    (issued : registry.Issued var) : registry.Issued (memory.root var) := by
  by_cases own : memory.root var = var
  · rwa [own]
  · exact (settled.related own).2

private theorem Settled.grow {old new : Variables} (settled : Settled old memory)
    (wellFormed : WellFormed memory) (grows : old.Grows new) : Settled new memory where
  free var := by
    by_cases issued : old.Issued var
    · rw [wellFormed.value_of_grows grows issued]
      exact settled.free var
    · have own : memory.root var = var := by
        by_contra different
        exact issued (settled.related different).1
      rw [own, isExcluded_eq_false_iff]
      exact fun _ member => issued (settled.restricted member)
  related different :=
    (settled.related different).imp (fun child => grows.issued child) fun parent =>
      grows.issued parent
  restricted member := grows.issued (settled.restricted member)

theorem Settled.withFact (settled : Settled registry memory) {root : Var} {value : AbstractValue}
    (free : memory.isExcluded root value = false) :
    Settled registry (memory.withFact root value) where
  free var := by
    rw [value_withFact]
    change memory.isExcluded (memory.root var) _ = false
    split
    · rename_i here
      rwa [here]
    · exact settled.free var
  related := settled.related
  restricted := settled.restricted

private theorem Settled.narrow (settled : Settled registry memory) (var : Var)
    (value : AbstractValue) : Settled registry (memory.narrow registry var value).2 := by
  rcases narrow_cases memory registry var value with ⟨_, result⟩ | ⟨_, free, result⟩
  · rw [result]
    exact settled
  · rw [result]
    exact settled.withFact free

theorem Settled.merged (settled : Settled registry memory) (wellFormed : WellFormed memory)
    {kept dropped : Var} {value : AbstractValue} (different : kept ≠ dropped)
    (keptTop : memory.links.get? kept = none) (droppedTop : memory.links.get? dropped = none)
    (keptIssued : registry.Issued kept) (droppedIssued : registry.Issued dropped)
    (freeKept : memory.isExcluded kept value = false)
    (freeDropped : memory.isExcluded dropped value = false) :
    Settled registry (memory.merged kept dropped value) where
  free var := by
    rw [root_merged wellFormed different keptTop droppedTop,
      value_merged wellFormed different keptTop droppedTop, isExcluded_merged different]
    by_cases inDropped : memory.root var = dropped
    · simp [inDropped, freeKept, freeDropped]
    · rw [relabel_of_ne inDropped]
      by_cases inKept : memory.root var = kept
      · simp [inKept, freeKept, freeDropped]
      · simp only [inKept, inDropped, or_self, if_false]
        exact settled.free var
  related {var} moved := by
    rw [root_merged wellFormed different keptTop droppedTop] at moved ⊢
    by_cases inDropped : memory.root var = dropped
    · rw [inDropped, relabel_self]
      refine ⟨?_, keptIssued⟩
      by_cases own : memory.root var = var
      · exact own ▸ inDropped ▸ droppedIssued
      · exact (settled.related own).1
    · rw [relabel_of_ne inDropped] at moved ⊢
      exact settled.related moved
  restricted {var excluded} member := by
    rw [exclusions_merged different] at member
    split at member
    · rename_i here
      exact here ▸ keptIssued
    · split at member
      · cases member
      · exact settled.restricted member

private theorem Settled.unite (settled : Settled registry memory) (wellFormed : WellFormed memory)
    {left right : Var} (leftIssued : registry.Issued left) (rightIssued : registry.Issued right) :
    Settled registry (memory.unite registry left right).2 := by
  rcases unite_cases memory registry left right with
    ⟨_, result⟩ | ⟨_, _, result⟩ | ⟨different, _, _, freeKept, freeDropped, result⟩
  · rw [result]
    exact settled
  · rw [result]
    exact settled
  · rw [result]
    exact settled.merged wellFormed different (root_top wellFormed.grounded left)
      (root_top wellFormed.grounded right) (settled.issued_root leftIssued)
      (settled.issued_root rightIssued) freeKept freeDropped

theorem Settled.withApart (settled : Settled registry memory) (left right : Var) :
    Settled registry (memory.withApart left right) :=
  ⟨settled.free, settled.related, settled.restricted⟩

private theorem Settled.separate (settled : Settled registry memory) (left right : Var) :
    Settled registry (memory.separate registry left right).2 := by
  rcases separate_cases memory registry left right with ⟨_, result⟩ | ⟨_, result⟩
  · rw [result]
    exact settled
  · rw [result]
    exact settled.withApart _ _

theorem Settled.withExclusion (settled : Settled registry memory) {var : Var}
    {value : AbstractValue} (issued : registry.Issued var)
    (different : memory.value registry var ≠ value) :
    Settled registry (memory.withExclusion (memory.root var) value) where
  free other := by
    change (memory.withExclusion (memory.root var) value).isExcluded (memory.root other)
      (memory.value registry other) = false
    rw [isExcluded_withExclusion, settled.free other, Bool.false_or]
    by_contra clash
    simp only [Bool.not_eq_false, Bool.and_eq_true, decide_eq_true_eq] at clash
    obtain ⟨⟨_, here⟩, same⟩ := clash
    apply different
    rw [← same]
    exact value_eq_of_areEqual ((areEqual_iff memory var other).mpr here.symm)
  related := settled.related
  restricted {other excluded} member := by
    rw [exclusions_withExclusion] at member
    split at member
    · rename_i here
      exact here ▸ settled.issued_root issued
    · exact settled.restricted member

private theorem Settled.exclude (settled : Settled registry memory) {var : Var}
    (issued : registry.Issued var) (value : AbstractValue) :
    Settled registry (memory.exclude registry var value).2 := by
  rcases exclude_cases memory registry var value with
    ⟨_, result⟩ | ⟨other, _, result⟩ | ⟨_, _, different, result⟩ | result
  · rw [result]
    exact settled
  · rw [result]
    exact settled.narrow var other
  · rw [result]
    exact settled.withExclusion issued different
  · rw [result]
    exact settled

private theorem Settled.assume (settled : Settled registry memory) (wellFormed : WellFormed memory)
    (condition : Condition)
    (issued : ∀ var ∈ (Operation.assume condition).operands, registry.Issued var) :
    Settled registry (memory.assume registry condition).2 := by
  obtain ⟨left, relation, right⟩ := condition
  have leftIssued : registry.Issued left := issued left List.mem_cons_self
  unfold Memory.assume
  split
  · rcases assumeFloating_cases memory registry ⟨left, relation, right⟩ with
      ⟨_, result⟩ | ⟨value, _, result⟩ | ⟨value, _, result⟩
    · rw [result]
      exact settled
    · rw [result]
      exact settled.narrow left value
    · rw [result]
      exact settled.exclude leftIssued value
  · cases right with
    | var other =>
      have otherIssued : registry.Issued other :=
        issued other (List.mem_cons_of_mem _ List.mem_cons_self)
      cases relation with
      | equal => exact settled.unite wellFormed leftIssued otherIssued
      | different => exact settled.separate left other
    | constant value =>
      cases relation with
      | equal => exact settled.narrow left value
      | different => exact settled.exclude leftIssued value

theorem Settled.issued_heir (settled : Settled registry memory) {var : Var}
    (different : memory.heir var ≠ var) : registry.Issued (memory.heir var) := by
  rcases heir_cases memory var with same | ⟨_, below⟩
  · exact absurd same different
  · have member : memory.root (memory.heir var) ≠ memory.heir var := by
      rw [below]
      exact Ne.symm different
    exact (settled.related member).1

theorem Settled.detach (settled : Settled registry memory) (wellFormed : WellFormed memory)
    (var : Var) : Settled registry (memory.detach var) where
  free other := by
    by_cases here : other = var
    · rw [here, root_detach_self, isExcluded_detach wellFormed, if_pos rfl]
    · rw [(forgets_detach registry wellFormed var).value here, isExcluded_detach wellFormed,
        if_neg (root_detach_ne wellFormed.grounded here),
        relabel_root_detach wellFormed.grounded here]
      exact settled.free other
  related {other} moved := by
    have outside : other ≠ var := by
      intro same
      subst same
      exact moved (root_detach_self memory other)
    rw [root_detach_of_ne wellFormed.grounded outside] at moved ⊢
    by_cases below : memory.root other = var
    · have member : memory.root other ≠ other := by
        rw [below]
        exact Ne.symm outside
      rw [below, relabel_self]
      exact ⟨(settled.related member).1,
        settled.issued_heir (heir_ne_of_member wellFormed.grounded outside below)⟩
    · rw [relabel_of_ne below] at moved ⊢
      exact settled.related moved
  restricted {other value} member := by
    rw [exclusions_detach wellFormed] at member
    split at member
    · cases member
    · rename_i outside
      by_cases here : other = memory.heir var
      · rw [here]
        exact settled.issued_heir (here ▸ outside)
      · rw [relabel_of_ne here] at member
        exact settled.restricted member

private theorem Settled.forget (settled : Settled registry memory) (wellFormed : WellFormed memory)
    (var : Var) : Settled registry (memory.forget registry var) :=
  wellFormed.forget_induct settled (fun wellFormed settled => settled.detach wellFormed) registry var

private theorem Settled.run (settled : Settled registry memory) (wellFormed : WellFormed memory)
    (operation : Operation) (issued : ∀ var ∈ operation.operands, registry.Issued var) :
    Settled registry (operation.run registry memory).2 := by
  cases operation with
  | assume condition => exact settled.assume wellFormed condition issued
  | unite left right =>
    exact settled.unite wellFormed (issued left (by simp [Operation.operands]))
      (issued right (by simp [Operation.operands]))
  | narrow var value => exact settled.narrow var value
  | forget var => exact settled.forget wellFormed var

end Settling

theorem Arises.wellFormed {registry : Variables} {memory : Memory}
    (arises : Arises registry memory) : WellFormed memory := by
  induction arises with
  | start _ => exact wellFormed_empty
  | grow _ _ ih => exact ih
  | operate _ operation _ ih => exact ih.run _ operation

theorem Arises.settled {registry : Variables} {memory : Memory}
    (arises : Arises registry memory) : Settled registry memory := by
  induction arises with
  | start registry => exact settled_empty registry
  | grow arises grows ih => exact ih.grow arises.wellFormed grows
  | operate arises operation issued ih => exact ih.run arises.wellFormed operation issued

/-- Operations one after the other, going on after a failed one. -/
theorem Arises.operateAll {registry : Variables} {memory : Memory} (arises : Arises registry memory)
    (operations : List Operation)
    (issued : ∀ operation ∈ operations, ∀ var ∈ operation.operands, registry.Issued var) :
    Arises registry
      (operations.foldl (fun memory operation => (operation.run registry memory).2) memory) := by
  induction operations generalizing memory with
  | nil => exact arises
  | cons first rest ih =>
    exact ih (arises.operate first (issued first List.mem_cons_self)) fun operation later =>
      issued operation (List.mem_cons_of_mem first later)

/-- The parent links of a memory that operations built are acyclic; what it records, it records
at roots, pairs in order; a class of several members has a fact; no fact is impossible, and
nothing known is excluded. -/
theorem Arises.coherent {registry : Variables} {memory : Memory}
    (arises : Arises registry memory) : memory.Coherent registry where
  acyclic := arises.wellFormed.grounded.acyclic
  rooted var := by
    obtain ⟨_, rooted⟩ := rooted_root arises.wellFormed.grounded var
    refine ⟨rooted.reaches, fun parent link => ?_⟩
    rw [LinksTo, rooted.isRoot] at link
    cases link
  factsAtRoots _ _ known := root_of_top (arises.wellFormed.factAtRoot known)
  exclusionsAtRoots _ _ known := root_of_top (arises.wellFormed.excludedAtRoot known)
  pairsAtRoots pair recorded := by
    have tops := arises.wellFormed.apartAtRoot ((OrderedMap.mem_keys_iff _ pair).mp recorded)
    exact ⟨root_of_top tops.1, root_of_top tops.2⟩
  pairsOrdered pair recorded :=
    arises.wellFormed.proper pair ((OrderedMap.mem_keys_iff _ pair).mp recorded)
  sharedKnown left right different same := by
    rw [areEqual_iff] at same
    by_cases own : memory.root left = left
    · rw [same]
      exact arises.wellFormed.known_of_ne_root fun alone =>
        different (own.symm.trans (same.trans alone))
    · exact arises.wellFormed.known_of_ne_root own
  possible _ _ known := arises.wellFormed.possible known
  unexcluded := arises.settled.free

def twoNumbers : Variables :=
  let (registry, _) :=
    (Variables.ofTable .small).request (.localName "x") (.ofType (.primitive .int))
  (registry.request (.localName "y") (.ofType (.primitive .int))).1

def threeNumbers : Variables :=
  (twoNumbers.request (.localName "z") (.ofType (.primitive .int))).1

/-- `x` shares the value of `y`, which is not 5. -/
def firstOperations : List Operation :=
  [.unite ⟨0⟩ ⟨1⟩, .assume ⟨⟨1⟩, .different, .constant (.int 5)⟩]

/-- `y` differs from the new `z`, to be 5 is refused, and `x` is forgotten. -/
def laterOperations : List Operation :=
  [.assume ⟨⟨1⟩, .different, .var ⟨2⟩⟩, .narrow ⟨1⟩ (.int 5), .forget ⟨0⟩]

def numberMemory : Memory :=
  laterOperations.foldl (fun memory operation => (operation.run threeNumbers memory).2)
    (firstOperations.foldl (fun memory operation => (operation.run twoNumbers memory).2) .empty)

theorem coherent_after_refusal :
    numberMemory.Coherent threeNumbers ∧ numberMemory.exclusions ⟨1⟩ = [.int 5] ∧
      numberMemory.distinctPairs = [(⟨1⟩, ⟨2⟩)] := by
  have first := (Arises.start twoNumbers).operateAll firstOperations (by decide)
  have grows : twoNumbers.Grows threeNumbers := Variables.grows_request twoNumbers _ _
  have later := (first.grow grows).operateAll laterOperations (by decide)
  exact ⟨Arises.coherent later, by decide, by decide⟩

end PauseFlow.Memory
