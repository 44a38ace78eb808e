import Mathlib.Data.List.Basic
import Mathlib.Logic.Relation
import PauseFlow.Variable.Registry

/-! Registries as requests build them: a variable is younger than its qualifier, a variable
once issued keeps its declaration, and a variable invalidates exactly what hangs off it. Chains
of qualifiers and of dependents end, so the bound on qualification steps is never felt. -/
namespace PauseFlow.Variables

/-- Whether a registry has issued a variable. -/
def Issued (registry : Variables) (var : Var) : Prop := var.index < registry.size

instance (registry : Variables) (var : Var) : Decidable (registry.Issued var) :=
  inferInstanceAs (Decidable (var.index < registry.size))

/-- Registries built by requests. A qualifier is issued before anything hangs off it, and
declarations are of the allowed form. -/
inductive Built (allowed : AbstractValue → Prop) : Variables → Prop where
  | ofTable (table : ClassTable) : Built allowed (.ofTable table)
  | request {registry : Variables} {origin : Origin} {declared : AbstractValue}
      (built : Built allowed registry) (form : allowed declared)
      (issued : ∀ qualifier, origin.qualifier? = some qualifier → registry.Issued qualifier) :
      Built allowed (registry.request origin declared).1

/-- A registry that another one grew from. -/
structure Grows (old new : Variables) : Prop where
  table : new.table = old.table
  infos : old.infos <+: new.infos

/-- The second variable qualifies the first one. -/
def HangsOff (registry : Variables) (lower upper : Var) : Prop :=
  ∃ info, registry.info? lower = some info ∧ info.origin.qualifier? = some upper

/-- The variables that lose their meaning with `upper`: itself and what hangs off it, over any
number of qualifiers. -/
def Within (registry : Variables) (lower upper : Var) : Prop :=
  Relation.ReflTransGen registry.HangsOff lower upper

/-- A variable is younger than its qualifier. -/
def Ordered (registry : Variables) : Prop :=
  ∀ lower upper, registry.HangsOff lower upper → upper.index < lower.index

section Growth

variable {registry old new : Variables} {var : Var}

theorem Grows.refl (registry : Variables) : Grows registry registry :=
  ⟨rfl, List.prefix_refl _⟩

theorem Grows.trans {middle : Variables} (first : Grows old middle) (second : Grows middle new) :
    Grows old new :=
  ⟨second.table.trans first.table, first.infos.trans second.infos⟩

theorem issued_iff : registry.Issued var ↔ ∃ info, registry.info? var = some info := by
  rw [Issued, size, info?, ← Option.isSome_iff_exists]
  simp

theorem Grows.info? (grows : Grows old new) (issued : old.Issued var) :
    new.info? var = old.info? var := by
  obtain ⟨added, extended⟩ := grows.infos
  rw [Variables.info?, Variables.info?, ← extended, List.getElem?_append_left issued]

theorem Grows.issued (grows : Grows old new) (issued : old.Issued var) : new.Issued var :=
  Nat.lt_of_lt_of_le issued grows.infos.length_le

theorem Grows.declared (grows : Grows old new) (issued : old.Issued var) :
    new.declared var = old.declared var := by
  rw [Variables.declared, Variables.declared, grows.info? issued]

theorem declared_of_not_issued (missing : ¬ registry.Issued var) :
    registry.declared var = .top := by
  have none : registry.info? var = none := List.getElem?_eq_none (Nat.le_of_not_lt missing)
  rw [declared, none]
  rfl

theorem issued_of_isReference (declared : (registry.declared var).isReference = true) :
    registry.Issued var := by
  by_cases issued : registry.Issued var
  · exact issued
  · rw [declared_of_not_issued issued] at declared
    cases declared

theorem grows_request (registry : Variables) (origin : Origin) (declared : AbstractValue) :
    Grows registry (registry.request origin declared).1 := by
  unfold request
  split
  · exact Grows.refl registry
  · exact ⟨rfl, List.prefix_append _ _⟩

theorem grows_requestDerived (registry : Variables) (field : DerivedField) (qualifier : Var)
    (known : AbstractValue) : Grows registry (registry.requestDerived field qualifier known).1 := by
  unfold requestDerived
  split
  · split
    · exact grows_request registry _ _
    · exact Grows.refl registry
  · exact Grows.refl registry

/-- What a request leaves at a variable: an old variable, or the new one with its data. -/
theorem info?_request_cases {origin : Origin} {declared : AbstractValue} {info : VariableInfo}
    (found : (registry.request origin declared).1.info? var = some info) :
    registry.info? var = some info ∨ (var = ⟨registry.size⟩ ∧ info = ⟨origin, declared⟩) := by
  unfold request at found
  split at found
  · exact .inl found
  · simp only [info?, List.getElem?_append] at found
    split at found
    · exact .inl found
    · rename_i later
      have first : var.index - registry.infos.length = 0 := by
        have bound := (List.getElem?_eq_some_iff.mp found).1
        simpa using bound
      have here : var.index = registry.size := by
        simp only [size]
        omega
      rw [first] at found
      exact .inr ⟨by cases var; simpa using here, by simpa using found.symm⟩

end Growth

section Qualifiers

variable {registry : Variables}

theorem HangsOff.issued {lower upper : Var} (link : registry.HangsOff lower upper) :
    registry.Issued lower := by
  obtain ⟨info, found, _⟩ := link
  exact issued_iff.mpr ⟨info, found⟩

private theorem Built.hangsOff_issued {allowed : AbstractValue → Prop}
    (built : Built allowed registry) {lower upper : Var} (link : registry.HangsOff lower upper) :
    upper.index < lower.index ∧ registry.Issued upper := by
  induction built with
  | ofTable table =>
    obtain ⟨info, found, _⟩ := link
    simp [Variables.ofTable, info?] at found
  | @request registry origin declared built form issued ih =>
    obtain ⟨info, found, qualified⟩ := link
    rcases info?_request_cases found with old | ⟨rfl, rfl⟩
    · have earlier := ih ⟨info, old, qualified⟩
      exact ⟨earlier.1, (grows_request registry origin declared).issued earlier.2⟩
    · have earlier := issued upper qualified
      exact ⟨earlier, (grows_request registry origin declared).issued earlier⟩

theorem Built.ordered {allowed : AbstractValue → Prop} (built : Built allowed registry) :
    registry.Ordered :=
  fun _ _ link => (built.hangsOff_issued link).1

theorem Built.allowed {allowed : AbstractValue → Prop} (built : Built allowed registry)
    {var : Var} (issued : registry.Issued var) : allowed (registry.declared var) := by
  induction built with
  | ofTable table => simp [Issued, size, Variables.ofTable] at issued
  | @request registry origin declared built form qualifierIssued ih =>
    obtain ⟨info, found⟩ := issued_iff.mp issued
    rcases info?_request_cases found with old | ⟨rfl, rfl⟩
    · have known := issued_iff.mpr ⟨info, old⟩
      rw [(grows_request registry origin declared).declared known]
      exact ih known
    · simpa [Variables.declared, found] using form

theorem mem_dependents_iff {lower upper : Var} :
    lower ∈ registry.dependents upper ↔ registry.HangsOff lower upper := by
  simp only [dependents, List.mem_filterMap, Prod.exists, List.mem_zipIdx_iff_getElem?]
  constructor
  · intro given
    obtain ⟨info, index, found, selected⟩ := given
    split at selected
    · rename_i qualified
      cases selected
      exact ⟨info, found, qualified⟩
    · cases selected
  · intro given
    obtain ⟨info, found, qualified⟩ := given
    exact ⟨info, lower.index, found, by simp [qualified]⟩

private theorem Within.index_le (ordered : registry.Ordered) {lower upper : Var}
    (path : registry.Within lower upper) : upper.index ≤ lower.index := by
  induction path with
  | refl => exact Nat.le_refl _
  | tail _ link ih => exact Nat.le_trans (Nat.le_of_lt (ordered _ _ link)) ih

private theorem Within.issued_of_ne {lower upper : Var} (path : registry.Within lower upper)
    (different : lower ≠ upper) : registry.Issued lower := by
  rcases Relation.ReflTransGen.cases_head path with same | ⟨_, link, _⟩
  · exact absurd same different
  · exact link.issued

private theorem within_of_mem_subtree {steps : Nat} {lower upper : Var}
    (member : lower ∈ registry.subtree steps upper) : registry.Within lower upper := by
  induction steps generalizing upper with
  | zero =>
    rw [List.mem_singleton.mp member]
    exact .refl
  | succ steps ih =>
    rcases List.mem_append.mp member with below | own
    · obtain ⟨middle, link, inside⟩ := List.mem_flatMap.mp below
      exact (ih inside).tail (mem_dependents_iff.mp link)
    · rw [List.mem_singleton.mp own]
      exact .refl

private theorem mem_subtree_of_within (ordered : registry.Ordered) {steps : Nat}
    {lower upper : Var} (path : registry.Within lower upper)
    (near : lower.index ≤ upper.index + steps) : lower ∈ registry.subtree steps upper := by
  induction steps generalizing upper with
  | zero =>
    rcases Relation.ReflTransGen.cases_tail path with same | ⟨middle, rest, link⟩
    · simp [subtree, same]
    · have below := Within.index_le ordered rest
      have younger := ordered _ _ link
      omega
  | succ steps ih =>
    rcases Relation.ReflTransGen.cases_tail path with same | ⟨middle, rest, link⟩
    · exact List.mem_append_right _ (by simp [same])
    · have younger := ordered _ _ link
      refine List.mem_append_left _ (List.mem_flatMap.mpr ⟨middle, mem_dependents_iff.mpr link, ?_⟩)
      exact ih rest (by omega)

/-- A variable invalidates exactly itself and what hangs off it. -/
theorem mem_invalidatedBy_iff (ordered : registry.Ordered) {lower upper : Var} :
    lower ∈ registry.invalidatedBy upper ↔ registry.Within lower upper := by
  refine ⟨within_of_mem_subtree, fun path => ?_⟩
  by_cases same : lower = upper
  · exact mem_subtree_of_within ordered path (by simp [same])
  · have issued : lower.index < registry.size := path.issued_of_ne same
    exact mem_subtree_of_within ordered path (by omega)

/-- One step more finds nothing new where the variables that are left fit into the steps. -/
private theorem subtree_succ (ordered : registry.Ordered) {steps : Nat} {var : Var}
    (enough : registry.size ≤ var.index + steps + 1) :
    registry.subtree (steps + 1) var = registry.subtree steps var := by
  induction steps generalizing var with
  | zero =>
    have childless : registry.dependents var = [] := by
      apply List.eq_nil_iff_forall_not_mem.mpr
      intro dependent member
      have link := mem_dependents_iff.mp member
      have younger := ordered dependent var link
      have issued : dependent.index < registry.size := link.issued
      omega
    simp [subtree, childless]
  | succ steps ih =>
    have below : ∀ dependent ∈ registry.dependents var,
        registry.subtree (steps + 1) dependent = registry.subtree steps dependent := by
      intro dependent member
      have younger := ordered dependent var (mem_dependents_iff.mp member)
      exact ih (by omega)
    change (registry.dependents var).flatMap (registry.subtree (steps + 1)) ++ [var] =
      (registry.dependents var).flatMap (registry.subtree steps) ++ [var]
    rw [List.flatMap_congr below]

/-- What a variable invalidates: what its dependents invalidate, one dependent after the other,
and the variable at the end. -/
theorem invalidatedBy_eq (ordered : registry.Ordered) (var : Var) :
    registry.invalidatedBy var =
      (registry.dependents var).flatMap registry.invalidatedBy ++ [var] := by
  have enough : registry.size ≤ var.index + registry.size + 1 := by omega
  rw [invalidatedBy, ← subtree_succ ordered enough, subtree]
  rfl

/-- No chain of qualifiers goes on forever. -/
theorem wellFounded_qualifies (ordered : registry.Ordered) :
    WellFounded fun upper lower => registry.HangsOff lower upper := by
  apply Subrelation.wf (r := InvImage (· < ·) Var.index)
  · intro upper lower link
    exact ordered lower upper link
  · exact InvImage.wf _ Nat.lt_wfRel.wf

/-- No chain of dependents goes on forever. -/
theorem wellFounded_hangsOff (ordered : registry.Ordered) : WellFounded registry.HangsOff := by
  apply Subrelation.wf (r := InvImage (· < ·) fun var : Var => registry.size - var.index)
  · intro lower upper link
    have younger := ordered lower upper link
    have issued : lower.index < registry.size := link.issued
    simp only [InvImage]
    omega
  · exact InvImage.wf _ Nat.lt_wfRel.wf

end Qualifiers

end PauseFlow.Variables
