import PauseFlow.Proofs.Memory.Roots

namespace PauseFlow.Memory

theorem eq_of_index {left right : Var} (same : left.index = right.index) : left = right := by
  cases left
  cases right
  exact congrArg Var.mk same

theorem sorted_comm (left right : Var) : sorted left right = sorted right left := by
  unfold sorted
  split <;> split
  · rename_i below above
    have same := eq_of_index (Nat.le_antisymm below above)
    rw [same]
  · rfl
  · rfl
  · omega

theorem sorted_of_lt {pair : Var × Var} (ordered : pair.1.index < pair.2.index) :
    sorted pair.1 pair.2 = pair := by
  simp [sorted, Nat.le_of_lt ordered]

theorem sorted_eq_iff {left right first second : Var} :
    sorted left right = sorted first second ↔
      (left = first ∧ right = second) ∨ (left = second ∧ right = first) := by
  constructor
  · intro same
    unfold sorted at same
    split at same <;> split at same <;> simp_all
  · intro either
    rcases either with ⟨rfl, rfl⟩ | ⟨rfl, rfl⟩
    · rfl
    · exact sorted_comm _ _

theorem sorted_ordered {left right : Var} (different : left ≠ right) :
    (sorted left right).1.index < (sorted left right).2.index := by
  have distinct : left.index ≠ right.index := fun same => different (eq_of_index same)
  unfold sorted
  split <;> simp only <;> omega

theorem sorted_mentions (left right var : Var) :
    ((sorted left right).1 = var ∨ (sorted left right).2 = var) ↔ left = var ∨ right = var := by
  unfold sorted
  split
  · exact Iff.rfl
  · exact or_comm

theorem sorted_both (property : Var → Prop) (left right : Var) :
    (property (sorted left right).1 ∧ property (sorted left right).2) ↔
      property left ∧ property right := by
  unfold sorted
  split
  · exact Iff.rfl
  · exact and_comm

/-- The partner of a variable in a pair. -/
def partner (pair : Var × Var) (var : Var) : Var := if pair.1 = var then pair.2 else pair.1

private theorem partner_sorted {var other : Var} (different : other ≠ var) :
    partner (sorted var other) var = other := by
  unfold sorted
  split
  · exact if_pos rfl
  · exact if_neg different

/-- Every recorded pair has its smaller variable first. -/
def Proper (apart : OrderedMap (Var × Var) Unit) : Prop :=
  ∀ pair, apart.contains pair = true → pair.1.index < pair.2.index

theorem Proper.not_self {apart : OrderedMap (Var × Var) Unit} (proper : Proper apart) (var : Var) :
    apart.contains (sorted var var) ≠ true := by
  intro present
  have ordered := proper _ present
  simp [sorted] at ordered

private theorem contains_renameFold {old new : Var} (different : new ≠ old)
    (listed : List (Var × Var)) (mention : ∀ pair ∈ listed, pair.1.index < pair.2.index ∧
      (pair.1 = old ∨ pair.2 = old))
    (apart : OrderedMap (Var × Var) Unit) (pair : Var × Var) :
    (listed.foldl (fun renamed pair =>
        (renamed.erase pair).insert (sorted new (partner pair old)) ()) apart).contains pair = true ↔
      (apart.contains pair = true ∧ pair ∉ listed) ∨
        ∃ earlier ∈ listed, pair = sorted new (partner earlier old) := by
  induction listed generalizing apart with
  | nil => simp
  | cons first rest ih =>
    obtain ⟨ordered, here⟩ := mention first (by simp)
    have other : partner first old ≠ old := by
      unfold partner
      split
      · rename_i same
        intro same
        subst same
        rw [same] at ordered
        exact Nat.lt_irrefl _ ordered
      · assumption
    have free : sorted new (partner first old) ∉ rest := by
      intro member
      have touched := (mention _ (List.mem_cons_of_mem first member)).2
      exact ((sorted_mentions _ _ _).mp touched).elim different other
    rw [List.foldl_cons, ih fun pair member => mention pair (List.mem_cons_of_mem first member)]
    simp only [OrderedMap.contains_insert, OrderedMap.contains_erase, List.mem_cons, not_or,
      exists_eq_or_imp]
    constructor
    · intro either
      rcases either with ⟨rfl | ⟨other, present⟩, missing⟩ | later
      · exact .inr (.inl rfl)
      · exact .inl ⟨present, other, missing⟩
      · exact .inr (.inr later)
    · intro either
      rcases either with ⟨present, other, missing⟩ | rfl | later
      · exact .inl ⟨.inr ⟨other, present⟩, missing⟩
      · exact .inl ⟨.inl rfl, free⟩
      · exact .inr later

/-- Renaming keeps the pairs that do not mention the old name and pairs the new name with
every partner of the old one. -/
theorem contains_renameApart {apart : OrderedMap (Var × Var) Unit} (proper : Proper apart)
    {old new : Var} (different : new ≠ old) (pair : Var × Var) :
    (renameApart apart old new).contains pair = true ↔
      (apart.contains pair = true ∧ pair.1 ≠ old ∧ pair.2 ≠ old) ∨
        ∃ other, other ≠ old ∧ apart.contains (sorted old other) = true ∧
          pair = sorted new other := by
  have mention : ∀ pair ∈ apart.keys.filter (fun pair => pair.1 = old || pair.2 = old),
      pair.1.index < pair.2.index ∧ (pair.1 = old ∨ pair.2 = old) := by
    intro pair member
    obtain ⟨key, touched⟩ := List.mem_filter.mp member
    exact ⟨proper pair ((apart.mem_keys_iff pair).mp key), by simpa using touched⟩
  have spread := contains_renameFold different _ mention apart pair
  apply Iff.trans spread
  simp only [List.mem_filter, OrderedMap.mem_keys_iff, Bool.or_eq_true, decide_eq_true_eq]
  constructor
  · intro either
    rcases either with ⟨present, untouched⟩ | ⟨earlier, ⟨present, touched⟩, rfl⟩
    · refine .inl ⟨present, fun here => ?_, fun here => ?_⟩
      · exact untouched ⟨present, .inl here⟩
      · exact untouched ⟨present, .inr here⟩
    · have ordered := proper earlier present
      have shape := sorted_of_lt ordered
      by_cases first : earlier.1 = old
      · refine .inr ⟨earlier.2, ?_, ?_, by simp [partner, first]⟩
        · intro second
          rw [first, second] at ordered
          exact Nat.lt_irrefl _ ordered
        · rw [← first, shape]
          exact present
      · have second := touched.resolve_left first
        refine .inr ⟨earlier.1, first, ?_, by simp [partner, first]⟩
        rw [← second, sorted_comm, shape]
        exact present
  · intro either
    rcases either with ⟨present, first, second⟩ | ⟨other, different, present, rfl⟩
    · exact .inl ⟨present, fun touched => touched.2.elim first second⟩
    · refine .inr ⟨sorted old other, ⟨present, (sorted_mentions _ _ _).mpr (.inl rfl)⟩, ?_⟩
      rw [partner_sorted different]

theorem Proper.renameApart {apart : OrderedMap (Var × Var) Unit} (proper : Proper apart)
    {old new : Var} (different : new ≠ old)
    (unrelated : apart.contains (sorted old new) ≠ true) :
    Proper (Memory.renameApart apart old new) := by
  intro pair present
  rcases (contains_renameApart proper different pair).mp present with
    ⟨kept, _, _⟩ | ⟨other, _, earlier, rfl⟩
  · exact proper pair kept
  · apply sorted_ordered
    intro same
    subst same
    exact unrelated earlier

/-- Dropping the pairs that mention a variable. -/
theorem contains_withoutVar (apart : OrderedMap (Var × Var) Unit) (var left right : Var) :
    (apart.filter fun pair _ => pair.1 ≠ var && pair.2 ≠ var).contains (sorted left right) = true ↔
      left ≠ var ∧ right ≠ var ∧ apart.contains (sorted left right) = true := by
  have kept := OrderedMap.contains_filter apart
    (fun pair => pair.1 ≠ var && pair.2 ≠ var) (sorted left right)
  have mentioned := not_congr (sorted_mentions left right var)
  simp only [not_or] at mentioned
  simp only [Bool.and_eq_true, decide_eq_true_eq, mentioned] at kept
  apply kept.trans
  constructor
  · intro given
    obtain ⟨⟨leftOther, rightOther⟩, present⟩ := given
    exact ⟨leftOther, rightOther, present⟩
  · intro given
    obtain ⟨leftOther, rightOther, present⟩ := given
    exact ⟨⟨leftOther, rightOther⟩, present⟩

/-- Under a new name that no pair mentions, exactly the pairs of the old name are found. -/
theorem contains_renameApart_iff {apart : OrderedMap (Var × Var) Unit} (proper : Proper apart)
    {old new : Var} (different : new ≠ old)
    (free : ∀ other, ¬ apart.contains (sorted new other) = true) (left right : Var) :
    (renameApart apart old new).contains (sorted left right) = true ↔
      left ≠ old ∧ right ≠ old ∧
        apart.contains (sorted (relabel new old left) (relabel new old right)) = true := by
  have unmentioned := not_congr (sorted_mentions left right old)
  simp only [not_or] at unmentioned
  have notNew : ∀ {first second : Var}, apart.contains (sorted first second) = true →
      first ≠ new := by
    intro first second present same
    subst same
    exact free second present
  apply (contains_renameApart proper different (sorted left right)).trans
  constructor
  · intro either
    rcases either with ⟨present, first, second⟩ | ⟨other, otherOld, present, same⟩
    · obtain ⟨leftOther, rightOther⟩ := unmentioned.mp ⟨first, second⟩
      refine ⟨leftOther, rightOther, ?_⟩
      rw [relabel_of_ne (notNew present), relabel_of_ne (notNew (sorted_comm left right ▸ present))]
      exact present
    · have otherNew := notNew (sorted_comm old other ▸ present)
      rcases sorted_eq_iff.mp same with ⟨rfl, rfl⟩ | ⟨rfl, rfl⟩
      · exact ⟨different, otherOld, by rwa [relabel_self, relabel_of_ne otherNew]⟩
      · refine ⟨otherOld, different, ?_⟩
        rw [relabel_self, relabel_of_ne otherNew, sorted_comm]
        exact present
  · intro given
    obtain ⟨leftOther, rightOther, present⟩ := given
    by_cases leftNew : left = new
    · subst leftNew
      by_cases rightNew : right = left
      · subst rightNew
        rw [relabel_self] at present
        exact absurd present (proper.not_self old)
      · rw [relabel_self, relabel_of_ne rightNew] at present
        exact .inr ⟨right, rightOther, present, rfl⟩
    · by_cases rightNew : right = new
      · subst rightNew
        rw [relabel_self, relabel_of_ne leftNew, sorted_comm] at present
        exact .inr ⟨left, leftOther, present, sorted_comm _ _⟩
      · rw [relabel_of_ne leftNew, relabel_of_ne rightNew] at present
        exact .inl ⟨present, unmentioned.mpr ⟨leftOther, rightOther⟩⟩

end PauseFlow.Memory
