import Mathlib.Data.List.Nodup
import Mathlib.Data.List.Perm.Subperm
import PauseFlow.Memory.Forgetting
import PauseFlow.Proofs.Data.Lookup

namespace PauseFlow.Memory

/-- The class of `var` has the given root, that many links up. -/
inductive Rooted (links : OrderedMap Var Var) : (steps : Nat) → (var root : Var) → Prop where
  | here {var : Var} (top : links.get? var = none) : Rooted links 0 var var
  | up {var parent root : Var} {steps : Nat} (link : links.get? var = some parent)
      (rest : Rooted links steps parent root) : Rooted links (steps + 1) var root

/-- Every chain of links ends. -/
def Grounded (links : OrderedMap Var Var) : Prop :=
  ∀ var, ∃ steps root, Rooted links steps var root

/-- The same variable, one name exchanged for another. -/
def relabel (old new var : Var) : Var := if var = old then new else var

@[simp] theorem relabel_self (old new : Var) : relabel old new old = new := by simp [relabel]

@[simp] theorem relabel_same (old var : Var) : relabel old old var = var := by
  by_cases here : var = old <;> simp [relabel, here]

theorem relabel_of_ne {old new var : Var} (different : var ≠ old) : relabel old new var = var := by
  simp [relabel, different]

/-- Relabelling joins one variable to another one and no others. -/
theorem relabel_eq_relabel_iff {old new : Var} (different : new ≠ old) (left right : Var) :
    relabel old new left = relabel old new right ↔
      left = right ∨ (left = new ∧ right = old) ∨ (left = old ∧ right = new) := by
  by_cases leftOld : left = old
  · rw [leftOld, relabel_self]
    by_cases rightOld : right = old
    · simp [rightOld]
    · rw [relabel_of_ne rightOld]
      simp [Ne.symm different, Ne.symm rightOld, eq_comm]
  · rw [relabel_of_ne leftOld]
    by_cases rightOld : right = old
    · rw [rightOld, relabel_self]
      simp [leftOld]
    · rw [relabel_of_ne rightOld]
      simp [leftOld, rightOld]

namespace Rooted

variable {links : OrderedMap Var Var} {steps : Nat} {var root : Var}

theorem isRoot (rooted : Rooted links steps var root) : links.get? root = none := by
  induction rooted with
  | here top => exact top
  | up _ _ ih => exact ih

theorem unique (first : Rooted links steps var root) {others : Nat} {other : Var}
    (second : Rooted links others var other) : steps = others ∧ root = other := by
  induction first generalizing others with
  | here top =>
    cases second with
    | here _ => exact ⟨rfl, rfl⟩
    | up link _ => rw [top] at link; cases link
  | up link _ ih =>
    cases second with
    | here top => rw [top] at link; cases link
    | up again rest =>
      have same := Option.some.inj (link.symm.trans again)
      subst same
      obtain ⟨length, equal⟩ := ih rest
      exact ⟨congrArg (· + 1) length, equal⟩

/-- The variables passed on the way up have links and no two of them are the same. -/
theorem exists_path (rooted : Rooted links steps var root) :
    ∃ path : List Var, path.length = steps ∧ path.Nodup ∧
      ∀ member ∈ path, member ∈ links.keys ∧ ∃ depth ≤ steps, Rooted links depth member root := by
  induction rooted with
  | here top => exact ⟨[], rfl, .nil, by simp⟩
  | @up var parent root steps link rest ih =>
    obtain ⟨path, length, distinct, passed⟩ := ih
    have fresh : var ∉ path := by
      intro member
      obtain ⟨_, depth, bound, again⟩ := passed var member
      have same := (Rooted.up link rest).unique again
      omega
    refine ⟨var :: path, congrArg (· + 1) length, List.nodup_cons.mpr ⟨fresh, distinct⟩, ?_⟩
    intro member place
    rcases List.mem_cons.mp place with rfl | later
    · have present : links.contains member = true := (links.contains_iff member).mpr ⟨_, link⟩
      exact ⟨(links.mem_keys_iff member).mpr present, steps + 1, Nat.le_refl _, .up link rest⟩
    · obtain ⟨key, depth, bound, again⟩ := passed member later
      exact ⟨key, depth, Nat.le_succ_of_le bound, again⟩

private theorem steps_le (rooted : Rooted links steps var root) : steps ≤ links.entries.length := by
  obtain ⟨path, length, distinct, passed⟩ := rooted.exists_path
  have bound := (distinct.subperm fun member place => (passed member place).1).length_le
  rwa [length, links.length_keys] at bound

private theorem climb_eq (rooted : Rooted links steps var root) {bound : Nat}
    (enough : steps ≤ bound) : climb links bound var = root := by
  induction rooted generalizing bound with
  | here top => cases bound <;> simp [climb, top]
  | up link _ ih =>
    cases bound with
    | zero => simp at enough
    | succ bound =>
      simp only [climb, link]
      exact ih (Nat.le_of_succ_le_succ enough)

/-- The bounded climb finds the root. -/
theorem root_eq {memory : Memory} (rooted : Rooted memory.links steps var root) :
    memory.root var = root :=
  rooted.climb_eq rooted.steps_le

/-- A root put below another root hands its class over. -/
theorem insert (rooted : Rooted links steps var root) {kept dropped : Var}
    (different : kept ≠ dropped) (keptTop : links.get? kept = none)
    (droppedTop : links.get? dropped = none) :
    ∃ steps, Rooted (links.insert dropped kept) steps var (relabel dropped kept root) := by
  induction rooted with
  | @here var top =>
    by_cases same : var = dropped
    · subst same
      rw [relabel_self]
      exact ⟨1, .up (by simp) (.here (by simp [different, keptTop]))⟩
    · rw [relabel_of_ne same]
      exact ⟨0, .here (by simp [same, top])⟩
  | @up var parent root steps link rest ih =>
    obtain ⟨more, above⟩ := ih
    have inner : var ≠ dropped := by
      intro same
      subst same
      rw [droppedTop] at link
      cases link
    exact ⟨more + 1, .up (by simp [inner, link]) above⟩

end Rooted

/-- The links when a member with a parent leaves: its children move up to the parent. -/
def bypass (links : OrderedMap Var Var) (gone parent : Var) : OrderedMap Var Var :=
  (links.erase gone).mapValues fun link => if link = gone then parent else link

private theorem get?_bypass_self (links : OrderedMap Var Var) (gone parent : Var) :
    (bypass links gone parent).get? gone = none := by
  simp [bypass]

private theorem get?_bypass_of_ne {links : OrderedMap Var Var} {gone parent var : Var}
    (other : var ≠ gone) :
    (bypass links gone parent).get? var = (links.get? var).map (relabel gone parent) := by
  simp only [bypass, OrderedMap.get?_mapValues, OrderedMap.get?_erase, other, if_false]
  rfl

/-- A member that leaves becomes a root; all others keep theirs. -/
theorem Rooted.bypass {links : OrderedMap Var Var} {steps : Nat} {gone parent var root : Var}
    (rooted : Rooted links steps var root) (goneLink : links.get? gone = some parent) :
    ∃ steps, Rooted (Memory.bypass links gone parent) steps (relabel gone parent var) root := by
  have loopFree : ∀ {steps root}, Rooted links steps gone root → parent ≠ gone := by
    rintro steps root rooted rfl
    cases rooted with
    | here top => rw [goneLink] at top; cases top
    | up link rest =>
      have same := Option.some.inj (goneLink.symm.trans link)
      subst same
      have length := (Rooted.up link rest).unique rest
      omega
  induction rooted with
  | @here var top =>
    have other : var ≠ gone := by
      intro same
      subst same
      rw [goneLink] at top
      cases top
    rw [relabel_of_ne other]
    exact ⟨0, .here (by simp [get?_bypass_of_ne other, top])⟩
  | @up var next root steps link rest ih =>
    obtain ⟨more, above⟩ := ih
    by_cases here : var = gone
    · subst here
      have same := Option.some.inj (goneLink.symm.trans link)
      subst same
      have distinct := loopFree (Rooted.up link rest)
      rw [relabel_of_ne distinct] at above
      rw [relabel_self]
      exact ⟨more, above⟩
    · rw [relabel_of_ne here]
      exact ⟨more + 1, .up (by simp [get?_bypass_of_ne here, link]) above⟩

/-- The links when a root leaves: its class hangs off one of its members. -/
def inherit (links : OrderedMap Var Var) (heir : Var) (others : List Var) : OrderedMap Var Var :=
  (others.foldl (fun links member => links.insert member heir) links).erase heir

private theorem get?_foldl_insert (links : OrderedMap Var Var) (heir : Var) (others : List Var)
    (var : Var) :
    (others.foldl (fun links member => links.insert member heir) links).get? var =
      if var ∈ others then some heir else links.get? var := by
  induction others generalizing links with
  | nil => simp
  | cons first rest ih =>
    rw [List.foldl_cons, ih, OrderedMap.get?_insert]
    by_cases here : var = first <;> by_cases later : var ∈ rest <;> simp [here, later]

private theorem get?_inherit (links : OrderedMap Var Var) (heir : Var) (others : List Var)
    (var : Var) :
    (inherit links heir others).get? var =
      if var = heir then none else if var ∈ others then some heir else links.get? var := by
  rw [inherit, OrderedMap.get?_erase, get?_foldl_insert]

/-- The members of a root that leaves get one of them as their root. -/
theorem Rooted.inherit {links : OrderedMap Var Var} {gone heir : Var} {others : List Var}
    {steps : Nat} {var root : Var} (rooted : Rooted links steps var root)
    (goneTop : links.get? gone = none)
    (members : ∀ member, member ∈ heir :: others ↔
      ∃ parent steps, links.get? member = some parent ∧ Rooted links steps member gone)
    (outside : var ≠ gone) :
    ∃ steps, Rooted (Memory.inherit links heir others) steps var (relabel gone heir root) := by
  have linked : ∀ {member}, member ∈ heir :: others → links.get? member ≠ none := by
    intro member place
    obtain ⟨parent, _, link, _⟩ := (members member).mp place
    simp [link]
  induction rooted with
  | @here var top =>
    rw [relabel_of_ne outside]
    have free : var ∉ heir :: others := fun place => linked place top
    simp only [List.mem_cons, not_or] at free
    exact ⟨0, .here (by simp [get?_inherit, free, top])⟩
  | @up var next root steps link rest ih =>
    by_cases same : root = gone
    · subst same
      have place := (members var).mpr ⟨next, _, link, .up link rest⟩
      have heirTop : Rooted (Memory.inherit links heir others) 0 heir heir :=
        .here (by simp [get?_inherit])
      rw [relabel_self]
      by_cases first : var = heir
      · exact ⟨0, first ▸ heirTop⟩
      · have later := (List.mem_cons.mp place).resolve_left first
        exact ⟨1, .up (by simp [get?_inherit, first, later]) heirTop⟩
    · have free : var ∉ heir :: others := by
        intro place
        obtain ⟨_, _, _, toGone⟩ := (members var).mp place
        exact same ((Rooted.up link rest).unique toGone).2
      have nextOutside : next ≠ gone := by
        intro same
        subst same
        exact same (rest.unique (.here goneTop)).2
      obtain ⟨more, above⟩ := ih nextOutside
      simp only [List.mem_cons, not_or] at free
      exact ⟨more + 1, .up (by simp [get?_inherit, free, link]) above⟩

variable {memory : Memory}

theorem rooted_root (grounded : Grounded memory.links) (var : Var) :
    ∃ steps, Rooted memory.links steps var (memory.root var) := by
  obtain ⟨steps, root, rooted⟩ := grounded var
  exact ⟨steps, rooted.root_eq ▸ rooted⟩

theorem root_top (grounded : Grounded memory.links) (var : Var) :
    memory.links.get? (memory.root var) = none := by
  obtain ⟨_, rooted⟩ := rooted_root grounded var
  exact rooted.isRoot

theorem root_of_top {var : Var} (top : memory.links.get? var = none) : memory.root var = var :=
  (Rooted.here top).root_eq

@[simp] theorem root_root (grounded : Grounded memory.links) (var : Var) :
    memory.root (memory.root var) = memory.root var :=
  root_of_top (root_top grounded var)

theorem mem_membersBelow_iff (member root : Var) :
    member ∈ memory.membersBelow root ↔
      (∃ parent, memory.links.get? member = some parent) ∧ memory.root member = root := by
  simp [membersBelow, OrderedMap.mem_keys_iff, OrderedMap.contains_iff]

/-- The member that takes the place of a root that leaves; the variable itself if its class
has no other member or another root. -/
def heir (memory : Memory) (var : Var) : Var := (memory.membersBelow var).head?.getD var

theorem heir_of_link (grounded : Grounded memory.links) {var parent : Var}
    (link : memory.links.get? var = some parent) : memory.heir var = var := by
  have none : memory.membersBelow var = [] := by
    apply List.eq_nil_iff_forall_not_mem.mpr
    intro member place
    have below := ((mem_membersBelow_iff member var).mp place).2
    have top := root_top grounded member
    rw [below, link] at top
    cases top
  simp [heir, none]

/-- The heir is the variable itself, or a member of its class with a link of its own. -/
theorem heir_cases (memory : Memory) (var : Var) :
    memory.heir var = var ∨
      (∃ parent, memory.links.get? (memory.heir var) = some parent) ∧
        memory.root (memory.heir var) = var := by
  cases members : memory.membersBelow var with
  | nil => exact .inl (by simp [heir, members])
  | cons first rest =>
    have place : first ∈ memory.membersBelow var := by simp [members]
    have first_heir : memory.heir var = first := by simp [heir, members]
    exact .inr (first_heir ▸ (mem_membersBelow_iff first var).mp place)

theorem relabel_heir_of_top {var root : Var} (top : memory.links.get? root = none) :
    relabel (memory.heir var) var root = root := by
  rcases heir_cases memory var with same | ⟨⟨parent, link⟩, _⟩
  · by_cases here : root = var <;> simp [relabel, same, here]
  · apply relabel_of_ne
    intro same
    subst same
    rw [top] at link
    cases link

theorem get?_links_detach_self (memory : Memory) (var : Var) :
    (memory.detach var).links.get? var = none := by
  unfold detach
  split
  · exact get?_bypass_self _ _ _
  · rename_i top
    split
    · exact top
    · rename_i first others members
      have distinct : var ∉ first :: others := by
        intro place
        rw [← members, mem_membersBelow_iff] at place
        obtain ⟨⟨parent, link⟩, _⟩ := place
        rw [top] at link
        cases link
      simp only [List.mem_cons, not_or] at distinct
      have here := get?_inherit memory.links first others var
      rw [if_neg distinct.1, if_neg distinct.2, top] at here
      exact here

/-- Detaching a variable moves the class of a root to its heir and keeps all other roots. -/
theorem rooted_detach (grounded : Grounded memory.links) {var other : Var}
    (outside : other ≠ var) :
    ∃ steps, Rooted (memory.detach var).links steps other
      (relabel var (memory.heir var) (memory.root other)) := by
  obtain ⟨steps, rooted⟩ := rooted_root grounded other
  unfold detach
  split
  · rename_i parent link
    rw [heir_of_link grounded link]
    have kept : relabel var var (memory.root other) = memory.root other := by
      by_cases here : memory.root other = var <;> simp [relabel, here]
    rw [kept]
    have moved := rooted.bypass link
    rw [relabel_of_ne outside] at moved
    exact moved
  · rename_i top
    split
    · rename_i members
      have apart : memory.root other ≠ var := by
        intro below
        cases link : memory.links.get? other with
        | none => exact outside ((root_of_top link).symm.trans below)
        | some parent =>
          have place := (mem_membersBelow_iff other var).mpr ⟨⟨parent, link⟩, below⟩
          simp [members] at place
      rw [relabel_of_ne apart]
      exact ⟨steps, rooted⟩
    · rename_i first others members
      have first_heir : memory.heir var = first := by simp [heir, members]
      rw [first_heir]
      refine rooted.inherit top (fun member => ?_) outside
      rw [← members, mem_membersBelow_iff]
      constructor
      · intro given
        obtain ⟨⟨parent, link⟩, below⟩ := given
        obtain ⟨length, path⟩ := rooted_root grounded member
        exact ⟨parent, length, link, below ▸ path⟩
      · intro given
        obtain ⟨parent, length, link, path⟩ := given
        exact ⟨⟨parent, link⟩, path.root_eq⟩

theorem grounded_detach (grounded : Grounded memory.links) (var : Var) :
    Grounded (memory.detach var).links := by
  intro other
  by_cases here : other = var
  · subst here
    exact ⟨0, other, .here (get?_links_detach_self memory other)⟩
  · obtain ⟨steps, rooted⟩ := rooted_detach grounded here
    exact ⟨steps, _, rooted⟩

theorem root_detach_self (memory : Memory) (var : Var) :
    (memory.detach var).root var = var :=
  root_of_top (get?_links_detach_self memory var)

theorem root_detach_of_ne (grounded : Grounded memory.links) {var other : Var}
    (outside : other ≠ var) :
    (memory.detach var).root other = relabel var (memory.heir var) (memory.root other) := by
  obtain ⟨_, rooted⟩ := rooted_detach grounded outside
  exact rooted.root_eq

end PauseFlow.Memory
