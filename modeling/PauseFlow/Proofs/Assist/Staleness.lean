import Mathlib.Algebra.Group.Nat.Defs
import Mathlib.Data.List.Basic
import Mathlib.Data.List.Induction
import PauseFlow.Assist.Freshness

/-! Guards over one number of edits, which comes round after `2 ^ 64` of them. A guard that was
found stale stays so; until the number comes round, it is found stale exactly if something was
edited since its capture, whatever happens to other guards. -/
namespace PauseFlow

private theorem FreshnessGuard.check_fst_eq_fresh_iff {guard : FreshnessGuard} {edits : UInt64} :
    (guard.check edits).1 = .fresh ↔ guard.isStale = false ∧ edits = guard.stamp := by
  unfold check
  split
  · rename_i stale
    simp [stale]
  · split <;> simp_all

private theorem FreshnessGuard.check_snd (guard : FreshnessGuard) (edits : UInt64) :
    (guard.check edits).2 = ⟨guard.stamp, guard.isStale || edits ≠ guard.stamp⟩ := by
  obtain ⟨stamp, isStale⟩ := guard
  unfold check
  split
  · simp_all
  · split <;> simp_all

private theorem Freshness.ne_fresh_iff {answer : Freshness} : answer ≠ .fresh ↔ answer = .stale :=
    by
  cases answer <;> simp

/-- The number of edits, and the guards in the order of their capture. -/
structure Watch where
  edits : UInt64
  guards : List FreshnessGuard

/-- What happens to the sources and to the guards over them. -/
inductive WatchEvent where
  | edit
  | capture
  /-- A check of the guard with this number. -/
  | check (number : Nat)
deriving DecidableEq

namespace Watch

def step (watch : Watch) : WatchEvent → Watch
  | .edit => { watch with edits := watch.edits + 1 }
  | .capture => { watch with guards := watch.guards ++ [.capture watch.edits] }
  | .check number =>
    { watch with guards := watch.guards.modify number fun guard => (guard.check watch.edits).2 }

def run (watch : Watch) (events : List WatchEvent) : Watch := events.foldl step watch

/-- What a check of a guard answers now; none before its capture. -/
def answer? (watch : Watch) (number : Nat) : Option Freshness :=
  watch.guards[number]?.map fun guard => (guard.check watch.edits).1

/-- What concerns one guard: the edits, and its own checks. -/
def concerning (number : Nat) (events : List WatchEvent) : List WatchEvent :=
  events.filter fun event => event = .edit ∨ event = .check number

private theorem edits_step (watch : Watch) (event : WatchEvent) :
    (watch.step event).edits = watch.edits + if event = .edit then 1 else 0 := by
  cases event <;> simp [step]

/-- A guard changes with its own checks alone. -/
theorem guard_step {watch : Watch} {number : Nat} {guard : FreshnessGuard}
    (known : watch.guards[number]? = some guard) (event : WatchEvent) :
    (watch.step event).guards[number]? =
      some (if event = .check number then (guard.check watch.edits).2 else guard) := by
  cases event with
  | edit => simpa [step] using known
  | capture =>
    have captured := (List.getElem?_eq_some_iff.mp known).1
    simpa [step, List.getElem?_append_left captured] using known
  | check other =>
    by_cases same : other = number
    · simp [step, known, same]
    · simp [step, known, same]

section Runs

variable {watch : Watch} {number : Nat} {since : List WatchEvent}

private theorem run_snoc (watch : Watch) (events : List WatchEvent) (event : WatchEvent) :
    watch.run (events ++ [event]) = (watch.run events).step event :=
  List.foldl_concat step watch event events

private theorem edits_run (watch : Watch) (events : List WatchEvent) :
    (watch.run events).edits = watch.edits + UInt64.ofNat (events.count .edit) := by
  induction events using List.reverseRecOn with
  | nil => simp [run]
  | append_singleton events event ih =>
    rw [run_snoc, edits_step, ih, List.count_append, UInt64.ofNat_add, UInt64.add_assoc]
    by_cases edited : event = .edit <;> simp [edited]

/-- The number of edits comes round after `2 ^ 64` of them. -/
theorem edits_run_eq_iff (watch : Watch) (events : List WatchEvent) :
    (watch.run events).edits = watch.edits ↔ 2 ^ 64 ∣ events.count .edit := by
  rw [edits_run, UInt64.add_eq_left, UInt64.ofNat_eq_iff_mod_eq_toNat, Nat.dvd_iff_mod_eq_zero]
  rfl

/-- Whether a guard was checked while the number of edits was not the one of its capture. -/
def Noticed (number : Nat) (since : List WatchEvent) : Prop :=
  ∃ before after, since = before ++ .check number :: after ∧ ¬ 2 ^ 64 ∣ before.count .edit

private theorem not_noticed_nil (number : Nat) : ¬ Noticed number [] := by
  rintro ⟨before, after, split, _⟩
  simp at split

private theorem noticed_snoc_iff {event : WatchEvent} :
    Noticed number (since ++ [event]) ↔
      Noticed number since ∨ event = .check number ∧ ¬ 2 ^ 64 ∣ since.count .edit := by
  constructor
  · rintro ⟨before, after, split, changed⟩
    rcases List.eq_nil_or_concat after with rfl | ⟨after, last, rfl⟩
    · obtain ⟨rfl, rfl⟩ := List.append_singleton_inj.mp split
      exact .inr ⟨rfl, changed⟩
    · rw [List.concat_eq_append, ← List.cons_append, ← List.append_assoc] at split
      obtain ⟨rfl, rfl⟩ := List.append_singleton_inj.mp split
      exact .inl ⟨before, after, rfl, changed⟩
  · rintro (⟨before, after, rfl, changed⟩ | ⟨rfl, changed⟩)
    · exact ⟨before, after ++ [event], by simp, changed⟩
    · exact ⟨since, [], rfl, changed⟩

theorem Noticed.append (noticed : Noticed number since) (later : List WatchEvent) :
    Noticed number (since ++ later) := by
  obtain ⟨before, after, rfl, changed⟩ := noticed
  exact ⟨before, after ++ later, by simp, changed⟩

private theorem count_concerning (number : Nat) (events : List WatchEvent) :
    (concerning number events).count .edit = events.count .edit :=
  List.count_filter (by simp)

private theorem concerning_snoc (number : Nat) (events : List WatchEvent) (event : WatchEvent) :
    concerning number (events ++ [event]) =
      concerning number events ++
        if event = .edit ∨ event = .check number then [event] else [] := by
  rw [concerning, List.filter_append, List.filter_singleton, concerning]
  simp

/-- What a guard notices, it notices without the captures and checks of others. -/
theorem noticed_concerning_iff (number : Nat) (since : List WatchEvent) :
    Noticed number (concerning number since) ↔ Noticed number since := by
  induction since using List.reverseRecOn with
  | nil => rfl
  | append_singleton since event ih =>
    rw [concerning_snoc, noticed_snoc_iff]
    split
    · rw [noticed_snoc_iff, ih, count_concerning]
    · rename_i other
      rw [List.append_nil, ih]
      simp [(not_or.mp other).2]

private theorem not_noticed_of_unedited (unedited : since.count .edit = 0) : ¬ Noticed number
    since := by
  rintro ⟨before, after, rfl, changed⟩
  rw [List.count_append] at unedited
  have none : before.count .edit = 0 := by omega
  exact changed (none ▸ Nat.dvd_zero _)

/-- A guard keeps its stamp, and it is stale once a check of it noticed a change. -/
theorem guard_run (watch : Watch) (since : List WatchEvent) :
    ∃ isStale, ((watch.step .capture).run since).guards[watch.guards.length]? =
        some ⟨watch.edits, isStale⟩ ∧
      (isStale = true ↔ Noticed watch.guards.length since) := by
  induction since using List.reverseRecOn with
  | nil => exact ⟨false, by simp [run, step, FreshnessGuard.capture], by simp [not_noticed_nil]⟩
  | append_singleton since event ih =>
    obtain ⟨isStale, known, stale⟩ := ih
    have round := edits_run_eq_iff (watch.step .capture) since
    rw [run_snoc, guard_step known, FreshnessGuard.check_snd]
    by_cases own : event = .check watch.guards.length
    · refine ⟨_, by rw [if_pos own], ?_⟩
      rw [noticed_snoc_iff, ← stale, ← round, Bool.or_eq_true, decide_eq_true_eq]
      simp [own, step]
    · refine ⟨isStale, by rw [if_neg own], ?_⟩
      rw [noticed_snoc_iff, ← stale]
      simp [own]

/-- A check says what it notices now, or what an earlier one noticed. -/
theorem answer?_run_iff (watch : Watch) (since : List WatchEvent) :
    (((watch.step .capture).run since).answer? watch.guards.length = some .fresh ↔
        ¬ Noticed watch.guards.length (since ++ [.check watch.guards.length])) ∧
      (((watch.step .capture).run since).answer? watch.guards.length = some .stale ↔
        Noticed watch.guards.length (since ++ [.check watch.guards.length])) := by
  obtain ⟨isStale, known, stale⟩ := guard_run watch since
  have round := edits_run_eq_iff (watch.step .capture) since
  have fresh : ((FreshnessGuard.mk watch.edits isStale).check
      ((watch.step .capture).run since).edits).1 = .fresh ↔
        ¬ Noticed watch.guards.length (since ++ [.check watch.guards.length]) := by
    rw [FreshnessGuard.check_fst_eq_fresh_iff, noticed_snoc_iff, ← stale, ← round]
    simp [step]
  rw [answer?, known, Option.map_some, Option.some.injEq, Option.some.injEq]
  exact ⟨fresh, by rw [← Freshness.ne_fresh_iff, Ne, fresh, not_not]⟩

/-- A check that found a guard stale is not taken back. -/
theorem answer?_after_stale
    (found : ((watch.step .capture).run since).answer? watch.guards.length = some .stale)
    (later : List WatchEvent) :
    (((watch.step .capture).run since).run (.check watch.guards.length :: later)).answer?
      watch.guards.length = some .stale := by
  have again := (answer?_run_iff watch (since ++ .check watch.guards.length :: later)).2
  rw [run, List.foldl_append] at again
  refine again.mpr ?_
  have noticed := ((answer?_run_iff watch since).2.mp found).append
    (later ++ [.check watch.guards.length])
  simpa using noticed

/-- A guard is fresh only while edits came round to its capture, if there were any. -/
theorem dvd_of_answer?_fresh
    (found : ((watch.step .capture).run since).answer? watch.guards.length = some .fresh) :
    2 ^ 64 ∣ since.count .edit := by
  have quiet := (answer?_run_iff watch since).1.mp found
  rw [noticed_snoc_iff, not_or] at quiet
  simpa using quiet.2

private theorem answer?_fresh_iff (few : since.count .edit < 2 ^ 64) :
    ((watch.step .capture).run since).answer? watch.guards.length = some .fresh ↔
      .edit ∉ since := by
  rw [← List.count_eq_zero]
  constructor
  · intro found
    exact Nat.eq_zero_of_dvd_of_lt (dvd_of_answer?_fresh found) few
  · intro unedited
    refine (answer?_run_iff watch since).1.mpr (not_noticed_of_unedited ?_)
    simp [List.count_append, unedited]

/-- The answer of a check is the one that it gives without the captures and checks of others. -/
theorem answer?_concerning (watch : Watch) (since : List WatchEvent) :
    ((watch.step .capture).run since).answer? watch.guards.length =
      ((watch.step .capture).run (concerning watch.guards.length since)).answer?
        watch.guards.length := by
  obtain ⟨fresh, stale⟩ := answer?_run_iff watch since
  obtain ⟨freshAlone, staleAlone⟩ := answer?_run_iff watch (concerning watch.guards.length since)
  have alone := noticed_concerning_iff watch.guards.length
    (since ++ [.check watch.guards.length])
  rw [concerning_snoc, if_pos (.inr rfl)] at alone
  by_cases noticed : Noticed watch.guards.length (since ++ [.check watch.guards.length])
  · rw [stale.mpr noticed, staleAlone.mpr (alone.mpr noticed)]
  · rw [fresh.mpr noticed, freshAlone.mpr fun own => noticed (alone.mp own)]

end Runs

/-- A guard that is captured now keeps the present number of edits as its stamp, and every check of
it answers. Once a check found it stale, each later check does; a fresh guard means that the number
of edits is its stamp. Up to `2 ^ 64` edits it is fresh exactly if there were none. Checks and
captures of other guards never change the answer. -/
theorem staleness_is_final (watch : Watch) (since : List WatchEvent) :
    let number := watch.guards.length
    let captured := watch.step .capture
    let now := captured.run since
    now.guards[number]?.map (·.stamp) = some watch.edits ∧
      (now.answer? number = some .fresh ∨ now.answer? number = some .stale) ∧
      (now.answer? number = some .stale →
        ∀ later, (now.run (.check number :: later)).answer? number = some .stale) ∧
      (now.answer? number = some .fresh → now.edits = watch.edits) ∧
      (since.count .edit < 2 ^ 64 → (now.answer? number = some .fresh ↔ .edit ∉ since)) ∧
      now.answer? number = (captured.run (concerning number since)).answer? number := by
  intro number captured now
  obtain ⟨isStale, known, _⟩ := guard_run watch since
  obtain ⟨fresh, stale⟩ := answer?_run_iff watch since
  refine ⟨?_, ?_, answer?_after_stale, fun found => ?_, answer?_fresh_iff,
    answer?_concerning watch since⟩
  · rw [known, Option.map_some]
  · rw [fresh, stale]
    exact (em _).symm
  · exact (edits_run_eq_iff captured since).mpr (dvd_of_answer?_fresh found)

end Watch

end PauseFlow
