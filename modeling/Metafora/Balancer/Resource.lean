import Mathlib.Data.List.Basic
import Metafora.Task

/-! # `ResourceBalancer` (`src/unnamed/part_004`)

* `ResourceBalancer`, `newResourceBalancer`: the two limits and the checks of the constructor,
  with its error texts.
* `ResourceBalancer.canClaim`, `ResourceBalancer.balance`: the claim and release decisions for
  a usage reading `threshold`, the percentage `int(float32(used) / float32(total) * 100)` the
  reporter's numbers give (a parameter: float rounding is not modelled). A time is the `Nat`
  of `RunningTask.started`; `Stopped().IsZero()` is `stopped = none`.
* `oldestStep`: one iteration of the selection loop of `Balance`. `OldestOf l c` says what its
  accumulator means after the tasks `l`: `none` when every one of them is stopping, otherwise
  a non-stopping task of `l` started no later than any other. `oldestStep_oldestOf` is the step
  lemma and `foldl_oldestStep_oldestOf` the run lemma.
* `balance_releases_oldest`: at or above the release limit `Balance` returns the ID of an oldest
  non-stopping task, and `nil` exactly when there is none.
* `newResourceBalancer_claim_excludes_release`: a balancer the constructor accepted never claims
  at a reading where it would release.
-/

namespace Metafora
set_option autoImplicit false

/-! ## Model -/

/-- `ResourceBalancer`: the claim and release limits, as percentages. -/
structure ResourceBalancer where
  claimLimit : Int
  releaseLimit : Int
  deriving DecidableEq

def newResourceBalancer (claimLimit releaseLimit : Int) : Except String ResourceBalancer :=
  if claimLimit < 1 ∨ claimLimit > 100 ∨ releaseLimit < 1 ∨ releaseLimit > 100 then
    .error ("Limits must be between 1 and 100. claim=" ++ toString claimLimit ++ " release=" ++
      toString releaseLimit)
  else if claimLimit ≥ releaseLimit then
    .error ("Claim threshold must be < release threshold. claim=" ++ toString claimLimit ++
      " >= release=" ++ toString releaseLimit)
  else .ok ⟨claimLimit, releaseLimit⟩

/-- `b.CanClaim(task)` at usage `threshold`: over the claim limit it refuses and asks to be
asked again after `100 + (threshold - claimLimit)` milliseconds (`some` of that delay); under
it, it sleeps and returns `time.Time{}` (`none`) and `true`. -/
def ResourceBalancer.canClaim (b : ResourceBalancer) (threshold : Int) : Option Int × Bool :=
  if threshold ≥ b.claimLimit then (some (100 + (threshold - b.claimLimit)), false)
  else (none, true)

/-- One iteration of `for _, t := range b.ctx.Tasks()`: `t` replaces the candidate `task` if it
is not stopping and `task == nil || task.Started().After(t.Started())`. -/
def oldestStep (task : Option RunningTask) (t : RunningTask) : Option RunningTask :=
  if t.stopped = none ∧ (task.isNone || task.any fun c => t.started < c.started) then some t
  else task

/-- `b.Balance()` at usage `threshold` over the tasks `b.ctx.Tasks()` returns. -/
def ResourceBalancer.balance (b : ResourceBalancer) (threshold : Int) (tasks : List RunningTask) :
    List String :=
  if threshold < b.releaseLimit then []
  else match tasks.foldl oldestStep none with
    | none => []
    | some task => [task.id]

@[simp] theorem oldestStep_none (t : RunningTask) :
    oldestStep none t = if t.stopped = none then some t else none := by
  simp [oldestStep]

@[simp] theorem oldestStep_some (c t : RunningTask) :
    oldestStep (some c) t = if t.stopped = none ∧ t.started < c.started then some t else some c := by
  simp [oldestStep]

/-! ## The constructor's limits -/

/-- What `NewResourceBalancer` guarantees of a balancer it returns. -/
structure ResourceBalancer.Valid (b : ResourceBalancer) : Prop where
  claim_pos : 1 ≤ b.claimLimit
  release_le : b.releaseLimit ≤ 100
  claim_lt_release : b.claimLimit < b.releaseLimit

theorem newResourceBalancer_valid {claimLimit releaseLimit : Int} {b : ResourceBalancer}
    (h : newResourceBalancer claimLimit releaseLimit = .ok b) : b.Valid := by
  unfold newResourceBalancer at h
  split at h
  · cases h
  split at h
  · cases h
  cases h
  refine ⟨?_, ?_, ?_⟩ <;> dsimp only <;> omega

/-- A balancer from `NewResourceBalancer` refuses claims whenever it releases work: the claim
threshold is below the release threshold, so a node never claims a task only to have it
rebalanced. -/
theorem canClaim_refused_of_release {b : ResourceBalancer} (hb : b.Valid) {threshold : Int}
    (h : b.releaseLimit ≤ threshold) : (b.canClaim threshold).2 = false := by
  have : threshold ≥ b.claimLimit := by have := hb.claim_lt_release; omega
  simp [ResourceBalancer.canClaim, this]

/-- For every pair of limits `NewResourceBalancer` accepts and every usage reading, the
balancer never both lets a claim through and asks for a task to be released: when `CanClaim`
claims, `Balance` returns nothing, whatever tasks are running. -/
theorem newResourceBalancer_claim_excludes_release {claimLimit releaseLimit : Int}
    {b : ResourceBalancer} (h : newResourceBalancer claimLimit releaseLimit = .ok b)
    (threshold : Int) (tasks : List RunningTask) (hc : (b.canClaim threshold).2 = true) :
    b.balance threshold tasks = [] := by
  have hlt : threshold < b.releaseLimit := by
    by_contra hle
    rw [canClaim_refused_of_release (newResourceBalancer_valid h) (not_lt.mp hle)] at hc
    cases hc
  rw [ResourceBalancer.balance, if_pos hlt]

/-! ## The selection loop -/

/-- The meaning of the loop's candidate after the tasks `l`. -/
def OldestOf (l : List RunningTask) : Option RunningTask → Prop
  | none => ∀ t ∈ l, t.stopped ≠ none
  | some c => c ∈ l ∧ c.stopped = none ∧ ∀ u ∈ l, u.stopped = none → c.started ≤ u.started

theorem oldestOf_nil : OldestOf [] none := nofun

theorem oldestStep_oldestOf {l : List RunningTask} {task : Option RunningTask}
    (h : OldestOf l task) (t : RunningTask) : OldestOf (l ++ [t]) (oldestStep task t) := by
  cases task with
  | none =>
    rw [oldestStep_none]
    split_ifs with ht
    · refine ⟨List.mem_append_right _ (List.mem_singleton_self t), ht,
        List.forall_mem_append.2 ⟨fun u hu hus => absurd hus (h u hu), ?_⟩⟩
      exact List.forall_mem_singleton.2 fun _ => le_rfl
    · exact List.forall_mem_append.2 ⟨h, List.forall_mem_singleton.2 ht⟩
  | some c =>
    obtain ⟨hc, hcs, hmin⟩ := h
    rw [oldestStep_some]
    split_ifs with hlt
    · refine ⟨List.mem_append_right _ (List.mem_singleton_self t), hlt.1,
        List.forall_mem_append.2 ⟨fun u hu hus => (hlt.2.trans_le (hmin u hu hus)).le, ?_⟩⟩
      exact List.forall_mem_singleton.2 fun _ => le_rfl
    · refine ⟨List.mem_append_left _ hc, hcs, List.forall_mem_append.2 ⟨hmin, ?_⟩⟩
      exact List.forall_mem_singleton.2 fun hts => Nat.not_lt.1 fun hlt' => hlt ⟨hts, hlt'⟩

theorem foldl_oldestStep_oldestOf :
    ∀ (rest : List RunningTask) {pre : List RunningTask} {task : Option RunningTask},
      OldestOf pre task → OldestOf (pre ++ rest) (rest.foldl oldestStep task)
  | [], pre, _, h => by simpa using h
  | t :: rest, pre, _, h => by
    simpa using foldl_oldestStep_oldestOf rest (oldestStep_oldestOf h t)

/-! ## `Balance` -/

/-- At or above the release limit, `Balance` returns the ID of a non-stopping task started no
later than any other non-stopping task, and `nil` exactly when every task is stopping (the list
being empty included). -/
theorem balance_releases_oldest (b : ResourceBalancer) (threshold : Int)
    (tasks : List RunningTask) (h : b.releaseLimit ≤ threshold) :
    (b.balance threshold tasks = [] ↔ ∀ t ∈ tasks, t.stopped ≠ none) ∧
    (b.balance threshold tasks ≠ [] → ∃ t ∈ tasks, t.stopped = none ∧
      (∀ u ∈ tasks, u.stopped = none → t.started ≤ u.started) ∧
      b.balance threshold tasks = [t.id]) := by
  have hrun := foldl_oldestStep_oldestOf tasks oldestOf_nil
  rw [List.nil_append] at hrun
  unfold ResourceBalancer.balance
  rw [if_neg (by omega)]
  revert hrun
  cases tasks.foldl oldestStep none with
  | none => exact fun hall => ⟨iff_of_true rfl hall, fun hne => absurd rfl hne⟩
  | some c =>
    rintro ⟨hc, hcs, hmin⟩
    exact ⟨iff_of_false (List.cons_ne_nil _ _) fun hall => hall c hc hcs,
      fun _ => ⟨c, hc, hcs, hmin, rfl⟩⟩

/-- Three tasks: `a` started at 5, `b` at 2 but stopping, `c` at 3. -/
def resourceTasks : List RunningTask :=
  [⟨⟨"a", Props.empty⟩, 5, none⟩, ⟨⟨"b", Props.empty⟩, 2, some 7⟩, ⟨⟨"c", Props.empty⟩, 3, none⟩]

theorem balance_releases_oldest_resourceTasks :
    (⟨60, 80⟩ : ResourceBalancer).releaseLimit ≤ 90 ∧
    (((⟨60, 80⟩ : ResourceBalancer).balance 90 resourceTasks = [] ↔
        ∀ t ∈ resourceTasks, t.stopped ≠ none) ∧
      ((⟨60, 80⟩ : ResourceBalancer).balance 90 resourceTasks ≠ [] → ∃ t ∈ resourceTasks,
        t.stopped = none ∧ (∀ u ∈ resourceTasks, u.stopped = none → t.started ≤ u.started) ∧
        (⟨60, 80⟩ : ResourceBalancer).balance 90 resourceTasks = [t.id])) :=
  ⟨by decide, balance_releases_oldest ⟨60, 80⟩ 90 resourceTasks (by decide)⟩

example : (⟨60, 80⟩ : ResourceBalancer).balance 90 resourceTasks = ["c"] := by decide

theorem newResourceBalancer_claim_excludes_release_resourceTasks :
    newResourceBalancer 60 80 = .ok ⟨60, 80⟩ ∧
    ((⟨60, 80⟩ : ResourceBalancer).canClaim 50).2 = true ∧
    (⟨60, 80⟩ : ResourceBalancer).balance 50 resourceTasks = [] :=
  have hb : newResourceBalancer 60 80 = .ok ⟨60, 80⟩ := rfl
  ⟨hb, rfl, newResourceBalancer_claim_excludes_release hb 50 resourceTasks rfl⟩

end Metafora
