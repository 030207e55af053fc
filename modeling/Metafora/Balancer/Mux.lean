import Mathlib.Data.List.Nodup
import Metafora.Task

/-! # `BalancerMux` (`src/balancer.go`)

`BalancerMux.Balance` calls each inner balancer in order with a `muxctx` whose `Tasks()` is
`remaining`, adds every ID it returns with `muxctx.add`, and returns the keys of
`releasedset`. An inner balancer is modelled by what its `Balance` returns for the `Tasks()` it
is shown. A Go map used as a set is a list of its keys in insertion order (`setKey`); Go
iterates a map in some order, so the statements below are about membership and duplicates
only. A runtime panic of `add` is an `Except.error` carrying the Go runtime's message.

`BalancerMux.canClaim` is `CanClaim`: the first refusal of an inner balancer, or `NoDelay, true`
(`canClaim_first_refusal`).

`add` computes the shortened list `r` and drops it: `remaining` is never assigned. So every
inner balancer is shown the full task list (`balancerMux_eq_ok`), and the mux returns each
returned ID once (`BalancerMux.balance_union`) unless an ID is not among the tasks: `add` sizes
`r` as `len(m.remaining)-1` and panics on such an ID (`BalancerMux.balance_panics_of_absent`).
-/

namespace Metafora
set_option autoImplicit false

/-! ## Model -/

/-- `m[k] = struct{}{}` on a `map[string]struct{}`, as the list of its keys. -/
def setKey (l : List String) (k : String) : List String :=
  if k ∈ l then l else l ++ [k]

/-- `muxctx`: the tasks shown to the next inner balancer, and the keys of `releasedset`. -/
structure MuxCtx where
  remaining : List RunningTask
  releasedset : List String

def newMuxCtx (tasks : List RunningTask) : MuxCtx := ⟨tasks, []⟩

/-- The loop of `add`: `r[i] = rt; i++` for each task whose ID is not `taskid`, into a slice of
length `len`; a write at `i = len` is out of range. -/
def copyRemaining (taskid : String) (len : Nat) :
    List RunningTask → List RunningTask → Except String (List RunningTask)
  | r, [] => .ok r
  | r, rt :: rest =>
    if rt.id ≠ taskid then
      if r.length < len then copyRemaining taskid len (r ++ [rt]) rest
      else .error ("runtime error: index out of range [" ++ toString len ++ "] with length " ++
        toString len)
    else copyRemaining taskid len r rest

/-- `muxctx.add(taskid)`: record the ID, then build `r` with `make([]RunningTask,
len(m.remaining)-1)` and the copy loop. `r` is not stored. -/
def MuxCtx.add (m : MuxCtx) (taskid : String) : Except String MuxCtx :=
  if m.remaining.length = 0 then .error "runtime error: makeslice: len out of range"
  else (copyRemaining taskid (m.remaining.length - 1) [] m.remaining).map
    fun _r => { m with releasedset := setKey m.releasedset taskid }

/-- The inner loop of `Balance`: `mux.add(taskid)` for each ID one inner balancer returned. -/
def MuxCtx.addAll (m : MuxCtx) : List String → Except String MuxCtx
  | [] => .ok m
  | id :: ids => (m.add id).bind (·.addAll ids)

/-- The outer loop of `BalancerMux.Balance`; it also returns the `Tasks()` each inner balancer
was shown. -/
def balancerMux : List (List RunningTask → List String) → MuxCtx →
    Except String (List (List RunningTask) × MuxCtx)
  | [], m => .ok ([], m)
  | b :: bs, m =>
    (m.addAll (b m.remaining)).bind fun m' =>
      (balancerMux bs m').map fun r => (m.remaining :: r.1, r.2)

/-- `BalancerMux.Balance(ctx)`: `mux.result()`. -/
def BalancerMux.balance (bals : List (List RunningTask → List String))
    (tasks : List RunningTask) : Except String (List String) :=
  (balancerMux bals (newMuxCtx tasks)).map (·.2.releasedset)

/-- `BalancerMux.CanClaim(ctx, task)`, each inner balancer given by its `CanClaim` on the task:
the first refusal, with its time; `NoDelay, true` when every inner balancer claims. The inner
balancers after the first refusal are not called. -/
def BalancerMux.canClaim {T : Type} (noDelay : T) : List (Task → T × Bool) → Task → T × Bool
  | [], _ => (noDelay, true)
  | b :: bs, task => if !(b task).2 then b task else BalancerMux.canClaim noDelay bs task

/-! ## Set keys -/

theorem mem_setKey {l : List String} {k x : String} : x ∈ setKey l k ↔ x ∈ l ∨ x = k := by
  unfold setKey
  split_ifs with h
  · exact ⟨.inl, fun | .inl hx => hx | .inr rfl => h⟩
  · simp

theorem nodup_setKey {l : List String} (k : String) (h : l.Nodup) : (setKey l k).Nodup := by
  unfold setKey
  split_ifs with hk
  · exact h
  · exact h.append (List.nodup_singleton k) (List.disjoint_singleton.mpr hk)

theorem mem_foldl_setKey {x : String} :
    ∀ {acc : List String} {ks : List String}, x ∈ ks.foldl setKey acc ↔ x ∈ acc ∨ x ∈ ks
  | _, [] => by simp
  | acc, k :: ks => by
    rw [List.foldl_cons, mem_foldl_setKey, mem_setKey, List.mem_cons, or_assoc]

theorem nodup_foldl_setKey : ∀ {acc : List String} (ks : List String), acc.Nodup →
    (ks.foldl setKey acc).Nodup
  | _, [], h => h
  | _, k :: ks, h => nodup_foldl_setKey ks (nodup_setKey k h)

/-! ## Spec lemmas -/

theorem copyRemaining_ok_iff {taskid : String} {len : Nat} :
    ∀ {r : List RunningTask} (rest : List RunningTask), r.length ≤ len →
      ((∃ out, copyRemaining taskid len r rest = .ok out) ↔
        r.length + (rest.filter fun rt => rt.id ≠ taskid).length ≤ len)
  | r, [], hr => by simpa [copyRemaining] using hr
  | r, rt :: rest, hr => by
    unfold copyRemaining
    by_cases hid : rt.id = taskid
    · simpa [hid] using copyRemaining_ok_iff rest hr
    · by_cases hlt : r.length < len
      · rw [if_pos hid, if_pos hlt, copyRemaining_ok_iff rest (by simpa using hlt)]
        simp [hid]; omega
      · simp [hid, hlt]; omega

theorem MuxCtx.add_eq_ok {m m' : MuxCtx} {id : String} :
    m.add id = .ok m' ↔
      id ∈ m.remaining.map RunningTask.id ∧ m' = { m with releasedset := setKey m.releasedset id } := by
  unfold MuxCtx.add
  by_cases hn : m.remaining.length = 0
  · simp [hn, List.length_eq_zero.mp hn]
  · have hfit := @copyRemaining_ok_iff id (m.remaining.length - 1) [] m.remaining (Nat.zero_le _)
    have hkeep := @List.length_filter_lt_length_iff_exists _ (fun rt : RunningTask => rt.id ≠ id)
      m.remaining
    have hok : (∃ r, copyRemaining id (m.remaining.length - 1) [] m.remaining = .ok r) ↔
        id ∈ m.remaining.map RunningTask.id := by
      rw [hfit, List.length_nil, Nat.zero_add, List.mem_map]
      constructor
      · intro hle; simpa using hkeep.mp (by omega)
      · rintro ⟨rt, hrt, rfl⟩; have := hkeep.mpr ⟨rt, hrt, by simp⟩; omega
    rw [if_neg hn]
    cases hc : copyRemaining id (m.remaining.length - 1) [] m.remaining with
    | error e => simp only [hc, Except.map]; simp [← hok, hc]
    | ok r => simp only [hc, Except.map]; simp [← hok, hc, eq_comm]

theorem MuxCtx.addAll_of_mem : ∀ {m : MuxCtx} {ids : List String},
    (∀ x ∈ ids, x ∈ m.remaining.map RunningTask.id) →
      m.addAll ids = .ok { m with releasedset := ids.foldl setKey m.releasedset }
  | ⟨_, _⟩, [], _ => rfl
  | m, id :: ids, h => by
    rw [List.forall_mem_cons] at h
    rw [MuxCtx.addAll, MuxCtx.add_eq_ok.mpr ⟨h.1, rfl⟩]
    exact MuxCtx.addAll_of_mem h.2

theorem MuxCtx.mem_of_addAll_ok : ∀ {m m' : MuxCtx} {ids : List String}, m.addAll ids = .ok m' →
    ∀ x ∈ ids, x ∈ m.remaining.map RunningTask.id
  | _, _, [], _ => by simp
  | m, m', id :: ids, h => by
    rw [MuxCtx.addAll] at h
    cases h₁ : m.add id with
    | error e => rw [h₁] at h; cases h
    | ok m₁ =>
      obtain ⟨hid, rfl⟩ := MuxCtx.add_eq_ok.mp h₁
      rw [h₁] at h
      have hrest := MuxCtx.mem_of_addAll_ok
        (show MuxCtx.addAll ⟨m.remaining, setKey m.releasedset id⟩ ids = .ok m' from h)
      exact List.forall_mem_cons.mpr ⟨hid, hrest⟩

theorem MuxCtx.addAll_eq_ok {m m' : MuxCtx} {ids : List String} :
    m.addAll ids = .ok m' ↔ (∀ x ∈ ids, x ∈ m.remaining.map RunningTask.id) ∧
      m' = { m with releasedset := ids.foldl setKey m.releasedset } := by
  constructor
  · intro h
    have hall := MuxCtx.mem_of_addAll_ok h
    rw [MuxCtx.addAll_of_mem hall] at h
    cases h
    exact ⟨hall, rfl⟩
  · rintro ⟨hall, rfl⟩
    exact MuxCtx.addAll_of_mem hall

def releasedIds (bals : List (List RunningTask → List String)) (tasks : List RunningTask) :
    List String :=
  bals.flatMap (· tasks)

theorem balancerMux_of_mem : ∀ {bals : List (List RunningTask → List String)} {m : MuxCtx},
    (∀ b ∈ bals, ∀ x ∈ b m.remaining, x ∈ m.remaining.map RunningTask.id) →
      balancerMux bals m = .ok (bals.map fun _ => m.remaining,
        { m with releasedset := (releasedIds bals m.remaining).foldl setKey m.releasedset })
  | [], ⟨_, _⟩, _ => rfl
  | b :: bs, m, h => by
    rw [List.forall_mem_cons] at h
    rw [balancerMux, MuxCtx.addAll_of_mem h.1]
    have hrest := @balancerMux_of_mem bs ⟨m.remaining, (b m.remaining).foldl setKey m.releasedset⟩ h.2
    simp only [Except.bind, hrest, Except.map, releasedIds, List.flatMap_cons, List.foldl_append,
      List.map_cons]

theorem mem_of_balancerMux_ok : ∀ {bals : List (List RunningTask → List String)} {m : MuxCtx}
    {r : List (List RunningTask) × MuxCtx}, balancerMux bals m = .ok r →
      ∀ b ∈ bals, ∀ x ∈ b m.remaining, x ∈ m.remaining.map RunningTask.id
  | [], _, _, _ => by simp
  | b :: bs, m, r, h => by
    rw [balancerMux] at h
    cases h₁ : m.addAll (b m.remaining) with
    | error e => rw [h₁] at h; cases h
    | ok m₁ =>
      obtain ⟨hall, rfl⟩ := MuxCtx.addAll_eq_ok.mp h₁
      rw [h₁] at h
      cases h₂ : balancerMux bs ⟨m.remaining, (b m.remaining).foldl setKey m.releasedset⟩ with
      | error e => simp only [Except.bind, h₂, Except.map] at h; cases h
      | ok r₁ =>
        have hrest := mem_of_balancerMux_ok h₂
        exact List.forall_mem_cons.mpr ⟨hall, hrest⟩

theorem balancerMux_eq_ok {bals : List (List RunningTask → List String)} {m m' : MuxCtx}
    {seen : List (List RunningTask)} :
    balancerMux bals m = .ok (seen, m') ↔
      (∀ b ∈ bals, ∀ x ∈ b m.remaining, x ∈ m.remaining.map RunningTask.id) ∧
      seen = bals.map (fun _ => m.remaining) ∧
      m' = { m with releasedset := (releasedIds bals m.remaining).foldl setKey m.releasedset } := by
  constructor
  · intro h
    have hall := mem_of_balancerMux_ok h
    rw [balancerMux_of_mem hall] at h
    cases h
    exact ⟨hall, rfl, rfl⟩
  · rintro ⟨hall, rfl, rfl⟩
    exact balancerMux_of_mem hall

theorem BalancerMux.balance_ok_iff {bals : List (List RunningTask → List String)}
    {tasks : List RunningTask} :
    (∃ ids, BalancerMux.balance bals tasks = .ok ids) ↔
      ∀ b ∈ bals, ∀ x ∈ b tasks, x ∈ tasks.map RunningTask.id := by
  unfold BalancerMux.balance
  constructor
  · rintro ⟨ids, h⟩
    cases h₁ : balancerMux bals (newMuxCtx tasks) with
    | error e => rw [h₁] at h; cases h
    | ok r => exact mem_of_balancerMux_ok h₁
  · intro h
    exact ⟨_, by rw [balancerMux_of_mem h]; rfl⟩

/-- When it does not panic, `BalancerMux.Balance` returns each ID some inner balancer returned,
once. -/
theorem BalancerMux.balance_union {bals : List (List RunningTask → List String)}
    {tasks : List RunningTask} {ids : List String} (h : BalancerMux.balance bals tasks = .ok ids) :
    ids.Nodup ∧ ∀ x, x ∈ ids ↔ ∃ b ∈ bals, x ∈ b tasks := by
  unfold BalancerMux.balance at h
  cases h₁ : balancerMux bals (newMuxCtx tasks) with
  | error e => rw [h₁] at h; cases h
  | ok r =>
    obtain ⟨seen, m'⟩ := r
    obtain ⟨-, -, rfl⟩ := balancerMux_eq_ok.mp h₁
    rw [h₁] at h
    cases h
    refine ⟨nodup_foldl_setKey _ List.nodup_nil, fun x => ?_⟩
    simp [mem_foldl_setKey, releasedIds, newMuxCtx]

/-! ## Runtime panics of `add` -/

/-- Tasks `a` and `b`, both started at time 0. -/
def runningA : RunningTask := ⟨⟨"a", Props.empty⟩, 0, none⟩

def runningB : RunningTask := ⟨⟨"b", Props.empty⟩, 0, none⟩

/-- The runtime error `muxctx.add` panics with over `n` remaining tasks: `make` with length `-1`
when `n = 0`, else the write `r[n-1]` past the end of the slice of length `n - 1`. -/
def addPanic (n : Nat) : String :=
  if n = 0 then "runtime error: makeslice: len out of range"
  else "runtime error: index out of range [" ++ toString (n - 1) ++ "] with length " ++
    toString (n - 1)

theorem copyRemaining_error {taskid : String} {len : Nat} :
    ∀ {r rest : List RunningTask} {e : String}, copyRemaining taskid len r rest = .error e →
      e = "runtime error: index out of range [" ++ toString len ++ "] with length " ++ toString len
  | _, [], _, h => by cases h
  | r, rt :: rest, e, h => by
    unfold copyRemaining at h
    split_ifs at h
    · exact copyRemaining_error h
    · cases h; rfl
    · exact copyRemaining_error h

theorem MuxCtx.add_error {m : MuxCtx} {id e : String} (h : m.add id = .error e) :
    e = addPanic m.remaining.length := by
  unfold MuxCtx.add at h
  unfold addPanic
  split_ifs at h with hn
  · cases h; rw [if_pos hn]
  · rw [if_neg hn]
    cases hc : copyRemaining id (m.remaining.length - 1) [] m.remaining with
    | error e' => rw [hc] at h; cases h; exact copyRemaining_error hc
    | ok r => rw [hc] at h; cases h

theorem MuxCtx.addAll_error : ∀ {m : MuxCtx} {ids : List String} {e : String},
    m.addAll ids = .error e → e = addPanic m.remaining.length
  | _, [], _, h => by cases h
  | m, id :: ids, e, h => by
    rw [MuxCtx.addAll] at h
    cases h₁ : m.add id with
    | error e' => rw [h₁] at h; cases h; exact MuxCtx.add_error h₁
    | ok m₁ =>
      obtain ⟨-, rfl⟩ := MuxCtx.add_eq_ok.mp h₁
      rw [h₁] at h
      exact MuxCtx.addAll_error (m := ⟨m.remaining, setKey m.releasedset id⟩) h

theorem balancerMux_error : ∀ {bals : List (List RunningTask → List String)} {m : MuxCtx}
    {e : String}, balancerMux bals m = .error e → e = addPanic m.remaining.length
  | [], _, _, h => by cases h
  | b :: bs, m, e, h => by
    rw [balancerMux] at h
    cases h₁ : m.addAll (b m.remaining) with
    | error e' => rw [h₁] at h; cases h; exact MuxCtx.addAll_error h₁
    | ok m₁ =>
      obtain ⟨-, rfl⟩ := MuxCtx.addAll_eq_ok.mp h₁
      rw [h₁] at h
      cases h₂ : balancerMux bs ⟨m.remaining, (b m.remaining).foldl setKey m.releasedset⟩ with
      | error e' =>
        simp only [Except.bind, h₂, Except.map] at h
        cases h
        exact balancerMux_error (m := ⟨m.remaining, (b m.remaining).foldl setKey m.releasedset⟩) h₂
      | ok r => simp only [Except.bind, h₂, Except.map] at h; cases h

/-- An ID that no task has makes `BalancerMux.Balance` panic, whatever the other inner balancers
return: `add` panics with a negative `make` length on an empty list and with a write past the end
of `r` on a non-empty one. -/
theorem BalancerMux.balance_panics_of_absent {bals : List (List RunningTask → List String)}
    {tasks : List RunningTask} (habsent : ∃ b ∈ bals, ∃ x ∈ b tasks, x ∉ tasks.map RunningTask.id) :
    BalancerMux.balance bals tasks = .error (addPanic tasks.length) := by
  obtain ⟨b, hb, x, hx, hnot⟩ := habsent
  cases h : BalancerMux.balance bals tasks with
  | ok ids => exact absurd (BalancerMux.balance_ok_iff.mp ⟨ids, h⟩ b hb x hx) hnot
  | error e =>
    unfold BalancerMux.balance at h
    cases h₁ : balancerMux bals (newMuxCtx tasks) with
    | error e' => rw [h₁] at h; cases h; rw [balancerMux_error h₁]; rfl
    | ok r => rw [h₁] at h; cases h

theorem balance_panics_of_absent_c :
    (∃ b ∈ [fun _ : List RunningTask => ["c"]], ∃ x ∈ b [runningA, runningB],
      x ∉ [runningA, runningB].map RunningTask.id) ∧
    BalancerMux.balance [fun _ => ["c"]] [runningA, runningB] = .error (addPanic 2) :=
  have habsent : ∃ b ∈ [fun _ : List RunningTask => ["c"]], ∃ x ∈ b [runningA, runningB],
      x ∉ [runningA, runningB].map RunningTask.id :=
    ⟨_, List.mem_singleton_self _, "c", List.mem_singleton_self _, by decide⟩
  ⟨habsent, BalancerMux.balance_panics_of_absent habsent⟩

example : addPanic 2 = "runtime error: index out of range [1] with length 1" ∧
    BalancerMux.balance [fun _ => ["a"]] [] = .error "runtime error: makeslice: len out of range" :=
  ⟨rfl, rfl⟩

/-! ## `CanClaim` -/

/-- The mux claims exactly when every inner balancer claims, and then with `NoDelay`; otherwise it
returns the answer of the first inner balancer that refuses, all those before it having
claimed. -/
theorem BalancerMux.canClaim_first_refusal {T : Type} (noDelay : T) (task : Task) :
    ∀ bals : List (Task → T × Bool),
      ((BalancerMux.canClaim noDelay bals task).2 = true ↔ ∀ b ∈ bals, (b task).2 = true) ∧
      ((BalancerMux.canClaim noDelay bals task).2 = true →
        BalancerMux.canClaim noDelay bals task = (noDelay, true)) ∧
      ((BalancerMux.canClaim noDelay bals task).2 = false → ∃ pre b post, bals = pre ++ b :: post ∧
        (∀ b' ∈ pre, (b' task).2 = true) ∧ BalancerMux.canClaim noDelay bals task = b task)
  | [] => by simp [BalancerMux.canClaim]
  | b :: bals => by
    obtain ⟨ih₁, ih₂, ih₃⟩ := BalancerMux.canClaim_first_refusal noDelay task bals
    cases hb : (b task).2
    · have hr : BalancerMux.canClaim noDelay (b :: bals) task = b task := by
        simp [BalancerMux.canClaim, hb]
      rw [hr, hb]
      exact ⟨by simp [hb], nofun, fun _ => ⟨[], b, bals, rfl, nofun, rfl⟩⟩
    · have hr : BalancerMux.canClaim noDelay (b :: bals) task =
          BalancerMux.canClaim noDelay bals task := by
        simp [BalancerMux.canClaim, hb]
      rw [hr]
      refine ⟨by simp [ih₁, hb], ih₂, fun h => ?_⟩
      obtain ⟨pre, b', post, rfl, hpre, hres⟩ := ih₃ h
      exact ⟨b :: pre, b', post, rfl, List.forall_mem_cons.mpr ⟨hb, hpre⟩, hres⟩

/-- The first inner balancer releases `a`; the second is still shown `a`. -/
theorem balancerMux_shows_released :
    balancerMux [fun _ => ["a"], fun _ => []] (newMuxCtx [runningA, runningB]) =
      .ok ([[runningA, runningB], [runningA, runningB]], ⟨[runningA, runningB], ["a"]⟩) := rfl

end Metafora
