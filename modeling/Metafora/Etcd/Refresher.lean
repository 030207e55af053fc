import Mathlib.Data.List.Basic

/-! # Keeping the node's key alive (`src/m_etcd/coordinator.go`, `nodeRefresher`, `refreshBy`, `Close`)

`Init` starts `nodeRefresher`, which keeps the node's directory `nodes/<nodeID>` alive. Each
round sets `deadline := time.Now()` plus `nodePathTTL` seconds, waits `nodePathTTL >> 1`
seconds (at least one) unless `ec.stop` closes first, and calls `refreshBy(deadline)`, which
calls `UpdateDir` until one call works, pausing 500 ms after each failure, as long as
`time.Now()` is before the deadline and `ec.stop` is open, and returns the last error. On an
error `nodeRefresher` calls `ec.Close()`: close `ec.stop` unless it is closed, then delete the
node's directory.

* `Refresher`, `Refresher.step`: the `nodeRefresher` goroutine together with the `Close()`
  calls of other goroutines. Every reading of `time.Now()` is an action's argument and never
  runs backwards; the timer and the 500 ms pause are lower bounds the state carries. Closing
  `ec.stop` a second time panics, and nothing moves after a panic.
* `Refresher.Inv` (the calls each round can make) and `Refresher.CloseInv` (the rounds that end
  in `Close`): what every reachable state satisfies, each with its step lemma and its run lemma
  `Refresher.Reachable.inv`, `Refresher.Reachable.closeInv`.
* The results: a round calls `UpdateDir` at most `2 * (nodePathTTL - interval)` times
  (`updateDir_per_round`); with a TTL of one second or less it never calls `UpdateDir` nor
  `Close`, so the key expires and the coordinator stays open (`short_ttl_never_refreshes`);
  it closes the coordinator only after a round in which no call worked
  (`close_after_failed_round`); once `ec.stop` is closed at most one more call starts
  (`updateDir_after_stop`). Such a round's `Close` can race the consumer's and close `ec.stop`
  twice: `close_race_panics` is a run that does so, for every TTL of two seconds or more.
-/

namespace Metafora
set_option autoImplicit false

/-! ## Model -/

/-- `time.Second`, in the nanoseconds of a `time.Duration`. -/
def second : Nat := 1000000000

/-- `500 * time.Millisecond`: the pause of `refreshBy` after a failed `UpdateDir`. -/
def retryPause : Nat := 500 * 1000000

/-- `DefaultNodePathTTL`, the `nodePathTTL` (seconds) `NewEtcdCoordinator` gives every
coordinator; a package variable, so a program may set any value. -/
def defaultNodePathTTL : Nat := 20

/-- The wait of `nodeRefresher`, in seconds: `ttl := ec.nodePathTTL >> 1`, raised to 1. -/
def refreshInterval (nodePathTTL : Nat) : Nat :=
  if nodePathTTL >>> 1 < 1 then 1 else nodePathTTL >>> 1

/-- What the goroutines of this model do that others see, in order. -/
inductive RefreshEvent
  /-- `ec.Client.UpdateDir(ec.nodePath, ec.nodePathTTL)` called in round `r`; the loop read
  `time.Now()` as `now` before it. -/
  | updateDir (r now : Nat)
  | updated (r : Nat) (err : Option String)
  | stopClosed
  | closeCalled (r : Nat)
  | deleted
  deriving DecidableEq, Repr

def RefreshEvent.isUpdateDir (r : Nat) : RefreshEvent → Bool
  | .updateDir r' _ => r' = r
  | _ => false

def RefreshEvent.isCall : RefreshEvent → Bool
  | .updateDir _ _ => true
  | _ => false

/-- Where a call of `ec.Close()` is: its `select` on `ec.stop`, `close(ec.stop)` and
`Delete(ec.nodePath)` are next in turn. -/
inductive ClosePc
  | checking
  | closing
  | deleting
  | returned
  deriving DecidableEq, Repr

/-- Where `nodeRefresher` is. -/
inductive RefresherPc
  | top
  /-- In the `select`; the timer fires at `fire` at the earliest. -/
  | selecting (deadline fire : Nat)
  /-- In `refreshBy`: the loop reads `time.Now()` next, at `notBefore` at the earliest; `err` is
  the last error. -/
  | checking (deadline : Nat) (err : Option String) (notBefore : Nat)
  | calling (deadline now : Nat)
  | updating (deadline : Nat)
  | refreshed (err : Option String)
  | closing (c : ClosePc)
  | returned
  deriving DecidableEq, Repr

/-- The call of `UpdateDir` that has passed its `select` and not yet started. -/
def RefresherPc.pendingCall : RefresherPc → Nat
  | .calling _ _ => 1
  | _ => 0

/-- `nodeRefresher`, the `Close()` calls of other goroutines, `ec.stop`, the last reading of
`time.Now()` and the refresher's round. -/
structure Refresher where
  pc : RefresherPc
  closers : List ClosePc
  stop : Bool
  panicked : Bool
  clock : Nat
  round : Nat
  log : List RefreshEvent

/-- `go ec.nodeRefresher()` in `Init`. -/
def Refresher.init : Refresher := ⟨.top, [], false, false, 0, 0, []⟩

/-- A step of one goroutine, with what it reads from the clock and from etcd. -/
inductive RefresherAction
  | deadline (now : Nat)
  | selectStop
  | selectTimer
  | check (now : Nat)
  | call
  | update (now : Nat) (err : Option String)
  | decide
  | closeStep
  | callClose
  | closerStep (i : Nat)

/-- One step of a `Close()` call at `c`, and where it is next; `none` once it returned. -/
def Refresher.closeNext (s : Refresher) : ClosePc → Option (Refresher × ClosePc)
  | .checking => some (s, if s.stop then .returned else .closing)
  | .closing =>
    if s.stop then some ({ s with panicked := true }, .closing)
    else some ({ s with stop := true, log := s.log ++ [.stopClosed] }, .deleting)
  | .deleting => some ({ s with log := s.log ++ [.deleted] }, .returned)
  | .returned => none

/-- One atomic step of the goroutine `a` names, or `none` when it cannot move. -/
def Refresher.step (nodePathTTL : Nat) (s : Refresher) (a : RefresherAction) :
    Option Refresher :=
  if s.panicked then none else
  match a with
  | .deadline now =>
    match s.pc with
    | .top =>
      if s.clock ≤ now then
        some { s with
          pc := .selecting (now + nodePathTTL * second) (now + refreshInterval nodePathTTL * second)
          clock := now }
      else none
    | _ => none
  | .selectStop =>
    match s.pc with
    | .selecting _ _ => if s.stop then some { s with pc := .returned } else none
    | _ => none
  | .selectTimer =>
    match s.pc with
    | .selecting deadline fire => some { s with pc := .checking deadline none fire }
    | _ => none
  | .check now =>
    match s.pc with
    | .checking deadline err notBefore =>
      if s.clock ≤ now ∧ notBefore ≤ now then
        if now < deadline ∧ s.stop = false then
          some { s with pc := .calling deadline now, clock := now }
        else some { s with pc := .refreshed err, clock := now }
      else none
    | _ => none
  | .call =>
    match s.pc with
    | .calling deadline now =>
      some { s with pc := .updating deadline, log := s.log ++ [.updateDir s.round now] }
    | _ => none
  | .update now err =>
    match s.pc with
    | .updating deadline =>
      if s.clock ≤ now then
        some { s with
          pc := match err with
            | none => .refreshed none
            | some e => .checking deadline (some e) (now + retryPause),
          clock := now, log := s.log ++ [.updated s.round err] }
      else none
    | _ => none
  | .decide =>
    match s.pc with
    | .refreshed none => some { s with pc := .top, round := s.round + 1 }
    | .refreshed (some _) =>
      some { s with pc := .closing .checking, log := s.log ++ [.closeCalled s.round] }
    | _ => none
  | .closeStep =>
    match s.pc with
    | .closing .returned => some { s with pc := .top, round := s.round + 1 }
    | .closing c => (s.closeNext c).map fun p => { p.1 with pc := .closing p.2 }
    | _ => none
  | .callClose => some { s with closers := s.closers ++ [.checking] }
  | .closerStep i =>
    match s.closers[i]? with
    | some c => (s.closeNext c).map fun p => { p.1 with closers := s.closers.set i p.2 }
    | none => none

/-- Every state some interleaving reaches from `Init`. -/
inductive Refresher.Reachable (nodePathTTL : Nat) : Refresher → Prop
  | init : Refresher.Reachable nodePathTTL .init
  | step {s s' : Refresher} (a : RefresherAction) : Refresher.Reachable nodePathTTL s →
      s.step nodePathTTL a = some s' → Refresher.Reachable nodePathTTL s'

def Refresher.runSteps (nodePathTTL : Nat) : Refresher → List RefresherAction → Option Refresher
  | s, [] => some s
  | s, a :: as => (s.step nodePathTTL a).bind (Refresher.runSteps nodePathTTL · as)

theorem Refresher.runSteps_reachable {ttl : Nat} {s s' : Refresher} (hs : s.Reachable ttl) :
    ∀ {as : List RefresherAction}, s.runSteps ttl as = some s' → s'.Reachable ttl
  | [], h => by cases h; exact hs
  | a :: as, h => by
    simp only [Refresher.runSteps, Option.bind_eq_some] at h
    obtain ⟨s₁, h₁, h₂⟩ := h
    exact Refresher.runSteps_reachable (.step a hs h₁) h₂

/-! ## Counting the calls -/

/-- The `UpdateDir` calls of round `r`. -/
def Refresher.calls (s : Refresher) (r : Nat) : Nat := s.log.countP (·.isUpdateDir r)

/-- The `UpdateDir` calls a log records after its first `close(ec.stop)`. -/
def callsAfterStop : List RefreshEvent → Nat
  | [] => 0
  | .stopClosed :: l => l.countP (·.isCall)
  | _ :: l => callsAfterStop l

theorem callsAfterStop_of_not_mem : ∀ {l : List RefreshEvent}, .stopClosed ∉ l →
    callsAfterStop l = 0
  | [], _ => rfl
  | e :: l, h => by
    rw [List.mem_cons, not_or] at h
    cases e <;> simp only [callsAfterStop] <;>
      first | exact absurd rfl h.1 | exact callsAfterStop_of_not_mem h.2

theorem callsAfterStop_append (e : RefreshEvent) : ∀ l : List RefreshEvent,
    callsAfterStop (l ++ [e]) =
      callsAfterStop l + if RefreshEvent.stopClosed ∈ l ∧ e.isCall then 1 else 0
  | [] => by cases e <;> rfl
  | e' :: l => by
    have ih := callsAfterStop_append e l
    cases e' <;> simp [callsAfterStop, ih, List.countP_append, List.countP_cons]

@[simp] theorem RefreshEvent.isUpdateDir_updateDir (r r' now : Nat) :
    (RefreshEvent.updateDir r' now).isUpdateDir r = decide (r' = r) := rfl

@[simp] theorem RefreshEvent.isUpdateDir_updated (r r' : Nat) (err : Option String) :
    (RefreshEvent.updated r' err).isUpdateDir r = false := rfl

@[simp] theorem RefreshEvent.isUpdateDir_stopClosed (r : Nat) :
    RefreshEvent.stopClosed.isUpdateDir r = false := rfl

@[simp] theorem RefreshEvent.isUpdateDir_closeCalled (r r' : Nat) :
    (RefreshEvent.closeCalled r').isUpdateDir r = false := rfl

@[simp] theorem RefreshEvent.isUpdateDir_deleted (r : Nat) :
    RefreshEvent.deleted.isUpdateDir r = false := rfl

theorem countP_isUpdateDir_append (e : RefreshEvent) (he : e.isCall = false)
    (l : List RefreshEvent) (r : Nat) :
    (l ++ [e]).countP (·.isUpdateDir r) = l.countP (·.isUpdateDir r) := by
  cases e <;> simp_all [List.countP_append, RefreshEvent.isCall]

theorem Refresher.closeNext_cases {s s₁ : Refresher} {c c' : ClosePc}
    (h : s.closeNext c = some (s₁, c')) :
    s₁.pc = s.pc ∧ s₁.clock = s.clock ∧ s₁.round = s.round ∧
      ((s₁.log = s.log ∧ s₁.stop = s.stop) ∨ (s₁.log = s.log ++ [.deleted] ∧ s₁.stop = s.stop) ∨
        (s.stop = false ∧ s₁.stop = true ∧ s₁.log = s.log ++ [.stopClosed])) := by
  cases c <;> simp only [Refresher.closeNext] at h
  case checking => cases h; exact ⟨rfl, rfl, rfl, .inl ⟨rfl, rfl⟩⟩
  case closing =>
    split_ifs at h with hs <;> cases h
    · exact ⟨rfl, rfl, rfl, .inl ⟨rfl, rfl⟩⟩
    · exact ⟨rfl, rfl, rfl, .inr (.inr ⟨by simpa using hs, rfl, rfl⟩)⟩
  case deleting => cases h; exact ⟨rfl, rfl, rfl, .inr (.inl ⟨rfl, rfl⟩)⟩
  case returned => cases h

theorem Refresher.closeNext_calls {s s₁ : Refresher} {c c' : ClosePc}
    (h : s.closeNext c = some (s₁, c')) (r : Nat) : s₁.calls r = s.calls r := by
  obtain ⟨-, -, -, ⟨hl, -⟩ | ⟨hl, -⟩ | ⟨-, -, hl⟩⟩ := Refresher.closeNext_cases h <;>
    simp only [Refresher.calls, hl, countP_isUpdateDir_append .deleted rfl,
      countP_isUpdateDir_append .stopClosed rfl]

/-! ## The invariant -/

/-- Where the refresher is in its round, with what the clock allows. With `I` and `T` the wait
and the TTL in nanoseconds and `n` the round's calls so far, `D + I + n * retryPause ≤ t + T`
says that the next reading of the clock, at `t` or later, comes after the timer and after a
pause behind each failed call. -/
def Refresher.Phase (nodePathTTL : Nat) (s : Refresher) : Prop :=
  let I := refreshInterval nodePathTTL * second
  let T := nodePathTTL * second
  let n := s.calls s.round
  match s.pc with
  | .top => n = 0
  | .selecting deadline fire => n = 0 ∧ deadline + I = fire + T
  | .checking deadline err notBefore =>
    deadline + I + n * retryPause ≤ notBefore + T ∧ (err.isSome → 0 < n)
  | .calling deadline now =>
    now < deadline ∧ now ≤ s.clock ∧ deadline + I + n * retryPause ≤ now + T
  | .updating deadline => deadline + I + n * retryPause ≤ s.clock + retryPause + T ∧ 0 < n
  | .refreshed err => err.isSome → 0 < n
  | .closing _ => 0 < n
  | .returned => True

/-- What every reachable state satisfies. -/
structure Refresher.Inv (nodePathTTL : Nat) (s : Refresher) : Prop where
  phase : s.Phase nodePathTTL
  fresh : ∀ r, s.round < r → s.calls r = 0
  bound : ∀ r, s.calls r ≤ 2 * (nodePathTTL - refreshInterval nodePathTTL)
  closed : ∀ r, RefreshEvent.closeCalled r ∈ s.log → 0 < s.calls r
  open_log : s.stop = false → RefreshEvent.stopClosed ∉ s.log
  after_stop : s.stop = true → callsAfterStop s.log + s.pc.pendingCall ≤ 1

theorem Refresher.Inv.init (nodePathTTL : Nat) : Refresher.init.Inv nodePathTTL where
  phase := rfl
  fresh _ _ := rfl
  bound _ := Nat.zero_le _
  closed _ h := by cases h
  open_log _ h := by cases h
  after_stop h := by cases h

section
variable {ttl : Nat} {s s' : Refresher}

theorem Refresher.Inv.frame (hi : s.Inv ttl) (hlog : s'.log = s.log) (hround : s'.round = s.round)
    (hstop : s'.stop = s.stop) (hphase : s'.Phase ttl)
    (hpend : s'.stop = true → s'.pc.pendingCall ≤ s.pc.pendingCall) : s'.Inv ttl where
  phase := hphase
  fresh r hr := by simpa only [Refresher.calls, hlog] using hi.fresh r (hround ▸ hr)
  bound r := by simpa only [Refresher.calls, hlog] using hi.bound r
  closed r hr := by simpa only [Refresher.calls, hlog] using hi.closed r (hlog ▸ hr)
  open_log h := hlog ▸ hi.open_log (hstop ▸ h)
  after_stop h := by
    have := hi.after_stop (hstop ▸ h)
    have := hpend h
    rw [hlog]
    omega

theorem Refresher.Inv.append (hi : s.Inv ttl) {e : RefreshEvent} (hlog : s'.log = s.log ++ [e])
    (he : e.isCall = false) (hne : e ≠ .stopClosed) (hround : s'.round = s.round)
    (hstop : s'.stop = s.stop) (hphase : s'.Phase ttl)
    (hclosed : ∀ r, e = .closeCalled r → 0 < s.calls r)
    (hpend : s'.stop = true → s'.pc.pendingCall ≤ s.pc.pendingCall) : s'.Inv ttl := by
  have hcalls : ∀ r, s'.calls r = s.calls r := fun r => by
    simp only [Refresher.calls, hlog, countP_isUpdateDir_append e he]
  refine ⟨hphase, fun r hr => (hcalls r).trans (hi.fresh r (hround ▸ hr)),
    fun r => (hcalls r).trans_le (hi.bound r), fun r hr => ?_, fun h => ?_, fun h => ?_⟩
  · rw [hlog, List.mem_append, List.mem_singleton] at hr
    rw [hcalls]
    exact hr.elim (hi.closed r) fun h => hclosed r h.symm
  · rw [hlog, List.mem_append, List.mem_singleton, not_or]
    exact ⟨hi.open_log (hstop ▸ h), Ne.symm hne⟩
  · have := hi.after_stop (hstop ▸ h)
    have := hpend h
    rw [hlog, callsAfterStop_append, he]
    simp only [Bool.false_eq_true, and_false, if_false, Nat.add_zero]
    omega

theorem Refresher.Phase.congr (h : s.Phase ttl) (hpc : s'.pc = s.pc) (hclock : s'.clock = s.clock)
    (hround : s'.round = s.round) (hcalls : ∀ r, s'.calls r = s.calls r) : s'.Phase ttl := by
  unfold Refresher.Phase at h ⊢
  rw [hpc, hclock, hround, hcalls]
  exact h

theorem Refresher.Inv.nextRound (hi : s.Inv ttl) (hlog : s'.log = s.log)
    (hround : s'.round = s.round + 1) (hstop : s'.stop = s.stop) (hpc : s'.pc = .top) :
    s'.Inv ttl where
  phase := by
    simp only [Refresher.Phase, hpc, Refresher.calls, hlog, hround]
    exact hi.fresh _ (Nat.lt_succ_self _)
  fresh r hr := by simpa only [Refresher.calls, hlog] using hi.fresh r (by omega)
  bound r := by simpa only [Refresher.calls, hlog] using hi.bound r
  closed r hr := by simpa only [Refresher.calls, hlog] using hi.closed r (hlog ▸ hr)
  open_log h := hlog ▸ hi.open_log (hstop ▸ h)
  after_stop h := by
    have := hi.after_stop (hstop ▸ h)
    simp only [hlog, hpc, RefresherPc.pendingCall]
    omega

theorem Refresher.Inv.closeStop (hi : s.Inv ttl) (hs : s.stop = false)
    (hlog : s'.log = s.log ++ [.stopClosed]) (hround : s'.round = s.round) (hs' : s'.stop = true)
    (hphase : s'.Phase ttl) (hpend : s'.pc.pendingCall ≤ 1) : s'.Inv ttl := by
  have hcalls : ∀ r, s'.calls r = s.calls r := fun r => by
    simp only [Refresher.calls, hlog, countP_isUpdateDir_append .stopClosed rfl]
  refine ⟨hphase, fun r hr => (hcalls r).trans (hi.fresh r (hround ▸ hr)),
    fun r => (hcalls r).trans_le (hi.bound r), fun r hr => ?_, fun h => absurd (hs'.symm.trans h) (by decide), fun _ => ?_⟩
  · rw [hlog, List.mem_append, List.mem_singleton] at hr
    rw [hcalls]
    exact hr.elim (hi.closed r) fun h => by cases h
  · rw [hlog, callsAfterStop_append, callsAfterStop_of_not_mem (hi.open_log hs)]
    simp only [RefreshEvent.isCall, Bool.false_eq_true, and_false, if_false]
    omega

theorem Refresher.Inv.closeNext (hi : s.Inv ttl) {c c' : ClosePc} {s₁ : Refresher}
    (h : s.closeNext c = some (s₁, c')) (hlog : s'.log = s₁.log) (hround : s'.round = s₁.round)
    (hstop : s'.stop = s₁.stop) (hphase : s'.Phase ttl)
    (hpend : s'.pc.pendingCall ≤ s.pc.pendingCall) : s'.Inv ttl := by
  obtain ⟨-, -, hr, ⟨hl, hst⟩ | ⟨hl, hst⟩ | ⟨hs0, hst, hl⟩⟩ := Refresher.closeNext_cases h
  · exact hi.frame (hlog.trans hl) (hround.trans hr) (hstop.trans hst) hphase fun _ => hpend
  · exact hi.append (hlog.trans hl) rfl (by decide) (hround.trans hr) (hstop.trans hst) hphase
      (fun _ h => by cases h) fun _ => hpend
  · have := hi.after_stop
    refine hi.closeStop hs0 (hlog.trans hl) (hround.trans hr) (hstop.trans hst) hphase ?_
    cases hp : s.pc <;> simp only [hp, RefresherPc.pendingCall] at hpend ⊢ <;> omega

theorem countP_isUpdateDir_append_updateDir (l : List RefreshEvent) (r r' now : Nat) :
    (l ++ [RefreshEvent.updateDir r' now]).countP (fun e : RefreshEvent => e.isUpdateDir r) =
      l.countP (fun e : RefreshEvent => e.isUpdateDir r) + if r' = r then 1 else 0 := by
  simp [List.countP_append, List.countP_cons]

theorem Refresher.Inv.call (hi : s.Inv ttl) {deadline now : Nat}
    (hpc : s.pc = .calling deadline now) :
    ({ s with pc := .updating deadline, log := s.log ++ [.updateDir s.round now] } : Refresher).Inv
      ttl := by
  have hph := hi.phase
  simp only [Refresher.Phase, hpc, Refresher.calls] at hph
  refine ⟨?_, fun r hr => ?_, fun r => ?_, fun r hr => ?_, fun h => ?_, fun h => ?_⟩
  · simp only [Refresher.Phase, Refresher.calls, countP_isUpdateDir_append_updateDir, if_true]
    simp only [second, retryPause] at hph ⊢
    omega
  · simp only [Refresher.calls, countP_isUpdateDir_append_updateDir, if_neg (Nat.ne_of_lt hr)]
    exact hi.fresh r hr
  · simp only [Refresher.calls, countP_isUpdateDir_append_updateDir]
    have hb := hi.bound r
    split_ifs with hr
    · subst hr
      simp only [refreshInterval, second, retryPause, Refresher.calls] at hph hb ⊢
      split_ifs at hph hb ⊢ <;> omega
    · simpa only [Refresher.calls, Nat.add_zero] using hb
  · rw [List.mem_append, List.mem_singleton] at hr
    simp only [Refresher.calls, countP_isUpdateDir_append_updateDir]
    exact hr.elim (fun h => Nat.lt_of_lt_of_le (hi.closed r h) (Nat.le_add_right _ _))
      fun h => by cases h
  · rw [List.mem_append, List.mem_singleton, not_or]
    exact ⟨hi.open_log h, by simp⟩
  · have := hi.after_stop h
    rw [hpc] at this
    rw [callsAfterStop_append]
    simp only [RefresherPc.pendingCall] at this ⊢
    split_ifs <;> omega

theorem Refresher.Inv.step (hi : s.Inv ttl) {a : RefresherAction} (h : s.step ttl a = some s') :
    s'.Inv ttl := by
  have hph := hi.phase
  unfold Refresher.step at h
  by_cases hpan : s.panicked = true
  · rw [if_pos hpan] at h; cases h
  rw [if_neg hpan] at h
  have hpend0 : ∀ {p : RefresherPc}, p.pendingCall = 0 → p.pendingCall ≤ s.pc.pendingCall :=
    fun hp => hp ▸ Nat.zero_le _
  cases a with
  | deadline now =>
    cases hpc : s.pc <;> simp only [hpc, reduceCtorEq] at h
    split_ifs at h; cases h
    refine hi.frame rfl rfl rfl ?_ fun _ => hpend0 rfl
    simp only [Refresher.Phase, hpc, Refresher.calls] at hph ⊢
    exact ⟨hph, by omega⟩
  | selectStop =>
    cases hpc : s.pc <;> simp only [hpc, reduceCtorEq] at h
    split_ifs at h; cases h
    exact hi.frame rfl rfl rfl trivial fun _ => hpend0 rfl
  | selectTimer =>
    cases hpc : s.pc <;> simp only [hpc, reduceCtorEq] at h
    cases h
    refine hi.frame rfl rfl rfl ?_ fun _ => hpend0 rfl
    simp only [Refresher.Phase, hpc, Refresher.calls, retryPause] at hph ⊢
    exact ⟨by omega, nofun⟩
  | check now =>
    cases hpc : s.pc <;> simp only [hpc, reduceCtorEq] at h
    split_ifs at h with hc hd <;> cases h
    · refine hi.frame rfl rfl rfl ?_ fun h => absurd (hd.2.symm.trans h) (by decide)
      simp only [Refresher.Phase, hpc, Refresher.calls] at hph ⊢
      exact ⟨hd.1, le_rfl, by omega⟩
    · refine hi.frame rfl rfl rfl ?_ fun _ => hpend0 rfl
      simp only [Refresher.Phase, hpc, Refresher.calls] at hph ⊢
      exact hph.2
  | call =>
    cases hpc : s.pc <;> simp only [hpc, reduceCtorEq] at h
    cases h
    exact hi.call hpc
  | update now err =>
    cases hpc : s.pc <;> simp only [hpc, reduceCtorEq] at h
    split_ifs at h with hc; cases h
    refine hi.append rfl rfl nofun rfl rfl ?_ (fun _ h => by cases h) fun _ => ?_
    · simp only [Refresher.Phase, hpc, Refresher.calls,
        countP_isUpdateDir_append (.updated s.round err) rfl] at hph ⊢
      cases err
      · exact nofun
      · exact ⟨by omega, fun _ => hph.2⟩
    · cases err <;> exact hpend0 rfl
  | decide =>
    cases hpc : s.pc <;> simp only [hpc, reduceCtorEq] at h
    rename_i err
    cases err <;> cases h
    · exact hi.nextRound rfl rfl rfl rfl
    · simp only [Refresher.Phase, hpc, Refresher.calls] at hph
      refine hi.append rfl rfl nofun rfl rfl ?_ (fun r hr => ?_) fun _ => hpend0 rfl
      · simp only [Refresher.Phase, Refresher.calls,
          countP_isUpdateDir_append (.closeCalled s.round) rfl]
        exact hph rfl
      · cases hr
        exact hph rfl
  | closeStep =>
    cases hpc : s.pc <;> simp only [hpc, reduceCtorEq] at h
    rename_i c
    cases c
    rotate_left 3
    · cases h
      exact hi.nextRound rfl rfl rfl rfl
    all_goals
      obtain ⟨⟨s₁, c'⟩, hn, rfl⟩ := Option.map_eq_some'.mp h
      refine hi.closeNext hn rfl rfl rfl ?_ (by simp [hpc, RefresherPc.pendingCall])
      simp only [Refresher.Phase, hpc] at hph
      show 0 < s₁.calls s₁.round
      rw [Refresher.closeNext_calls hn, (Refresher.closeNext_cases hn).2.2.1]
      exact hph
  | callClose =>
    cases h
    exact hi.frame rfl rfl rfl (hph.congr rfl rfl rfl fun _ => rfl) fun _ => le_rfl
  | closerStep i =>
    cases hc : s.closers[i]? <;> simp only [hc, reduceCtorEq] at h
    obtain ⟨⟨s₁, c'⟩, hn, rfl⟩ := Option.map_eq_some'.mp h
    obtain ⟨hpc, hclock, hr, -⟩ := Refresher.closeNext_cases hn
    have hcalls := Refresher.closeNext_calls hn
    exact hi.closeNext hn rfl rfl rfl (hph.congr hpc hclock hr hcalls) (hpc ▸ le_rfl)

end

theorem Refresher.Reachable.inv {ttl : Nat} {s : Refresher} (hs : s.Reachable ttl) : s.Inv ttl := by
  induction hs with
  | init => exact .init ttl
  | step a _ h ih => exact ih.step h

/-! ## Which rounds end in `Close` -/

/-- In `refreshBy`, or after it returned an error: no call of the round has worked so far. -/
def RefresherPc.failing : RefresherPc → Bool
  | .checking _ _ _ | .calling _ _ | .updating _ | .refreshed (some _) | .closing _ => true
  | _ => false

/-- At the top of the `for` or in its `select`: the round has made no call yet. -/
def RefresherPc.starting : RefresherPc → Bool
  | .top | .selecting _ _ => true
  | _ => false

/-- The round each answer of `UpdateDir` and each `Close()` of the refresher belongs to, and no
`Close()` after a round whose call worked. -/
structure Refresher.CloseInv (s : Refresher) : Prop where
  updated : ∀ r err, RefreshEvent.updated r err ∈ s.log →
    r < s.round ∨ (r = s.round ∧ s.pc.starting = false)
  closeCalled : ∀ r, RefreshEvent.closeCalled r ∈ s.log →
    r < s.round ∨ (r = s.round ∧ ∃ c, s.pc = .closing c)
  failing : s.pc.failing = true → RefreshEvent.updated s.round none ∉ s.log
  closed : ∀ r, RefreshEvent.closeCalled r ∈ s.log → RefreshEvent.updated r none ∉ s.log

section
variable {s s' : Refresher}

theorem Refresher.CloseInv.frame (hi : s.CloseInv) (hround : s'.round = s.round)
    (hmem : ∀ e ∈ s'.log, e ∈ s.log ∨ e = .stopClosed ∨ e = .deleted ∨ e.isCall = true)
    (hstart : s.pc.starting = false → s'.pc.starting = false)
    (hfail : s'.pc.failing = true → s.pc.failing = true ∨ s.pc.starting = true)
    (hclose : (∃ c, s.pc = .closing c) → ∃ c, s'.pc = .closing c) : s'.CloseInv := by
  have hup : ∀ r err, RefreshEvent.updated r err ∈ s'.log → RefreshEvent.updated r err ∈ s.log :=
    fun r err h => by
      rcases hmem _ h with h | h | h | h
      · exact h
      all_goals cases h
  have hcc : ∀ r, RefreshEvent.closeCalled r ∈ s'.log → RefreshEvent.closeCalled r ∈ s.log :=
    fun r h => by
      rcases hmem _ h with h | h | h | h
      · exact h
      all_goals cases h
  refine ⟨fun r err h => ?_, fun r h => ?_, fun hf h => ?_, fun r h h' => ?_⟩
  · rw [hround]
    exact (hi.updated r err (hup r err h)).imp_right fun ⟨hr, hs⟩ => ⟨hr, hstart hs⟩
  · rw [hround]
    exact (hi.closeCalled r (hcc r h)).imp_right fun ⟨hr, hc⟩ => ⟨hr, hclose hc⟩
  · rw [hround] at h
    rcases hfail hf with hf | hs
    · exact hi.failing hf (hup _ _ h)
    · rcases hi.updated _ _ (hup _ _ h) with hr | ⟨-, hr⟩
      · exact Nat.lt_irrefl _ hr
      · rw [hs] at hr
        cases hr
  · exact hi.closed r (hcc r h) (hup r none h')

theorem Refresher.CloseInv.nextRound (hi : s.CloseInv) (hlog : s'.log = s.log)
    (hround : s'.round = s.round + 1) (hpc : s'.pc = .top) : s'.CloseInv where
  updated r err h := by
    rw [hlog] at h
    have := hi.updated r err h
    exact .inl (by omega)
  closeCalled r h := by
    rw [hlog] at h
    have := hi.closeCalled r h
    exact .inl (by omega)
  failing h := by rw [hpc] at h; cases h
  closed r h := by rw [hlog] at h ⊢; exact hi.closed r h

theorem Refresher.CloseInv.closeNext (hi : s.CloseInv) {c c' : ClosePc} {s₁ : Refresher}
    (h : s.closeNext c = some (s₁, c')) (hlog : s'.log = s₁.log) (hround : s'.round = s₁.round)
    (hpc : s'.pc = s.pc ∨ ∃ d d', s.pc = .closing d ∧ s'.pc = .closing d') : s'.CloseInv := by
  obtain ⟨-, -, hr, hcase⟩ := Refresher.closeNext_cases h
  have hl : ∀ e ∈ s'.log, e ∈ s.log ∨ e = .stopClosed ∨ e = .deleted ∨ e.isCall = true := by
    intro e he
    rw [hlog] at he
    rcases hcase with ⟨hl, -⟩ | ⟨hl, -⟩ | ⟨-, -, hl⟩ <;> rw [hl] at he
    · exact .inl he
    all_goals
      rcases List.mem_append.mp he with he | he
      · exact .inl he
      · rw [List.mem_singleton] at he
        tauto
  rcases hpc with hpc | ⟨d, d', hd, hd'⟩
  · exact hi.frame (hround.trans hr) hl (fun h => hpc ▸ h) (fun h => .inl (hpc ▸ h))
      fun h => hpc ▸ h
  · exact hi.frame (hround.trans hr) hl (fun _ => by rw [hd']; rfl)
      (fun _ => .inl (by rw [hd]; rfl)) fun _ => ⟨d', hd'⟩

theorem Refresher.CloseInv.step {ttl : Nat} (hi : s.CloseInv) {a : RefresherAction}
    (h : s.step ttl a = some s') : s'.CloseInv := by
  unfold Refresher.step at h
  by_cases hpan : s.panicked = true
  · rw [if_pos hpan] at h; cases h
  rw [if_neg hpan] at h
  have hsame : ∀ e ∈ s.log, e ∈ s.log ∨ e = .stopClosed ∨ e = .deleted ∨ e.isCall = true :=
    fun e he => .inl he
  cases a with
  | deadline now =>
    cases hpc : s.pc <;> simp only [hpc, reduceCtorEq] at h
    split_ifs at h; cases h
    exact hi.frame rfl hsame (by simp [hpc, RefresherPc.starting])
      (by simp [RefresherPc.failing]) (by simp [hpc])
  | selectStop =>
    cases hpc : s.pc <;> simp only [hpc, reduceCtorEq] at h
    split_ifs at h; cases h
    exact hi.frame rfl hsame (by simp [hpc, RefresherPc.starting])
      (by simp [RefresherPc.failing]) (by simp [hpc])
  | selectTimer =>
    cases hpc : s.pc <;> simp only [hpc, reduceCtorEq] at h
    cases h
    exact hi.frame rfl hsame (by simp [hpc, RefresherPc.starting])
      (by simp [hpc, RefresherPc.starting]) (by simp [hpc])
  | check now =>
    cases hpc : s.pc <;> simp only [hpc, reduceCtorEq] at h
    rename_i err _
    split_ifs at h <;> cases h
    · exact hi.frame rfl hsame (by simp [hpc, RefresherPc.starting])
        (by simp [hpc, RefresherPc.failing]) (by simp [hpc])
    · refine hi.frame rfl hsame (by simp [hpc, RefresherPc.starting]) ?_ (by simp [hpc])
      cases err <;> simp [hpc, RefresherPc.failing]
  | call =>
    cases hpc : s.pc <;> simp only [hpc, reduceCtorEq] at h
    cases h
    refine hi.frame rfl (fun e he => ?_) (by simp [hpc, RefresherPc.starting])
      (by simp [hpc, RefresherPc.failing]) (by simp [hpc])
    rw [List.mem_append, List.mem_singleton] at he
    rcases he with he | rfl
    · exact .inl he
    · exact .inr (.inr (.inr rfl))
  | update now err =>
    cases hpc : s.pc <;> simp only [hpc, reduceCtorEq] at h
    split_ifs at h; cases h
    have hnot : RefreshEvent.closeCalled s.round ∉ s.log := fun hc => by
      rcases hi.closeCalled _ hc with hr | ⟨-, c, hc⟩
      · exact Nat.lt_irrefl _ hr
      · rw [hpc] at hc; cases hc
    have hfail := hi.failing (by simp [hpc, RefresherPc.failing])
    refine ⟨fun r e hm => ?_, fun r hm => ?_, fun hf hm => ?_, fun r hm hm' => ?_⟩
    · simp only [List.mem_append, List.mem_singleton, RefreshEvent.updated.injEq] at hm
      rcases hm with hm | ⟨rfl, -⟩
      · rcases hi.updated r e hm with hr | ⟨hr, -⟩
        · exact .inl hr
        · exact .inr ⟨hr, by cases err <;> rfl⟩
      · exact .inr ⟨rfl, by cases err <;> rfl⟩
    · simp only [List.mem_append, List.mem_singleton, reduceCtorEq, or_false] at hm
      rcases hi.closeCalled r hm with hr | ⟨hr, c, hc⟩
      · exact .inl hr
      · rw [hpc] at hc; cases hc
    · cases err with
      | none => simp [RefresherPc.failing] at hf
      | some e =>
        simp only [List.mem_append, List.mem_singleton, RefreshEvent.updated.injEq,
          reduceCtorEq, and_false, or_false] at hm
        exact hfail hm
    · simp only [List.mem_append, List.mem_singleton, reduceCtorEq, or_false] at hm
      simp only [List.mem_append, List.mem_singleton, RefreshEvent.updated.injEq] at hm'
      rcases hm' with hm' | ⟨rfl, -⟩
      · exact hi.closed r hm hm'
      · exact hnot hm
  | decide =>
    cases hpc : s.pc <;> simp only [hpc, reduceCtorEq] at h
    rename_i err
    cases err <;> cases h
    · exact hi.nextRound rfl rfl rfl
    · have hfail := hi.failing (by simp [hpc, RefresherPc.failing])
      refine ⟨fun r e hm => ?_, fun r hm => ?_, fun _ hm => ?_, fun r hm hm' => ?_⟩
      · simp only [List.mem_append, List.mem_singleton, reduceCtorEq, or_false] at hm
        rcases hi.updated r e hm with hr | ⟨hr, -⟩
        · exact .inl hr
        · exact .inr ⟨hr, rfl⟩
      · simp only [List.mem_append, List.mem_singleton, RefreshEvent.closeCalled.injEq] at hm
        rcases hm with hm | rfl
        · rcases hi.closeCalled r hm with hr | ⟨hr, c, hc⟩
          · exact .inl hr
          · rw [hpc] at hc; cases hc
        · exact .inr ⟨rfl, _, rfl⟩
      · simp only [List.mem_append, List.mem_singleton, reduceCtorEq, or_false] at hm
        exact hfail hm
      · simp only [List.mem_append, List.mem_singleton, RefreshEvent.closeCalled.injEq] at hm
        simp only [List.mem_append, List.mem_singleton, reduceCtorEq, or_false] at hm'
        rcases hm with hm | rfl
        · exact hi.closed r hm hm'
        · exact hfail hm'
  | closeStep =>
    cases hpc : s.pc <;> simp only [hpc, reduceCtorEq] at h
    rename_i c
    cases c
    rotate_left 3
    · cases h
      exact hi.nextRound rfl rfl rfl
    all_goals
      obtain ⟨⟨s₁, c'⟩, hn, rfl⟩ := Option.map_eq_some'.mp h
      exact hi.closeNext hn rfl rfl (.inr ⟨_, _, hpc, rfl⟩)
  | callClose =>
    cases h
    exact hi.frame rfl hsame id (fun hf => .inl hf) id
  | closerStep i =>
    cases hc : s.closers[i]? <;> simp only [hc, reduceCtorEq] at h
    obtain ⟨⟨s₁, c'⟩, hn, rfl⟩ := Option.map_eq_some'.mp h
    exact hi.closeNext hn rfl rfl (.inl (Refresher.closeNext_cases hn).1)

end

theorem Refresher.Reachable.closeInv {ttl : Nat} {s : Refresher} (hs : s.Reachable ttl) :
    s.CloseInv := by
  induction hs with
  | init => exact ⟨nofun, nofun, nofun, nofun⟩
  | step a _ h ih => exact ih.step h

/-! ## What every run guarantees -/

theorem refreshInterval_of_le_one {ttl : Nat} (h : ttl ≤ 1) : refreshInterval ttl = 1 := by
  simp only [refreshInterval, Nat.shiftRight_eq_div_pow]
  split_ifs <;> omega

theorem refreshInterval_add_pause {ttl : Nat} (h : 2 ≤ ttl) :
    refreshInterval ttl * second + retryPause ≤ ttl * second := by
  simp only [refreshInterval, Nat.shiftRight_eq_div_pow, second, retryPause]
  split_ifs <;> omega

/-- The consumer's `Close()` closes `ec.stop` while `nodeRefresher`, with the default TTL, has
passed its `select` in `refreshBy`; the call then starts. -/
def stoppedDuringCall : Refresher :=
  ⟨.updating (20 * second), [.deleting], true, false, 10 * second, 0,
    [.stopClosed, .updateDir 0 (10 * second)]⟩

theorem stoppedDuringCall_reachable : stoppedDuringCall.Reachable defaultNodePathTTL :=
  Refresher.runSteps_reachable .init (rfl : Refresher.init.runSteps defaultNodePathTTL
    [.deadline 0, .selectTimer, .check (10 * second), .callClose, .closerStep 0, .closerStep 0,
      .call] = some stoppedDuringCall)

/-- Over every interleaving, a round of `nodeRefresher` calls `UpdateDir` at most
`2 * (nodePathTTL - interval)` times: the first call comes after the timer, each later one
500 ms after the one before, and all before the round's deadline. -/
theorem updateDir_per_round {ttl : Nat} {s : Refresher} (hs : s.Reachable ttl) (r : Nat) :
    s.calls r ≤ 2 * (ttl - refreshInterval ttl) :=
  hs.inv.bound r

theorem updateDir_per_round_stoppedDuringCall :
    stoppedDuringCall.Reachable defaultNodePathTTL ∧
      stoppedDuringCall.calls 0 ≤ 2 * (defaultNodePathTTL - refreshInterval defaultNodePathTTL) :=
  ⟨stoppedDuringCall_reachable, updateDir_per_round stoppedDuringCall_reachable 0⟩

/-- With a `nodePathTTL` of one second or less the timer fires at or after the deadline, so
`refreshBy` returns `nil` without calling `UpdateDir`: over every interleaving,
`nodeRefresher` never refreshes the node's key and never closes the coordinator, though the
key expires. -/
theorem short_ttl_never_refreshes {ttl : Nat} (httl : ttl ≤ 1) {s : Refresher}
    (hs : s.Reachable ttl) (r now : Nat) :
    RefreshEvent.updateDir r now ∉ s.log ∧ RefreshEvent.closeCalled r ∉ s.log := by
  have hi := hs.inv
  have hzero : s.calls r = 0 := by
    have := hi.bound r
    rw [refreshInterval_of_le_one httl] at this
    omega
  refine ⟨fun hm => ?_, fun hm => absurd (hi.closed r hm) (by omega)⟩
  have : 0 < s.calls r := List.countP_pos_iff.mpr ⟨_, hm, by simp⟩
  omega

/-- A round with a `nodePathTTL` of one second: the timer fires at the deadline. -/
def idleRound : Refresher := ⟨.top, [], false, false, second, 1, []⟩

theorem idleRound_reachable : idleRound.Reachable 1 :=
  Refresher.runSteps_reachable .init (rfl : Refresher.init.runSteps 1
    [.deadline 0, .selectTimer, .check second, .decide] = some idleRound)

theorem short_ttl_never_refreshes_idleRound :
    1 ≤ 1 ∧ idleRound.Reachable 1 ∧
      RefreshEvent.updateDir 0 second ∉ idleRound.log ∧ RefreshEvent.closeCalled 0 ∉ idleRound.log :=
  ⟨le_rfl, idleRound_reachable, short_ttl_never_refreshes le_rfl idleRound_reachable 0 second⟩

/-- Once `ec.stop` is closed, `nodeRefresher` starts at most one more `UpdateDir` call: the
one whose `select` found `ec.stop` open just before. -/
theorem updateDir_after_stop {ttl : Nat} {s : Refresher} (hs : s.Reachable ttl) :
    callsAfterStop s.log ≤ 1 := by
  have hi := hs.inv
  cases hst : s.stop
  · rw [callsAfterStop_of_not_mem (hi.open_log hst)]
    exact Nat.zero_le 1
  · have := hi.after_stop hst
    omega

theorem updateDir_after_stop_stoppedDuringCall :
    stoppedDuringCall.Reachable defaultNodePathTTL ∧ callsAfterStop stoppedDuringCall.log ≤ 1 :=
  ⟨stoppedDuringCall_reachable, updateDir_after_stop stoppedDuringCall_reachable⟩

/-- `nodeRefresher` closes the coordinator only after a round that called `UpdateDir` and in
which no call worked: over every interleaving, a refreshed round never ends in `Close()`. -/
theorem close_after_failed_round {ttl : Nat} {s : Refresher} (hs : s.Reachable ttl) {r : Nat}
    (hc : RefreshEvent.closeCalled r ∈ s.log) :
    0 < s.calls r ∧ RefreshEvent.updated r none ∉ s.log :=
  ⟨hs.inv.closed r hc, hs.closeInv.closed r hc⟩

/-- With the default TTL the round's one call fails, the deadline passes, and `nodeRefresher`
calls `Close()`. -/
def closingRound : Refresher :=
  ⟨.closing .checking, [], false, false, 20 * second, 0,
    [.updateDir 0 (10 * second), .updated 0 (some "etcd unreachable"), .closeCalled 0]⟩

theorem closingRound_reachable : closingRound.Reachable defaultNodePathTTL :=
  Refresher.runSteps_reachable .init (rfl : Refresher.init.runSteps defaultNodePathTTL
    [.deadline 0, .selectTimer, .check (10 * second), .call,
      .update (10 * second) (some "etcd unreachable"), .check (20 * second), .decide] =
    some closingRound)

theorem close_after_failed_round_closingRound :
    closingRound.Reachable defaultNodePathTTL ∧ RefreshEvent.closeCalled 0 ∈ closingRound.log ∧
      0 < closingRound.calls 0 ∧ RefreshEvent.updated 0 none ∉ closingRound.log :=
  have hc : RefreshEvent.closeCalled 0 ∈ closingRound.log := by decide
  ⟨closingRound_reachable, hc, close_after_failed_round closingRound_reachable hc⟩

/-- A schedule of one round: the timer fires, the one `UpdateDir` call fails, the deadline
passes, and `nodeRefresher` calls `ec.Close()` while the consumer's `Close()` passes its
`select` too. -/
def closeRace (ttl : Nat) : List RefresherAction :=
  [.deadline 0, .selectTimer, .check (refreshInterval ttl * second), .call,
    .update (refreshInterval ttl * second) (some "etcd unreachable"), .check (ttl * second),
    .decide, .callClose, .closeStep, .closerStep 0, .closeStep, .closerStep 0]

/-- `Close()` is not safe to call concurrently, and `nodeRefresher` calls it from its own
goroutine: whenever a round can call `UpdateDir` (a `nodePathTTL` of two seconds or more),
some interleaving with a single `Close()` of the consumer closes `ec.stop` twice, which panics. -/
theorem close_race_panics (ttl : Nat) (h : 2 ≤ ttl) :
    ∃ s : Refresher, s.Reachable ttl ∧ s.panicked = true ∧ s.closers.length = 1 := by
  have hp := refreshInterval_add_pause h
  have hlt : refreshInterval ttl * second < ttl * second := by
    simp only [retryPause] at hp
    omega
  obtain ⟨s, hrun, hs⟩ : ∃ s : Refresher, Refresher.init.runSteps ttl (closeRace ttl) = some s ∧
      s.panicked = true ∧ s.closers.length = 1 := by
    simp only [closeRace, Refresher.runSteps, Refresher.step, Refresher.init, Refresher.closeNext,
      Bool.false_eq_true, ↓reduceIte, le_refl, Nat.zero_add, Nat.zero_le, and_self, and_true, hlt,
      hlt.le, hp, lt_self_iff_false, Option.bind_some, Option.some_bind, Option.map_some',
      List.nil_append, List.singleton_append, List.cons_append, List.length_singleton,
      Nat.lt_add_one, List.getElem?_eq_getElem, List.getElem_cons_zero, List.set_cons_zero,
      Option.some.injEq, exists_eq_left']
  exact ⟨s, Refresher.runSteps_reachable .init hrun, hs⟩

end Metafora
