import Metafora.Consumer.Shutdown

/-! # Shutting down can always finish (`src/embedded/client.go`, `Shutdown`, `shutdown`)

`Shutdown()` closes `c.stop`, then waits on `c.hwg` for the handler goroutines and on
`c.runwg` for `Run`; `Run`'s deferred `shutdown()` waits on `c.hwg` too. None of these waits
can block for good: from every reachable state some continuation, in which a caller enters
`Shutdown()`, each handler's `Run` returns and the consumer's own goroutines take their steps,
reaches a state where `Run` has returned and every `Shutdown()` call has returned
(`shutdown_completes`).

The continuation is built in three phases, each from a step lemma that lowers a measure:

* `Consumer.canExit`: one handler goroutine runs on to its `c.hwg.Done()`;
  `drain_handlers`: all of them, by the number left.
* `Main.rank`, `main_step`: once `c.stop` is closed and no handler is left, `Run` has a step
  to a lower rank; `main_exits`: `Run` returns.
* `ShutdownPc.rank`, `ShutdownPc.ranks`, `caller_step`: once `Run` has returned, a caller of
  `Shutdown()` that has not returned has a step to a lower rank; `callers_return`: all of them
  return.
-/

namespace Metafora
set_option autoImplicit false

theorem Reach.trans {s₁ s₂ s₃ : Consumer} (h₁ : Reach s₁ s₂) (h₂ : Reach s₂ s₃) :
    Reach s₁ s₃ := by
  induction h₁ with
  | refl => exact h₂
  | step a h _ ih => exact .step a h (ih h₂)

/-! ## Handler goroutines run to their end -/

theorem Consumer.Inv.handler?_of_mem {s : Consumer} (hi : s.Inv) {h₀ : Handler}
    (hh : h₀ ∈ s.handlers) : s.handler? h₀.serial = some h₀ := by
  cases hf : s.handler? h₀.serial with
  | none => exact absurd (by simp) (List.find?_eq_none.mp hf h₀ hh)
  | some h' =>
    obtain ⟨hh', hs'⟩ := Consumer.handler?_spec hf
    rw [List.inj_on_of_nodup_map hi.nodup hh' hh hs']

theorem filter_updateHandler (s : Consumer) (k : Nat) (q : HandlerPc) :
    (s.updateHandler k fun h => { h with pc := q }).handlers.filter (·.serial ≠ k) =
      s.handlers.filter (·.serial ≠ k) := by
  rw [Consumer.updateHandler_handlers]
  induction s.handlers with
  | nil => rfl
  | cons h l ih => by_cases hk : h.serial = k <;> simp_all

/-- Handler goroutine `k` can run on to its `c.hwg.Done()` while `Run` and the callers of
`Shutdown()` stay where they are: its entry leaves `handlers` and no other entry changes. -/
def Consumer.CanExit (s : Consumer) (k : Nat) : Prop :=
  ∃ s', Reach s s' ∧ s'.handlers = s.handlers.filter (·.serial ≠ k) ∧ s'.main = s.main ∧
    s'.stop = s.stop ∧ s'.shutdowns = s.shutdowns

namespace Consumer

theorem canExit_of_step {s s₁ : Consumer} {a : Action} {k : Nat} (q : HandlerPc)
    (h : step s a = some s₁)
    (hh : s₁.handlers = (s.updateHandler k fun h => { h with pc := q }).handlers)
    (hm : s₁.main = s.main) (hst : s₁.stop = s.stop) (hsd : s₁.shutdowns = s.shutdowns)
    (h₁ : s₁.CanExit k) : s.CanExit k := by
  obtain ⟨s', hr, hh', hm', hst', hsd'⟩ := h₁
  exact ⟨s', .step a h hr, by rw [hh', hh, filter_updateHandler], hm'.trans hm, hst'.trans hst,
    hsd'.trans hsd⟩

section
variable {s : Consumer} (hs : Reachable s) {k : Nat} {t : Task} {st : Nat}
include hs

theorem canExit_finished {r : RunResult} (hh : ⟨k, t, st, .finished r⟩ ∈ s.handlers) :
    s.CanExit k := by
  have hget : s.handler? k = some ⟨k, t, st, .finished r⟩ := hs.inv.handler?_of_mem hh
  exact ⟨{ s with handlers := s.handlers.filter (·.serial ≠ k), hwg := s.hwg - 1 },
    .step (.handlerExit k) (by simp [step, hget]) (.refl _), rfl, rfl, rfl, rfl⟩

theorem canExit_deleted {r : RunResult} (hh : ⟨k, t, st, .deleted r⟩ ∈ s.handlers) :
    s.CanExit k := by
  have hget : s.handler? k = some ⟨k, t, st, .deleted r⟩ := hs.inv.handler?_of_mem hh
  have hstep : step s (.handlerFinish k) = some ((s.updateHandler k fun h =>
      { h with pc := .finished r }).emit (finish k t.id r.done)) := by simp [step, hget]
  exact canExit_of_step _ hstep rfl rfl rfl rfl (canExit_finished (hs.reach (.step _ hstep (.refl _)))
    ((mem_updateHandler hs.inv.nodup hh rfl _).mpr (.inl rfl)))

theorem canExit_returned {r : RunResult} (hh : ⟨k, t, st, .returned r⟩ ∈ s.handlers) :
    s.CanExit k := by
  have hget : s.handler? k = some ⟨k, t, st, .returned r⟩ := hs.inv.handler?_of_mem hh
  have hstep : step s (.handlerDelete k) = some { s.updateHandler k (fun h =>
      { h with pc := .deleted r }) with running := s.running.erase t.id } := by simp [step, hget]
  exact canExit_of_step _ hstep rfl rfl rfl rfl (canExit_deleted (hs.reach (.step _ hstep (.refl _)))
    ((mem_updateHandler hs.inv.nodup hh rfl _).mpr (.inl rfl)))

theorem canExit_running (hh : ⟨k, t, st, .running⟩ ∈ s.handlers) : s.CanExit k := by
  have hget : s.handler? k = some ⟨k, t, st, .running⟩ := hs.inv.handler?_of_mem hh
  have hstep : step s (.handlerReturn k (.returned false)) = some ((s.updateHandler k fun h =>
      { h with pc := .returned (.returned false) }).emit (.runEnd k t.id (.returned false))) := by
    simp [step, hget]
  exact canExit_of_step _ hstep rfl rfl rfl rfl (canExit_returned (hs.reach (.step _ hstep (.refl _)))
    ((mem_updateHandler hs.inv.nodup hh rfl _).mpr (.inl rfl)))

theorem canExit_spawned (hh : ⟨k, t, st, .spawned⟩ ∈ s.handlers) : s.CanExit k := by
  have hget : s.handler? k = some ⟨k, t, st, .spawned⟩ := hs.inv.handler?_of_mem hh
  have hstep : step s (.handlerRun k) = some ((s.updateHandler k fun h =>
      { h with pc := .running }).emit (.runStart k t.id)) := by simp [step, hget]
  exact canExit_of_step _ hstep rfl rfl rfl rfl (canExit_running (hs.reach (.step _ hstep (.refl _)))
    ((mem_updateHandler hs.inv.nodup hh rfl _).mpr (.inl rfl)))

theorem canExit {h₀ : Handler} (hh : h₀ ∈ s.handlers) : s.CanExit h₀.serial := by
  obtain ⟨k, t, st, pc⟩ := h₀
  cases pc with
  | spawned => exact canExit_spawned hs hh
  | running => exact canExit_running hs hh
  | returned r => exact canExit_returned hs hh
  | deleted r => exact canExit_deleted hs hh
  | finished r => exact canExit_finished hs hh

end

end Consumer

theorem drain_handlers {s : Consumer} (hs : Reachable s) :
    ∃ s', Reach s s' ∧ s'.handlers = [] ∧ s'.main = s.main ∧ s'.stop = s.stop ∧
      s'.shutdowns = s.shutdowns := by
  by_cases hnil : s.handlers = []
  · exact ⟨s, .refl s, hnil, rfl, rfl, rfl⟩
  obtain ⟨h₀, hh⟩ := List.exists_mem_of_ne_nil _ hnil
  obtain ⟨s₁, hr₁, hh₁, hm₁, hst₁, hsd₁⟩ := Consumer.canExit hs hh
  have hlt : s₁.handlers.length < s.handlers.length := by
    have := length_filter_serial_ne hs.inv.nodup (List.mem_map_of_mem _ hh)
    rw [hh₁]
    omega
  obtain ⟨s', hr, hh', hm', hst', hsd'⟩ := drain_handlers (hs.reach hr₁)
  exact ⟨s', hr₁.trans hr, hh', hm'.trans hm₁, hst'.trans hst₁, hsd'.trans hsd₁⟩
termination_by s.handlers.length

/-! ## `Run` returns -/

/-- How far `Run` is from returning once `c.stop` is closed and no handler is left: every phase
ranks above the phase its next step leads to. -/
def Main.rank : Main → Nat
  | .received _ _ => 5
  | .idle | .notIgnored _ _ | .accepted _ _ | .claimed _ _ => 4
  | .balancing ids => 4 + ids.length
  | .loop => 3
  | .stopping ids => 2 + ids.length
  | .waiting => 1
  | .exited => 0

theorem main_step {s : Consumer} (hi : s.Inv) (hstop : s.stop = true) (hh : s.handlers = [])
    (hm : s.main ≠ .exited) :
    ∃ a s', step s a = some s' ∧ s'.main.rank < s.main.rank ∧ s'.stop = true ∧
      s'.handlers = [] ∧ s'.shutdowns = s.shutdowns := by
  cases hmain : s.main with
  | idle =>
    exact ⟨.run, { s with main := .loop, watching := true, polling := true },
      by simp [step, hmain], by simp [Main.rank], hstop, hh, rfl⟩
  | loop =>
    have htasks : s.tasks = [] := by simp [Consumer.tasks, hi.running_empty hh]
    exact ⟨.recvStop, s.exitLoop, by simp [step, hmain, hstop], by simp [Main.rank, htasks],
      hstop, hh, rfl⟩
  | received t k =>
    exact ⟨.checkIgnored 0, { s.emit (.ignored k t.id (s.ignored t.id 0)) with
        main := if s.ignored t.id 0 then .loop else .notIgnored t k },
      by simp [step, hmain], by split <;> simp [Main.rank], hstop, hh, rfl⟩
  | notIgnored t k =>
    exact ⟨.canClaim false 0, { (s.emit (.canClaim k t.id false)).ignore t 0 with main := .loop },
      by simp [step, hmain], by simp [Main.rank], hstop, hh, rfl⟩
  | accepted t k =>
    exact ⟨.claim false, { s.emit (.claim k t.id false) with main := .loop },
      by simp [step, hmain], by simp [Main.rank], hstop, hh, rfl⟩
  | claimed t k =>
    exact ⟨.start 0, { s with main := .loop }, by simp [step, hmain, Consumer.claimed, hstop],
      by simp [Main.rank], hstop, hh, rfl⟩
  | balancing ids =>
    cases ids with
    | nil => exact ⟨.stopNext, { s with main := .loop }, by simp [step, hmain], by simp [Main.rank],
        hstop, hh, rfl⟩
    | cons id ids => exact ⟨.stopNext, { s.stopTask id with main := .balancing ids },
        by simp [step, hmain], by simp [Main.rank], hstop, hh, rfl⟩
  | stopping ids =>
    cases ids with
    | nil => exact ⟨.stopNext, { s with main := .waiting }, by simp [step, hmain], by simp [Main.rank],
        hstop, hh, rfl⟩
    | cons id ids => exact ⟨.stopNext, { s.stopTask id with main := .stopping ids },
        by simp [step, hmain], by simp [Main.rank], hstop, hh, rfl⟩
  | waiting =>
    exact ⟨.join, { s with main := .exited }, by simp [step, hmain, hi.hwg, hh], by simp [Main.rank],
      hstop, hh, rfl⟩
  | exited => exact absurd hmain hm

theorem main_exits {s : Consumer} (hs : Reachable s) (hstop : s.stop = true)
    (hh : s.handlers = []) :
    ∃ s', Reach s s' ∧ s'.main = .exited ∧ s'.handlers = [] ∧ s'.shutdowns = s.shutdowns := by
  by_cases hm : s.main = .exited
  · exact ⟨s, .refl s, hm, hh, rfl⟩
  obtain ⟨a, s₁, h₁, hlt, hstop₁, hh₁, hsd₁⟩ := main_step hs.inv hstop hh hm
  obtain ⟨s', hr, hm', hh', hsd'⟩ := main_exits (hs.step a h₁) hstop₁ hh₁
  exact ⟨s', .step a h₁ hr, hm', hh', hsd'.trans hsd₁⟩
termination_by s.main.rank

/-! ## The callers of `Shutdown()` return -/

/-- How many steps a caller of `Shutdown()` is from returning. -/
def ShutdownPc.rank : ShutdownPc → Nat
  | .closing => 3
  | .waitHandlers => 2
  | .waitRun => 1
  | .returned => 0

/-- How many steps the callers of `Shutdown()` together are from returning. -/
def ShutdownPc.ranks : List ShutdownPc → Nat
  | [] => 0
  | p :: ps => p.rank + ranks ps

theorem ranks_set_lt : ∀ {l : List ShutdownPc} {i : Nat} {p q : ShutdownPc},
    l[i]? = some p → q.rank < p.rank → ShutdownPc.ranks (l.set i q) < ShutdownPc.ranks l
  | [], _, _, _, hp, _ => by rw [List.getElem?_nil] at hp; cases hp
  | _ :: _, 0, _, _, hp, hlt => by
    simp only [List.getElem?_cons_zero, Option.some.injEq] at hp
    subst hp
    simp only [List.set_cons_zero, ShutdownPc.ranks]
    omega
  | _ :: l, i + 1, _, _, hp, hlt => by
    rw [List.getElem?_cons_succ] at hp
    have := ranks_set_lt hp hlt
    simp only [List.set_cons_succ, ShutdownPc.ranks]
    omega

theorem caller_step {s : Consumer} (hm : s.main = .exited) (hw : s.hwg = 0) {i : Nat}
    {p : ShutdownPc} (hp : s.shutdowns[i]? = some p) (hne : p ≠ .returned) :
    ∃ s', step s (.shutdownStep i) = some s' ∧ s'.main = .exited ∧ s'.hwg = 0 ∧
      s'.handlers = s.handlers ∧ ∃ q, s'.shutdowns = s.shutdowns.set i q ∧ q.rank < p.rank := by
  cases p with
  | closing => exact ⟨{ s.close with shutdowns := s.shutdowns.set i .waitHandlers },
      by simp [step, hp], hm, hw, rfl, _, rfl, by decide⟩
  | waitHandlers => exact ⟨{ s with shutdowns := s.shutdowns.set i .waitRun },
      by simp [step, hp, hw], hm, hw, rfl, _, rfl, by decide⟩
  | waitRun => exact ⟨{ s with shutdowns := s.shutdowns.set i .returned },
      by simp [step, hp, hm], hm, hw, rfl, _, rfl, by decide⟩
  | returned => exact absurd rfl hne

theorem callers_return {s : Consumer} (hm : s.main = .exited) (hw : s.hwg = 0) :
    ∃ s', Reach s s' ∧ s'.main = .exited ∧ s'.handlers = s.handlers ∧
      s'.shutdowns.length = s.shutdowns.length ∧ ∀ p ∈ s'.shutdowns, p = .returned := by
  by_cases hall : ∀ p ∈ s.shutdowns, p = .returned
  · exact ⟨s, .refl s, hm, rfl, rfl, hall⟩
  push_neg at hall
  obtain ⟨p, hp, hne⟩ := hall
  obtain ⟨i, hi⟩ := List.mem_iff_getElem?.mp hp
  obtain ⟨s₁, h₁, hm₁, hw₁, hh₁, q, hsd₁, hlt⟩ := caller_step hm hw hi hne
  have hdec : ShutdownPc.ranks s₁.shutdowns < ShutdownPc.ranks s.shutdowns :=
    hsd₁ ▸ ranks_set_lt hi hlt
  obtain ⟨s', hr, hm', hh', hlen', hret⟩ := callers_return hm₁ hw₁
  exact ⟨s', .step _ h₁ hr, hm', hh'.trans hh₁, by rw [hlen', hsd₁, List.length_set], hret⟩
termination_by ShutdownPc.ranks s.shutdowns

/-! ## Shutting down -/

/-- From every reachable state, a call of `Shutdown()` can finish: some continuation, in which
each handler's `Run` returns, reaches a state where `Run` has returned, `c.running` is empty and
every `Shutdown()` call, the new one among them, has returned. -/
theorem shutdown_completes {s : Consumer} (hs : Reachable s) :
    ∃ s', Reach s s' ∧ s'.main = .exited ∧ s'.running = ∅ ∧ s'.shutdowns ≠ [] ∧
      ∀ p ∈ s'.shutdowns, p = .returned := by
  let s₁ : Consumer := { s with shutdowns := s.shutdowns ++ [.closing] }
  let s₂ : Consumer :=
    { s₁.close with shutdowns := s₁.shutdowns.set s.shutdowns.length .waitHandlers }
  have h₂ : step s₁ (.shutdownStep s.shutdowns.length) = some s₂ := by simp [step, s₁, s₂]
  have hr₂ : Reach s s₂ := .step .shutdown rfl (.step _ h₂ (.refl _))
  have hs₂ := hs.reach hr₂
  obtain ⟨s₃, hr₃, hh₃, -, hst₃, hsd₃⟩ := drain_handlers hs₂
  obtain ⟨s₄, hr₄, hm₄, hh₄, hsd₄⟩ := main_exits (hs₂.reach hr₃) hst₃ hh₃
  have hs₄ := hs₂.reach (hr₃.trans hr₄)
  obtain ⟨s₅, hr₅, hm₅, hh₅, hlen₅, hret⟩ := callers_return hm₄ (by rw [hs₄.inv.hwg, hh₄]; rfl)
  refine ⟨s₅, hr₂.trans (hr₃.trans (hr₄.trans hr₅)), hm₅,
    (hs₄.reach hr₅).inv.running_empty (hh₅.trans hh₄), ?_, hret⟩
  rw [← List.length_pos, hlen₅, hsd₄, hsd₃]
  simp [s₂, s₁]

theorem shutdown_completes_runningT1 :
    Reachable runningT1 ∧ ∃ s', Reach runningT1 s' ∧ s'.main = .exited ∧ s'.running = ∅ ∧
      s'.shutdowns ≠ [] ∧ ∀ p ∈ s'.shutdowns, p = .returned :=
  ⟨runningT1_reachable, shutdown_completes runningT1_reachable⟩

end Metafora
