import Metafora.Consumer.State

/-! # One step of the consumer

`step s a` is the state after the goroutine named by `a` takes one atomic step from `s`, or
`none` when that goroutine cannot move. A step is one critical section of `runL` (or of
`freezeL`, `stopL`), one channel operation, or one call into a collaborator together with
the local work after it; the answers of the collaborators (`CanClaim`, `Claim`, `Balance`,
how `Run` ends, the time) are carried by the action, so every answer is allowed.

`Reachable` is every state some interleaving reaches from `NewConsumer`, and `Reach s s'`
says that `s'` is reached from `s`.
-/

namespace Metafora
set_option autoImplicit false

/-- A step of one goroutine, with the answers of the collaborators it calls. -/
inductive Action
  | run
  | shutdown
  | shutdownStep (i : Nat)
  | watcherExit
  | pollerExit
  | expire (now : Nat)
  | dropResend (i : Nat)
  | recvStop
  | recvBalance (ids : List String)
  | recvTask (t : Task)
  | recvResend (i : Nat)
  /-- The `select` takes a command; `ids` is what `Balance()` returns if the command runs it. -/
  | recvCommand (c : Command) (ids : List String)
  | recvClosed
  | checkIgnored (now : Nat)
  | canClaim (ok : Bool) (deadline : Nat)
  | claim (ok : Bool)
  /-- The locked section of `claimed(task)`, at time `now`. -/
  | start (now : Nat)
  | stopNext
  | join
  | handlerRun (k : Nat)
  | handlerReturn (k : Nat) (r : RunResult)
  | handlerDelete (k : Nat)
  | handlerFinish (k : Nat)
  | handlerExit (k : Nat)
  | runStop (i : Nat) (now : Nat)

namespace Consumer

variable (s : Consumer)

/-- A task arrives at the main loop; it is the `arrivals`-th. -/
@[simps] def receive (t : Task) : Consumer :=
  { s with main := .received t s.arrivals, arrivals := s.arrivals + 1 }

/-- `balance()`: call `Balance()`, then stop each returned task. -/
@[simps] def balance (ids : List String) : Consumer :=
  { s.emit .balance with main := .balancing ids }

/-- The main loop returned: the deferred `shutdown()` closes the coordinator and takes the
`Tasks()` snapshot it will stop. -/
@[simps] def exitLoop : Consumer :=
  { s.emit .close with main := .stopping (s.tasks.map (·.task.id)) }

/-- `handleCommand(cmd)`; `ids` is what `Balance()` returns if the command runs it. -/
def handleCommand (cmd : Command) (ids : List String) : Consumer :=
  if cmd.name = cmdFreeze then
    if s.freeze then s else { s with freeze := true }
  else if cmd.name = cmdUnfreeze then
    if s.freeze then { s with freeze := false } else s
  else if cmd.name = cmdBalance then s.balance ids
  else if cmd.name = cmdStopTask then
    match cmd.taskParam with
    | some id => s.stopTask id
    | none => s
  else s

/-- The section of `claimed(task)` under `runL`: drop the task when `c.stop` is closed or its
ID is already running, else record it in `c.running`, `hwg.Add(1)` and start its handler. -/
def claimed (t : Task) (k now : Nat) : Consumer :=
  if s.stop then { s with main := .loop }
  else if t.id ∈ s.running then { s with main := .loop }
  else { s with main := .loop, running := s.running.insert t.id k, hwg := s.hwg + 1,
                handlers := s.handlers ++ [⟨k, t, now, .spawned⟩] }

/-- The ignore manager's timer at `now`: expired entries leave the set and are re-sent. -/
@[simps] def expire (now : Nat) : Consumer :=
  { s with ignores := s.ignores.filter (fun e => now < e.2),
           resends := s.resends ++ (s.ignores.filter (fun e => !(now < e.2))).map (·.1) }

end Consumer

open Consumer in
/-- One atomic step of the goroutine `a` names. -/
def step (s : Consumer) : Action → Option Consumer
  | .run => if s.main = .idle then some { s with main := .loop, watching := true, polling := true }
      else none
  | .shutdown => some { s with shutdowns := s.shutdowns ++ [.closing] }
  | .shutdownStep i =>
    match s.shutdowns[i]? with
    | some .closing => some { s.close with shutdowns := s.shutdowns.set i .waitHandlers }
    | some .waitHandlers =>
      if s.hwg = 0 then some { s with shutdowns := s.shutdowns.set i .waitRun } else none
    | some .waitRun =>
      if s.main = .idle ∨ s.main = .exited then
        some { s with shutdowns := s.shutdowns.set i .returned } else none
    | _ => none
  | .watcherExit => if s.watching then some { s.close with watching := false } else none
  | .pollerExit => if s.polling then some { s with polling := false } else none
  | .expire now => some (s.expire now)
  | .dropResend i =>
    if s.stop ∧ i < s.resends.length then some { s with resends := s.resends.eraseIdx i }
    else none
  | .recvStop => if s.main = .loop ∧ s.stop then some s.exitLoop else none
  | .recvBalance ids => if s.main = .loop ∧ s.freeze = false then some (s.balance ids) else none
  | .recvTask t =>
    if s.main = .loop ∧ s.freeze = false ∧ s.watching then some (s.receive t) else none
  | .recvResend i =>
    if s.main = .loop ∧ s.freeze = false then
      match s.resends[i]? with
      | some t => some ({ s with resends := s.resends.eraseIdx i }.receive t)
      | none => none
    else none
  | .recvCommand c ids => if s.main = .loop ∧ s.polling then some (s.handleCommand c ids) else none
  | .recvClosed => if s.main = .loop ∧ s.polling = false then some s.exitLoop else none
  | .checkIgnored now =>
    match s.main with
    | .received t k =>
      let r := s.ignored t.id now
      some { s.emit (.ignored k t.id r) with main := if r then .loop else .notIgnored t k }
    | _ => none
  | .canClaim ok deadline =>
    match s.main with
    | .notIgnored t k =>
      if ok then some { s.emit (.canClaim k t.id true) with main := .accepted t k }
      else some { (s.emit (.canClaim k t.id false)).ignore t deadline with main := .loop }
    | _ => none
  | .claim ok =>
    match s.main with
    | .accepted t k =>
      some { s.emit (.claim k t.id ok) with main := if ok then .claimed t k else .loop }
    | _ => none
  | .start now =>
    match s.main with
    | .claimed t k => some (s.claimed t k now)
    | _ => none
  | .stopNext =>
    match s.main with
    | .balancing [] => some { s with main := .loop }
    | .balancing (id :: ids) => some { s.stopTask id with main := .balancing ids }
    | .stopping [] => some { s with main := .waiting }
    | .stopping (id :: ids) => some { s.stopTask id with main := .stopping ids }
    | _ => none
  | .join => if s.main = .waiting ∧ s.hwg = 0 then some { s with main := .exited } else none
  | .handlerRun k =>
    match s.handler? k with
    | some h =>
      if h.pc = .spawned then
        some ((s.updateHandler k fun h => { h with pc := .running }).emit (.runStart k h.task.id))
      else none
    | none => none
  | .handlerReturn k r =>
    match s.handler? k with
    | some h =>
      if h.pc = .running then
        some ((s.updateHandler k fun h => { h with pc := .returned r }).emit
          (.runEnd k h.task.id r))
      else none
    | none => none
  | .handlerDelete k =>
    match s.handler? k with
    | some ⟨_, t, _, .returned r⟩ =>
      some { s.updateHandler k (fun h => { h with pc := .deleted r }) with
        running := s.running.erase t.id }
    | _ => none
  | .handlerFinish k =>
    match s.handler? k with
    | some ⟨_, t, _, .deleted r⟩ =>
      some ((s.updateHandler k fun h => { h with pc := .finished r }).emit (finish k t.id r.done))
    | _ => none
  | .handlerExit k =>
    match s.handler? k with
    | some ⟨_, _, _, .finished _⟩ =>
      some { s with handlers := s.handlers.filter (·.serial ≠ k), hwg := s.hwg - 1 }
    | _ => none
  | .runStop i now =>
    match s.stops[i]? with
    | some k =>
      some { s with stops := s.stops.eraseIdx i,
                    stopped := if (s.stopped.lookup k).isSome then s.stopped
                      else s.stopped ++ [(k, now)] }
    | none => none

/-- Every state some interleaving reaches from `NewConsumer`. -/
inductive Reachable : Consumer → Prop
  | init : Reachable Consumer.init
  | step {s s' : Consumer} (a : Action) : Reachable s → step s a = some s' → Reachable s'

/-- `s'` is reached from `s` in zero or more steps. -/
inductive Reach : Consumer → Consumer → Prop
  | refl (s : Consumer) : Reach s s
  | step {s s' s'' : Consumer} (a : Action) : step s a = some s' → Reach s' s'' → Reach s s''

theorem Reachable.reach {s s' : Consumer} (hs : Reachable s) (h : Reach s s') : Reachable s' := by
  induction h with
  | refl => exact hs
  | step a hstep _ ih => exact ih (Reachable.step a hs hstep)

def runSteps : Consumer → List Action → Option Consumer
  | s, [] => some s
  | s, a :: as => (step s a).bind (runSteps · as)

theorem runSteps_reach {s s' : Consumer} :
    ∀ {as : List Action}, runSteps s as = some s' → Reach s s'
  | [], h => by cases h; exact .refl s
  | a :: as, h => by
    simp only [runSteps, Option.bind_eq_some] at h
    obtain ⟨s₁, h₁, h₂⟩ := h
    exact .step a h₁ (runSteps_reach h₂)

end Metafora
