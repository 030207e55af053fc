import Metafora.Task
import Mathlib.Data.List.AList
import Mathlib.Data.List.Sort

/-! # The consumer's state (`src/embedded/client.go`, `Consumer`)

One value of `Consumer` is the whole consumer at a moment between two atomic steps: the
fields of the Go struct, the program counter of every goroutine it started, and the calls it
has made so far.

* `running` is `c.running`: task ID ↦ the `*runningtask` stored for it. A `*runningtask` is
  named by the serial of the task arrival whose claim created it; the `runningtask` itself
  (task, `started`, `stopped`) lives in the `Handler` record of the goroutine that runs it.
* `handlers` are the handler goroutines `claimed` started that have not yet run
  `c.hwg.Done()`; `hwg` is the `WaitGroup` counter.
* `main` is the program counter of `Run`'s main loop, `shutdowns` those of the callers inside
  `Shutdown()`, `stops` the `stopTask` goroutines that have not yet called `task.stop()`,
  and `stopped` the `stopped` field of each runningtask `stop()` has set.
* `ignores` and `resends` are the ignore manager's entries and the re-injections it has not
  yet delivered on `c.tasks` (`ignoremgr` is not among the sources; see `Consumer.ignored`).
* `log` lists the calls into the balancer, the coordinator and the handlers, in order, each
  tagged with the serial of the task arrival it was made for.
-/

namespace Metafora
set_option autoImplicit false

/-! ## Calls to the collaborators -/

/-- A call of the consumer into a collaborator, recorded when it returns. `k` is the serial of
the task arrival on whose behalf the main loop or a handler goroutine makes it. -/
inductive Event
  | ignored (k : Nat) (id : String) (r : Bool)
  | canClaim (k : Nat) (id : String) (ok : Bool)
  | claim (k : Nat) (id : String) (ok : Bool)
  | runStart (k : Nat) (id : String)
  | runEnd (k : Nat) (id : String) (r : RunResult)
  | done (k : Nat) (id : String)
  | release (k : Nat) (id : String)
  | balance
  | close
  deriving DecidableEq, Repr

def Event.serial : Event → Option Nat
  | .ignored k _ _ | .canClaim k _ _ | .claim k _ _ | .runStart k _ | .runEnd k _ _
  | .done k _ | .release k _ => some k
  | .balance | .close => none

/-- The call a handler goroutine makes after `runTask` returned `done`. -/
def finish (k : Nat) (id : String) (done : Bool) : Event :=
  if done then .done k id else .release k id

/-- `Done` or `Release` made for arrival `k`. -/
def Event.finishes (k : Nat) : Event → Bool
  | .done k' _ | .release k' _ => k' = k
  | _ => false

/-! ## Goroutines -/

/-- Where a handler goroutine started by `claimed` is. -/
inductive HandlerPc
  /-- Started; `h.Run(tid)` not yet entered. -/
  | spawned
  /-- Inside `h.Run(tid)`. -/
  | running
  /-- `Run` ended with `r`; the deferred delete from `c.running` is next. -/
  | returned (r : RunResult)
  /-- Deleted from `c.running`; `coord.Done` or `coord.Release` is next. -/
  | deleted (r : RunResult)
  /-- `Done` or `Release` called; `c.hwg.Done()` is next. -/
  | finished (r : RunResult)
  deriving DecidableEq, Repr

/-- Before the deferred delete of `runTask`: the goroutine's entry is still in `c.running`. -/
def HandlerPc.listed : HandlerPc → Bool
  | .spawned | .running | .returned _ => true
  | .deleted _ | .finished _ => false

/-- A handler goroutine with the `runningtask` it runs (`newTask(task, h)`); the runningtask's
`stopped` field is `Consumer.stopped`. -/
structure Handler where
  serial : Nat
  task : Task
  started : Nat
  pc : HandlerPc
  deriving DecidableEq

/-- Where `Run` is, each phase named by what it has done: `loop` is the top of the main loop, and
the phases `received` to `claimed` handle one task arrival `k` (its `c.ignored`, `CanClaim`,
`Claim` and `claimed` are next in turn); `balancing` and `stopping` hold the IDs still to pass to
`c.stopTask` in `balance()` and the deferred `shutdown()`, which then waits on `c.hwg`. -/
inductive Main
  | idle
  | loop
  | received (t : Task) (k : Nat)
  | notIgnored (t : Task) (k : Nat)
  | accepted (t : Task) (k : Nat)
  | claimed (t : Task) (k : Nat)
  | balancing (ids : List String)
  | stopping (ids : List String)
  | waiting
  | exited
  deriving DecidableEq

/-- Where a caller of `Shutdown()` is: `c.close()`, `c.hwg.Wait()` and `c.runwg.Wait()` are next
in turn. -/
inductive ShutdownPc
  | closing
  | waitHandlers
  | waitRun
  | returned
  deriving DecidableEq, Repr

/-! ## The consumer -/

/-- The consumer and all goroutines it runs. -/
structure Consumer where
  running : AList (fun _ : String => Nat)
  handlers : List Handler
  hwg : Nat
  stop : Bool
  freeze : Bool
  main : Main
  watching : Bool
  polling : Bool
  ignores : List (Task × Nat)
  resends : List Task
  stops : List Nat
  stopped : List (Nat × Nat)
  shutdowns : List ShutdownPc
  arrivals : Nat
  log : List Event

/-- `NewConsumer`: nothing running, nothing started. -/
def Consumer.init : Consumer where
  running := ∅
  handlers := []
  hwg := 0
  stop := false
  freeze := false
  main := .idle
  watching := false
  polling := false
  ignores := []
  resends := []
  stops := []
  stopped := []
  shutdowns := []
  arrivals := 0
  log := []

namespace Consumer

variable (s : Consumer)

/-- The handler goroutine running arrival `k`'s task, if it is alive. -/
def handler? (k : Nat) : Option Handler := s.handlers.find? (·.serial = k)

/-- `Tasks()`: the running tasks, sorted by ID. -/
def tasks : List Handler :=
  (s.running.keys.insertionSort (· ≤ ·)).filterMap fun id =>
    (s.running.lookup id).bind s.handler?

/-- Modelled from the spec: `ignoremgr.ignored(id)` (spec §4.4), true iff an entry for the ID
exists whose deadline has not passed. -/
def ignored (id : String) (now : Nat) : Bool :=
  s.ignores.any fun e => e.1.id = id && now < e.2

/-- Modelled from the spec: `ignoremgr.add(task, until)` (spec §4.4), record or update. -/
@[simps] def ignore (t : Task) (deadline : Nat) : Consumer :=
  { s with ignores := s.ignores.filter (fun e => e.1.id ≠ t.id) ++ [(t, deadline)] }

/-- `stopTask(taskID)`: look the task up under `runL` and, if it runs, start a goroutine that
calls `task.stop()`. -/
@[simps] def stopTask (id : String) : Consumer :=
  { s with stops := s.stops ++ (s.running.lookup id).toList }

/-- `close()`: close `c.stop` unless it is closed. -/
@[simps] def close : Consumer := { s with stop := true }

@[simps] def updateHandler (k : Nat) (f : Handler → Handler) : Consumer :=
  { s with handlers := s.handlers.map fun h => if h.serial = k then f h else h }

@[simps] def emit (e : Event) : Consumer := { s with log := s.log ++ [e] }

end Consumer

end Metafora
