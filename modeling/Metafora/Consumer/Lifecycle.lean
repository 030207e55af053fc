import Metafora.Consumer.State

/-! # The life of one task arrival

The abstract side of the admission path (spec §3 invariants 1 and 3, §4.1): what happens to one
task the main loop receives, told by the calls made for it. An arrival is ignored, rejected by
the balancer, lost to another node, dropped by `claimed`, or admitted; an admitted one is run
by its own handler goroutine, which ends with exactly one `Done` or `Release`.

* `Stage`: how far an arrival got; `Stage.events k id st` is the list of calls made for
  arrival `k` of task `id` by the time it is at `st`.
* `Stage.settled`: no goroutine holds the arrival any more.
* The lemmas below are the purpose of the lifecycle: after a successful `Claim` there is at most
  one `Done`/`Release`, its kind is the handler's result, and once settled there is exactly
  one precisely when `Run` was started.

`trace log k` is what a consumer log says about arrival `k`; `Invariant` shows it is always
`Stage.events` of some stage, so the lemmas here hold of every run of the consumer.
-/

namespace Metafora
set_option autoImplicit false

/-- How far one task arrival has got. -/
inductive Stage
  | received
  | ignored
  | notIgnored
  | rejected
  | accepted
  | lost
  | claimed
  | dropped
  | admitted (pc : HandlerPc)
  | exited (r : RunResult)
  deriving DecidableEq

/-- The calls up to a successful `Claim`. -/
def claimedEvents (k : Nat) (id : String) : List Event :=
  [.ignored k id false, .canClaim k id true, .claim k id true]

/-- The calls made for arrival `k` of task `id` by the time it is at the stage. -/
def Stage.events (k : Nat) (id : String) : Stage → List Event
  | .received => []
  | .ignored => [.ignored k id true]
  | .notIgnored => [.ignored k id false]
  | .rejected => [.ignored k id false, .canClaim k id false]
  | .accepted => [.ignored k id false, .canClaim k id true]
  | .lost => [.ignored k id false, .canClaim k id true, .claim k id false]
  | .claimed | .dropped | .admitted .spawned => claimedEvents k id
  | .admitted .running => claimedEvents k id ++ [.runStart k id]
  | .admitted (.returned r) | .admitted (.deleted r) =>
    claimedEvents k id ++ [.runStart k id, .runEnd k id r]
  | .admitted (.finished r) | .exited r =>
    claimedEvents k id ++ [.runStart k id, .runEnd k id r, finish k id r.done]

/-- No goroutine of the consumer holds the arrival any more. -/
def Stage.settled : Stage → Bool
  | .ignored | .rejected | .lost | .dropped | .exited _ => true
  | _ => false

/-- What the log says about arrival `k`. -/
def trace (log : List Event) (k : Nat) : List Event := log.filter fun e => e.serial = some k

theorem trace_append (l₁ l₂ : List Event) (k : Nat) :
    trace (l₁ ++ l₂) k = trace l₁ k ++ trace l₂ k := by
  simp only [trace, List.filter_append]

@[simp] theorem trace_emit (log : List Event) (e : Event) (k : Nat) :
    trace (log ++ [e]) k = trace log k ++ if e.serial = some k then [e] else [] := by
  simp only [trace, List.filter_append, List.filter_cons, List.filter_nil, decide_eq_true_eq]

theorem mem_trace {log : List Event} {k : Nat} (e : Event) (he : e.serial = some k) :
    e ∈ trace log k ↔ e ∈ log := by
  simp [trace, he]

@[simp] theorem finish_serial (k : Nat) (id : String) (d : Bool) :
    (finish k id d).serial = some k := by
  cases d <;> rfl

/-! ## What the lifecycle guarantees -/

section
variable (k : Nat) (id : String)

/-- The `Done`/`Release` calls of arrival `k` in a list. -/
def finishes (l : List Event) : List Event := l.filter (Event.finishes k)

@[simp] theorem finish_finishes (k' : Nat) (d : Bool) :
    (finish k' id d).finishes k = decide (k' = k) := by
  cases d <;> rfl

theorem finishes_le_one (st : Stage) : (finishes k (st.events k id)).length ≤ 1 := by
  rcases st with _ | _ | _ | _ | _ | _ | _ | _ | (_ | _ | _ | _ | ((_ | _) | _)) | ((_ | _) | _) <;>
    simp [finishes, Stage.events, claimedEvents, Event.finishes, finish, List.filter_cons]

theorem finish_of_runEnd (st : Stage) (d : Bool) (h : finish k id d ∈ st.events k id) :
    ∃ r, Event.runEnd k id r ∈ st.events k id ∧ r.done = d := by
  rcases st with _ | _ | _ | _ | _ | _ | _ | _ | (_ | _ | _ | _ | ((_ | _) | _)) | ((_ | _) | _) <;>
    cases d <;> simp_all [Stage.events, claimedEvents, finish]

theorem settled_finishes (st : Stage) (hs : st.settled = true) :
    (finishes k (st.events k id)).length = 1 ↔ Event.runStart k id ∈ st.events k id := by
  rcases st with _ | _ | _ | _ | _ | _ | _ | _ | (_ | _ | _ | _ | _) | ((_ | _) | _) <;>
    simp_all [Stage.settled, finishes, Stage.events, claimedEvents, Event.finishes, finish,
      List.filter_cons]

theorem admission_sublist (st : Stage) (h : Event.runStart k id ∈ st.events k id) :
    List.Sublist [.ignored k id false, .canClaim k id true, .claim k id true, .runStart k id]
      (st.events k id) := by
  rcases st with _ | _ | _ | _ | _ | _ | _ | _ | (_ | _ | _ | _ | _) | r <;>
    simp_all [Stage.events, claimedEvents]

end

end Metafora
