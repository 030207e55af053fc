import Mathlib.Data.String.Basic
import Mathlib.Data.List.Chain

/-! # Tasks, property maps and commands

The values the consumer and its collaborators pass around (`task.go`, `command.go` of the
`metafora` package, `src/unnamed/part_002`):

* `Props`: a task's `map[string]string` whose keys and values are valid UTF-8, the strings a
  Lean `String` holds. A Go map has no order and no repeated key, so it is kept as its entries
  sorted by key; two maps are equal exactly when their entries are, and `Props.insert` is
  `m[k] = v`. A nil map reads as the empty one; the one write to a map the caller passes,
  `SubmitTask`'s, first replaces a nil map by an empty one.
* `Task`: `ID()` and `Props()`; `RunningTask`: what a balancer sees of a running task.
* `RunResult`: how a handler's `Run(taskID)` ended, and `RunResult.done`, the value
  `Consumer.runTask` returns for it (a panic counts as done).
* `Command`: a command's `Name()` and `Parameters()`, and the four names `handleCommand` knows.
-/

namespace Metafora
set_option autoImplicit false

/-! ## Property maps -/

/-- `m[k] = v` on entries sorted by key. -/
def insertEntry (k v : String) : List (String × String) → List (String × String)
  | [] => [(k, v)]
  | (k', v') :: rest =>
    if k < k' then (k, v) :: (k', v') :: rest
    else if k = k' then (k, v) :: rest
    else (k', v') :: insertEntry k v rest

theorem insertEntry_head_key (k v : String) (l : List (String × String)) :
    ∀ e ∈ (insertEntry k v l).head?, e.1 = k ∨ ∃ e' ∈ l.head?, e.1 = e'.1 := by
  cases l with
  | nil => simp [insertEntry]
  | cons p rest =>
    obtain ⟨k', v'⟩ := p
    simp only [insertEntry]
    split_ifs <;> simp

theorem insertEntry_sorted (k v : String) :
    ∀ l : List (String × String), l.Chain' (fun a b => a.1 < b.1) →
      (insertEntry k v l).Chain' (fun a b => a.1 < b.1)
  | [], _ => List.chain'_singleton _
  | (k', v') :: rest, h => by
    simp only [insertEntry]
    split_ifs with hlt heq
    · exact List.Chain'.cons hlt h
    · subst heq
      cases rest with
      | nil => exact List.chain'_singleton _
      | cons q rest => exact List.Chain'.cons (List.chain'_cons.mp h).1 (List.chain'_cons.mp h).2
    · have hgt : k' < k := lt_of_le_of_ne (not_lt.mp hlt) (Ne.symm heq)
      refine List.chain'_cons'.mpr ⟨fun e he => ?_, insertEntry_sorted k v rest h.tail⟩
      rcases insertEntry_head_key k v rest e he with hk | ⟨e', he', hk⟩
      · exact hk ▸ hgt
      · exact hk ▸ (List.chain'_cons'.mp h).1 e' he'

/-- A task's property map (`map[string]string`): its entries, sorted by key. -/
structure Props where
  entries : List (String × String)
  sorted : entries.Chain' (fun a b => a.1 < b.1)
  deriving DecidableEq

/-- The empty map (`map[string]string{}`, and `nil`). -/
def Props.empty : Props := ⟨[], List.chain'_nil⟩

def Props.insert (m : Props) (k v : String) : Props :=
  ⟨insertEntry k v m.entries, insertEntry_sorted k v m.entries m.sorted⟩

/-- `m[k]`, with Go's zero value `""` for a missing key. -/
def Props.get (m : Props) (k : String) : String :=
  ((m.entries.find? (fun e => e.1 = k)).map Prod.snd).getD ""

/-! ## Tasks and handler results -/

/-- A task as coordinators hand it to the consumer. -/
structure Task where
  id : String
  props : Props
  deriving DecidableEq

/-- A task as `BalancerContext.Tasks()` hands it to a balancer (`RunningTask`): the task, the
time it started locally, and the time `Stop` was first called on it, if it was. -/
structure RunningTask where
  task : Task
  started : Nat
  stopped : Option Nat
  deriving DecidableEq

def RunningTask.id (rt : RunningTask) : String := rt.task.id

/-- How a handler's `Run(taskID)` ended: it returned `done`, or it panicked. -/
inductive RunResult
  | returned (done : Bool)
  | panicked
  deriving DecidableEq, Repr

/-- The value `runTask` returns: `Run`'s own, and `true` after a panic, which is recovered so
that a crashing task is not rescheduled. -/
def RunResult.done : RunResult → Bool
  | .returned d => d
  | .panicked => true

@[simp] theorem RunResult.done_returned (d : Bool) : (RunResult.returned d).done = d := rfl
@[simp] theorem RunResult.done_panicked : RunResult.panicked.done = true := rfl

/-! ## Commands -/

/-- A command parameter as `handleCommand` reads it: a JSON string, or any other JSON value. -/
inductive Param
  | str (s : String)
  | other
  deriving DecidableEq, Repr

/-- A command: `Name()` and `Parameters()`. -/
structure Command where
  name : String
  parameters : List (String × Param)
  deriving DecidableEq, Repr

/-- Modelled from the spec: the command names of `command.go` (spec §4.2). -/
def cmdFreeze : String := "freeze"

/-- Modelled from the spec: see `cmdFreeze`. -/
def cmdUnfreeze : String := "unfreeze"

/-- Modelled from the spec: see `cmdFreeze`. -/
def cmdBalance : String := "run_balance"

/-- Modelled from the spec: see `cmdFreeze`. -/
def cmdStopTask : String := "stop_task"

/-- `cmd.Parameters()["task"]` asserted to be a string. -/
def Command.taskParam (c : Command) : Option String :=
  match c.parameters.lookup "task" with
  | some (.str s) => some s
  | _ => none

end Metafora
