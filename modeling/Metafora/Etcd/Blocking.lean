import Metafora.Etcd.Command
import Metafora.Etcd.Watcher

/-! # The blocking `Watch` of the first `EtcdCoordinator` in `src/m_etcd/coordinator.go`

The first coordinator of `coordinator.go` (lines 1-505) returns one task ID from `Watch()`; its
`NewEtcdCoordinator` builds the same paths as the streaming one (`EtcdCoordinator`), and its
`Command()` runs the loop of the streaming `Command` (`CommandState`) with `ec.stop` read from the
struct instead of passed to `ec.watch`.

* `EtcdCoordinator.parseTask`: the method of that coordinator: a new task directory of three key
  parts without an owner child, or the removal of `tasks/ID/owner`.
* `BlockingPc`, `EtcdCoordinator.watchStep`: `Watch()` on one answer of etcd, after its
  `ec.closed()` check found the coordinator open. As in `Command`, an error of `ec.watch` that is
  neither the restart nor `ErrWatchStoppedByUser` falls through to `ec.parseTask(resp)` with the
  nil `resp` (`BlockingPc.panicked`).
* `watch_error_parsed`: whenever either loop waits on `ec.watch`, such an error sends it into its
  parser with the nil response, and on every history a GET that finds nothing brings it there.
-/

namespace Metafora
set_option autoImplicit false

/-! ## Model -/

/-- `ec.parseTask(resp)` of the first coordinator. -/
def EtcdCoordinator.parseTask (ec : EtcdCoordinator) (resp : EtcdResponse) : String × Bool :=
  if !hasPrefix resp.node.key ec.taskPath then ("", false)
  else
    let parts := split (trim resp.node.key ['/']) '/'
    if newActions resp.action ∧ parts.length = 3 ∧ resp.node.dir then
      if resp.node.nodes.any fun n => hasSuffix n.key ownerMarker then ("", false)
      else (parts.getD 2 "", true)
    else if releaseActions resp.action ∧ parts.length = 4 ∧ parts.getD 3 "" = ownerMarker then
      (parts.getD 2 "", true)
    else ("", false)

/-- The first of a GET's children that `parseTask` accepts as a create. -/
def EtcdCoordinator.existingTask (ec : EtcdCoordinator) : List EtcdNode → Option String
  | [] => none
  | n :: ns =>
    match ec.parseTask ⟨"create", n, 0⟩ with
    | (task, true) => some task
    | (_, false) => ec.existingTask ns

inductive BlockingPc
  | startWatch
  | watching (index : Nat)
  | returned (taskID : String) (err : Option String)
  /-- `ec.parseTask(resp)` dereferenced the nil `resp` of a failed `watch`. -/
  | panicked
  deriving DecidableEq

/-- `Watch()` on one answer of etcd; `none` when etcd cannot give that answer there. -/
def EtcdCoordinator.watchStep (ec : EtcdCoordinator) (hist : EtcdHistory) :
    BlockingPc → EtcdAnswer → Option BlockingPc
  | .startWatch, .getError err => some (.returned "" (some err))
  | .startWatch, .get etcdIndex nodes =>
    some (match ec.existingTask nodes with
      | some task => .returned task none
      | none => .watching (getIndex etcdIndex nodes))
  | .watching index, .rawWatchError | .watching index, .emptyBody => some (.watching index)
  | .watching _, .expiredIndex => some .startWatch
  | .watching _, .stopped => some (.returned "" none)
  | .watching _, .unmarshalError _ => some .panicked
  | .watching index, .response etcdIndex =>
    (hist.watchFrom (index + 1)).map fun e =>
      match ec.parseTask (e.toResponse etcdIndex) with
      | (task, true) => .returned task none
      | (_, false) => .watching etcdIndex
  | _, _ => none

def EtcdCoordinator.watchRun (ec : EtcdCoordinator) (hist : EtcdHistory) :
    BlockingPc → List EtcdAnswer → Option BlockingPc
  | pc, [] => some pc
  | pc, a :: as => (ec.watchStep hist pc a).bind (ec.watchRun hist · as)

/-! ## A failed watch -/

theorem CommandState.run_append (codec : CommandCodec) (hist : EtcdHistory) :
    ∀ (s : CommandState) (as bs : List EtcdAnswer), s.run codec hist (as ++ bs) =
      (s.run codec hist as).bind (CommandState.run codec hist · bs)
  | s, [], bs => rfl
  | s, a :: as, bs => by
    simp only [List.cons_append, CommandState.run, Option.bind_assoc]
    congr 1; funext s'; exact CommandState.run_append codec hist s' as bs

theorem EtcdCoordinator.watchRun_append (ec : EtcdCoordinator) (hist : EtcdHistory) :
    ∀ (pc : BlockingPc) (as bs : List EtcdAnswer), ec.watchRun hist pc (as ++ bs) =
      (ec.watchRun hist pc as).bind (ec.watchRun hist · bs)
  | pc, [], bs => rfl
  | pc, a :: as, bs => by
    simp only [List.cons_append, EtcdCoordinator.watchRun, Option.bind_assoc]
    congr 1; funext pc'; exact ec.watchRun_append hist pc' as bs

/-- Whenever `Command` (of either coordinator) or the blocking `Watch` waits on `ec.watch`, an
etcd error body that does not unmarshal, or any other error than the restart and the stop, sends
it into its parser with the nil response; a GET that finds nothing gets there on every history. -/
theorem watch_error_parsed (codec : CommandCodec) (ec : EtcdCoordinator) (hist : EtcdHistory)
    (err : String) :
    (∀ as s index, CommandState.init.run codec hist as = some s → s.pc = .watching index →
      CommandState.init.run codec hist (as ++ [.unmarshalError err]) = some ⟨.panicked, s.rounds⟩) ∧
    (∀ as index, ec.watchRun hist .startWatch as = some (.watching index) →
      ec.watchRun hist .startWatch (as ++ [.unmarshalError err]) = some .panicked) ∧
    ∀ etcdIndex, (CommandState.init.run codec hist [.get etcdIndex []]).map (·.pc) =
      some (.watching etcdIndex) ∧
    ec.watchRun hist .startWatch [.get etcdIndex []] = some (.watching etcdIndex) := by
  refine ⟨fun as s index h hs => ?_, fun as index h => ?_, fun _ => ⟨rfl, rfl⟩⟩
  · obtain ⟨pc, rounds⟩ := s
    cases hs
    rw [CommandState.run_append, h]
    rfl
  · rw [EtcdCoordinator.watchRun_append, h]
    rfl

end Metafora
