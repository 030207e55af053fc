import Metafora.Task

/-! # Embedded coordinators sharing a command channel (`src/embedded`)

* `EmbeddedCoordinator`, `newEmbeddedCoordinator`: `NewEmbeddedCoordinator(nodeid, inchan,
  cmdchan)` builds its struct without setting `nodeid`.
* `Embedded`: the coordinators over one unbuffered `cmdchan`, each with the node ID it was
  created with, and the `EmbeddedClient.SubmitCommand` sends blocked on the channel, oldest
  first (a receive takes the first of them).
* `Embedded.step`: creating a coordinator, `SubmitCommand`, the two cases of the `select` in
  `EmbeddedCoordinator.Command`, and `Close`. Nothing in `src` closes `cmdchan`, so the
  "Cmd channel closed" case never fires and is left out.
* `Embedded.command_ignores_nodeId`: a command goes to whichever coordinator receives first;
  `Command` never reads `NodeId`, so `embedded_command_misrouted` hands a command submitted for
  `n2` to the coordinator of `n1`.
-/

namespace Metafora
set_option autoImplicit false

/-! ## Model -/

structure NodeCommand where
  cmd : Command
  nodeId : String

/-- The fields of `EmbeddedCoordinator` that `Command` and `Close` touch. -/
structure EmbeddedCoordinator where
  nodeid : String
  stopchan : Bool

/-- `NewEmbeddedCoordinator(nodeid, inchan, cmdchan)`: the struct literal leaves `nodeid`
empty. -/
def newEmbeddedCoordinator (_nodeid : String) : EmbeddedCoordinator := ⟨"", false⟩

/-- What happened on the shared command channel. -/
inductive EmbeddedEvent
  | submitted (nc : NodeCommand)
  | received (k : Nat) (nc : NodeCommand)
  | stopped (k : Nat)

/-- Coordinators with the node ID each was created with, the blocked sends on `cmdchan`, and the
channel's history. -/
structure Embedded where
  coords : List (String × EmbeddedCoordinator)
  sendq : List NodeCommand
  log : List EmbeddedEvent

def Embedded.init : Embedded := ⟨[], [], []⟩

inductive EmbeddedAction
  | newEmbeddedCoordinator (nodeid : String)
  | submitCommand (nodeid : String) (command : Command)
  | recvCommand (k : Nat)
  | recvStop (k : Nat)
  | close (k : Nat)

/-- One step; `none` when the action cannot happen (a receive with nothing to receive, or a
second `Close`, which panics on `close(e.stopchan)`). -/
def Embedded.step (s : Embedded) : EmbeddedAction → Option Embedded
  | .newEmbeddedCoordinator nodeid =>
    some { s with coords := s.coords ++ [(nodeid, newEmbeddedCoordinator nodeid)] }
  | .submitCommand nodeid command =>
    some { s with sendq := s.sendq ++ [⟨command, nodeid⟩],
                  log := s.log ++ [.submitted ⟨command, nodeid⟩] }
  | .recvCommand k =>
    match s.coords[k]?, s.sendq with
    | some _, nc :: rest => some { s with sendq := rest, log := s.log ++ [.received k nc] }
    | _, _ => none
  | .recvStop k =>
    match s.coords[k]? with
    | some (_, e) => if e.stopchan then some { s with log := s.log ++ [.stopped k] } else none
    | none => none
  | .close k =>
    match s.coords[k]? with
    | some (n, e) =>
      if e.stopchan then none else some { s with coords := s.coords.set k (n, { e with stopchan := true }) }
    | none => none

inductive Embedded.Reachable : Embedded → Prop
  | init : Embedded.Reachable Embedded.init
  | step {s s' : Embedded} (a : EmbeddedAction) : Embedded.Reachable s → s.step a = some s' →
      Embedded.Reachable s'

def Embedded.runSteps : Embedded → List EmbeddedAction → Option Embedded
  | s, [] => some s
  | s, a :: as => (s.step a).bind (Embedded.runSteps · as)

theorem Embedded.runSteps_reachable {s s' : Embedded} (hs : s.Reachable) :
    ∀ {as : List EmbeddedAction}, s.runSteps as = some s' → s'.Reachable
  | [], h => by cases h; exact hs
  | a :: as, h => by
    simp only [Embedded.runSteps, Option.bind_eq_some] at h
    obtain ⟨s₁, h₁, h₂⟩ := h
    exact Embedded.runSteps_reachable (.step a hs h₁) h₂

/-! ## Routing -/

/-- Whichever coordinator receives next gets the oldest blocked send, whatever its `NodeId`. -/
theorem Embedded.command_ignores_nodeId {s : Embedded} {k : Nat} {nc : NodeCommand}
    {rest : List NodeCommand} (hk : k < s.coords.length) (hq : s.sendq = nc :: rest) :
    s.step (.recvCommand k) = some { s with sendq := rest, log := s.log ++ [.received k nc] } := by
  simp [Embedded.step, List.getElem?_eq_getElem hk, hq]

/-- Coordinators created for `n1` and then `n2` share a channel; a `freeze` submitted for `n2` is
received by the one created for `n1`. -/
theorem embedded_command_misrouted :
    ∃ s : Embedded, s.Reachable ∧ s.coords.map Prod.fst = ["n1", "n2"] ∧
      EmbeddedEvent.received 0 ⟨⟨cmdFreeze, []⟩, "n2"⟩ ∈ s.log := by
  have hrun : Embedded.init.runSteps [.newEmbeddedCoordinator "n1", .newEmbeddedCoordinator "n2",
      .submitCommand "n2" ⟨cmdFreeze, []⟩, .recvCommand 0] =
      some ⟨[("n1", ⟨"", false⟩), ("n2", ⟨"", false⟩)], [],
        [.submitted ⟨⟨cmdFreeze, []⟩, "n2"⟩, .received 0 ⟨⟨cmdFreeze, []⟩, "n2"⟩]⟩ := rfl
  exact ⟨_, Embedded.runSteps_reachable .init hrun, rfl,
    List.mem_cons_of_mem _ (List.mem_singleton_self _)⟩

end Metafora
