import Metafora.Etcd.Command
import Metafora.Etcd.Task

/-! # Commands from the etcd client to the streaming coordinator

`mclient.SubmitCommand(node, command)` (`src/unnamed/part_000`) adds the command's JSON as a new
child of `mc.cmdPath(node)`, a child etcd names itself (`AddChild`). The streaming
`EtcdCoordinator.Command` of that node (`src/m_etcd/coordinator.go`) reads its `commandPath`.

* `MClient.cmdPath`, `MClient.submitCommand`: the client's side; the child's name is a
  `ChildName`, an element that is never the metadata marker's key.
* `NodeName`: a node ID of one path element that `NewEtcdCoordinator` keeps as it is.
* `submitCommand_commandPath`: client and coordinator agree on the command directory of a node,
  the submitted key is a child of it, and `parseCommand` decodes the value `SubmitCommand`
  wrote, not taking it for the metadata marker.
* `firstCommand`, `command_returns_first`: what one `Command` call does when etcd answers each
  watch under the index of the event it returns, as it does when nothing else was applied in
  between: it hands `parseCommand` the GET's children up to the first command, or else every
  event after the GET's index in order up to the first command, and returns that command.
  `command_skips_command` is a run in which the header is later than the event.
-/

namespace Metafora
set_option autoImplicit false

/-! ## Model -/

def MClient.cmdPath (mc : MClient) (node : String) : String :=
  pathJoin [mc.nspace, nodesPath, node, "commands"]

/-- The create event of `mc.SubmitCommand(node, command)` at index `i`:
`AddChild(mc.cmdPath(node), command.Marshal(), ForeverTTL)`, which etcd applies as the new key
`name` in that directory. -/
def MClient.submitCommand (codec : CommandCodec) (mc : MClient) (node : String)
    (command : Command) (name : String) (i : Nat) : EtcdEvent :=
  ⟨"create", ⟨pathJoin [mc.cmdPath node, name], codec.marshal command, false, i, []⟩⟩

def nodesSegment : Segment := ⟨nodesPath, by decide, by decide, by decide, by decide⟩

def commandsSegment : Segment := ⟨commandsPath, by decide, by decide, by decide, by decide⟩

/-- A node ID of one path element, neither starting nor ending with a space: an ID
`NewEtcdCoordinator` keeps as given. -/
structure NodeName where
  seg : Segment
  head_ne_space : ∀ a ∈ seg.val.data.head?, a ≠ ' '
  last_ne_space : ∀ a ∈ seg.val.data.getLast?, a ≠ ' '

/-- The name etcd gives a child `AddChild` creates: one path element, never ending with the
metadata marker's key (etcd names such children by their index). -/
structure ChildName where
  seg : Segment
  not_marker : hasSuffix seg.val metadataKey = false

/-- The events of `es` up to the first that `parseCommand` decodes when etcd answers with it
under its own index, and that command. -/
def firstCommand (codec : CommandCodec) : List EtcdEvent → List EtcdEvent × Option Command
  | [] => ([], none)
  | e :: es =>
    match parseCommand codec (e.toResponse e.index) with
    | some cmd => ([e], some cmd)
    | none => ((firstCommand codec es).1.cons e, (firstCommand codec es).2)

/-! ## Paths -/

theorem trim_nodeName (node : NodeName) : trim node.seg.val ['/', ' '] = node.seg.val := by
  have hkept : ∀ a ∈ node.seg.val.data, a ≠ ' ' → a ∉ ['/', ' '] := by
    intro a ha hs
    simp only [List.mem_cons, List.mem_singleton, List.not_mem_nil, or_false, not_or]
    exact ⟨fun h => node.seg.no_slash (h ▸ ha), hs⟩
  simpa using trim_append (l := []) (r := [])
    (by simp : ∀ a ∈ ([] : List Char), a ∈ ['/', ' ']) (by simp) node.seg.ne_nil
    (fun a ha => hkept a (List.mem_of_mem_head? ha) (node.head_ne_space a ha))
    (fun a ha => hkept a (List.mem_of_mem_getLast? ha) (node.last_ne_space a ha))

theorem MClient.cmdPath_segment (ns : Namespace) (node : NodeName) :
    (MClient.mk ns.path).cmdPath node.seg.val =
      ⟨'/' :: ['/'].intercalate
        ([ns.seg, nodesSegment, node.seg, commandsSegment].map (·.val.data))⟩ :=
  pathJoin_slashes ns.lead ns.trail ns.seg [nodesSegment, node.seg, commandsSegment]
    (List.cons_ne_nil _ _)

theorem newEtcdCoordinator_commandPath (ns : Namespace) (node : NodeName) (generated : String) :
    (newEtcdCoordinator node.seg.val ns.path generated).commandPath =
      ⟨'/' :: ['/'].intercalate
        ([ns.seg, nodesSegment, node.seg, commandsSegment].map (·.val.data))⟩ := by
  have hne : node.seg.val ≠ "" := fun h => node.seg.ne_nil (congrArg String.data h)
  show pathJoin ["/" ++ trim ns.path ['/', ' '], nodesPath,
    trim (if node.seg.val = "" then generated else node.seg.val) ['/', ' '], commandsPath] = _
  rw [if_neg hne, trim_namespace, trim_nodeName]
  exact pathJoin_segments ns.seg [nodesSegment, node.seg, commandsSegment] (List.cons_ne_nil _ _)

/-! ## A submitted command -/

/-- The client and the coordinator of a node agree on its command directory, for a namespace of
one element and a node ID of one element: `SubmitCommand` creates a direct child of the directory
`Command` reads, and `parseCommand` does not take that child for the metadata marker but hands the
value `SubmitCommand` wrote to `UnmarshalCommand`. -/
theorem submitCommand_commandPath (codec : CommandCodec) (ns : Namespace) (node : NodeName)
    (name : ChildName) (command : Command) (i etcdIndex : Nat) (generated : String) :
    ∃ mc, newClient ns.path = .ok mc ∧
      mc.cmdPath node.seg.val = (newEtcdCoordinator node.seg.val ns.path generated).commandPath ∧
      (mc.submitCommand codec node.seg.val command name.seg.val i).node.key =
        (newEtcdCoordinator node.seg.val ns.path generated).commandPath ++ "/" ++
          name.seg.val ∧
      parseCommand codec ((mc.submitCommand codec node.seg.val command name.seg.val i).toResponse
        etcdIndex) = codec.unmarshal (codec.marshal command) := by
  have hpath := MClient.cmdPath_segment ns node
  have hkey : (MClient.submitCommand codec ⟨ns.path⟩ node.seg.val command name.seg.val i).node.key =
      ⟨'/' :: ['/'].intercalate ([ns.seg, nodesSegment, node.seg, commandsSegment].map
        (·.val.data)) ++ '/' :: name.seg.val.data⟩ := by
    show pathJoin [(MClient.mk ns.path).cmdPath node.seg.val, name.seg.val] = _
    rw [hpath]
    exact pathJoin_child ns.seg [nodesSegment, node.seg, commandsSegment] name.seg
  refine ⟨⟨ns.path⟩, newClient_namespace ns,
    hpath.trans (newEtcdCoordinator_commandPath ns node generated).symm, ?_, ?_⟩
  · rw [hkey, newEtcdCoordinator_commandPath]
    exact String.ext (by simp)
  · rw [parseCommand, EtcdEvent.toResponse, if_neg]
    · rfl
    · rw [hkey, hasSuffix_child (by decide), name.not_marker]
      exact Bool.false_ne_true

/-! ## One `Command` call under up-to-date headers -/

theorem CommandState.run_watching (codec : CommandCodec) (hist : EtcdHistory) :
    ∀ (es : List EtcdEvent) (index : Nat) (r : WatchRound) (rs : List WatchRound),
      hist.after index = es →
      CommandState.run codec hist ⟨.watching index, r :: rs⟩
          ((firstCommand codec es).1.map fun e => .response e.index) =
        some ⟨match (firstCommand codec es).2 with
            | some cmd => .returned (some cmd) none
            | none => .watching (((firstCommand codec es).1.getLast?.map EtcdEvent.index).getD index),
          { r with events := r.events ++ (firstCommand codec es).1 } :: rs⟩
  | [], index, r, rs, _ => by simp [firstCommand, CommandState.run]
  | e :: es, index, r, rs, hafter => by
    have hw : hist.watchFrom (index + 1) = some e := by
      cases hw : hist.watchFrom (index + 1) with
      | none => rw [EtcdHistory.after_of_watchFrom_none hw] at hafter; cases hafter
      | some e' =>
        rw [EtcdHistory.after_of_watchFrom hw] at hafter
        rw [(List.cons.inj hafter).1]
    have hrest : hist.after e.index = es := by
      rw [EtcdHistory.after_of_watchFrom hw] at hafter
      exact (List.cons.inj hafter).2
    cases hp : parseCommand codec (e.toResponse e.index) with
    | some cmd =>
      simp [firstCommand, hp, CommandState.run, CommandState.step, hw, handEvent]
    | none =>
      have ih := CommandState.run_watching codec hist es e.index
        { r with events := r.events ++ [e] } rs hrest
      simp only [firstCommand, hp, List.map_cons, CommandState.run, CommandState.step, hw,
        handEvent, Option.some_bind]
      rw [ih]
      cases hf : (firstCommand codec es).2 <;> simp [List.getLast?_cons]

/-- One `Command` call when etcd answers each watch under the index of the event it returns: if
the GET's children hold a command it returns the first of them; otherwise it hands
`parseCommand` the events after the GET's index, in order, up to the first command and returns
that command, or, with none among them, waits on the watch after the last. -/
theorem command_returns_first (codec : CommandCodec) (hist : EtcdHistory) (etcdIndex : Nat)
    (nodes : List EtcdNode) :
    let g := getIndex etcdIndex nodes
    let handed := firstCommand codec (hist.after g)
    match (existingCommand codec nodes).2 with
    | some cmd => CommandState.init.run codec hist [.get etcdIndex nodes] =
        some ⟨.returned (some cmd) none, [⟨g, (existingCommand codec nodes).1, []⟩]⟩
    | none => CommandState.init.run codec hist
          (.get etcdIndex nodes :: handed.1.map fun e => .response e.index) =
        some ⟨match handed.2 with
            | some cmd => .returned (some cmd) none
            | none => .watching ((handed.1.getLast?.map EtcdEvent.index).getD g),
          [⟨g, (existingCommand codec nodes).1, handed.1⟩]⟩ := by
  intro g handed
  have hget : CommandState.init.step codec hist (.get etcdIndex nodes) =
      some ⟨match (existingCommand codec nodes).2 with
          | some cmd => .returned (some cmd) none
          | none => .watching g, [⟨g, (existingCommand codec nodes).1, []⟩]⟩ := rfl
  split
  · rename_i cmd hex
    simp only [CommandState.run, hget, hex, Option.some_bind]
  · rename_i hex
    have hrun := CommandState.run_watching codec hist _ g ⟨g, (existingCommand codec nodes).1, []⟩
      [] rfl
    simp only [CommandState.run, hget, hex, Option.some_bind, List.nil_append] at hrun ⊢
    exact hrun

end Metafora
