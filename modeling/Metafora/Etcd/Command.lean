import Metafora.Json
import Metafora.Path
import Metafora.Etcd.Watch

/-! # The streaming `EtcdCoordinator.Command` loop (`src/m_etcd/coordinator.go`)

* `CommandCodec`, `metadataKey`: what `parseCommand` uses from outside `src`; `jsonCommandCodec`
  meets the codec's law, so the statements over every codec are about some codec.
* `parseCommand`: skip the metadata marker, decode the value. Its `Delete` of the key is an event
  of the history like any other.
* `CommandState.step`: the recursive GET, whose children are handed to `parseCommand` until one
  decodes, then the inner loop over `ec.watch`. After a response that is not a command the loop
  sets `index = resp.EtcdIndex`, the response's header, where `Watch` uses the event's
  `ModifiedIndex`. An error of `watch` that is neither a restart nor a stop falls through to
  `parseCommand(resp)` with a nil `resp` (`CommandPc.panicked`).
* `CommandState.step_of_isRetry`, `CommandState.run_filter_isRetry`: the answers `watch` retries
  leave the state as it was, so a run ends where it ends without them.
* `command_skips_command`: a watch answered with the header of a later index skips the command
  created in between.
-/

namespace Metafora
set_option autoImplicit false

/-! ## Model -/

/-- Modelled from the spec: `Command.Marshal` and `metafora.UnmarshalCommand` are not in `src`.
On the wire a command is its JSON object, and decoding what was encoded gives the command back;
a `Command`'s strings are Lean strings, valid UTF-8, which `encoding/json` writes as they are. -/
structure CommandCodec where
  marshal : Command → String
  unmarshal : String → Option Command
  unmarshal_marshal : ∀ c, unmarshal (marshal c) = some c

/-- A codec that meets the law: the spec's object `{"command": name, "parameters": {…}}`. -/
def jsonCommandCodec : CommandCodec :=
  ⟨marshalCommand, unmarshalCommand, unmarshalCommand_marshalCommand⟩

example : jsonCommandCodec.marshal ⟨cmdFreeze, [("task", .str "t1")]⟩ =
    "\x7b\"command\":\"freeze\",\"parameters\":\x7b\"task\":\"t1\"\x7d\x7d" := rfl

/-- Modelled from the spec: `MetadataKey` is not in `src`; the spec's reserved metadata marker
key, `_metafora` in the code's comments. -/
def metadataKey : String := "_metafora"

def parseCommand (codec : CommandCodec) (resp : EtcdResponse) : Option Command :=
  if hasSuffix resp.node.key metadataKey then none else codec.unmarshal resp.node.value

/-- The loop over a GET's children: each is handed to `parseCommand` as a create, up to the first
that decodes. Returns the children handed and the command. -/
def existingCommand (codec : CommandCodec) : List EtcdNode → List EtcdNode × Option Command
  | [] => ([], none)
  | n :: ns =>
    match parseCommand codec ⟨"create", n, 0⟩ with
    | some cmd => ([n], some cmd)
    | none => ((existingCommand codec ns).1.cons n, (existingCommand codec ns).2)

inductive CommandPc
  | startWatch
  | watching (index : Nat)
  | returned (cmd : Option Command) (err : Option String)
  /-- `parseCommand(resp)` dereferenced the nil `resp` of a failed `watch`. -/
  | panicked

structure CommandState where
  pc : CommandPc
  rounds : List WatchRound

/-- `Command()` once `ec.closed()` found the coordinator open. -/
def CommandState.init : CommandState := ⟨.startWatch, []⟩

/-- `Command` on one answer of etcd; `none` when etcd cannot give that answer there. -/
def CommandState.step (codec : CommandCodec) (hist : EtcdHistory) (s : CommandState) :
    EtcdAnswer → Option CommandState
  | .getError err =>
    match s.pc with
    | .startWatch => some { s with pc := .returned none (some err) }
    | _ => none
  | .get etcdIndex nodes =>
    match s.pc with
    | .startWatch =>
      some ⟨match (existingCommand codec nodes).2 with
          | some cmd => .returned (some cmd) none
          | none => .watching (getIndex etcdIndex nodes),
        ⟨getIndex etcdIndex nodes, (existingCommand codec nodes).1, []⟩ :: s.rounds⟩
    | _ => none
  | .rawWatchError | .emptyBody =>
    match s.pc with
    | .watching _ => some s
    | _ => none
  | .expiredIndex =>
    match s.pc with
    | .watching _ => some { s with pc := .startWatch }
    | _ => none
  | .stopped =>
    match s.pc with
    | .watching _ => some { s with pc := .returned none none }
    | _ => none
  | .unmarshalError _ =>
    match s.pc with
    | .watching _ => some { s with pc := .panicked }
    | _ => none
  | .response etcdIndex =>
    match s.pc with
    | .watching index =>
      match hist.watchFrom (index + 1) with
      | some e =>
        some ⟨match parseCommand codec (e.toResponse etcdIndex) with
            | some cmd => .returned (some cmd) none
            | none => .watching etcdIndex,
          handEvent e s.rounds⟩
      | none => none
    | _ => none

def CommandState.run (codec : CommandCodec) (hist : EtcdHistory) :
    CommandState → List EtcdAnswer → Option CommandState
  | s, [] => some s
  | s, a :: as => (s.step codec hist a).bind (CommandState.run codec hist · as)

/-! ## Retries -/

/-- `watch` retries a failed `RawWatch` and an empty body itself: such an answer leaves the
state as it was. -/
theorem CommandState.step_of_isRetry {codec : CommandCodec} {hist : EtcdHistory}
    {s s' : CommandState} {a : EtcdAnswer} (ha : a.isRetry = true)
    (h : s.step codec hist a = some s') : s' = s := by
  cases a <;> simp only [EtcdAnswer.isRetry, reduceCtorEq] at ha <;>
    simp only [CommandState.step] at h <;> split at h <;> cases h <;> rfl

/-- So a run with retries ends where the same run without them ends. -/
theorem CommandState.run_filter_isRetry {codec : CommandCodec} {hist : EtcdHistory} :
    ∀ {s s' : CommandState} {as : List EtcdAnswer}, s.run codec hist as = some s' →
      s.run codec hist (as.filter fun a => !a.isRetry) = some s'
  | _, _, [], h => h
  | s, _, a :: as, h => by
    simp only [CommandState.run, Option.bind_eq_some] at h
    obtain ⟨s₁, h₁, h₂⟩ := h
    cases ha : a.isRetry
    · simp only [List.filter_cons, ha, Bool.not_false, if_true, CommandState.run, h₁,
        Option.some_bind]
      exact CommandState.run_filter_isRetry h₂
    · cases CommandState.step_of_isRetry ha h₁
      simp only [List.filter_cons, ha, Bool.not_true, if_false]
      exact CommandState.run_filter_isRetry h₂

/-! ## A command skipped -/

/-- The metadata marker of node `n1`'s commands directory, created at index 11. -/
def markerCreated : EtcdEvent :=
  ⟨"create", ⟨"/ns/nodes/n1/commands/_metafora", "{}", false, 11, []⟩⟩

/-- A `SubmitCommand` of `cmd` to node `n1` as key `name`, at index `i`. -/
def commandCreated (codec : CommandCodec) (name : String) (cmd : Command) (i : Nat) : EtcdEvent :=
  ⟨"create", ⟨"/ns/nodes/n1/commands/" ++ name, codec.marshal cmd, false, i, []⟩⟩

/-- The marker at 11, a `freeze` at 12 and an `unfreeze` at 13. -/
def skipHistory (codec : CommandCodec) : EtcdHistory :=
  ⟨[markerCreated, commandCreated codec "c1" ⟨cmdFreeze, []⟩ 12,
      commandCreated codec "c2" ⟨cmdUnfreeze, []⟩ 13],
    by simp [EtcdEvent.index, markerCreated, commandCreated]⟩

/-- The GET reflects index 10 and finds no command. The watch from 11 answers with the marker
under the header 12, so the next watch starts at 13: `Command` hands `parseCommand` the marker and
the `unfreeze`, and returns `unfreeze`, while the `freeze` created at 12 is never handed. -/
theorem command_skips_command (codec : CommandCodec) :
    CommandState.init.run codec (skipHistory codec) [.get 10 [], .response 12, .response 13] =
      some ⟨.returned (some ⟨cmdUnfreeze, []⟩) none,
        [⟨10, [], [markerCreated, commandCreated codec "c2" ⟨cmdUnfreeze, []⟩ 13]⟩]⟩ ∧
    (skipHistory codec).after 10 =
      [markerCreated, commandCreated codec "c1" ⟨cmdFreeze, []⟩ 12,
        commandCreated codec "c2" ⟨cmdUnfreeze, []⟩ 13] := by
  have hc : parseCommand codec ((commandCreated codec "c2" ⟨cmdUnfreeze, []⟩ 13).toResponse 13) =
      some ⟨cmdUnfreeze, []⟩ :=
    (if_neg (show ¬hasSuffix ("/ns/nodes/n1/commands/" ++ "c2") metadataKey = true by decide)).trans
      (codec.unmarshal_marshal _)
  have h₁ : CommandState.init.step codec (skipHistory codec) (.get 10 []) =
      some ⟨.watching 10, [⟨10, [], []⟩]⟩ := rfl
  have h₂ : CommandState.step codec (skipHistory codec) ⟨.watching 10, [⟨10, [], []⟩]⟩ (.response 12) =
      some ⟨.watching 12, [⟨10, [], [markerCreated]⟩]⟩ := rfl
  have h₃ : CommandState.step codec (skipHistory codec) ⟨.watching 12, [⟨10, [], [markerCreated]⟩]⟩
      (.response 13) = some ⟨.returned (some ⟨cmdUnfreeze, []⟩) none,
        [⟨10, [], [markerCreated, commandCreated codec "c2" ⟨cmdUnfreeze, []⟩ 13]⟩]⟩ := by
    simp only [CommandState.step]
    rw [show (skipHistory codec).watchFrom 13 = some (commandCreated codec "c2" ⟨cmdUnfreeze, []⟩ 13)
      from rfl]
    simp only [hc]
    rfl
  exact ⟨by simp only [CommandState.run, h₁, h₂, h₃, Option.some_bind], rfl⟩

end Metafora
