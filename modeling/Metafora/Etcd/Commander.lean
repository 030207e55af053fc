import Metafora.Json
import Metafora.Etcd.History

/-! # The command listener of `src/m_etcd/commander.go`

* `MessageCodec`: `statemachine.Message` and its JSON, which are not in `src`; `jsonStringCodec`
  meets its law.
* `Cmdr.send`: `cmdr.Send(taskID, m)` sets the task's command key to the JSON of `m`.
* `sendMsg`: `cmdrListener.sendMsg` on a response, given what `CompareAndDelete` answered and
  whether the message was taken from `Receive()` before `Stop`.
* `Listener.step`: `cmdrListener.watcher`. Its initial GET tests `err == nil` where it means
  `err != nil`: a GET that finds a command sends `Message{Code: Error, Err: nil}` and returns,
  and a GET that fails passes its nil response to `sendMsg`, which dereferences it.
* `listener_never_delivers`: so in every run the watcher never reaches its watch loop, never
  hands an event to `sendMsg`, and emits nothing but one Error-coded message with a nil error.
-/

namespace Metafora
set_option autoImplicit false

/-! ## Model -/

/-- `statemachine.Message`, which is not in `src`: a message type and its JSON (`json.Marshal`,
and `json.Unmarshal` with its error), under which a decoded encoding is the message itself. -/
structure MessageCodec (Msg : Type) where
  marshal : Msg → String
  unmarshal : String → Except String Msg
  unmarshal_marshal : ∀ m, unmarshal (marshal m) = .ok m

/-- A codec that meets the law, for messages that are strings: a message is its JSON string. -/
def jsonStringCodec : MessageCodec String :=
  ⟨fun m => ⟨encodeString m⟩, unmarshalString, unmarshalString_encodeString⟩

/-- `cmdr`: the commands directory of a namespace. -/
structure Cmdr where
  path : String

/-- `cmdr.Send(taskID, m)`: `Set(path.Join(c.path, taskID), json(m), cmdTTL)`, applied at index
`i`. -/
def Cmdr.send {Msg : Type} (codec : MessageCodec Msg) (key : String) (m : Msg) (i : Nat) :
    EtcdEvent :=
  ⟨"set", ⟨key, codec.marshal m, false, i, []⟩⟩

/-- What a listener puts on `Receive()`. -/
inductive Emitted (Msg : Type)
  | message (m : Msg)
  /-- `Message{Code: Error, Err: err}`; `none` is a nil error. -/
  | error (err : Option String)

/-- What `CompareAndDelete(key, value, 0)` answered. -/
inductive CadAnswer
  | deleted (modifiedIndex : Nat)
  | compareFailed
  | failed (err : String)

/-- `sendMsg(resp)`: the index and `ok` it returns and what it put on `Receive()`. `taken` says
whether a message it sends is taken before `c.stop` is closed. -/
def sendMsg {Msg : Type} (codec : MessageCodec Msg) (resp : EtcdResponse) (cad : CadAnswer)
    (taken : Bool) : (Nat × Bool) × List (Emitted Msg) :=
  if !newActions resp.action then ((resp.node.modifiedIndex, true), [])
  else match cad with
    | .compareFailed => ((resp.node.modifiedIndex, true), [])
    | .failed err => ((0, false), if taken then [.error (some err)] else [])
    | .deleted cadIndex =>
      match codec.unmarshal resp.node.value with
      | .error err => ((0, false), if taken then [.error (some err)] else [])
      | .ok msg => if taken then ((cadIndex, true), [.message msg]) else ((0, false), [])

inductive ListenerPc
  | startWatch
  | watchLoop (index : Nat)
  | returned
  /-- A nil pointer dereference in `sendMsg`. -/
  | panicked

/-- What etcd answers to the watcher's next call, with whether the receiver took the message the
watcher then sends (if any) before `Stop`. -/
inductive ListenerAnswer
  | get (node : EtcdNode) (taken : Bool)
  | getError (err : String)
  | watchStopped
  | watchError (err : String) (taken : Bool)
  | emptyBody
  | expiredIndex
  | unmarshalError (err : String) (taken : Bool)
  /-- A watch response (`watchFrom index`), then `CompareAndDelete`'s answer in `sendMsg`. -/
  | response (etcdIndex : Nat) (cad : CadAnswer) (taken : Bool)

structure Listener (Msg : Type) where
  pc : ListenerPc
  handed : List EtcdEvent
  emitted : List (Emitted Msg)

def Listener.init (Msg : Type) : Listener Msg := ⟨.startWatch, [], []⟩

def sendErr {Msg : Type} (err : Option String) (taken : Bool) : List (Emitted Msg) :=
  if taken then [.error err] else []

/-- The watcher on one answer; `none` when etcd cannot give that answer there. -/
def Listener.step {Msg : Type} (codec : MessageCodec Msg) (hist : EtcdHistory) (s : Listener Msg) :
    ListenerAnswer → Option (Listener Msg)
  | .get _ taken =>
    -- `if err == nil`: the nil `err` is no `*etcd.EtcdError`, so this is the error branch
    match s.pc with
    | .startWatch => some ⟨.returned, s.handed, s.emitted ++ sendErr none taken⟩
    | _ => none
  | .getError _ =>
    -- `c.sendMsg(resp)` with the nil `resp` of the failed GET
    match s.pc with
    | .startWatch => some { s with pc := .panicked }
    | _ => none
  | .watchStopped =>
    match s.pc with
    | .watchLoop _ => some { s with pc := .returned }
    | _ => none
  | .watchError err taken | .unmarshalError err taken =>
    match s.pc with
    | .watchLoop _ => some ⟨.returned, s.handed, s.emitted ++ sendErr (some err) taken⟩
    | _ => none
  | .emptyBody =>
    match s.pc with
    | .watchLoop _ => some s
    | _ => none
  | .expiredIndex =>
    match s.pc with
    | .watchLoop _ => some { s with pc := .startWatch }
    | _ => none
  | .response etcdIndex cad taken =>
    match s.pc with
    | .watchLoop index =>
      match hist.watchFrom index with
      | some e =>
        let r := sendMsg codec (e.toResponse etcdIndex) cad taken
        some ⟨if r.1.2 then .watchLoop e.node.modifiedIndex else .returned,
          s.handed ++ [e], s.emitted ++ r.2⟩
      | none => none
    | _ => none

def Listener.run {Msg : Type} (codec : MessageCodec Msg) (hist : EtcdHistory) :
    Listener Msg → List ListenerAnswer → Option (Listener Msg)
  | s, [] => some s
  | s, a :: as => (s.step codec hist a).bind (Listener.run codec hist · as)

/-! ## The watcher's runs -/

theorem Listener.step_stopped {Msg : Type} {codec : MessageCodec Msg} {hist : EtcdHistory}
    {s : Listener Msg} (hs : s.pc = .returned ∨ s.pc = .panicked) (a : ListenerAnswer) :
    s.step codec hist a = none := by
  rcases hs with hs | hs <;> cases a <;> simp [Listener.step, hs]

theorem Listener.run_stopped {Msg : Type} {codec : MessageCodec Msg} {hist : EtcdHistory}
    {s s' : Listener Msg} (hs : s.pc = .returned ∨ s.pc = .panicked) :
    ∀ {as : List ListenerAnswer}, s.run codec hist as = some s' → s' = s
  | [], h => by cases h; rfl
  | a :: as, h => by simp [Listener.run, Listener.step_stopped hs] at h

/-- From its start, the watcher either has not answered yet, or has returned after emitting at
most `Message{Code: Error, Err: nil}`, or has panicked; it never hands an event to `sendMsg`. -/
theorem listener_never_delivers {Msg : Type} (codec : MessageCodec Msg) (hist : EtcdHistory)
    (answers : List ListenerAnswer) {s : Listener Msg}
    (h : (Listener.init Msg).run codec hist answers = some s) :
    s.handed = [] ∧ (s.emitted = [] ∨ s.emitted = [.error none]) ∧
      (s.pc = .startWatch ∨ s.pc = .returned ∨ s.pc = .panicked) := by
  cases answers with
  | nil => cases h; exact ⟨rfl, .inl rfl, .inl rfl⟩
  | cons a as =>
    simp only [Listener.run, Option.bind_eq_some] at h
    obtain ⟨s₁, h₁, h₂⟩ := h
    cases a <;> simp only [Listener.step, Listener.init] at h₁ <;> try cases h₁
    · rename_i taken
      rw [Listener.run_stopped (.inl rfl) h₂]
      cases taken
      · exact ⟨rfl, .inl rfl, .inr (.inl rfl)⟩
      · exact ⟨rfl, .inr rfl, .inr (.inl rfl)⟩
    · rw [Listener.run_stopped (.inr rfl) h₂]
      exact ⟨rfl, .inl rfl, .inr (.inr rfl)⟩

/-- The failing runs: a command `m` stored at index 5 before the listener starts makes the watcher
emit `Message{Code: Error, Err: nil}` and return without delivering `m`; with no command stored,
the failed GET makes it panic. -/
theorem listener_reports_stored_command {Msg : Type} (codec : MessageCodec Msg) (m : Msg) :
    (Listener.init Msg).run codec ⟨[Cmdr.send codec "/ns/commands/t1" m 5],
        List.pairwise_singleton _ _⟩ [.get (Cmdr.send codec "/ns/commands/t1" m 5).node true] =
      some ⟨.returned, [], [.error none]⟩ ∧
    (Listener.init Msg).run codec ⟨[], List.Pairwise.nil⟩ [.getError "100: Key not found"] =
      some ⟨.panicked, [], []⟩ :=
  ⟨rfl, rfl⟩

end Metafora
