import Metafora.Consumer.Invariant
import Mathlib.Data.Multiset.Nodup
import Mathlib.Tactic.Abel

/-! # A consumer on an `EmbeddedCoordinator`/`EmbeddedClient` pair (`src/embedded`)

* `Consumer.held`: the IDs of the tasks the consumer holds: in the main loop, in the ignore
  set, in a pending re-injection, or in a handler goroutine that has not yet called `Done` or
  `Release`. `Consumer.held_step`: a step of the consumer takes a task from the watcher, gives
  one back to the coordinator from a handler, or otherwise only moves and drops what it holds.
* `EmbeddedTasks`: `e.tasks`, the coordinator's `Watch` goroutine and the goroutines `Release`
  starts to re-enqueue a task on `e.inchan`; `done`, `release` and `finish` are `Done`,
  `Release` and the handler's call of one of them.
* `EmbeddedPair`, `EmbeddedPair.step`: `NewEmbeddedPair` under a consumer, with the client's
  `SubmitTask` sends blocked on the unbuffered `taskchan`. `answer` is the coordinator's side
  of a consumer step: `Claim` always returns true, `Watch` returns only on `e.stopchan`, and
  a task reaches the main loop only from `Watch`. Nothing closes `taskchan`, so the "Input
  closed" return of `Watch` is left out.
* `EmbeddedPair.copies`, `EmbeddedPair.Inv`: every copy of a task in flight, and what every
  reachable state keeps while each ID is submitted once: no ID has two copies, and every copy
  past `Watch`'s map insert has its ID in `e.tasks`, so `Release` never panics
  (`embedded_single_copy`).
-/

namespace Metafora
set_option autoImplicit false

/-! ## What the consumer holds -/

/-- A handler goroutine holds its task until it has called `Done` or `Release`. -/
def HandlerPc.holds : HandlerPc → Bool
  | .finished _ => false
  | _ => true

namespace Consumer

/-- The IDs of the tasks the consumer holds, one entry per copy. -/
def held (s : Consumer) : List String :=
  (s.main.current.map (·.1.id)).toList ++ s.ignores.map (·.1.id) ++ s.resends.map (·.id) ++
    (s.handlers.filter (·.pc.holds)).map (·.task.id)

end Consumer

theorem perm_cons_eraseIdx {α : Type} {a : α} :
    ∀ {l : List α} {i : Nat}, l[i]? = some a → l.Perm (a :: l.eraseIdx i)
  | b :: l, 0, h => by
    rw [List.getElem?_cons_zero, Option.some.injEq] at h
    subst h
    exact List.Perm.refl _
  | b :: l, i + 1, h => by
    rw [List.getElem?_cons_succ] at h
    rw [List.eraseIdx_cons_succ]
    exact ((perm_cons_eraseIdx (l := l) h).cons b).trans (List.Perm.swap _ _ _)

theorem coe_map_eraseIdx {α β : Type} {l : List α} {i : Nat} {a : α} (h : l[i]? = some a)
    (f : α → β) : (↑(l.map f) : Multiset β) = f a ::ₘ ↑((l.eraseIdx i).map f) :=
  Multiset.coe_eq_coe.2 ((perm_cons_eraseIdx h).map f)

theorem updateHandler_split {hs : List Handler} (hn : (hs.map (·.serial)).Nodup) {k : Nat}
    {h₀ : Handler} (h0 : h₀ ∈ hs) (hk : h₀.serial = k) (f : Handler → Handler) :
    ∃ pre post, hs = pre ++ h₀ :: post ∧
      hs.map (fun h => if h.serial = k then f h else h) = pre ++ f h₀ :: post := by
  obtain ⟨pre, post, rfl⟩ := List.append_of_mem h0
  have hne : ∀ h ∈ pre ++ post, h.serial ≠ k := by
    intro h hh he
    rw [List.map_append, List.map_cons, List.nodup_middle, List.nodup_cons] at hn
    have hmem : h.serial ∈ pre.map (·.serial) ++ post.map (·.serial) := by
      rw [← List.map_append]; exact List.mem_map_of_mem _ hh
    rw [he, ← hk] at hmem
    exact hn.1 hmem
  refine ⟨pre, post, rfl, ?_⟩
  rw [List.map_append, List.map_cons, if_pos hk]
  congr 1
  · exact (List.map_congr_left fun h hh => if_neg (hne h (List.mem_append_left _ hh))).trans
      (List.map_id _)
  · exact congrArg _ ((List.map_congr_left fun h hh =>
      if_neg (hne h (List.mem_append_right _ hh))).trans (List.map_id _))

theorem filter_holds_update {hs : List Handler} (hn : (hs.map (·.serial)).Nodup) {k : Nat}
    {h₀ : Handler} (h0 : h₀ ∈ hs) (hk : h₀.serial = k) {q : HandlerPc}
    (hq : q.holds = h₀.pc.holds) :
    ((hs.map fun h => if h.serial = k then { h with pc := q } else h).filter
      (·.pc.holds)).map (·.task.id) = (hs.filter (·.pc.holds)).map (·.task.id) := by
  obtain ⟨pre, post, rfl, he⟩ := updateHandler_split hn h0 hk fun h => { h with pc := q }
  rw [he]
  simp only [List.filter_append, List.filter_cons, hq]
  split <;> simp

theorem filter_holds_release {hs : List Handler} (hn : (hs.map (·.serial)).Nodup) {k : Nat}
    {h₀ : Handler} (h0 : h₀ ∈ hs) (hk : h₀.serial = k) {q : HandlerPc}
    (hq : q.holds = false) (hh : h₀.pc.holds = true) :
    ((hs.filter (·.pc.holds)).map (·.task.id)).Perm (h₀.task.id ::
      ((hs.map fun h => if h.serial = k then { h with pc := q } else h).filter
        (·.pc.holds)).map (·.task.id)) := by
  obtain ⟨pre, post, rfl, he⟩ := updateHandler_split hn h0 hk fun h => { h with pc := q }
  rw [he]
  simp only [List.filter_append, List.filter_cons, hq, hh, if_true, Bool.false_eq_true, if_false,
    List.map_append, List.map_cons]
  exact List.perm_middle

namespace Consumer

theorem held_eq {s s' : Consumer}
    (hm : s'.main.current.map (·.1.id) = s.main.current.map (·.1.id))
    (hi : s'.ignores = s.ignores) (hr : s'.resends = s.resends) (hh : s'.handlers = s.handlers) :
    s'.held = s.held := by
  simp only [held, hm, hi, hr, hh]

theorem held_sublist {s s' : Consumer}
    (hm : (s'.main.current.map (·.1.id)).toList.Sublist (s.main.current.map (·.1.id)).toList)
    (hi : s'.ignores = s.ignores) (hr : (s'.resends.map (·.id)).Sublist (s.resends.map (·.id)))
    (hh : (s'.handlers.filter (·.pc.holds)).Sublist (s.handlers.filter (·.pc.holds))) :
    s'.held.Sublist s.held :=
  ((hm.append (hi ▸ .refl _)).append hr).append (hh.map _)

theorem held_drop {s s' : Consumer} (hm : s'.main.current = none) (hi : s'.ignores = s.ignores)
    (hr : s'.resends = s.resends) (hh : s'.handlers = s.handlers) : s'.held.Subperm s.held :=
  (held_sublist (by rw [hm]; exact List.nil_sublist _) hi (hr ▸ .refl _) (hh ▸ .refl _)).subperm

theorem held_handleCommand (s : Consumer) (hm : s.main.current = none) (c : Command)
    (ids : List String) : (s.handleCommand c ids).held = s.held := by
  unfold handleCommand
  split_ifs <;> (try split) <;> exact held_eq (by first | rfl | (rw [hm]; rfl)) rfl rfl rfl

theorem held_expire (s : Consumer) (now : Nat) : (s.expire now).held.Perm s.held := by
  have hab : ((s.ignores.filter fun e => now < e.2).map (·.1.id) ++
      (s.ignores.filter fun e => !(now < e.2)).map (·.1.id)).Perm (s.ignores.map (·.1.id)) := by
    rw [← List.map_append]; exact (List.filter_append_perm _ _).map _
  simp only [held, expire_main, expire_ignores, expire_resends, expire_handlers, List.map_append,
    List.map_map, Function.comp_def, List.append_assoc]
  refine List.Perm.append_left _ (((List.perm_append_comm_assoc _ _ _).append_left _).trans ?_)
  rw [← List.append_assoc]
  exact hab.append_right _

theorem held_claimed (s : Consumer) {t : Task} {k : Nat} (hm : s.main = .claimed t k) (now : Nat) :
    (s.claimed t k now).held.Subperm s.held := by
  unfold claimed
  split_ifs
  · exact held_drop rfl rfl rfl rfl
  · exact held_drop rfl rfl rfl rfl
  · have := List.perm_append_singleton t.id (s.ignores.map (·.1.id) ++ s.resends.map (·.id) ++
      (s.handlers.filter (·.pc.holds)).map (·.task.id))
    simpa [held, hm, Main.current, HandlerPc.holds] using this.subperm

theorem held_updateHandler {s : Consumer} (hi : s.Inv) {k : Nat} {h₀ : Handler}
    (hh : s.handler? k = some h₀) {q : HandlerPc} (hq : q.holds = h₀.pc.holds) :
    (s.updateHandler k fun h => { h with pc := q }).held = s.held := by
  obtain ⟨h0, hk⟩ := handler?_spec hh
  simp only [held, updateHandler_main, updateHandler_ignores, updateHandler_resends,
    updateHandler_handlers, filter_holds_update hi.nodup h0 hk hq]

theorem held_step {s s' : Consumer} (hi : s.Inv) {a : Action} (h : step s a = some s') :
    (∃ t, a = .recvTask t ∧ s'.held.Perm (t.id :: s.held)) ∨
    (∃ k h₀ r, a = .handlerFinish k ∧ s.handler? k = some h₀ ∧ h₀.pc = .deleted r ∧
      s.held.Perm (h₀.task.id :: s'.held)) ∨
    (∀ t, a ≠ .recvTask t) ∧ (∀ k, a ≠ .handlerFinish k) ∧ s'.held.Subperm s.held := by
  have same {x : Consumer} : x.held = s.held → x.held.Subperm s.held := fun he => he ▸ .refl _
  cases a <;> simp only [step] at h
  case recvTask t =>
    split_ifs at h with hm; cases h
    exact .inl ⟨t, rfl, by simp [held, hm.1, Main.current]⟩
  case handlerFinish k =>
    split at h
    · rename_i serial t started r hh
      cases h
      obtain ⟨h0, hk⟩ := handler?_spec hh
      refine .inr (.inl ⟨k, _, r, rfl, hh, rfl, ?_⟩)
      have hH := filter_holds_release hi.nodup h0 hk (q := .finished r) rfl rfl
      simp only [held, updateHandler_handlers, emit_handlers] at hH ⊢
      exact (hH.append_left _).trans List.perm_middle
    · cases h
  all_goals refine .inr (.inr ⟨nofun, nofun, ?_⟩)
  case run =>
    split_ifs at h with hm; cases h
    exact same (held_eq (by rw [hm]; rfl) rfl rfl rfl)
  case shutdown => cases h; exact same rfl
  case shutdownStep i =>
    split at h <;> (try split_ifs at h) <;> cases h <;> exact same rfl
  case watcherExit | pollerExit => split_ifs at h; cases h; exact same rfl
  case expire now => cases h; exact (held_expire s now).subperm
  case dropResend i =>
    split_ifs at h; cases h
    exact List.Sublist.subperm
      (held_sublist (.refl _) rfl ((List.eraseIdx_sublist _ _).map _) (.refl _))
  case recvStop | recvClosed | recvBalance | join =>
    split_ifs at h with hm; cases h
    exact same (held_eq (by rw [hm.1]; rfl) rfl rfl rfl)
  case recvResend i =>
    split_ifs at h with hm
    split at h
    · rename_i t ht
      cases h
      have hR := (perm_cons_eraseIdx ht).map (·.id)
      simp only [held, receive_main, receive_ignores, receive_resends, receive_handlers, hm.1,
        Main.current, Option.map_some', Option.toList_some, Option.map_none', Option.toList_none,
        List.nil_append, List.singleton_append, List.cons_append, List.append_assoc]
      exact (List.perm_middle.symm.trans ((hR.append_right _).append_left _).symm).subperm
    · cases h
  case recvCommand c ids =>
    split_ifs at h with hm; cases h
    exact same (held_handleCommand s (by rw [hm.1]; rfl) c ids)
  case checkIgnored now =>
    split at h
    · rename_i t k hm
      cases h
      cases hr : s.ignored t.id now
      · exact same (held_eq (by simp [hr, hm, Main.current]) rfl rfl rfl)
      · exact held_drop (by simp [hr, Main.current]) rfl rfl rfl
    · cases h
  case canClaim ok deadline =>
    split at h
    · rename_i t k hm
      split_ifs at h <;> cases h
      · exact same (held_eq (by rw [hm]; rfl) rfl rfl rfl)
      · have hsub := (List.filter_sublist (p := fun e : Task × Nat => decide (e.1.id ≠ t.id))
          s.ignores).map (·.1.id)
        simp only [held, ignore_ignores, emit_ignores, ignore_resends, emit_resends,
          ignore_handlers, emit_handlers, hm, Main.current, Option.map_some', Option.toList_some,
          Option.map_none', Option.toList_none, List.map_append, List.map_cons, List.map_nil,
          List.nil_append, List.singleton_append, List.cons_append, List.append_assoc]
        exact ((hsub.append_right _).subperm).trans List.perm_middle.subperm
    · cases h
  case claim ok =>
    split at h
    · rename_i t k hm
      cases h
      cases ok
      · exact held_drop rfl rfl rfl rfl
      · exact same (held_eq (by rw [hm]; rfl) rfl rfl rfl)
    · cases h
  case start now =>
    split at h
    · cases h; exact held_claimed s ‹_› now
    · cases h
  case stopNext =>
    split at h <;> cases h <;> rename_i hm <;> exact same (held_eq (by rw [hm]; rfl) rfl rfl rfl)
  case handlerRun k | handlerReturn k _ =>
    split at h
    · rename_i h₀ hh
      split_ifs at h with hpc; cases h
      exact same (held_updateHandler hi hh (by rw [hpc]; rfl))
    · cases h
  case handlerDelete k =>
    split at h
    · rename_i serial t started r hh
      cases h
      exact same (held_updateHandler hi hh rfl)
    · cases h
  case handlerExit k =>
    split at h
    · cases h
      exact List.Sublist.subperm
        (held_sublist (.refl _) rfl (.refl _) ((List.filter_sublist _).filter _))
    · cases h
  case runStop i now =>
    split at h
    · cases h; exact same rfl
    · cases h

end Consumer

/-! ## The coordinator's side -/

/-- Where `EmbeddedCoordinator.Watch` is. -/
inductive WatcherPc
  | idle
  | received (t : Task)
  | sending (t : Task)
  | returned
  deriving DecidableEq

/-- The task `Watch` has taken from `e.inchan` and not yet handed on. -/
def WatcherPc.task? : WatcherPc → Option Task
  | .received t | .sending t => some t
  | .idle | .returned => none

/-- `Watch` waits in a `select` with a `<-e.stopchan` case. -/
def WatcherPc.selecting : WatcherPc → Bool
  | .idle | .sending _ => true
  | .received _ | .returned => false

/-- The fields of `EmbeddedCoordinator` that `Watch`, `Release` and `Done` use (`e.tasks`), the
goroutine `Watch` runs in, the goroutines `Release` started that still wait to send on
`e.inchan`, and the message of a panic `Release` raised. -/
structure EmbeddedTasks where
  tasks : AList (fun _ : String => Task)
  watch : WatcherPc
  reenqueues : List Task
  panicked : Option String

namespace EmbeddedTasks

variable (e : EmbeddedTasks)

/-- `NewEmbeddedCoordinator`: `e.tasks` is empty. -/
def init : EmbeddedTasks := ⟨∅, .idle, [], none⟩

/-- `Done(taskID)`: `delete(e.tasks, taskID)`. -/
def done (id : String) : EmbeddedTasks := { e with tasks := e.tasks.erase id }

/-- `Release(taskID)`: panic on an ID `e.tasks` does not hold, else start a goroutine that
sends the stored task on `e.inchan` (or gives up on `<-e.stopchan`). -/
def release (id : String) : EmbeddedTasks :=
  match e.tasks.lookup id with
  | some t => { e with reenqueues := e.reenqueues ++ [t] }
  | none => { e with panicked := some ("cannot release a task that has never been seen! " ++ id) }

/-- The call a handler goroutine makes once `runTask` returned `done`. -/
def finish (id : String) (done : Bool) : EmbeddedTasks := if done then e.done id else e.release id

end EmbeddedTasks

/-! ## The pair -/

/-- A consumer on the coordinator of `NewEmbeddedPair`: its state, the coordinator's, the
client's `SubmitTask` calls blocked on the unbuffered `taskchan`, and the IDs the client has
submitted so far. -/
structure EmbeddedPair where
  c : Consumer
  e : EmbeddedTasks
  submits : List Task
  submitted : List String

namespace EmbeddedPair

def init : EmbeddedPair := ⟨Consumer.init, EmbeddedTasks.init, [], []⟩

/-- `e.stopchan` is closed: the consumer has called `Close()`. -/
def closed (s : EmbeddedPair) : Bool := s.c.log.contains .close

end EmbeddedPair

/-- The coordinator's side of a step of the consumer: its state after the call the step makes,
or `none` where the embedded coordinator cannot give the answer the action carries. -/
def EmbeddedPair.answer (s : EmbeddedPair) : Action → Option EmbeddedTasks
  -- only when `Watch` sends (`PairAction.deliver`)
  | .recvTask _ => none
  -- `Claim` always returns true
  | .claim false => none
  | .watcherExit => if s.e.watch = .returned then some s.e else none
  | .handlerFinish k =>
    match s.c.handler? k with
    | some ⟨_, t, _, .deleted r⟩ => some (s.e.finish t.id r.done)
    | _ => none
  | _ => some s.e

/-- A step of one goroutine of the pair. -/
inductive PairAction
  | submitTask (t : Task)
  | recvSubmit (i : Nat)
  /-- `Watch`'s outer `select` takes the send of the `i`-th goroutine `Release` started. -/
  | recvReenqueue (i : Nat)
  | dropReenqueue (i : Nat)
  | store
  | watchStop
  | deliver
  | consumer (a : Action)

open EmbeddedTasks in
/-- One atomic step; `none` once `Release` has panicked. `Watch` runs while the consumer's
watcher goroutine is in `coord.Watch`. -/
def EmbeddedPair.step (s : EmbeddedPair) (a : PairAction) : Option EmbeddedPair :=
  if s.e.panicked.isSome then none else
  match a with
  | .submitTask t =>
    some { s with submits := s.submits ++ [t], submitted := s.submitted ++ [t.id] }
  | .recvSubmit i =>
    match s.c.watching, s.e.watch, s.submits[i]? with
    | true, .idle, some t =>
      some { s with submits := s.submits.eraseIdx i, e := { s.e with watch := .received t } }
    | _, _, _ => none
  | .recvReenqueue i =>
    match s.c.watching, s.e.watch, s.e.reenqueues[i]? with
    | true, .idle, some t =>
      some { s with e := { s.e with reenqueues := s.e.reenqueues.eraseIdx i, watch := .received t } }
    | _, _, _ => none
  | .dropReenqueue i =>
    if s.closed ∧ i < s.e.reenqueues.length then
      some { s with e := { s.e with reenqueues := s.e.reenqueues.eraseIdx i } }
    else none
  | .store =>
    match s.c.watching, s.e.watch with
    | true, .received t =>
      some { s with e := { s.e with tasks := s.e.tasks.insert t.id t, watch := .sending t } }
    | _, _ => none
  | .watchStop =>
    if s.c.watching ∧ s.closed ∧ s.e.watch.selecting then
      some { s with e := { s.e with watch := .returned } }
    else none
  | .deliver =>
    match s.e.watch with
    | .sending t =>
      (Metafora.step s.c (.recvTask t)).map fun c => { s with c := c, e := { s.e with watch := .idle } }
    | _ => none
  | .consumer a =>
    (s.answer a).bind fun e => (Metafora.step s.c a).map fun c => { s with c := c, e := e }

namespace EmbeddedPair

/-- Every state some interleaving reaches from `NewEmbeddedPair` and `NewConsumer`. -/
inductive Reachable : EmbeddedPair → Prop
  | init : Reachable init
  | step {s s' : EmbeddedPair} (a : PairAction) : Reachable s → s.step a = some s' → Reachable s'

/-- The IDs of every copy of a task in flight: blocked in `SubmitTask`, in a goroutine
`Release` started, in `Watch`, or held by the consumer. -/
def copies (s : EmbeddedPair) : Multiset String :=
  ↑(s.submits.map (·.id)) + ↑(s.e.reenqueues.map (·.id)) + ↑(s.e.watch.task?.map (·.id)).toList +
    ↑s.c.held

/-! ## What every reachable state keeps -/

/-- While the client submits each ID once: no ID has two copies in flight, every copy past
`Watch`'s map insert has its ID in `e.tasks`, the map stores each task under its own ID, and
`Release` has not panicked. -/
structure Inv (s : EmbeddedPair) : Prop where
  consumer : Metafora.Reachable s.c
  nodup : s.copies.Nodup
  submitted : ∀ x ∈ s.copies, x ∈ s.submitted
  sending : ∀ t, s.e.watch = .sending t → t.id ∈ s.e.tasks
  held : ∀ x ∈ s.c.held, x ∈ s.e.tasks
  stored : ∀ x t, s.e.tasks.lookup x = some t → t.id = x
  running : s.e.panicked = none

theorem Inv.init : init.Inv where
  consumer := .init
  nodup := by simp [copies, EmbeddedPair.init, EmbeddedTasks.init, WatcherPc.task?, Consumer.held,
    Consumer.init, Main.current]
  submitted := by simp [copies, EmbeddedPair.init, EmbeddedTasks.init, WatcherPc.task?, Consumer.held,
    Consumer.init, Main.current]
  sending := nofun
  held := by simp [EmbeddedPair.init, EmbeddedTasks.init, Consumer.held, Consumer.init, Main.current]
  stored := by simp [EmbeddedPair.init, EmbeddedTasks.init]
  running := rfl

theorem Inv.of_le {s s' : EmbeddedPair} (hi : s.Inv) (hc : Metafora.Reachable s'.c)
    (hle : s'.copies ≤ s.copies) (hsub : s'.submitted = s.submitted)
    (hsend : ∀ t, s'.e.watch = .sending t → t.id ∈ s.e.tasks)
    (hheld : ∀ x ∈ s'.c.held, x ∈ s.e.tasks) (he : s'.e.tasks = s.e.tasks)
    (hp : s'.e.panicked = none) : s'.Inv where
  consumer := hc
  nodup := Multiset.nodup_of_le hle hi.nodup
  submitted x hx := hsub ▸ hi.submitted x (Multiset.mem_of_le hle hx)
  sending t ht := he ▸ hsend t ht
  held x hx := he ▸ hheld x hx
  stored := he ▸ hi.stored
  running := hp

theorem submitted_sublist {s s' : EmbeddedPair} {a : PairAction} (h : s.step a = some s') :
    s.submitted.Sublist s'.submitted := by
  unfold EmbeddedPair.step at h
  split at h
  · cases h
  cases a with
  | submitTask t => cases h; exact List.sublist_append_left _ _
  | consumer a =>
    obtain ⟨e, -, h⟩ := Option.bind_eq_some.1 h
    obtain ⟨c, -, rfl⟩ := Option.map_eq_some'.1 h
    exact .refl _
  | deliver =>
    simp only at h; split at h
    · obtain ⟨c, -, rfl⟩ := Option.map_eq_some'.1 h; exact .refl _
    · cases h
  | _ => simp only at h; split at h <;> cases h; exact .refl _

theorem Inv.lift {s : EmbeddedPair} (hi : s.Inv) {a : Action} {c' : Consumer}
    (hc : Metafora.step s.c a = some c') (ha : ∀ t, a ≠ .recvTask t)
    (hk : ∀ k, a ≠ .handlerFinish k) : ({ s with c := c' } : EmbeddedPair).Inv := by
  obtain ⟨t, rfl, -⟩ | ⟨k, -, -, rfl, -⟩ | ⟨-, -, hsub⟩ := Consumer.held_step hi.consumer.inv hc
  · exact absurd rfl (ha t)
  · exact absurd rfl (hk k)
  · exact hi.of_le (hi.consumer.step _ hc) (add_le_add_left (Multiset.coe_le.2 hsub) _) rfl
      hi.sending (fun x hx => hi.held x (hsub.subset hx)) rfl hi.running

theorem Inv.finish {s : EmbeddedPair} (hi : s.Inv) {a : Action} {c' : Consumer}
    (hc : Metafora.step s.c a = some c') {id : String} (hH : s.c.held.Perm (id :: c'.held))
    (done : Bool) : ({ s with c := c', e := s.e.finish id done } : EmbeddedPair).Inv := by
  have hcoe : (↑s.c.held : Multiset String) = id ::ₘ ↑c'.held := Multiset.coe_eq_coe.2 hH
  have hsub : ∀ x ∈ c'.held, x ∈ s.c.held := fun x hx => hH.symm.subset (List.mem_cons_of_mem _ hx)
  cases done
  case false =>
    obtain ⟨t, ht⟩ := Option.isSome_iff_exists.1
      (AList.lookup_isSome.2 (hi.held id (hH.mem_iff.2 (List.mem_cons_self _ _))))
    have htid := hi.stored _ _ ht
    simp only [EmbeddedTasks.finish, EmbeddedTasks.release, ht, Bool.false_eq_true, if_false]
    refine hi.of_le (hi.consumer.step _ hc) (le_of_eq ?_) rfl hi.sending
      (fun x hx => hi.held x (hsub x hx)) rfl hi.running
    simp only [copies, hcoe, List.map_append, List.map_cons, List.map_nil, htid,
      ← Multiset.coe_add, Multiset.coe_singleton, ← Multiset.singleton_add]
    abel
  case true =>
    simp only [EmbeddedTasks.finish, if_true]
    have hcp : s.copies = id ::ₘ ({ s with c := c', e := s.e.done id } : EmbeddedPair).copies := by
      simp only [copies, EmbeddedTasks.done, hcoe, ← Multiset.singleton_add]; abel
    obtain ⟨hfresh, hnd⟩ := Multiset.nodup_cons.1 (hcp ▸ hi.nodup)
    have hne : ∀ x ∈ ({ s with c := c', e := s.e.done id } : EmbeddedPair).copies, x ≠ id :=
      fun x hx he => hfresh (he ▸ hx)
    exact {
      consumer := hi.consumer.step _ hc
      nodup := hnd
      submitted := fun x hx => hi.submitted x (hcp ▸ Multiset.mem_cons_of_mem hx)
      sending := fun t (ht : s.e.watch = _) => AList.mem_erase.2
        ⟨hne _ (by simp [copies, EmbeddedTasks.done, ht, WatcherPc.task?]), hi.sending t ht⟩
      held := fun x hx => AList.mem_erase.2
        ⟨hne _ (Multiset.mem_add.2 (.inr (Multiset.mem_coe.2 hx))), hi.held x (hsub x hx)⟩
      stored := fun x t hx => by
        by_cases he : x = id
        · subst he; simp [EmbeddedTasks.done, AList.lookup_erase] at hx
        · exact hi.stored x t (by rwa [EmbeddedTasks.done, AList.lookup_erase_ne he] at hx)
      running := hi.running }

theorem Inv.step {s s' : EmbeddedPair} (hi : s.Inv) {a : PairAction} (h : s.step a = some s')
    (hn : s'.submitted.Nodup) : s'.Inv := by
  rw [EmbeddedPair.step.eq_def, if_neg (by simp [hi.running])] at h
  cases a <;> dsimp only at h
  case submitTask t =>
    cases h
    have hfresh : t.id ∉ s.submitted := fun hm =>
      (List.nodup_append.1 hn).2.2 hm (List.mem_singleton_self _)
    have hcp : ({ s with submits := s.submits ++ [t], submitted := s.submitted ++ [t.id] } :
        EmbeddedPair).copies = t.id ::ₘ s.copies := by
      simp only [copies, List.map_append, List.map_cons, List.map_nil, ← Multiset.coe_add,
        Multiset.coe_singleton, ← Multiset.singleton_add]
      abel
    exact {
      consumer := hi.consumer
      nodup := hcp ▸ Multiset.nodup_cons.2 ⟨fun hm => hfresh (hi.submitted _ hm), hi.nodup⟩
      submitted := fun x hx => by
        rw [hcp, Multiset.mem_cons] at hx
        rcases hx with rfl | hx
        · exact List.mem_append_right _ (List.mem_singleton_self _)
        · exact List.mem_append_left _ (hi.submitted x hx)
      sending := hi.sending
      held := hi.held
      stored := hi.stored
      running := hi.running }
  case recvSubmit i | recvReenqueue i =>
    split at h
    · rename_i t hw hidle ht
      cases h
      refine hi.of_le hi.consumer (le_of_eq ?_) rfl nofun hi.held rfl hi.running
      simp only [copies, hidle, coe_map_eraseIdx ht, WatcherPc.task?, Option.map_some',
        Option.map_none', Option.toList_some, Option.toList_none, Multiset.coe_nil,
        Multiset.coe_singleton, ← Multiset.singleton_add]
      abel
    · cases h
  case dropReenqueue i =>
    split_ifs at h; cases h
    refine hi.of_le hi.consumer ?_ rfl hi.sending hi.held rfl hi.running
    unfold copies
    exact add_le_add_right (add_le_add_right (add_le_add_left
      (Multiset.coe_le.2 ((List.eraseIdx_sublist _ _).map _).subperm) _) _) _
  case store =>
    split at h
    · rename_i t hw hrecv
      cases h
      exact {
        consumer := hi.consumer
        nodup := by simpa only [copies, hrecv, WatcherPc.task?] using hi.nodup
        submitted := by simpa only [copies, hrecv, WatcherPc.task?] using hi.submitted
        sending := fun t' ht' => by cases ht'; exact (AList.mem_insert _).2 (.inl rfl)
        held := fun x hx => (AList.mem_insert _).2 (.inr (hi.held x hx))
        stored := fun x t' hx => by
          by_cases he : x = t.id
          · subst he; rw [AList.lookup_insert, Option.some.injEq] at hx; exact hx ▸ rfl
          · exact hi.stored x t' (by rwa [AList.lookup_insert_ne he] at hx)
        running := hi.running }
    · cases h
  case watchStop =>
    split_ifs at h; cases h
    refine hi.of_le hi.consumer ?_ rfl nofun hi.held rfl hi.running
    simp only [copies, WatcherPc.task?, Option.map_none', Option.toList_none, Multiset.coe_nil,
      add_zero]
    exact add_le_add_right (Multiset.le_add_right _ _) _
  case deliver =>
    split at h
    · rename_i t hsend
      obtain ⟨c', hc, rfl⟩ := Option.map_eq_some'.1 h
      obtain ⟨t', ht', hH⟩ | ⟨k, -, -, hk, -⟩ | ⟨hne, -, -⟩ :=
        Consumer.held_step hi.consumer.inv hc
      · cases ht'
        have hcoe : (↑c'.held : Multiset String) = t.id ::ₘ ↑s.c.held := Multiset.coe_eq_coe.2 hH
        refine hi.of_le (hi.consumer.step _ hc) (le_of_eq ?_) rfl nofun ?_ rfl hi.running
        · simp only [copies, hsend, hcoe, WatcherPc.task?, Option.map_some', Option.map_none',
            Option.toList_some, Option.toList_none, Multiset.coe_nil, Multiset.coe_singleton,
            ← Multiset.singleton_add]
          abel
        · intro x hx
          rcases List.mem_cons.1 (hH.subset hx) with rfl | hx
          · exact hi.sending t hsend
          · exact hi.held x hx
      · cases hk
      · exact absurd rfl (hne t)
    · cases h
  case consumer a =>
    simp only [Option.bind_eq_some, Option.map_eq_some'] at h
    obtain ⟨e, he, c', hc, rfl⟩ := h
    cases a
    case recvTask => cases he
    case claim ok =>
      cases ok
      · cases he
      · cases he; exact hi.lift hc nofun nofun
    case watcherExit =>
      simp only [answer] at he; split_ifs at he; cases he; exact hi.lift hc nofun nofun
    case handlerFinish k =>
      simp only [answer] at he
      split at he
      · rename_i serial t started r hh
        cases he
        obtain ⟨_, h1, -⟩ | ⟨k', h₀, r', hk', hh', -, hH⟩ | ⟨-, hne, -⟩ :=
          Consumer.held_step hi.consumer.inv hc
        · cases h1
        · cases hk'
          rw [hh, Option.some.injEq] at hh'
          subst hh'
          exact hi.finish hc hH r.done
        · exact absurd rfl (hne k)
      · cases he
    all_goals (cases he; exact hi.lift hc nofun nofun)

/-- Every reachable state keeps `Inv` while the client has submitted each ID once. -/
theorem Reachable.inv {s : EmbeddedPair} (hs : s.Reachable) (hn : s.submitted.Nodup) : s.Inv := by
  induction hs with
  | init => exact Inv.init
  | step a _ h ih => exact (ih (hn.sublist (submitted_sublist h))).step h hn

def runSteps : EmbeddedPair → List PairAction → Option EmbeddedPair
  | s, [] => some s
  | s, a :: as => (s.step a).bind (runSteps · as)

theorem runSteps_reachable {s s' : EmbeddedPair} (hs : s.Reachable) :
    ∀ {as : List PairAction}, runSteps s as = some s' → s'.Reachable
  | [], h => by cases h; exact hs
  | a :: as, h => by
    simp only [runSteps, Option.bind_eq_some] at h
    obtain ⟨s₁, h₁, h₂⟩ := h
    exact runSteps_reachable (hs.step a h₁) h₂

end EmbeddedPair

open EmbeddedPair

/-- No task ID has two copies in flight, `Release` never panics, and the handler goroutine
whose `Done` or `Release` is next finds its ID in `e.tasks`. -/
theorem embedded_single_copy {s : EmbeddedPair} (hs : s.Reachable) (hn : s.submitted.Nodup) :
    (∀ id, s.copies.count id ≤ 1) ∧ s.e.panicked = none ∧
    ∀ k h r, s.c.handler? k = some h → h.pc = .deleted r → h.task.id ∈ s.e.tasks := by
  have hi := hs.inv hn
  refine ⟨Multiset.nodup_iff_count_le_one.1 hi.nodup, hi.running, fun k h r hh hpc => ?_⟩
  refine hi.held _ (List.mem_append_right _ (List.mem_map_of_mem _ (List.mem_filter.2
    ⟨(Consumer.handler?_spec hh).1, by rw [hpc]; rfl⟩)))

def taskA : Task := ⟨"a", Props.empty⟩

/-- `Run()`, `SubmitTask("a", {})`, and the handler of `a` returns `false`. -/
def releaseRun : List PairAction :=
  [.consumer .run, .submitTask taskA, .recvSubmit 0, .store, .deliver,
    .consumer (.checkIgnored 0), .consumer (.canClaim true 0), .consumer (.claim true),
    .consumer (.start 0), .consumer (.handlerRun 0), .consumer (.handlerReturn 0 (.returned false)),
    .consumer (.handlerDelete 0)]

/-- After `releaseRun`: the handler's `Release("a")` is next. -/
def releasing : EmbeddedPair :=
  (EmbeddedPair.runSteps EmbeddedPair.init releaseRun).getD EmbeddedPair.init

theorem releasing_reachable : releasing.Reachable :=
  runSteps_reachable .init
    (rfl : EmbeddedPair.runSteps EmbeddedPair.init releaseRun = some releasing)

theorem embedded_single_copy_releasing :
    releasing.Reachable ∧ releasing.submitted.Nodup ∧
    ((∀ id, releasing.copies.count id ≤ 1) ∧ releasing.e.panicked = none ∧
      ∀ k h r, releasing.c.handler? k = some h → h.pc = .deleted r →
        h.task.id ∈ releasing.e.tasks) :=
  ⟨releasing_reachable, by decide, embedded_single_copy releasing_reachable (by decide)⟩

example : releasing.c.handler? 0 = some ⟨0, taskA, 0, .deleted (.returned false)⟩ := by decide

end Metafora
