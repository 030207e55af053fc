import Mathlib.Data.List.Infix
import Metafora.Etcd.History

/-! # The streaming `EtcdCoordinator.Watch` loop (`src/m_etcd/coordinator.go`)

* `WatchState`, `WatchState.step`: one pass of the loop per answer of etcd: the stop check and
  the recursive GET at `startWatch`, then the inner loop over `ec.watch` (its retries, the
  expired-index restart, `ErrWatchStoppedByUser` and other errors) at `watching index`.
* `WatchRound`: what one pass of the outer loop hands to `parseTask`: the GET's directories, then
  the watch responses; the rounds are kept newest first.
* `answerRounds`: the rounds a run of answers asks for, each GET's index with the number of
  responses after it, read off the answers alone.
* `WatchInv`, `watch_hands_every_event`: in every run and every round, the responses handed to
  `parseTask` are the first `n` task-tree events above the index the round's GET reflects, `n`
  being the number of responses etcd gave in that round: in order, with no gap and no repeat;
  while the inner loop runs, its next watch starts right after the last of them. The loop sets
  `index = resp.Node.ModifiedIndex`, and that is what makes it so.

The select on `ec.stop` around `out <- task` only ends a run early; it is left out.
-/

namespace Metafora
set_option autoImplicit false

/-! ## Model -/

inductive WatchPc
  | startWatch
  | watching (index : Nat)
  | returned (err : Option String)

/-- One pass of the outer loop: the index its GET reflects, the GET's children handed to
`parseTask`, and the watch responses handed to `parseTask` since. -/
structure WatchRound where
  index : Nat
  existing : List EtcdNode
  events : List EtcdEvent

structure WatchState where
  pc : WatchPc
  rounds : List WatchRound

def WatchState.init : WatchState := ⟨.startWatch, []⟩

/-- Hand a watch response to `parseTask`, within the current round. -/
def handEvent (e : EtcdEvent) : List WatchRound → List WatchRound
  | [] => []
  | r :: rs => { r with events := r.events ++ [e] } :: rs

/-- `Watch` on one answer of etcd; `none` when etcd cannot give that answer there. -/
def WatchState.step (hist : EtcdHistory) (s : WatchState) : EtcdAnswer → Option WatchState
  | .stopped =>
    match s.pc with
    | .startWatch | .watching _ => some { s with pc := .returned none }
    | .returned _ => none
  | .getError err =>
    match s.pc with
    | .startWatch => some { s with pc := .returned (some err) }
    | _ => none
  | .get etcdIndex nodes =>
    match s.pc with
    | .startWatch =>
      some ⟨.watching (getIndex etcdIndex nodes),
        ⟨getIndex etcdIndex nodes, nodes.filter (·.dir), []⟩ :: s.rounds⟩
    | _ => none
  | .rawWatchError | .emptyBody =>
    match s.pc with
    | .watching _ => some s
    | _ => none
  | .expiredIndex =>
    match s.pc with
    | .watching _ => some { s with pc := .startWatch }
    | _ => none
  | .unmarshalError err =>
    match s.pc with
    | .watching _ => some { s with pc := .returned (some err) }
    | _ => none
  | .response _ =>
    match s.pc with
    | .watching index =>
      match hist.watchFrom (index + 1) with
      | some e => some ⟨.watching e.node.modifiedIndex, handEvent e s.rounds⟩
      | none => none
    | _ => none

def WatchState.run (hist : EtcdHistory) : WatchState → List EtcdAnswer → Option WatchState
  | s, [] => some s
  | s, a :: as => (s.step hist a).bind (WatchState.run hist · as)

/-- The rounds a run of answers asks for, newest first, each as the index its GET reflects and
the number of responses etcd gave since: a GET starts a round, a response counts in the current
one, and every other answer hands nothing. -/
def answerRounds (rs : List (Nat × Nat)) : EtcdAnswer → List (Nat × Nat)
  | .get etcdIndex nodes => (getIndex etcdIndex nodes, 0) :: rs
  | .response _ =>
    match rs with
    | (i, n) :: rs => (i, n + 1) :: rs
    | [] => []
  | _ => rs

/-- A round's GET index and the number of events it has handed to `parseTask`. -/
def WatchRound.summary (r : WatchRound) : Nat × Nat := (r.index, r.events.length)

/-! ## What a step does to the rounds -/

theorem WatchState.step_cases {hist : EtcdHistory} {s s' : WatchState} {a : EtcdAnswer}
    (h : s.step hist a = some s') :
    (s'.rounds = s.rounds ∧ ∀ index, s'.pc = .watching index → s.pc = .watching index) ∨
    (∃ g existing, s'.pc = .watching g ∧ s'.rounds = ⟨g, existing, []⟩ :: s.rounds) ∨
    (∃ index e, s.pc = .watching index ∧ hist.watchFrom (index + 1) = some e ∧
      s'.pc = .watching e.index ∧ s'.rounds = handEvent e s.rounds) := by
  cases a with
  | response _ =>
    simp only [WatchState.step] at h
    split at h
    · rename_i index hpc
      split at h
      · rename_i e he
        cases h
        exact .inr (.inr ⟨index, e, hpc, he, rfl, rfl⟩)
      · cases h
    · cases h
  | get etcdIndex nodes =>
    simp only [WatchState.step] at h
    split at h
    · cases h
      exact .inr (.inl ⟨_, _, rfl, rfl⟩)
    · cases h
  | stopped | getError _ | rawWatchError | emptyBody | expiredIndex | unmarshalError _ =>
    left
    simp only [WatchState.step] at h
    split at h <;> cases h
    all_goals exact ⟨rfl, fun _ h => by first | exact h | cases h⟩

theorem handEvent_summary (e : EtcdEvent) (rs : List WatchRound) (etcdIndex : Nat) :
    (handEvent e rs).map WatchRound.summary =
      answerRounds (rs.map WatchRound.summary) (.response etcdIndex) := by
  cases rs <;> simp [handEvent, WatchRound.summary, answerRounds]

theorem WatchState.step_summary {hist : EtcdHistory} {s s' : WatchState} {a : EtcdAnswer}
    (h : s.step hist a = some s') :
    s'.rounds.map WatchRound.summary = answerRounds (s.rounds.map WatchRound.summary) a := by
  cases a with
  | response etcdIndex =>
    simp only [WatchState.step] at h
    split at h
    · split at h
      · cases h; exact handEvent_summary _ _ _
      · cases h
    · cases h
  | get etcdIndex nodes =>
    simp only [WatchState.step] at h
    split at h
    · cases h; rfl
    · cases h
  | stopped | getError _ | rawWatchError | emptyBody | expiredIndex | unmarshalError _ =>
    simp only [WatchState.step] at h
    split at h <;> cases h <;> rfl

/-! ## The rounds along a run -/

/-- Every round has handed a prefix of the events above its GET's index; while the inner loop
runs, the current round and the events above the watch index make up all of them. -/
structure WatchInv (hist : EtcdHistory) (s : WatchState) : Prop where
  handed : ∀ r ∈ s.rounds, r.events <+: hist.after r.index
  current : ∀ index, s.pc = .watching index →
    ∃ r rs, s.rounds = r :: rs ∧ r.events ++ hist.after index = hist.after r.index

theorem WatchInv.init (hist : EtcdHistory) : WatchInv hist WatchState.init :=
  ⟨fun _ h => (by cases h), fun _ h => (by cases h)⟩

theorem WatchInv.step {hist : EtcdHistory} {s s' : WatchState} {a : EtcdAnswer}
    (hi : WatchInv hist s) (h : s.step hist a = some s') : WatchInv hist s' := by
  rcases WatchState.step_cases h with ⟨hr, hpc⟩ | ⟨g, existing, hpc, hr⟩ |
    ⟨index, e, hpc, he, hpc', hr⟩
  · exact ⟨hr ▸ hi.handed, fun index h => hr ▸ hi.current index (hpc index h)⟩
  · refine ⟨?_, fun index h => ⟨_, _, hr, ?_⟩⟩
    · rw [hr]
      rintro r (_ | ⟨_, hm⟩)
      · exact List.nil_prefix
      · exact hi.handed r hm
    · rw [hpc] at h
      cases h
      rfl
  · obtain ⟨r, rs, hrs, hcur⟩ := hi.current index hpc
    rw [EtcdHistory.after_of_watchFrom he] at hcur
    have hcur' : (r.events ++ [e]) ++ hist.after e.index = hist.after r.index := by
      rw [List.append_assoc]; exact hcur
    rw [hrs] at hr
    refine ⟨?_, fun index' h => ⟨_, _, hr, ?_⟩⟩
    · rw [hr]
      rintro r' (_ | ⟨_, hm⟩)
      · exact ⟨_, hcur'⟩
      · exact hi.handed r' (hrs ▸ List.mem_cons_of_mem _ hm)
    · rw [hpc'] at h
      cases h
      exact hcur'

theorem WatchInv.run {hist : EtcdHistory} :
    ∀ {s s' : WatchState} {as : List EtcdAnswer}, WatchInv hist s → s.run hist as = some s' →
      WatchInv hist s'
  | _, _, [], hi, h => by cases h; exact hi
  | s, _, a :: as, hi, h => by
    simp only [WatchState.run, Option.bind_eq_some] at h
    obtain ⟨s₁, h₁, h₂⟩ := h
    exact WatchInv.run (hi.step h₁) h₂

theorem WatchState.run_summary {hist : EtcdHistory} :
    ∀ {s s' : WatchState} {as : List EtcdAnswer}, s.run hist as = some s' →
      s'.rounds.map WatchRound.summary = as.foldl answerRounds (s.rounds.map WatchRound.summary)
  | _, _, [], h => by cases h; rfl
  | s, _, a :: as, h => by
    simp only [WatchState.run, Option.bind_eq_some] at h
    obtain ⟨s₁, h₁, h₂⟩ := h
    rw [WatchState.run_summary h₂, WatchState.step_summary h₁]
    rfl

theorem forall₂_take_of_summary {hist : EtcdHistory} :
    ∀ {rs : List WatchRound}, (∀ r ∈ rs, r.events <+: hist.after r.index) →
      List.Forall₂ (fun r g => r.index = g.1 ∧ r.events = (hist.after g.1).take g.2) rs
        (rs.map WatchRound.summary)
  | [], _ => .nil
  | r :: _, hp =>
    .cons ⟨rfl, List.prefix_iff_eq_take.mp (hp r (List.mem_cons_self _ _))⟩
      (forall₂_take_of_summary fun r' h' => hp r' (List.mem_cons_of_mem _ h'))

/-- `Watch` hands `parseTask`, between each recursive GET and the next restart, the task-tree
events above the index that GET reflects, in order, with no gap and no repeat: the round of the
`k`-th GET from the end has that GET's index and, after `n` responses, has handed exactly the
first `n` events above it. While it watches, its next watch starts right after the last event
it handed. -/
theorem watch_hands_every_event {hist : EtcdHistory} {answers : List EtcdAnswer}
    {s : WatchState} (h : WatchState.init.run hist answers = some s) :
    List.Forall₂ (fun r g => r.index = g.1 ∧ r.events = (hist.after g.1).take g.2) s.rounds
      (answers.foldl answerRounds []) ∧
    ∀ index, s.pc = .watching index →
      ∃ r rs, s.rounds = r :: rs ∧ r.events ++ hist.after index = hist.after r.index :=
  let hi := WatchInv.run (WatchInv.init hist) h
  ⟨WatchState.run_summary h ▸ forall₂_take_of_summary hi.handed, hi.current⟩

/-- The task directory `t1` created at index 5. -/
def taskDirCreated : EtcdEvent := ⟨"create", ⟨"/ns/tasks/t1", "", true, 5, []⟩⟩

def taskDirHistory : EtcdHistory := ⟨[taskDirCreated], List.pairwise_singleton _ _⟩

theorem watch_hands_every_event_taskDir :
    ∃ s, WatchState.init.run taskDirHistory [.get 3 [], .emptyBody, .response 9] = some s ∧
      List.Forall₂ (fun r g => r.index = g.1 ∧ r.events = (taskDirHistory.after g.1).take g.2)
        s.rounds ([.get 3 [], .emptyBody, .response 9].foldl answerRounds []) ∧
      ∀ index, s.pc = .watching index →
        ∃ r rs, s.rounds = r :: rs ∧
          r.events ++ taskDirHistory.after index = taskDirHistory.after r.index :=
  have h : WatchState.init.run taskDirHistory [.get 3 [], .emptyBody, .response 9] =
      some ⟨.watching 5, [⟨3, [], [taskDirCreated]⟩]⟩ := rfl
  ⟨_, h, watch_hands_every_event h⟩

end Metafora
