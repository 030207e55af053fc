import Mathlib.Data.List.Pairwise

/-! # etcd v2 as the coordinator's watch loops see it

* `EtcdNode`, `EtcdResponse`: the fields of go-etcd's `Node` and `Response` that `m_etcd` reads.
* `EtcdHistory`: the events under a watched directory, in the order etcd applied them; etcd
  gives each a larger index than the one before (`sorted`).
* `EtcdHistory.watchFrom`: a watch from `w` answers with the earliest event whose index is at
  least `w`. The `X-Etcd-Index` header of that answer is not the event's index in general, so
  it is a separate value chosen by etcd (`EtcdAnswer.response`).
* `EtcdAnswer`: what etcd answers to the next call a loop makes: the recursive GET, or one
  `RawWatch` round of `EtcdCoordinator.watch`.
* `after_of_watchFrom`: the events above `i` are the event a watch from `i + 1` returns,
  followed by the events above that event's index. The watch loops' run lemmas rest on it.
-/

namespace Metafora
set_option autoImplicit false

/-! ## Nodes, events and histories -/

/-- go-etcd's `Node`. -/
structure EtcdNode where
  key : String
  value : String
  dir : Bool
  modifiedIndex : Nat
  nodes : List EtcdNode

/-- go-etcd's `Response`: the action, the node, and the `X-Etcd-Index` header. -/
structure EtcdResponse where
  action : String
  node : EtcdNode
  etcdIndex : Nat

/-- One change etcd applied under the watched directory; its index is the node's
`ModifiedIndex`. -/
structure EtcdEvent where
  action : String
  node : EtcdNode

def EtcdEvent.index (e : EtcdEvent) : Nat := e.node.modifiedIndex

/-- The response a watch answers `e` with, under the header `etcdIndex`. -/
def EtcdEvent.toResponse (e : EtcdEvent) (etcdIndex : Nat) : EtcdResponse :=
  ⟨e.action, e.node, etcdIndex⟩

/-- The events etcd applied under a directory, oldest first, with increasing indices. -/
structure EtcdHistory where
  events : List EtcdEvent
  sorted : events.Pairwise fun a b => a.index < b.index

/-- etcd v2: a watch from `w` answers with the earliest event whose index is at least `w`. -/
def EtcdHistory.watchFrom (h : EtcdHistory) (w : Nat) : Option EtcdEvent :=
  h.events.find? fun e => w ≤ e.index

/-- The events with an index above `i`, in order. -/
def EtcdHistory.after (h : EtcdHistory) (i : Nat) : List EtcdEvent :=
  h.events.filter fun e => i < e.index

/-- What etcd answers to the next call of a watch loop. -/
inductive EtcdAnswer
  /-- The recursive GET: its `X-Etcd-Index` and the directory's children. -/
  | get (etcdIndex : Nat) (nodes : List EtcdNode)
  | getError (err : String)
  /-- `RawWatch` failed with an error other than `ErrWatchStoppedByUser`: `watch` retries. -/
  | rawWatchError
  /-- An empty body: `watch` closes idle connections and retries. -/
  | emptyBody
  /-- `EcodeExpiredIndex`: `watch` returns `restartWatchError`. -/
  | expiredIndex
  /-- Any other error unmarshalling the body: `watch` returns it. -/
  | unmarshalError (err : String)
  /-- `ErrWatchStoppedByUser`: the stop channel was closed. -/
  | stopped
  /-- A response; its body is `watchFrom` the watched index, its header is `etcdIndex`. -/
  | response (etcdIndex : Nat)

/-- The answers `watch` retries by itself: a failed `RawWatch` and an empty body. -/
def EtcdAnswer.isRetry : EtcdAnswer → Bool
  | .rawWatchError | .emptyBody => true
  | _ => false

/-- The watch index after a GET: `resp.EtcdIndex`, raised to any child's `ModifiedIndex`. -/
def getIndex (etcdIndex : Nat) (nodes : List EtcdNode) : Nat :=
  nodes.foldl (fun index node => if node.modifiedIndex > index then node.modifiedIndex else index)
    etcdIndex

/-- `newActions`: the etcd actions of a new key. -/
def newActions (action : String) : Bool := action = "create" || action = "set"

/-- `releaseActions`: the etcd actions of a removed claim key. -/
def releaseActions (action : String) : Bool :=
  action = "expire" || action = "delete" || action = "compareAndDelete"

/-! ## The events after an index -/

theorem after_of_watchFrom_events {i : Nat} {e : EtcdEvent} :
    ∀ {es : List EtcdEvent}, es.Pairwise (fun a b => a.index < b.index) →
      es.find? (fun e => i + 1 ≤ e.index) = some e →
      es.filter (fun e => i < e.index) = e :: es.filter (fun e' => e.index < e'.index)
  | [], _, h => by cases h
  | x :: xs, hs, h => by
    obtain ⟨hx, hxs⟩ := List.pairwise_cons.mp hs
    by_cases hle : i + 1 ≤ x.index
    · rw [List.find?_cons_of_pos _ (by simpa using hle)] at h
      cases h
      have hall : ∀ p : Nat, p ≤ e.index → xs.filter (fun e' => p < e'.index) = xs := fun p hp =>
        List.filter_eq_self.mpr fun y hy => by simpa using Nat.lt_of_le_of_lt hp (hx y hy)
      rw [List.filter_cons_of_pos (by simpa using hle), hall i (by omega),
        List.filter_cons_of_neg (by simp), hall _ (Nat.le_refl _)]
    · rw [List.find?_cons_of_neg _ (by simpa using hle)] at h
      have hex : x.index < e.index := hx e (List.mem_of_find?_eq_some h)
      rw [List.filter_cons_of_neg (by simp; omega), after_of_watchFrom_events hxs h,
        List.filter_cons_of_neg (by simp; omega)]

theorem EtcdHistory.after_of_watchFrom {h : EtcdHistory} {i : Nat} {e : EtcdEvent}
    (he : h.watchFrom (i + 1) = some e) : h.after i = e :: h.after e.index :=
  after_of_watchFrom_events h.sorted he

theorem EtcdHistory.after_of_watchFrom_none {h : EtcdHistory} {i : Nat}
    (he : h.watchFrom (i + 1) = none) : h.after i = [] := by
  rw [EtcdHistory.watchFrom, List.find?_eq_none] at he
  exact List.filter_eq_nil_iff.mpr fun e hm => by have := he e hm; simp at this ⊢; omega

end Metafora
