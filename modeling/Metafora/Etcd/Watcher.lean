import Mathlib.Data.List.AList
import Metafora.Etcd.Task

/-! # The `EtcdCoordinator` of `src/unnamed/part_001`

An earlier coordinator, built around a `watcher` goroutine per path, whose `Watch` returns one
task ID and whose `Claim` and `Release` create and delete the owner marker directly.

* `ownerMarker`, `WatcherCoordinator`, `newWatcherCoordinator`: the coordinator's `TaskPath` and
  `NodeID` as `NewEtcdCoordinator` builds them.
* `WatcherCoordinator.claim`, `release`: `Claim` makes `TaskPath/taskID/owner` with `CreateDir`,
  which etcd refuses for an existing key; `Release` removes it with `DeleteDir`, whoever made it.
* `Cluster`, `Cluster.step`: nodes of one namespace calling `Claim` and `Release` on one etcd,
  and etcd expiring markers whose TTL ran out. `release_lets_third_claim`: a `Release` that
  comes after the caller's marker expired and another node claimed deletes that node's marker,
  so a third node's `Claim` succeeds while the second still holds its claim.
  `claims_exclusive_without_expiry`: while no marker expires, `CreateDir` makes claims
  exclusive: along every run no task is held by two nodes (`Cluster.Exclusive`, kept by every
  `Claim` and `Release`).
* `parseTaskIdFromOwnerNode`, `isATaskNode`, `parseTaskIdFromTaskNode`, `nodeIsTheOwnerMarker`,
  `nodeHasOwnerMarker`, `watchResponse`, `watch`: how `Watch` classifies the responses the
  watcher sends it, those of the initial GET included. `owner_release_returns_task`: a removed
  owner marker gives its task back for every task ID of one element.
  `deleted_task_dir_returned`: the markers are recognised by substring, so deleting the
  directory of a task whose ID contains `owner` returns that ID too.
-/

namespace Metafora
set_option autoImplicit false

/-! ## Model -/

/-- Modelled from the spec: `OwnerMarker` is not in `src`; the spec's owner key is `owner`. -/
def ownerMarker : String := "owner"

/-- The fields of the `EtcdCoordinator` of `part_001` that `Claim`, `Release` and `Watch` read. -/
structure WatcherCoordinator where
  taskPath : String
  nodeID : String

/-- `NewEtcdCoordinator(nodeId, namespace, client)`; `generated` is the hostname-and-UUID ID used
when `nodeId` is empty. -/
def newWatcherCoordinator (nodeId nspace generated : String) : WatcherCoordinator :=
  let nspace := trim nspace ['/', ' ']
  let nodeId := if nodeId = "" then generated else nodeId
  ⟨"/" ++ nspace ++ "/" ++ tasksPath, trim nodeId ['/', ' ']⟩

namespace WatcherCoordinator

variable (ec : WatcherCoordinator)

/-- `claimedMarker` of `Claim` and `Release`: `TaskPath/taskID/owner`. -/
def claimedMarker (taskID : String) : String := ec.taskPath ++ "/" ++ taskID ++ "/" ++ ownerMarker

/-- `Claim(taskID)` on the owner markers in etcd, each stored with the node whose `CreateDir` made
it (etcd keeps no owner for a directory; the model records it to state who holds a claim). -/
def claim (markers : AList (fun _ : String => String)) (taskID : String) :
    Bool × AList (fun _ : String => String) :=
  if ec.claimedMarker taskID ∈ markers then (false, markers)
  else (true, markers.insert (ec.claimedMarker taskID) ec.nodeID)

/-- `Release(taskID)`: `DeleteDir(claimedMarker)`. -/
def release (markers : AList (fun _ : String => String)) (taskID : String) :
    AList (fun _ : String => String) :=
  markers.erase (ec.claimedMarker taskID)

end WatcherCoordinator

/-- The owner markers in etcd and the claims the nodes hold: the `(NodeID, taskID)` pairs whose
`Claim` returned true and whose `Release` has not been called. -/
structure Cluster where
  markers : AList (fun _ : String => String)
  claims : List (String × String)

def Cluster.init : Cluster := ⟨∅, []⟩

inductive ClusterAction
  | claim (ec : WatcherCoordinator) (taskID : String)
  | release (ec : WatcherCoordinator) (taskID : String)
  /-- etcd deletes a marker whose TTL ran out without a refresh. -/
  | expire (key : String)

def Cluster.step (cl : Cluster) : ClusterAction → Option Cluster
  | .claim ec taskID =>
    let r := ec.claim cl.markers taskID
    some ⟨r.2, if r.1 then cl.claims ++ [(ec.nodeID, taskID)] else cl.claims⟩
  | .release ec taskID =>
    if (ec.nodeID, taskID) ∈ cl.claims then
      some ⟨ec.release cl.markers taskID, cl.claims.erase (ec.nodeID, taskID)⟩
    else none
  | .expire key => if key ∈ cl.markers then some { cl with markers := cl.markers.erase key } else none

def Cluster.run : Cluster → List ClusterAction → Option Cluster
  | cl, [] => some cl
  | cl, a :: as => (cl.step a).bind (Cluster.run · as)

/-- `ec` holds a claim on the task and the marker present is the one it made. -/
def Cluster.ValidOwner (cl : Cluster) (ec : WatcherCoordinator) (taskID : String) : Prop :=
  (ec.nodeID, taskID) ∈ cl.claims ∧ cl.markers.lookup (ec.claimedMarker taskID) = some ec.nodeID

instance (cl : Cluster) (ec : WatcherCoordinator) (taskID : String) :
    Decidable (cl.ValidOwner ec taskID) :=
  inferInstanceAs (Decidable (_ ∧ _))

/-! ## `Watch` -/

namespace WatcherCoordinator

variable (ec : WatcherCoordinator)

def parseTaskIdFromOwnerNode (nodePath : String) : String × Bool :=
  let res := replace nodePath (ec.taskPath ++ "/") ""
  let res2 := replace res ("/" ++ ownerMarker) ""
  if !contains res2 "/" then (res2, false) else ("", true)

def isATaskNode (nodePath : String) : Bool :=
  let possibleTaskId := replace nodePath (ec.taskPath ++ "/") ""
  if contains possibleTaskId "/" then false else true

/-- `nodeIsTheOwnerMarker(node)`; like `nodeHasOwnerMarker`, it reads nothing of `ec`. -/
def nodeIsTheOwnerMarker (node : EtcdNode) : Bool := contains node.key ownerMarker

def nodeHasOwnerMarker (node : EtcdNode) : Bool := node.nodes.any fun n => contains n.key ownerMarker

def parseTaskIdFromTaskNode (node : EtcdNode) : String × Bool :=
  if !ec.isATaskNode node.key then ("", true)
  else if nodeHasOwnerMarker node then ("", true)
  else
    match (split node.key '/').getLast? with
    | none => ("", true)
    | some taskId =>
      if !node.dir then ("", true)
      else if taskId = "tasks" then ("", true)
      else (taskId, false)

/-- One response in the loop of `Watch`: the task ID it returns, or `none` to read on. -/
def watchResponse (resp : EtcdResponse) : Option String :=
  if resp.action = "create" ∧ (ec.parseTaskIdFromTaskNode resp.node).2 = false then
    some (ec.parseTaskIdFromTaskNode resp.node).1
  else if (resp.action = "expire" ∨ resp.action = "delete" ∨ resp.action = "compareAndDelete") ∧
      nodeIsTheOwnerMarker resp.node ∧ (ec.parseTaskIdFromOwnerNode resp.node.key).2 = false then
    some (ec.parseTaskIdFromOwnerNode resp.node.key).1
  else none

end WatcherCoordinator

/-- What the `watcher` goroutine sends `Watch`: a response (a child of its initial GET, sent as a
`create`, or an answer of etcd's watch), or what it puts on `errorChan`. -/
inductive WatcherMsg
  | response (resp : EtcdResponse)
  | error (err : Option String)

/-- The children of the watcher's GET, as it sends them. -/
def getResponses (etcdIndex : Nat) (nodes : List EtcdNode) : List WatcherMsg :=
  nodes.map fun node => .response ⟨"create", node, etcdIndex⟩

/-- `Watch()` on the messages of the watcher, in order: what it returns, or `none` while it still
waits. -/
def WatcherCoordinator.watch (ec : WatcherCoordinator) : List WatcherMsg → Option (String × Option String)
  | [] => none
  | .response resp :: ms =>
    match ec.watchResponse resp with
    | some taskId => some (taskId, none)
    | none => ec.watch ms
  | .error err :: _ => some ("", err)

/-! ## A stale `Release` -/

theorem claimedMarker_eq {a b : WatcherCoordinator} (h : a.taskPath = b.taskPath)
    (taskID : String) : a.claimedMarker taskID = b.claimedMarker taskID := by
  simp only [WatcherCoordinator.claimedMarker, h]

theorem release_lookup (ec : WatcherCoordinator) (markers : AList (fun _ : String => String))
    (taskID : String) : (ec.release markers taskID).lookup (ec.claimedMarker taskID) = none :=
  AList.lookup_erase _ _

/-- Node `a` still holds a claim whose marker expired, and `b` claimed the task since: `a`'s
`Release` deletes the marker `b` made, and a `Claim` of `c` then succeeds while `b` still holds its
claim. -/
theorem release_lets_third_claim {cl : Cluster} {a b c : WatcherCoordinator} {taskID : String}
    (hab : a.nodeID ≠ b.nodeID) (hpa : a.taskPath = b.taskPath) (hpc : c.taskPath = b.taskPath)
    (ha : (a.nodeID, taskID) ∈ cl.claims) (hb : cl.ValidOwner b taskID) :
    ∃ cl₁ cl₂, cl.step (.release a taskID) = some cl₁ ∧
      cl₁.markers.lookup (b.claimedMarker taskID) = none ∧
      cl₁.step (.claim c taskID) = some cl₂ ∧ cl₂.ValidOwner c taskID ∧
      (b.nodeID, taskID) ∈ cl₂.claims := by
  have hka := claimedMarker_eq hpa taskID
  have hkc := claimedMarker_eq hpc taskID
  have hgone : c.claimedMarker taskID ∉ a.release cl.markers taskID := by
    rw [WatcherCoordinator.release, AList.mem_erase, hka, hkc]; exact fun h => h.1 rfl
  refine ⟨⟨a.release cl.markers taskID, cl.claims.erase (a.nodeID, taskID)⟩,
    ⟨(a.release cl.markers taskID).insert (c.claimedMarker taskID) c.nodeID,
      cl.claims.erase (a.nodeID, taskID) ++ [(c.nodeID, taskID)]⟩,
    by simp only [Cluster.step, if_pos ha], by rw [← hka]; exact release_lookup _ _ _,
    by simp only [Cluster.step, WatcherCoordinator.claim, if_neg hgone, if_true], ?_, ?_⟩
  · exact ⟨List.mem_append_right _ (List.mem_singleton_self _), AList.lookup_insert _⟩
  · exact List.mem_append_left _
      ((List.mem_erase_of_ne fun h => hab (Prod.ext_iff.1 h).1.symm).2 hb.1)

/-- Nodes `a`, `b` and `c` of namespace `ns`. -/
def nodeA : WatcherCoordinator := newWatcherCoordinator "a" "ns" ""
def nodeB : WatcherCoordinator := newWatcherCoordinator "b" "ns" ""
def nodeC : WatcherCoordinator := newWatcherCoordinator "c" "ns" ""

/-- `a` claims `t`, the marker expires, `b` claims `t`. -/
def staleRun : List ClusterAction :=
  [.claim nodeA "t", .expire (nodeA.claimedMarker "t"), .claim nodeB "t"]

def staleCluster : Cluster := (Cluster.init.run staleRun).getD Cluster.init

theorem release_lets_third_claim_stale :
    Cluster.init.run staleRun = some staleCluster ∧
    (nodeA.nodeID ≠ nodeB.nodeID ∧ nodeA.taskPath = nodeB.taskPath ∧
      nodeC.taskPath = nodeB.taskPath ∧ (nodeA.nodeID, "t") ∈ staleCluster.claims ∧
      staleCluster.ValidOwner nodeB "t") ∧
    ∃ cl₁ cl₂, staleCluster.step (.release nodeA "t") = some cl₁ ∧
      cl₁.markers.lookup (nodeB.claimedMarker "t") = none ∧
      cl₁.step (.claim nodeC "t") = some cl₂ ∧ cl₂.ValidOwner nodeC "t" ∧
      (nodeB.nodeID, "t") ∈ cl₂.claims :=
  ⟨rfl, ⟨by decide, rfl, rfl, by decide, by decide⟩,
    release_lets_third_claim (by decide) rfl rfl (by decide) (by decide)⟩

/-! ## Claims without expiry -/

/-- A `Claim` or `Release` of a node whose `TaskPath` is `p`; no marker expires (every node
refreshes its markers in time). -/
def ClusterAction.OnPath (p : String) : ClusterAction → Prop
  | .claim ec _ | .release ec _ => ec.taskPath = p
  | .expire _ => False

instance (p : String) : DecidablePred (ClusterAction.OnPath p)
  | .claim ec _ | .release ec _ => inferInstanceAs (Decidable (ec.taskPath = p))
  | .expire _ => inferInstanceAs (Decidable False)

/-- Every claim held is the one the marker of its task names, and none is held twice. -/
structure Cluster.Exclusive (p : String) (cl : Cluster) : Prop where
  nodup : cl.claims.Nodup
  marker : ∀ n t, (n, t) ∈ cl.claims → cl.markers.lookup (p ++ "/" ++ t ++ "/" ++ ownerMarker) = some n

theorem Cluster.exclusive_init (p : String) : Cluster.init.Exclusive p :=
  ⟨List.nodup_nil, fun _ _ h => nomatch h⟩

theorem markerKey_inj {p t t' : String}
    (h : p ++ "/" ++ t ++ "/" ++ ownerMarker = p ++ "/" ++ t' ++ "/" ++ ownerMarker) : t = t' := by
  have hd := congrArg String.data h
  simp only [String.data_append, List.append_assoc, List.append_cancel_left_eq,
    List.append_cancel_right_eq] at hd
  exact String.ext hd

theorem Cluster.Exclusive.step {p : String} {cl cl' : Cluster} (hx : cl.Exclusive p)
    {a : ClusterAction} (ha : a.OnPath p) (h : cl.step a = some cl') : cl'.Exclusive p := by
  cases a with
  | claim ec t =>
    simp only [ClusterAction.OnPath] at ha
    subst ha
    by_cases hm : ec.claimedMarker t ∈ cl.markers
    · simp only [Cluster.step, WatcherCoordinator.claim, hm, if_true] at h
      cases h
      exact hx
    · simp only [Cluster.step, WatcherCoordinator.claim, hm, if_false, if_true] at h
      cases h
      have hfree : ∀ n, (n, t) ∉ cl.claims := fun n hn =>
        hm (AList.lookup_isSome.mp (by rw [WatcherCoordinator.claimedMarker, hx.marker n t hn]; rfl))
      refine ⟨hx.nodup.append (List.nodup_singleton _)
        (List.disjoint_singleton.mpr (hfree _)), fun n t' hn => ?_⟩
      rcases List.mem_append.mp hn with hn | hn
      · have hne : t' ≠ t := fun he => hfree n (he ▸ hn)
        rw [WatcherCoordinator.claimedMarker, AList.lookup_insert_ne fun he => hne (markerKey_inj he)]
        exact hx.marker n t' hn
      · obtain ⟨rfl, rfl⟩ := Prod.mk.inj (List.mem_singleton.mp hn)
        exact AList.lookup_insert _
  | release ec t =>
    simp only [ClusterAction.OnPath] at ha
    subst ha
    simp only [Cluster.step] at h
    split_ifs at h with hc
    cases h
    refine ⟨hx.nodup.erase _, fun n t' hn => ?_⟩
    have hold := List.mem_of_mem_erase hn
    have hne : t' ≠ t := by
      rintro rfl
      have hn' : n = ec.nodeID := Option.some.inj ((hx.marker n t' hold).symm.trans
        (hx.marker ec.nodeID t' hc))
      subst hn'
      exact hx.nodup.not_mem_erase hn
    rw [WatcherCoordinator.release, WatcherCoordinator.claimedMarker,
      AList.lookup_erase_ne fun he => hne (markerKey_inj he)]
    exact hx.marker n t' hold
  | expire key => exact absurd ha id

theorem Cluster.Exclusive.run {p : String} :
    ∀ {cl cl' : Cluster} {acts : List ClusterAction}, cl.Exclusive p → (∀ a ∈ acts, a.OnPath p) →
      cl.run acts = some cl' → cl'.Exclusive p
  | _, _, [], hx, _, h => by cases h; exact hx
  | cl, _, a :: acts, hx, ha, h => by
    simp only [Cluster.run, Option.bind_eq_some] at h
    obtain ⟨cl₁, h₁, h₂⟩ := h
    exact (hx.step (ha a (List.mem_cons_self _ _)) h₁).run
      (fun b hb => ha b (List.mem_cons_of_mem _ hb)) h₂

/-- Among nodes of one namespace whose owner markers never expire, a task is never held by two
nodes: along every run of `Claim` and `Release` calls, two held claims on one task are the same
node's, and the task's marker names that node. -/
theorem claims_exclusive_without_expiry {p : String} {acts : List ClusterAction} {cl : Cluster}
    (hrun : Cluster.init.run acts = some cl) (hacts : ∀ a ∈ acts, a.OnPath p) :
    cl.claims.Nodup ∧ ∀ n₁ n₂ t, (n₁, t) ∈ cl.claims → (n₂, t) ∈ cl.claims →
      n₁ = n₂ ∧ cl.markers.lookup (p ++ "/" ++ t ++ "/" ++ ownerMarker) = some n₁ := by
  have hx := (Cluster.exclusive_init p).run hacts hrun
  exact ⟨hx.nodup, fun n₁ n₂ t h₁ h₂ =>
    ⟨Option.some.inj ((hx.marker n₁ t h₁).symm.trans (hx.marker n₂ t h₂)), hx.marker n₁ t h₁⟩⟩

/-- `a` claims `t`, `b`'s claim fails, `a` releases, and `b` claims `t`. -/
def handoverRun : List ClusterAction :=
  [.claim nodeA "t", .claim nodeB "t", .release nodeA "t", .claim nodeB "t"]

def handoverCluster : Cluster := (Cluster.init.run handoverRun).getD Cluster.init

theorem claims_exclusive_without_expiry_handover :
    Cluster.init.run handoverRun = some handoverCluster ∧
    (∀ a ∈ handoverRun, a.OnPath "/ns/tasks") ∧
    (handoverCluster.claims.Nodup ∧ ∀ n₁ n₂ t, (n₁, t) ∈ handoverCluster.claims →
      (n₂, t) ∈ handoverCluster.claims → n₁ = n₂ ∧
        handoverCluster.markers.lookup ("/ns/tasks" ++ "/" ++ t ++ "/" ++ ownerMarker) = some n₁) :=
  have hrun : Cluster.init.run handoverRun = some handoverCluster := rfl
  have hacts : ∀ a ∈ handoverRun, a.OnPath "/ns/tasks" := by decide
  ⟨hrun, hacts, claims_exclusive_without_expiry hrun hacts⟩

/-! ## Classification -/

theorem contains_slash_eq_false {t : String} (h : '/' ∉ t.data) : contains t "/" = false :=
  decide_eq_false fun hi => h (hi.mem (List.mem_singleton_self _))

theorem replace_append (p x new : String) : replace (p ++ x) p new = new ++ x := by
  simp only [replace, String.data_append, replaceFirst_append]; rfl

theorem replace_of_not_infix {s old : String} (h : ¬old.data <:+: s.data) (new : String) :
    replace s old new = s := by
  simp only [replace, replaceFirst_of_not_infix _ _ h]

theorem replace_owner {X : String} (hx : '/' ∉ X.data) :
    replace (X ++ "/" ++ ownerMarker) ("/" ++ ownerMarker) "" = X := by
  have h := replaceFirst_first ownerMarker.data [] hx []
  simp only [List.append_nil] at h
  simp only [replace, String.data_append, List.append_assoc] at h ⊢
  exact congrArg String.mk h

theorem replace_owner_of_slash_free {X : String} (hx : '/' ∉ X.data) :
    replace X ("/" ++ ownerMarker) "" = X :=
  replace_of_not_infix (fun hi => hx (hi.mem (by simp [String.data_append]))) _

theorem parseTaskIdFromOwnerNode_marker (ec : WatcherCoordinator) {X : String}
    (hx : '/' ∉ X.data) : ec.parseTaskIdFromOwnerNode (ec.claimedMarker X) = (X, false) := by
  have hk : ec.claimedMarker X = (ec.taskPath ++ "/") ++ (X ++ "/" ++ ownerMarker) := by
    simp only [WatcherCoordinator.claimedMarker, String.append_assoc]
  simp only [WatcherCoordinator.parseTaskIdFromOwnerNode, hk, replace_append, String.empty_append,
    replace_owner hx, contains_slash_eq_false hx, Bool.not_false, if_true]

theorem parseTaskIdFromOwnerNode_taskDir (ec : WatcherCoordinator) {X : String}
    (hx : '/' ∉ X.data) : ec.parseTaskIdFromOwnerNode (ec.taskPath ++ "/" ++ X) = (X, false) := by
  simp only [WatcherCoordinator.parseTaskIdFromOwnerNode, replace_append, String.empty_append,
    replace_owner_of_slash_free hx, contains_slash_eq_false hx, Bool.not_false, if_true]

theorem contains_of_infix {s t : String} (h : t.data <:+: s.data) : contains s t = true :=
  decide_eq_true h

/-- An expired, deleted or compare-and-deleted owner marker gives its task back, for every task
ID of one element. -/
theorem owner_release_returns_task (ec : WatcherCoordinator) {X : String} (hx : '/' ∉ X.data)
    {resp : EtcdResponse}
    (ha : resp.action = "expire" ∨ resp.action = "delete" ∨ resp.action = "compareAndDelete")
    (hk : resp.node.key = ec.claimedMarker X) : ec.watchResponse resp = some X := by
  have hc : resp.action ≠ "create" := by rcases ha with h | h | h <;> rw [h] <;> decide
  have hm : WatcherCoordinator.nodeIsTheOwnerMarker resp.node = true := by
    rw [WatcherCoordinator.nodeIsTheOwnerMarker, hk, WatcherCoordinator.claimedMarker]
    apply contains_of_infix
    rw [String.data_append]
    exact (List.suffix_append _ _).isInfix
  rw [WatcherCoordinator.watchResponse, if_neg (fun h => hc h.1),
    if_pos ⟨ha, hm, by rw [hk, parseTaskIdFromOwnerNode_marker ec hx]⟩, hk,
    parseTaskIdFromOwnerNode_marker ec hx]

theorem watchResponse_deleted_task_dir (ec : WatcherCoordinator) {X : String} (hx : '/' ∉ X.data)
    (ho : ownerMarker.data <:+: X.data) {node : EtcdNode} (hk : node.key = ec.taskPath ++ "/" ++ X)
    (etcdIndex : Nat) : ec.watchResponse ⟨"delete", node, etcdIndex⟩ = some X := by
  have hm : WatcherCoordinator.nodeIsTheOwnerMarker node = true := by
    rw [WatcherCoordinator.nodeIsTheOwnerMarker, hk]
    apply contains_of_infix
    rw [String.data_append]
    exact ho.trans (List.suffix_append _ _).isInfix
  rw [WatcherCoordinator.watchResponse,
    if_neg (fun h => (show ("delete" : String) ≠ "create" by decide) h.1),
    if_pos ⟨.inr (.inl rfl), hm, by rw [hk, parseTaskIdFromOwnerNode_taskDir ec hx]⟩, hk,
    parseTaskIdFromOwnerNode_taskDir ec hx]

/-- `Watch` takes any key containing `owner` for an owner marker: deleting the directory of a task
whose ID contains `owner` makes it return that ID. -/
theorem deleted_task_dir_returned (ec : WatcherCoordinator) {X : String} (hx : '/' ∉ X.data)
    (ho : ownerMarker.data <:+: X.data) {node : EtcdNode} (hk : node.key = ec.taskPath ++ "/" ++ X)
    (etcdIndex : Nat) (ms : List WatcherMsg) :
    ec.watch (.response ⟨"delete", node, etcdIndex⟩ :: ms) = some (X, none) := by
  rw [WatcherCoordinator.watch, watchResponse_deleted_task_dir ec hx ho hk]

/-- The directory of task `owner1` in namespace `ns`. -/
def ownerTaskDir : EtcdNode := ⟨"/ns/tasks/owner1", "", true, 5, []⟩

theorem deleted_task_dir_returned_owner1 :
    ('/' ∉ "owner1".data ∧ ownerMarker.data <:+: "owner1".data ∧
      ownerTaskDir.key = nodeA.taskPath ++ "/" ++ "owner1") ∧
    nodeA.watch [.response ⟨"delete", ownerTaskDir, 6⟩] = some ("owner1", none) :=
  ⟨⟨by decide, by decide, by decide⟩,
    deleted_task_dir_returned nodeA (by decide) (by decide) (by decide) 6 []⟩

end Metafora
