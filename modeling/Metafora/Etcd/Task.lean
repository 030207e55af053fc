import Metafora.Json
import Metafora.Path
import Metafora.Etcd.History

/-! # Task keys: the etcd client's `SubmitTask` and the coordinator's `parseTask`

* `newClient`, `MClient.taskPath`, `MClient.submitTask` (`src/unnamed/part_000`): the client
  writes a task's properties, with `_submitted` set, as the JSON value of
  `path.Join(namespace, TasksPath, id, propsKey)`.
* `newEtcdCoordinator` (`src/m_etcd/coordinator.go`): the coordinator's paths, from the namespace
  trimmed of `/` and spaces.
* `parseTask`, `findProps` (`src/m_etcd/task.go`): a key is split on `/` after trimming its
  slashes, and its third part is the task ID; so the layout holds one namespace element and one
  ID element.
* `Namespace`: an absolute path of one element (slashes around it allowed) without a space at
  either end, on which both constructors agree. `submitTask_parseTask`: for such a namespace, an
  ID of one element and a property map of valid UTF-8 strings, the coordinator reads back the
  task the client submitted. `submitTask_slash_id_unparsed`: an ID with a `/` or a
  namespace of two elements is not read back, and a namespace ending in a space puts the
  client's key outside the coordinator's `taskPath`.
-/

namespace Metafora
set_option autoImplicit false

/-! ## Model -/

/-- Modelled from the spec: `TasksPath`, `NodesPath` and `CommandsPath` are not in `src`; the key
layout of the spec names the directories `tasks`, `nodes` and `commands`. -/
def tasksPath : String := "tasks"

/-- Modelled from the spec: see `tasksPath`. -/
def nodesPath : String := "nodes"

/-- Modelled from the spec: see `tasksPath`. -/
def commandsPath : String := "commands"

/-- `propsKey`: the key of a task's properties. -/
def propsKey : String := "props"

/-- `claimMarker`: the key marking a task as claimed. -/
def claimMarker : String := "owner"

structure MClient where
  nspace : String

/-- `NewClient(namespace, client)`: a `/` is put in front of a namespace that lacks one;
`namespace[0]` panics on an empty namespace. -/
def newClient (nspace : String) : Except String MClient :=
  match nspace.data with
  | [] => .error "runtime error: index out of range [0] with length 0"
  | c :: _ => .ok ⟨if c ≠ '/' then "/" ++ nspace else nspace⟩

def MClient.taskPath (mc : MClient) (tid : String) : String :=
  pathJoin [mc.nspace, tasksPath, tid, propsKey]

/-- The create event of `mc.SubmitTask(id, props)` at index `i`, `now` being the time it read:
`props["_submitted"] = now`, then `Create(mc.taskPath(id), json.Marshal(props), ForeverTTL)`. -/
def MClient.submitTask (mc : MClient) (id : String) (props : Props) (now : String) (i : Nat) :
    EtcdEvent :=
  ⟨"create", ⟨mc.taskPath id, marshalProps (props.insert "_submitted" now), false, i, []⟩⟩

/-- The paths of an `EtcdCoordinator`. -/
structure EtcdCoordinator where
  nspace : String
  taskPath : String
  nodeID : String
  nodePath : String
  commandPath : String

/-- `NewEtcdCoordinator(nodeID, namespace, client)`; `generated` is the `hostname-uuid` ID used
when `nodeID` is empty. -/
def newEtcdCoordinator (nodeID nspace generated : String) : EtcdCoordinator :=
  let nspace := "/" ++ trim nspace ['/', ' ']
  let nodeID := trim (if nodeID = "" then generated else nodeID) ['/', ' ']
  ⟨nspace, pathJoin [nspace, tasksPath], nodeID, pathJoin [nspace, nodesPath, nodeID],
    pathJoin [nspace, nodesPath, nodeID, commandsPath]⟩

/-- `findProps(task, nodes)`: a claim marker makes the task unclaimable; each properties file is
decoded into the task's map. -/
def findProps (task : Task) : List EtcdNode → Option Task
  | [] => some task
  | node :: nodes =>
    if hasSuffix node.key claimMarker then none
    else if hasSuffix node.key propsKey then
      match unmarshalProps task.props node.value with
      | some props => findProps ⟨task.id, props⟩ nodes
      | none => none
    else findProps task nodes

/-- `parseTask(c, resp, basePath)`; `get` is `c.Get` of a released task's directory: its
children, or an error. -/
def parseTask (get : String → Option (List EtcdNode)) (resp : EtcdResponse) (basePath : String) :
    Option Task :=
  if !hasPrefix resp.node.key basePath then none
  else
    let parts := split (trim resp.node.key ['/']) '/'
    if newActions resp.action && parts.length == 3 && resp.node.dir then
      findProps ⟨parts.getD 2 "", Props.empty⟩ resp.node.nodes
    else if newActions resp.action && parts.length == 4 && !resp.node.dir &&
        parts.getD 3 "" == propsKey then
      (unmarshalProps Props.empty resp.node.value).map fun props => ⟨parts.getD 2 "", props⟩
    else if releaseActions resp.action && parts.length == 4 && parts.getD 3 "" == claimMarker then
      (get ("/" ++ pathJoin [parts.getD 0 "", parts.getD 1 "", parts.getD 2 ""])).bind
        (findProps ⟨parts.getD 2 "", Props.empty⟩)
    else none

/-! ## Keys of one namespace element and one ID element -/

def tasksSegment : Segment := ⟨tasksPath, by decide, by decide, by decide, by decide⟩

def propsSegment : Segment := ⟨propsKey, by decide, by decide, by decide, by decide⟩

/-- An absolute namespace of one path element that `NewClient` and `NewEtcdCoordinator` agree
on: slashes, the element, and possibly more slashes, the element neither starting nor ending
with a space. -/
structure Namespace where
  seg : Segment
  head_ne_space : ∀ a ∈ seg.val.data.head?, a ≠ ' '
  last_ne_space : ∀ a ∈ seg.val.data.getLast?, a ≠ ' '
  /-- The slashes before the element, after the first. -/
  lead : Nat
  /-- The slashes after the element. -/
  trail : Nat

def Namespace.path (ns : Namespace) : String :=
  ⟨'/' :: (List.replicate ns.lead '/' ++ ns.seg.val.data ++ List.replicate ns.trail '/')⟩

theorem newClient_namespace (ns : Namespace) : newClient ns.path = .ok ⟨ns.path⟩ := rfl

theorem trim_namespace (ns : Namespace) : trim ns.path ['/', ' '] = ns.seg.val := by
  have hkept : ∀ a ∈ ns.seg.val.data, a ≠ ' ' → a ∉ ['/', ' '] := by
    intro a ha hs
    simp only [List.mem_cons, List.mem_singleton, List.not_mem_nil, or_false, not_or]
    exact ⟨fun h => ns.seg.no_slash (h ▸ ha), hs⟩
  have hslash : ∀ n, ∀ a ∈ List.replicate n '/', a ∈ ['/', ' '] := fun n a ha => by
    simp [List.eq_of_mem_replicate ha]
  exact trim_append (l := '/' :: List.replicate ns.lead '/') (hslash (ns.lead + 1))
    (hslash ns.trail) ns.seg.ne_nil
    (fun a ha => hkept a (List.mem_of_mem_head? ha) (ns.head_ne_space a ha))
    (fun a ha => hkept a (List.mem_of_mem_getLast? ha) (ns.last_ne_space a ha))

theorem MClient.taskPath_segment (ns : Namespace) (id : Segment) :
    (MClient.mk ns.path).taskPath id.val =
      ⟨'/' :: ['/'].intercalate ([ns.seg, tasksSegment, id, propsSegment].map (·.val.data))⟩ :=
  pathJoin_slashes ns.lead ns.trail ns.seg [tasksSegment, id, propsSegment] (List.cons_ne_nil _ _)

theorem newEtcdCoordinator_taskPath (nodeID generated : String) (ns : Namespace) :
    (newEtcdCoordinator nodeID ns.path generated).taskPath =
      ⟨'/' :: ['/'].intercalate ([ns.seg, tasksSegment].map (·.val.data))⟩ := by
  show pathJoin ["/" ++ trim ns.path ['/', ' '], tasksPath] = _
  rw [trim_namespace]
  exact pathJoin_segments ns.seg [tasksSegment] (List.cons_ne_nil _ _)

theorem hasPrefix_taskPath (nodeID generated : String) (ns : Namespace) (id : Segment) :
    hasPrefix ((MClient.mk ns.path).taskPath id.val)
      (newEtcdCoordinator nodeID ns.path generated).taskPath = true := by
  rw [MClient.taskPath_segment, newEtcdCoordinator_taskPath, hasPrefix,
    List.isPrefixOf_iff_prefix]
  exact ⟨'/' :: id.val.data ++ '/' :: propsKey.data,
    by simp [List.intercalate, tasksSegment, propsSegment]⟩

theorem trim_taskPath (ns : Namespace) (id : Segment) :
    trim ((MClient.mk ns.path).taskPath id.val) ['/'] =
      ⟨['/'].intercalate ([ns.seg, tasksSegment, id, propsSegment].map (·.val.data))⟩ := by
  rw [MClient.taskPath_segment]
  refine trim_cons (List.mem_singleton_self _) (by simp [intercalate_cons_of_ne_nil])
    (fun a ha => ?head) (fun a ha => ?last)
  case head =>
    rw [head?_intercalate_segments] at ha
    rw [List.mem_singleton]
    exact fun h => ns.seg.no_slash (h ▸ List.mem_of_mem_head? ha)
  case last =>
    have hlast : (['/'].intercalate
        ([ns.seg, tasksSegment, id, propsSegment].map (·.val.data))).getLast? = some 's' := by
      simp only [List.map_cons, List.map_nil, List.intercalate, List.intersperse_cons₂,
        List.intersperse_single, List.flatten_cons, List.flatten_nil, List.append_nil,
        ← List.append_assoc, List.getLast?_append]
      rfl
    rw [hlast, Option.mem_some_iff] at ha
    rw [← ha]
    decide

theorem parseTask_taskPath (get : String → Option (List EtcdNode)) (nodeID generated : String)
    (ns : Namespace) (id : Segment) {action : String} (h : newActions action = true)
    (value : String) (modifiedIndex etcdIndex : Nat) :
    parseTask get
        ⟨action, ⟨(MClient.mk ns.path).taskPath id.val, value, false, modifiedIndex, []⟩, etcdIndex⟩
        (newEtcdCoordinator nodeID ns.path generated).taskPath =
      (unmarshalProps Props.empty value).map (⟨id.val, ·⟩) := by
  have hparts := split_segments [ns.seg, tasksSegment, id, propsSegment] (List.cons_ne_nil _ _)
  simp only [parseTask, hasPrefix_taskPath, trim_taskPath, hparts, h]
  rfl

/-- The client and the coordinator agree on a namespace of one element and an ID of one element:
the create event of `SubmitTask(id, p)` lies under the coordinator's `taskPath`, and `parseTask`
reads back `id` with `p` and its `_submitted` time. -/
theorem submitTask_parseTask (ns : Namespace) (id : Segment) (p : Props) (now : String)
    (i etcdIndex : Nat) (nodeID generated : String) (get : String → Option (List EtcdNode)) :
    ∃ mc, newClient ns.path = .ok mc ∧
      hasPrefix (mc.submitTask id.val p now i).node.key
        (newEtcdCoordinator nodeID ns.path generated).taskPath = true ∧
      parseTask get ((mc.submitTask id.val p now i).toResponse etcdIndex)
        (newEtcdCoordinator nodeID ns.path generated).taskPath =
        some ⟨id.val, p.insert "_submitted" now⟩ := by
  refine ⟨⟨ns.path⟩, newClient_namespace ns, hasPrefix_taskPath nodeID generated ns id, ?_⟩
  rw [MClient.submitTask, EtcdEvent.toResponse, parseTask_taskPath get nodeID generated ns id
    (show newActions "create" = true from rfl),
    unmarshalProps_marshalProps]
  rfl

/-- Keys with five parts: an ID with a `/`, or a namespace of two elements, makes `parseTask`
return nothing for the client's create event; and a namespace ending in a space is trimmed by the
coordinator only, so the client's key is not under its `taskPath`. -/
theorem submitTask_slash_id_unparsed :
    newClient "/ns" = .ok ⟨"/ns"⟩ ∧
    parseTask (fun _ => none) ((MClient.submitTask ⟨"/ns"⟩ "a/b" Props.empty "t" 5).toResponse 5)
      (newEtcdCoordinator "n1" "/ns" "").taskPath = none ∧
    newClient "/a/b" = .ok ⟨"/a/b"⟩ ∧
    parseTask (fun _ => none) ((MClient.submitTask ⟨"/a/b"⟩ "t" Props.empty "t" 5).toResponse 5)
      (newEtcdCoordinator "n1" "/a/b" "").taskPath = none ∧
    newClient "/ns " = .ok ⟨"/ns "⟩ ∧
    hasPrefix (MClient.submitTask ⟨"/ns "⟩ "t" Props.empty "t" 5).node.key
      (newEtcdCoordinator "n1" "/ns " "").taskPath = false :=
  ⟨rfl, rfl, rfl, rfl, rfl, rfl⟩

/-! ## Every clean key under the task path -/

def ownerSegment : Segment := ⟨claimMarker, by decide, by decide, by decide, by decide⟩

/-- The etcd key of the path elements `segs` under the task path of `ns`, as etcd writes keys:
cleaned, with one slash between elements. -/
def taskKey (ns : Namespace) (segs : List Segment) : String :=
  ⟨'/' :: ['/'].intercalate ((ns.seg :: tasksSegment :: segs).map (·.val.data))⟩

theorem hasPrefix_taskKey (nodeID generated : String) (ns : Namespace) (segs : List Segment) :
    hasPrefix (taskKey ns segs) (newEtcdCoordinator nodeID ns.path generated).taskPath = true := by
  rw [newEtcdCoordinator_taskPath, hasPrefix, List.isPrefixOf_iff_prefix]
  cases segs with
  | nil => exact List.prefix_refl _
  | cons x segs =>
    refine ⟨'/' :: ['/'].intercalate ((x :: segs).map (·.val.data)), ?_⟩
    simp [taskKey, intercalate_cons_of_ne_nil, List.intercalate]

theorem split_trim_taskKey (ns : Namespace) (segs : List Segment) :
    split (trim (taskKey ns segs) ['/']) '/' = ns.seg.val :: tasksPath :: segs.map (·.val) := by
  rw [taskKey, trim_cons (List.mem_singleton_self _) (by simp [intercalate_cons_of_ne_nil])
    (fun a ha => ?head) (fun a ha => List.mem_singleton.not.2 (getLast?_intercalate_segments _ a ha))]
  · exact split_segments (ns.seg :: tasksSegment :: segs) (List.cons_ne_nil _ _)
  case head =>
    rw [head?_intercalate_segments] at ha
    exact List.mem_singleton.not.2 fun h => ns.seg.no_slash (h ▸ List.mem_of_mem_head? ha)

theorem get_path_taskKey (ns : Namespace) (x : Segment) :
    "/" ++ pathJoin [ns.seg.val, tasksPath, x.val] = taskKey ns [x] := by
  have := pathJoin_unrooted ns.seg [tasksSegment, x]
  simp only [List.map_cons, List.map_nil] at this
  rw [show tasksPath = tasksSegment.val from rfl, this]
  rfl

theorem findProps_id : ∀ {task : Task} {nodes : List EtcdNode} {t : Task},
    findProps task nodes = some t → t.id = task.id
  | _, [], _, h => by cases h; rfl
  | task, node :: nodes, t, h => by
    unfold findProps at h
    split_ifs at h
    · split at h
      · exact (findProps_id h).trans rfl
      · cases h
    · exact findProps_id h

/-- A child whose key ends in the claim marker makes the task unclaimable, wherever it is
listed. -/
theorem findProps_of_owner : ∀ {task : Task} {nodes : List EtcdNode},
    (∃ n ∈ nodes, hasSuffix n.key claimMarker = true) → findProps task nodes = none
  | _, [], ⟨_, hn, _⟩ => absurd hn (List.not_mem_nil _)
  | task, node :: nodes, ⟨n, hn, hs⟩ => by
    unfold findProps
    split_ifs with hown hprops
    · rfl
    · have hrest : ∃ n ∈ nodes, hasSuffix n.key claimMarker = true := by
        rcases List.mem_cons.1 hn with rfl | hn
        · exact absurd hs hown
        · exact ⟨n, hn, hs⟩
      split
      · exact findProps_of_owner hrest
      · rfl
    · rcases List.mem_cons.1 hn with rfl | hn
      · exact absurd hs hown
      · exact findProps_of_owner ⟨n, hn, hs⟩

theorem parseTask_taskKey (get : String → Option (List EtcdNode)) (nodeID generated : String)
    (ns : Namespace) (segs : List Segment) (action value : String) (dir : Bool)
    (modifiedIndex : Nat) (nodes : List EtcdNode) (etcdIndex : Nat) :
    parseTask get ⟨action, ⟨taskKey ns segs, value, dir, modifiedIndex, nodes⟩, etcdIndex⟩
        (newEtcdCoordinator nodeID ns.path generated).taskPath =
      match segs with
      | [x] => if newActions action && dir then findProps ⟨x.val, Props.empty⟩ nodes else none
      | [x, c] =>
        if newActions action && !dir && c.val == propsKey then
          (unmarshalProps Props.empty value).map fun props => ⟨x.val, props⟩
        else if releaseActions action && c.val == claimMarker then
          (get (taskKey ns [x])).bind (findProps ⟨x.val, Props.empty⟩)
        else none
      | _ => none := by
  simp only [parseTask, hasPrefix_taskKey, split_trim_taskKey, Bool.not_true, Bool.false_eq_true,
    if_false]
  rcases segs with _ | ⟨x, _ | ⟨c, _ | ⟨d, rest⟩⟩⟩
  all_goals simp [get_path_taskKey]

/-- For a namespace of one element and every clean key under the task path, `parseTask` returns
a task exactly for a new directory `X` whose children `findProps` accepts, a new properties file
`X/props` whose value decodes, or a removed claim marker `X/owner` whose re-read directory
`findProps` accepts, `X` being one element; the task then has the ID `X`
(`findProps_id`). Every other key, deeper ones and the removal of a task directory included,
gives nothing. -/
theorem parseTask_iff (get : String → Option (List EtcdNode)) (nodeID generated : String)
    (ns : Namespace) (segs : List Segment) (action value : String) (dir : Bool)
    (modifiedIndex : Nat) (nodes : List EtcdNode) (etcdIndex : Nat) (t : Task) :
    parseTask get ⟨action, ⟨taskKey ns segs, value, dir, modifiedIndex, nodes⟩, etcdIndex⟩
        (newEtcdCoordinator nodeID ns.path generated).taskPath = some t ↔
      (∃ X, segs = [X] ∧ newActions action = true ∧ dir = true ∧
        findProps ⟨X.val, Props.empty⟩ nodes = some t) ∨
      (∃ X, segs = [X, propsSegment] ∧ newActions action = true ∧ dir = false ∧
        (unmarshalProps Props.empty value).map (⟨X.val, ·⟩) = some t) ∨
      (∃ X, segs = [X, ownerSegment] ∧ releaseActions action = true ∧
        (get (taskKey ns [X])).bind (findProps ⟨X.val, Props.empty⟩) = some t) := by
  rw [parseTask_taskKey]
  rcases segs with _ | ⟨x, _ | ⟨c, _ | ⟨d, rest⟩⟩⟩
  · simp
  · simp [and_assoc]
  · have hp : c.val = propsKey ↔ c = propsSegment :=
      ⟨fun h => Segment.eq_of_val_eq h, fun h => h ▸ rfl⟩
    have ho : c.val = claimMarker ↔ c = ownerSegment :=
      ⟨fun h => Segment.eq_of_val_eq h, fun h => h ▸ rfl⟩
    by_cases hcp : c = propsSegment
    · subst hcp
      have hno : propsSegment ≠ ownerSegment := fun h => absurd (congrArg Segment.val h) (by decide)
      simp [hp, ho, hno, and_assoc]
    · simp [hp, ho, hcp, and_assoc, and_left_comm]
  · simp

/-- Namespaces of two elements and of none: `NewEtcdCoordinator` accepts `a/b` and the empty
namespace, and the creation of a task directory under their task paths splits into four and two
parts, so `parseTask` returns nothing for it. -/
theorem parseTask_deep_namespace_unparsed :
    (newEtcdCoordinator "n1" "a/b" "").taskPath = "/a/b/tasks" ∧
    parseTask (fun _ => none) ⟨"create", ⟨"/a/b/tasks/t", "", true, 5, []⟩, 5⟩
      (newEtcdCoordinator "n1" "a/b" "").taskPath = none ∧
    (newEtcdCoordinator "n1" "" "").taskPath = "/tasks" ∧
    parseTask (fun _ => none) ⟨"create", ⟨"/tasks/t", "", true, 5, []⟩, 5⟩
      (newEtcdCoordinator "n1" "" "").taskPath = none := ⟨rfl, rfl, rfl, rfl⟩

end Metafora
