import Uavcan.DynamicNodeId.Network
import Uavcan.DynamicNodeId.NodeDiscoverer

/-!
# Allocation servers

`distributed::Server` puts the allocation of node IDs on top of the Raft core: it answers requests from its
log, appends an entry for a new node, for a discovered one and, when it becomes leader, for itself, and
broadcasts an allocation when its entry is committed.

A handler of the server does at most one thing, an `Effect`. The callbacks of the Raft core come at the end of
its handlers, so they are put in a queue that the server works off before anything else.
-/

namespace Uavcan

open Function

namespace Server

/-- What a handler of the server does: nothing, a call of `appendLog`, or a broadcast. -/
inductive Effect
  | nothing
  | appendLog (uniqueId : UniqueID) (nodeId : NodeID)
  | broadcastAllocationResponse (uniqueId : UniqueID) (nodeId : NodeID)

def uniqueIDLogPredicate (uniqueId : UniqueID) (info : RaftCore.LogEntryInfo) : Bool :=
  info.entry.uniqueId = uniqueId

def nodeIDLogPredicate (nodeId : NodeID) (info : RaftCore.LogEntryInfo) : Bool :=
  info.entry.nodeId = nodeId.value

def tryPublishAllocationResult (entry : Entry) : Effect :=
  .broadcastAllocationResponse entry.uniqueId ⟨entry.nodeId⟩

variable (r : RaftCore)

def isNodeIDTaken (nodeId : NodeID) : Bool :=
  (r.traverseLogFromEndUntil (nodeIDLogPredicate nodeId)).isSome

def allocateNewNode (uniqueId : UniqueID) (preferredNodeId : NodeID) : Effect :=
  let allocatedNodeId := NodeIDSelector.findFreeNodeID (isNodeIDTaken r) preferredNodeId
  if !allocatedNodeId.isUnicast then .nothing else .appendLog uniqueId allocatedNodeId

def handleAllocationRequest (d : NodeDiscoverer) (uniqueId : UniqueID)
    (preferredNodeId : NodeID) : Effect :=
  match r.traverseLogFromEndUntil (uniqueIDLogPredicate uniqueId) with
  | some result => if result.committed then tryPublishAllocationResult result.entry else .nothing
  | none =>
    if r.isLeader && !d.hasUnknownNodes then allocateNewNode r uniqueId preferredNodeId
    else .nothing

def canDiscoverNewNodes : Bool := r.isLeader

def checkNodeAwareness (nodeId : NodeID) : NodeAwareness :=
  match r.traverseLogFromEndUntil (nodeIDLogPredicate nodeId) with
  | some result => if result.committed then .knownAndCommitted else .knownButNotCommitted
  | none => .unknown

/-- The unique ID of a node that does not tell it. -/
def noUniqueID : UniqueID := Vector.replicate 16 0

def handleNewNodeDiscovery (uniqueId : Option UniqueID) (nodeId : NodeID) : Effect :=
  if (r.traverseLogFromEndUntil (nodeIDLogPredicate nodeId)).isSome then .nothing
  else if r.isLeader then .appendLog (uniqueId.getD noUniqueID) nodeId
  else .nothing

def handleLogCommitOnLeader (entry : Entry) : Effect := tryPublishAllocationResult entry

def handleLocalLeadershipChange (ownUniqueId : UniqueID) (localNodeIsLeader : Bool) :
    Effect :=
  if !localNodeIsLeader then .nothing
  else if (r.traverseLogFromEndUntil (nodeIDLogPredicate r.nodeId)).isNone then
    .appendLog ownUniqueId r.nodeId
  else .nothing

/-- The check of `init` that the server is started with the node ID it had before. -/
def startsAsItself (ownUniqueId : UniqueID) : Bool :=
  match r.traverseLogFromEndUntil (nodeIDLogPredicate r.nodeId) with
  | some result => result.entry.uniqueId = ownUniqueId
  | none => true

end Server

/-! ## A cluster of servers -/

structure ServerConfig where
  cluster : ClusterConfig
  ownUniqueId : NodeID → UniqueID

/-- The Raft cores of the servers and what else they have: the node discoverer and the callbacks that
wait.  `published` are the allocation responses ever broadcast, `reported` the unique IDs that node
discovery ever reported. -/
structure ServerCluster where
  raft : Cluster
  discoverer : NodeID → NodeDiscoverer
  callbacks : NodeID → List Output
  published : List (UniqueID × NodeID)
  reported : List UniqueID

inductive ServerAction
  | raft (a : Action)
  | callback (s : NodeID) (env : Env)
  | allocationRequest (s : NodeID) (uniqueId : UniqueID) (preferredNodeId : NodeID) (env : Env)
  | nodeStatus (s src : NodeID) (uptime : UInt32) (slot : Option ℕ)
  | discovererTimer (s : NodeID) (transferID : ℕ) (callOk : Bool)
  | getNodeInfoResult (s : NodeID) (call : ServiceCallID) (uniqueId : Option UniqueID) (env : Env)
  | restart (s : NodeID) (initClusterSize : ℕ) (env : Env)

/-- What the Raft core does by itself. -/
def Action.isProtocol : Action → Bool
  | .appendLog _ _ _ _ => false
  | .restart _ _ _ => false
  | _ => true

def Output.isCallback : Output → Bool
  | .localLeadershipChange _ => true
  | .logCommitOnLeader _ => true
  | _ => false

variable {cfg : ServerConfig}

namespace ServerCluster

/-- An effect of a handler of server `s`; `appendLog` becomes an action of the Raft core. -/
def perform (c : ServerCluster) (s : NodeID) (env : Env) : Server.Effect → Option Action × ServerCluster
  | .nothing => (none, c)
  | .appendLog uniqueId nodeId =>
    if (c.raft.server s).isLeader then (some (.appendLog s uniqueId nodeId env), c) else (none, c)
  | .broadcastAllocationResponse uniqueId nodeId =>
    (none, { c with published := c.published ++ [(uniqueId, nodeId)] })

/-- The handler of a callback of the Raft core. -/
def handleCallback (cfg : ServerConfig) (c : ServerCluster) (s : NodeID) : Output → Server.Effect
  | .localLeadershipChange localNodeIsLeader =>
    Server.handleLocalLeadershipChange (c.raft.server s) (cfg.ownUniqueId s) localNodeIsLeader
  | .logCommitOnLeader entry => Server.handleLogCommitOnLeader entry
  | _ => .nothing

/-- What an action does apart from the Raft core, and the action of the Raft core it causes; `none`
where the action cannot happen. -/
def plan (cfg : ServerConfig) (c : ServerCluster) : ServerAction → Option (Option Action × ServerCluster)
  | .raft a =>
    if a.isProtocol ∧ c.callbacks a.server = [] then some (some a, c) else none
  | .callback s env =>
    match c.callbacks s with
    | [] => none
    | out :: rest =>
      if s ∈ cfg.cluster.members then
        let c := { c with callbacks := update c.callbacks s rest }
        some (c.perform s env (c.handleCallback cfg s out))
      else none
  | .allocationRequest s uniqueId preferredNodeId env =>
    if s ∈ cfg.cluster.members ∧ c.callbacks s = [] then
      some (c.perform s env
        (Server.handleAllocationRequest (c.raft.server s) (c.discoverer s) uniqueId preferredNodeId))
    else none
  | .nodeStatus s src uptime slot =>
    if s ∈ cfg.cluster.members ∧ c.callbacks s = [] ∧ src.isUnicast then
      let d := (c.discoverer s).handleNodeStatus (Server.checkNodeAwareness (c.raft.server s)) slot src
        uptime
      some (none, { c with discoverer := update c.discoverer s d })
    else none
  | .discovererTimer s transferID callOk =>
    if s ∈ cfg.cluster.members ∧ c.callbacks s = [] ∧ (c.discoverer s).running then
      let r := c.raft.server s
      let d := (c.discoverer s).handleTimerEvent (Server.checkNodeAwareness r)
        (Server.canDiscoverNewNodes r) transferID callOk
      some (none, { c with discoverer := update c.discoverer s d })
    else none
  | .getNodeInfoResult s call uniqueId env =>
    let d := c.discoverer s
    if s ∈ cfg.cluster.members ∧ c.callbacks s = [] ∧ call ∈ d.calls then
      let r := c.raft.server s
      let (d, report) := ({ d with calls := d.calls.erase call }).handleGetNodeInfoResponse
        (Server.checkNodeAwareness r) call.serverNodeID uniqueId
      let c := { c with discoverer := update c.discoverer s d }
      match report with
      | none => some (none, c)
      | some (uniqueId, nodeId) =>
        let c := { c with reported := c.reported ++ uniqueId.toList }
        some (c.perform s env (Server.handleNewNodeDiscovery r uniqueId nodeId))
    else none
  | .restart s initClusterSize env =>
    match RaftCore.init cfg.cluster.dsdl env s (c.raft.server s).persistent.storage initClusterSize with
    | .error _ => none
    | .ok r =>
      if Server.startsAsItself r (cfg.ownUniqueId s) then
        some (some (.restart s initClusterSize env),
          { c with
            discoverer := update c.discoverer s .construct
            callbacks := update c.callbacks s [] })
      else none

/-- The state after the action of the Raft core, with its callbacks in the queue. -/
def execRaft (cfg : ServerConfig) (c : ServerCluster) (a : Action) : Option ServerCluster :=
  (c.raft.handle cfg.cluster a).map fun (s, r, replies) =>
    { c with
      raft := c.raft.settle s r replies
      callbacks := update c.callbacks s (c.callbacks s ++ r.outbox.filter Output.isCallback) }

/-- Every server has been started on an empty storage. -/
structure Initial (cfg : ServerConfig) (c : ServerCluster) : Prop where
  raft : c.raft.Initial cfg.cluster
  discoverer : ∀ s, c.discoverer s = .construct
  callbacks : ∀ s, c.callbacks s = []
  published : c.published = []
  reported : c.reported = []

/-- The cluster right after its servers were started on empty storages. -/
def boot (cfg : ServerConfig) (env : Env) : ServerCluster :=
  ⟨.boot cfg.cluster env, fun _ => .construct, fun _ => [], [], []⟩

theorem Initial.boot {env : Env}
    (raft : (Cluster.boot cfg.cluster env).Initial cfg.cluster) :
    (ServerCluster.boot cfg env).Initial cfg :=
  ⟨raft, fun _ => rfl, fun _ => rfl, rfl, rfl⟩

/-- The states of the Raft cores and those of the servers, newest first, with the ones after an action. -/
def extend (cfg : ServerConfig) (allowed : List Cluster → Action → Prop) [∀ states a, Decidable (allowed states a)] :
    List Cluster × List ServerCluster → ServerAction → Option (List Cluster × List ServerCluster)
  | (_, []), _ => none
  | (raft, c :: past), a =>
    match c.plan cfg a with
    | none => none
    | some (none, c') => some (raft, c' :: c :: past)
    | some (some ra, c₁) =>
      if allowed raft ra then (c₁.execRaft cfg ra).map fun c' => (c'.raft :: raft, c' :: c :: past) else none

end ServerCluster

/-- A run of servers, newest state first, next to the states of the Raft cores it goes through.  A step
of the Raft cores is taken only where `allowed` holds of their states so far and the action. -/
inductive ServerRun (cfg : ServerConfig) (allowed : List Cluster → Action → Prop) :
    List Cluster → List ServerCluster → Prop
  | start {c : ServerCluster} : c.Initial cfg → ServerRun cfg allowed [c.raft] [c]
  | stay {raft : List Cluster} {c c' : ServerCluster} {past : List ServerCluster} {a : ServerAction} :
    ServerRun cfg allowed raft (c :: past) → c.plan cfg a = some (none, c') →
    ServerRun cfg allowed raft (c' :: c :: past)
  | step {raft : List Cluster} {c c₁ c' : ServerCluster} {past : List ServerCluster} {a : ServerAction}
      {ra : Action} : ServerRun cfg allowed raft (c :: past) → c.plan cfg a = some (some ra, c₁) →
    allowed raft ra → c₁.execRaft cfg ra = some c' →
    ServerRun cfg allowed (c'.raft :: raft) (c' :: c :: past)

theorem ServerRun.extend {allowed : List Cluster → Action → Prop}
    [∀ states a, Decidable (allowed states a)] {a : ServerAction} {states states' : List Cluster × List ServerCluster}
    (run : ServerRun cfg allowed states.1 states.2) (taken : ServerCluster.extend cfg allowed states a = some states') :
    ServerRun cfg allowed states'.1 states'.2 := by
  unfold ServerCluster.extend at taken
  split at taken
  case h_1 => cases taken
  case h_2 raft c past =>
  split at taken
  case h_1 => cases taken
  case h_2 c' plan =>
    cases taken
    exact run.stay plan
  case h_3 ra c₁ plan =>
    simp only [Option.ite_none_right_eq_some, Option.map_eq_some_iff] at taken
    obtain ⟨permitted, c', exec, rfl⟩ := taken
    exact run.step plan permitted exec

theorem ServerRun.exists_of_play (allowed : List Cluster → Action → Prop)
    [∀ states a, Decidable (allowed states a)] {c : ServerCluster} (initial : c.Initial cfg)
    (actions : List ServerAction) (P : ServerCluster → Prop) [DecidablePred P]
    (played : (Machines.play (ServerCluster.extend cfg allowed) (fun _ _ => True) actions ([c.raft], [c])).any
      (fun states => decide (∃ c' ∈ states.2.head?, P c')) = true) :
    ∃ raft c' past, ServerRun cfg allowed raft (c' :: past) ∧ P c' := by
  obtain ⟨⟨raft, states⟩, run, c', last, holds⟩ := Machines.exists_of_play
    (P := fun states => ServerRun cfg allowed states.1 states.2) (fun run _ => run.extend)
    (.start initial) actions _ played
  obtain ⟨past, rfl⟩ := List.head?_eq_some_iff.mp last
  exact ⟨raft, c', past, run, holds⟩

end Uavcan
