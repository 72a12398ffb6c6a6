import Uavcan.DynamicNodeId.RaftCore
import Uavcan.Machines.Guarded

/-!
# A cluster of servers

The servers of one cluster and everything they ever sent. A message may be delivered at any time after it was
sent, any number of times, or never. A response reaches its caller only while the call is pending. A restart
keeps the storage and loses the rest. A crash in the middle of a handler is a handler whose remaining writes
and messages are lost, followed by a restart.
-/

namespace Uavcan

inductive Message
  | requestVote (src : NodeID) (call : ServiceCallID) (request : RequestVoteRequest)
  | requestVoteResponse (dst : NodeID) (call : ServiceCallID) (response : RequestVoteResponse)
  | appendEntries (src : NodeID) (call : ServiceCallID) (request : AppendEntriesRequest)
  | appendEntriesResponse (dst : NodeID) (call : ServiceCallID) (response : AppendEntriesResponse)
  | discovery (src : NodeID) (message : Discovery)
  deriving DecidableEq

/-- The message an output puts on the bus; callbacks of the leader monitor stay local. -/
def Output.message (src : NodeID) : Output → Option Message
  | .requestVote call request => some (.requestVote src call request)
  | .appendEntries call request => some (.appendEntries src call request)
  | .localLeadershipChange _ => none
  | .logCommitOnLeader _ => none

/-- The servers of a cluster; all of them are configured with its size. -/
structure ClusterConfig where
  dsdl : Dsdl
  members : List NodeID
  nodup : members.Nodup
  unicast : ∀ s ∈ members, s.isUnicast

def ClusterConfig.size (cfg : ClusterConfig) : ℕ := cfg.members.length

structure Cluster where
  server : NodeID → RaftCore
  sent : List Message
  nextTransferID : ℕ

/-- One thing that happens in a cluster. -/
inductive Action
  | timer (s : NodeID) (env : Env)
  | discoveryTimer (s : NodeID)
  | deliverRequestVote (src : NodeID) (call : ServiceCallID) (request : RequestVoteRequest) (env : Env)
  | deliverRequestVoteResponse (dst : NodeID) (call : ServiceCallID)
      (response : RequestVoteResponse) (env : Env)
  | deliverAppendEntries (src : NodeID) (call : ServiceCallID) (request : AppendEntriesRequest)
      (env : Env)
  | deliverAppendEntriesResponse (dst : NodeID) (call : ServiceCallID)
      (response : AppendEntriesResponse) (env : Env)
  | deliverDiscovery (src dst : NodeID) (message : Discovery)
  | callTimeout (s : NodeID) (call : ServiceCallID)
  | appendLog (s : NodeID) (uniqueId : UniqueID) (nodeId : NodeID) (env : Env)
  | restart (s : NodeID) (initClusterSize : ℕ) (env : Env)

/-- The server at which an action happens. -/
def Action.server : Action → NodeID
  | .timer s _ => s
  | .discoveryTimer s => s
  | .deliverRequestVote _ call _ _ => call.serverNodeID
  | .deliverRequestVoteResponse dst _ _ _ => dst
  | .deliverAppendEntries _ call _ _ => call.serverNodeID
  | .deliverAppendEntriesResponse dst _ _ _ => dst
  | .deliverDiscovery _ dst _ => dst
  | .callTimeout s _ => s
  | .appendLog s _ _ _ => s
  | .restart s _ _ => s

namespace Cluster

/-- The state after a handler left server `s` in state `r` and answered with `replies`. -/
def settle (c : Cluster) (s : NodeID) (r : RaftCore) (replies : List Message) : Cluster where
  server := Function.update c.server s { r with outbox := [] }
  sent := c.sent ++ (r.outbox.filterMap (Output.message s) ++ replies)
  nextTransferID := c.nextTransferID + r.outbox.length

theorem settle_self (c : Cluster) (s : NodeID) (r : RaftCore) (replies : List Message) :
    (c.settle s r replies).server s = { r with outbox := [] } :=
  Function.update_self ..

theorem settle_other {v s : NodeID} (other : v ≠ s) (c : Cluster) (r : RaftCore) (replies : List Message) :
    (c.settle s r replies).server v = c.server v :=
  Function.update_of_ne other ..

/-- The surroundings of a handler, with the first transfer ID never used before. -/
def fresh (c : Cluster) (env : Env) : Env := { env with transferID := c.nextTransferID }

/-- What an action does to one server: its state after the handler, with what it put out, and the
replies on the bus; `none` where the action cannot happen. -/
def handle (cfg : ClusterConfig) (c : Cluster) : Action → Option (NodeID × RaftCore × List Message)
  | .timer s env =>
    if s ∈ cfg.members then some (s, (c.server s).handleTimerEvent cfg.dsdl (c.fresh env), [])
    else none
  | .discoveryTimer s =>
    let r := c.server s
    if s ∈ cfg.members ∧ r.cluster.running then
      let (cluster, msg) := r.cluster.handleTimerEvent
      some (s, { r with cluster := cluster }, [.discovery s msg])
    else none
  | .deliverRequestVote src call request env =>
    let s := call.serverNodeID
    if .requestVote src call request ∈ c.sent ∧ s ∈ cfg.members then
      let (r, response) := (c.server s).handleRequestVoteRequest cfg.dsdl (c.fresh env) src request
      some (s, r, response.toList.map (.requestVoteResponse src call))
    else none
  | .deliverRequestVoteResponse dst call response env =>
    let r := c.server dst
    if .requestVoteResponse dst call response ∈ c.sent ∧ dst ∈ cfg.members ∧
        call ∈ r.requestVoteCalls then
      let r := { r with requestVoteCalls := r.requestVoteCalls.erase call }
      some (dst, r.handleRequestVoteResponse cfg.dsdl (c.fresh env) response, [])
    else none
  | .deliverAppendEntries src call request env =>
    let s := call.serverNodeID
    if .appendEntries src call request ∈ c.sent ∧ s ∈ cfg.members then
      let (r, response) := (c.server s).handleAppendEntriesRequest cfg.dsdl (c.fresh env) src request
      some (s, r, response.toList.map (.appendEntriesResponse src call))
    else none
  | .deliverAppendEntriesResponse dst call response env =>
    let r := c.server dst
    if .appendEntriesResponse dst call response ∈ c.sent ∧ dst ∈ cfg.members ∧
        call ∈ r.appendEntriesCalls then
      let r := { r with appendEntriesCalls := r.appendEntriesCalls.erase call }
      some (dst, r.handleAppendEntriesResponse cfg.dsdl (c.fresh env) call.serverNodeID response, [])
    else none
  | .deliverDiscovery src dst message =>
    let r := c.server dst
    if .discovery src message ∈ c.sent ∧ dst ∈ cfg.members then
      some (dst, { r with cluster := r.cluster.handleDiscovery r.log.lastIndex message }, [])
    else none
  | .callTimeout s call =>
    let r := c.server s
    if s ∈ cfg.members then
      some (s,
        { r with
          requestVoteCalls := r.requestVoteCalls.erase call
          appendEntriesCalls := r.appendEntriesCalls.erase call }, [])
    else none
  | .appendLog s uniqueId nodeId env =>
    let r := c.server s
    if s ∈ cfg.members ∧ r.isLeader then
      some (s, r.appendLog cfg.dsdl (c.fresh env) uniqueId nodeId, [])
    else none
  | .restart s initClusterSize env =>
    if s ∈ cfg.members ∧ (initClusterSize = cfg.size ∨ initClusterSize = 0) then
      match RaftCore.init cfg.dsdl env s (c.server s).persistent.storage initClusterSize with
      | .error _ => none
      | .ok r => some (s, r, [])
    else none

/-- The state after an action. -/
def exec (cfg : ClusterConfig) (c : Cluster) (a : Action) : Option Cluster :=
  (c.handle cfg a).map fun (s, r, replies) => c.settle s r replies

/-- The cluster right after its servers were started on empty storages, in equal surroundings. -/
def boot (cfg : ClusterConfig) (env : Env) : Cluster where
  server := fun s =>
    match RaftCore.init cfg.dsdl env s Storage.empty cfg.size with
    | .ok r => r
    | .error _ => RaftCore.construct cfg.dsdl env s Storage.empty
  sent := []
  nextTransferID := 0

/-- Every server has been started on an empty storage, and nothing has been sent. -/
structure Initial (cfg : ClusterConfig) (c : Cluster) : Prop where
  started : ∀ s ∈ cfg.members, ∃ env,
    RaftCore.init cfg.dsdl env s Storage.empty cfg.size = .ok (c.server s)
  sent : c.sent = []

theorem Initial.boot {cfg : ClusterConfig} {env : Env}
    (ok : ∀ s ∈ cfg.members, (RaftCore.init cfg.dsdl env s Storage.empty cfg.size).isOk) :
    (Cluster.boot cfg env).Initial cfg := by
  refine ⟨fun s member => ⟨env, ?_⟩, rfl⟩
  have started := ok s member
  simp only [Cluster.boot]
  cases run : RaftCore.init cfg.dsdl env s Storage.empty cfg.size with
  | ok r => rfl
  | error err => simp [run, Except.toBool] at started

/-- The states so far, newest first, with the one after an action. -/
def extend (cfg : ClusterConfig) : List Cluster → Action → Option (List Cluster)
  | [], _ => none
  | c :: past, a => (c.exec cfg a).map (· :: c :: past)

end Cluster

/-- A run, newest state first.  A step is taken only where `allowed` holds of the states so far and
the action. -/
inductive Run (cfg : ClusterConfig) (allowed : List Cluster → Action → Prop) : List Cluster → Prop
  | start {c : Cluster} : c.Initial cfg → Run cfg allowed [c]
  | step {c c' : Cluster} {past : List Cluster} {a : Action} : Run cfg allowed (c :: past) →
    allowed (c :: past) a → c.exec cfg a = some c' → Run cfg allowed (c' :: c :: past)

theorem Run.extend {cfg : ClusterConfig} {allowed : List Cluster → Action → Prop} {states states' : List Cluster}
    {a : Action} (run : Run cfg allowed states) (permitted : allowed states a)
    (taken : Cluster.extend cfg states a = some states') : Run cfg allowed states' := by
  cases states with
  | nil => cases taken
  | cons c past =>
    obtain ⟨c', exec, rfl⟩ := Option.map_eq_some_iff.mp taken
    exact run.step permitted exec

theorem Run.exists_of_play {cfg : ClusterConfig} (allowed : List Cluster → Action → Prop)
    [∀ states a, Decidable (allowed states a)] {c : Cluster} (initial : c.Initial cfg)
    (actions : List Action) (P : Cluster → Prop) [DecidablePred P]
    (played : (Machines.play (Cluster.extend cfg) allowed actions [c]).any
      (fun states => decide (∃ c' ∈ states.head?, P c')) = true) :
    ∃ c' past, Run cfg allowed (c' :: past) ∧ P c' := by
  obtain ⟨states, run, c', last, holds⟩ := Machines.exists_of_play Run.extend (.start initial) actions _ played
  obtain ⟨past, rfl⟩ := List.head?_eq_some_iff.mp last
  exact ⟨c', past, run, holds⟩

end Uavcan
