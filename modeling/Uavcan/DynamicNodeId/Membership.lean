import Uavcan.DynamicNodeId.VoteTerm
import Uavcan.Transport.Frame

/-!
# The list of known servers

A server gets to know others from `Discovery` messages and from the sources of `AppendEntries` requests.
Whatever these contain, the list of known servers stays within its array, and grows only.

The functions of `ClusterManager` assert what they rely on. They are written down a second time with their
assertions, and with the bounds of the arrays they write to, so that there is no result once an assertion
fails; in every state of a run they have the results of the functions without assertions.
-/

namespace Uavcan

open List Option

variable {src : NodeID} {st : Storage} {size : ℕ}

namespace ClusterManager

/-! ## Functions with their assertions -/

/-- The loop of `isKnownServer`. -/
def searchServersChecked (k : ClusterManager) (nodeId : NodeID) : List Server → Option Bool
  | [] => some false
  | s :: rest => do
    guard s.nodeId.isUnicast
    guard (s.nodeId ≠ k.nodeId)
    if s.nodeId = nodeId then some true else k.searchServersChecked nodeId rest

def isKnownServerChecked (k : ClusterManager) (nodeId : NodeID) : Option Bool :=
  if nodeId = k.nodeId then some true else k.searchServersChecked nodeId k.servers

def addServerChecked (dsdl : Dsdl) (k : ClusterManager) (nodeId : NodeID) (lastIndex : ℕ) :
    Option ClusterManager := do
  guard (k.servers.length + 1 < dsdl.maxClusterSize)
  let known ← k.isKnownServerChecked nodeId
  if !known && nodeId.isUnicast then
    -- the array has a slot for every server but the local one, and its counter has eight bits
    guard (k.servers.length < dsdl.maxClusterSize - 1)
    guard (toIndex (k.servers.length + 1) = k.servers.length + 1)
    some { k with servers := k.servers ++ [(⟨nodeId, 0, 0⟩ : Server).resetIndices lastIndex] }
  else none

/-- The loop of `handleTimerEvent`; the message has room for `MaxClusterSize` nodes. -/
def pushKnownNodesChecked (dsdl : Dsdl) : List Server → List UInt8 → Option (List UInt8)
  | [], nodes => some nodes
  | s :: rest, nodes => do
    guard s.nodeId.isUnicast
    guard (nodes.length < dsdl.maxClusterSize)
    pushKnownNodesChecked dsdl rest (nodes ++ [s.nodeId.value])

def handleTimerEventChecked (dsdl : Dsdl) (k : ClusterManager) : Option (ClusterManager × Discovery) := do
  guard (k.servers.length < k.clusterSize)
  guard (0 < dsdl.maxClusterSize)
  let nodes ← pushKnownNodesChecked dsdl k.servers [k.nodeId.value]
  guard (nodes.length = k.servers.length + 1)
  some (if k.isClusterDiscovered then { k with running := false } else k, ⟨k.clusterSize, nodes⟩)

def addKnownNodesChecked (dsdl : Dsdl) (lastIndex : ℕ) : List UInt8 → ClusterManager → Option ClusterManager
  | [], k => some k
  | node :: rest, k =>
    if k.isClusterDiscovered then some k
    else do
      -- `&&` looks for a unicast ID only
      let new ← if (⟨node⟩ : NodeID).isUnicast then (k.isKnownServerChecked ⟨node⟩).map not else some false
      if new then do
        let k ← k.addServerChecked dsdl ⟨node⟩ lastIndex
        addKnownNodesChecked dsdl lastIndex rest k
      else addKnownNodesChecked dsdl lastIndex rest k

def handleDiscoveryChecked (dsdl : Dsdl) (k : ClusterManager) (lastIndex : ℕ) (msg : Discovery) :
    Option ClusterManager :=
  if msg.configuredClusterSize ≠ k.clusterSize then some k
  else do
    let k ← addKnownNodesChecked dsdl lastIndex msg.knownNodes k
    if msg.configuredClusterSize > msg.knownNodes.length then
      some k.startDiscoveryPublishingTimerIfNotRunning
    else some k

/-- The beginning of `handleAppendEntriesRequest`; `some none` is a request that is ignored. -/
def meetSourceChecked (dsdl : Dsdl) (k : ClusterManager) (src : NodeID) (lastIndex : ℕ) :
    Option (Option ClusterManager) := do
  let known ← k.isKnownServerChecked src
  if known then some (some k)
  else if k.isClusterDiscovered then some none
  else (k.addServerChecked dsdl src lastIndex).map some

/-! ## What is kept -/

/-- The known servers are other nodes, each once, and there is a slot for each of them. -/
structure Membership (dsdl : Dsdl) (k : ClusterManager) : Prop where
  fits : k.clusterSize ≤ dsdl.maxClusterSize
  count : k.servers.length + 1 ≤ k.clusterSize
  nodup : (k.servers.map fun f => f.nodeId).Nodup
  remote : ∀ id ∈ k.servers.map (fun f => f.nodeId), id.isUnicast ∧ id ≠ k.nodeId

/-- The same manager, with more servers and other indices. -/
structure Extends (k k' : ClusterManager) : Prop where
  nodeId : k'.nodeId = k.nodeId
  size : k'.clusterSize = k.clusterSize
  ids : (k.servers.map fun f => f.nodeId) <+: k'.servers.map fun f => f.nodeId

theorem Extends.refl (k : ClusterManager) : Extends k k := ⟨rfl, rfl, prefix_rfl⟩

theorem Extends.trans {k k' k'' : ClusterManager} (first : Extends k k') (second : Extends k' k'') : Extends k k'' :=
  ⟨second.nodeId.trans first.nodeId, second.size.trans first.size, first.ids.trans second.ids⟩

theorem extends_addServer (k : ClusterManager) (id : NodeID) (lastIndex : ℕ) :
    Extends k (k.addServer id lastIndex) := by
  unfold addServer
  split
  · exact ⟨rfl, rfl, by simp⟩
  · exact .refl k

variable {id : NodeID}

namespace Membership

variable {dsdl : Dsdl} {k k' : ClusterManager}

section

variable (membership : Membership dsdl k)

include membership

theorem reindex (nodeId : k'.nodeId = k.nodeId)
    (size : k'.clusterSize = k.clusterSize)
    (ids : (k'.servers.map fun f => f.nodeId) = k.servers.map fun f => f.nodeId) : Membership dsdl k' := by
  have length := congrArg List.length ids
  rw [length_map, length_map] at length
  refine ⟨size ▸ membership.fits, ?_, ids ▸ membership.nodup, ids ▸ nodeId ▸ membership.remote⟩
  rw [length, size]
  exact membership.count

theorem addServer (unicast : id.isUnicast)
    (unknown : k.isKnownServer id = false) (isOpen : k.isClusterDiscovered = false) (lastIndex : ℕ) :
    Membership dsdl (k.addServer id lastIndex) := by
  obtain ⟨other, absent⟩ := not_isKnownServer unknown
  have room : k.servers.length + 1 ≠ k.clusterSize := of_decide_eq_false isOpen
  have count := membership.count
  have added : k.addServer id lastIndex =
      { k with servers := k.servers ++ [(⟨id, 0, 0⟩ : Server).resetIndices lastIndex] } := by
    simp [ClusterManager.addServer, unknown, unicast]
  rw [added]
  refine ⟨membership.fits, ?_, ?_, ?_⟩
  · simp only [length_append, length_singleton]
    omega
  · simp only [map_append]
    exact concat_eq_append ▸ membership.nodup.concat absent
  · simp only [map_append, map_singleton, mem_append, mem_singleton]
    rintro x (old | rfl)
    · exact membership.remote x old
    · exact ⟨unicast, other⟩

/-! ## Assertions -/

theorem isKnownServerChecked (id : NodeID) :
    k.isKnownServerChecked id = some (k.isKnownServer id) := by
  have search : ∀ servers : List Server, (∀ f ∈ servers, f.nodeId.isUnicast ∧ f.nodeId ≠ k.nodeId) →
      k.searchServersChecked id servers = some (servers.any fun f => f.nodeId = id) := by
    intro servers remote
    induction servers with
    | nil => rfl
    | cons f rest ih =>
      obtain ⟨unicast, other⟩ := remote f mem_cons_self
      have later := ih fun g inside => remote g (mem_cons_of_mem _ inside)
      simp only [searchServersChecked, unicast, later, other, ne_eq]
      by_cases found : f.nodeId = id <;> simp [found]
  unfold ClusterManager.isKnownServerChecked isKnownServer
  rw [search k.servers fun f inside => membership.remote _ (mem_map_of_mem inside)]
  by_cases own : id = k.nodeId <;> simp [own]

theorem addServerChecked (small : dsdl.maxClusterSize < 256)
    (unicast : id.isUnicast) (unknown : k.isKnownServer id = false) (isOpen : k.isClusterDiscovered = false)
    (lastIndex : ℕ) : k.addServerChecked dsdl id lastIndex = some (k.addServer id lastIndex) := by
  have room : k.servers.length + 1 ≠ k.clusterSize := of_decide_eq_false isOpen
  have count := membership.count
  have fits := membership.fits
  have first : k.servers.length + 1 < dsdl.maxClusterSize := by omega
  have slot : k.servers.length < dsdl.maxClusterSize - 1 := by omega
  have counter : toIndex (k.servers.length + 1) = k.servers.length + 1 := Nat.mod_eq_of_lt (by omega)
  unfold ClusterManager.addServerChecked ClusterManager.addServer
  simp [membership.isKnownServerChecked, unknown, unicast, first, slot, counter]

theorem handleTimerEventChecked :
    k.handleTimerEventChecked dsdl = some k.handleTimerEvent := by
  have count := membership.count
  have fits := membership.fits
  have push : ∀ (servers : List Server) (nodes : List UInt8), (∀ f ∈ servers, f.nodeId.isUnicast) →
      nodes.length + servers.length ≤ dsdl.maxClusterSize →
      pushKnownNodesChecked dsdl servers nodes = some (nodes ++ servers.map fun f => f.nodeId.value) := by
    intro servers
    induction servers with
    | nil => simp [pushKnownNodesChecked]
    | cons f rest ih =>
      intro nodes unicast room
      rw [length_cons] at room
      have fits : nodes.length < dsdl.maxClusterSize := by omega
      simp only [pushKnownNodesChecked, unicast f mem_cons_self, fits]
      rw [ih _ (fun g inside => unicast g (mem_cons_of_mem _ inside)) (by simp; omega)]
      simp
  have filled := push k.servers [k.nodeId.value]
    (fun f inside => (membership.remote _ (mem_map_of_mem inside)).1) (by simp; omega)
  have below : k.servers.length < k.clusterSize := by omega
  have some_ : 0 < dsdl.maxClusterSize := by omega
  unfold ClusterManager.handleTimerEventChecked handleTimerEvent
  simp [filled, below, some_]

end

theorem addKnownNodesChecked (small : dsdl.maxClusterSize < 256) (lastIndex : ℕ) (nodes : List UInt8) :
    ∀ {k : ClusterManager}, Membership dsdl k →
      addKnownNodesChecked dsdl lastIndex nodes k = some (addKnownNodes lastIndex nodes k) := by
  induction nodes with
  | nil => exact fun _ => rfl
  | cons node rest ih =>
    intro k membership
    unfold ClusterManager.addKnownNodesChecked addKnownNodes
    cases isOpen : k.isClusterDiscovered with
    | true => rfl
    | false =>
      cases unicast : (⟨node⟩ : NodeID).isUnicast with
      | false => simp [ih membership]
      | true =>
        cases known : k.isKnownServer ⟨node⟩ with
        | true => simp [membership.isKnownServerChecked, known, ih membership]
        | false =>
          have added := membership.addServer unicast known isOpen lastIndex
          simp [membership.isKnownServerChecked, known,
            membership.addServerChecked small unicast known isOpen lastIndex, ih added]

theorem handleDiscoveryChecked (membership : Membership dsdl k) (small : dsdl.maxClusterSize < 256) (lastIndex : ℕ)
    (msg : Discovery) : k.handleDiscoveryChecked dsdl lastIndex msg = some (k.handleDiscovery lastIndex msg) := by
  unfold ClusterManager.handleDiscoveryChecked handleDiscovery
  split
  · rfl
  · simp only [addKnownNodesChecked small lastIndex msg.knownNodes membership]
    split <;> simp_all

theorem meetSourceChecked (membership : Membership dsdl k) (small : dsdl.maxClusterSize < 256)
    (unicast : src.isUnicast) (lastIndex : ℕ) :
    k.meetSourceChecked dsdl src lastIndex =
      some (if !k.isKnownServer src && k.isClusterDiscovered then none
        else some (if !k.isKnownServer src then k.addServer src lastIndex else k)) := by
  unfold ClusterManager.meetSourceChecked
  rw [membership.isKnownServerChecked]
  cases known : k.isKnownServer src with
  | true => simp
  | false =>
    cases isOpen : k.isClusterDiscovered with
    | true => simp
    | false => simp [membership.addServerChecked small unicast known isOpen lastIndex]

end Membership

theorem init_membership {dsdl : Dsdl} (small : dsdl.maxClusterSize < 256) {st' : Storage}
    {effective : Bool} {k : ClusterManager} (run : init dsdl id st size effective = (.ok k, st')) :
    Membership dsdl k := by
  have empty : ∀ n, 0 < n → n ≤ dsdl.maxClusterSize →
      Membership dsdl (startDiscoveryPublishingTimerIfNotRunning ⟨id, [], n, false⟩) := fun n pos fits =>
    ⟨fits, pos, nodup_nil, by simp [startDiscoveryPublishingTimerIfNotRunning]⟩
  obtain ⟨n, rfl, -, ⟨-, -, value, -, nonzero, below, rfl⟩ | ⟨rfl, pos, below, -⟩⟩ := init_cases run
  · have pos : 0 < value.toNat := Nat.pos_of_ne_zero fun zero => nonzero (UInt32.toNat_inj.mp zero)
    have same : toIndex value.toNat = value.toNat := Nat.mod_eq_of_lt (by omega)
    rw [same]
    exact empty _ pos below
  · exact empty _ pos below

end ClusterManager

/-! ## Runs of one server -/

theorem Frame.isUnicast_of_service {f : Frame} (valid : f.isValid) (request : f.transferType = .serviceRequest) :
    f.srcNodeId.isUnicast := by
  obtain ⟨-, source, -, -, -, -, anonymous, -⟩ := isValid_iff.mp valid
  have named : ¬f.srcNodeId.isBroadcast := fun broadcast => by
    rw [request] at anonymous
    exact nomatch (anonymous broadcast).2.2
  simp only [NodeID.isValid, NodeID.isBroadcast, NodeID.isUnicast, decide_eq_true_eq, Bool.and_eq_true]
    at source named ⊢
  exact ⟨source, named⟩

/-- The source of some frame of a service request that the transport layer accepts. -/
def NodeID.SendsRequests (src : NodeID) : Prop :=
  ∃ frame : Frame, frame.isValid ∧ frame.transferType = .serviceRequest ∧ frame.srcNodeId = src

theorem NodeID.SendsRequests.isUnicast (sends : src.SendsRequests) : src.isUnicast := by
  obtain ⟨frame, valid, request, rfl⟩ := sends
  exact frame.isUnicast_of_service valid request

variable {v v' : Voter}

namespace Voter

/-- What can happen in the life of one process: any messages with any contents, but the source of a request is one the
transport layer accepts. -/
def WithoutRestart (_ : Voter) : VoterAction → Prop
  | .appendEntries src _ _ => src.SendsRequests
  | .restart _ _ => False
  | _ => True

theorem moves_exec {dsdl : Dsdl} {a : VoterAction} (permitted : v.WithoutRestart a)
    (run : v.exec dsdl a = some v') : RaftCore.Moves v.core v'.core := by
  -- what a handler has sent leaves the outbox
  have settled : ∀ {r : RaftCore}, RaftCore.Moves v.core r → RaftCore.Moves v.core (v.settle r).core := fun moves =>
    moves.then (.other _ _ _ _ _ [])
  cases a with
  | timer env =>
    cases run
    exact settled (v.core.moves_handleTimerEvent dsdl env)
  | requestVote src request env =>
    cases run
    exact settled (v.core.calm_handleRequestVoteRequest dsdl env src request).moves
  | requestVoteResponse call response env =>
    simp only [exec, ite_none_right_eq_some, some.injEq] at run
    obtain ⟨waits, rfl⟩ := run
    exact settled (RaftCore.calm_handleRequestVoteResponse dsdl env waits response).moves
  | appendEntries src request env =>
    cases run
    exact settled (v.core.moves_handleAppendEntriesRequest dsdl env permitted.isUnicast request)
  | appendEntriesResponse call response env =>
    simp only [exec, ite_none_right_eq_some, some.injEq] at run
    obtain ⟨-, rfl⟩ := run
    exact settled (v.core.calm_handleAppendEntriesResponse dsdl env call response).moves
  | appendLog uniqueId nodeId env =>
    cases run
    exact settled (v.core.moves_appendLog dsdl env uniqueId nodeId)
  | discoveryTimer =>
    cases run
    exact settled v.core.calm_handleDiscoveryTimer.moves
  | discovery message =>
    cases run
    exact settled (v.core.calm_handleDiscovery message).moves
  | callTimeout call =>
    cases run
    exact settled (v.core.calm_endCall call).moves
  | restart size env => exact permitted.elim

end Voter

namespace RaftCore

open ClusterManager (Membership Extends)

variable {dsdl : Dsdl} {r : RaftCore}

variable {r' : RaftCore}

theorem Move.membership (membership : Membership dsdl r.cluster) (move : Move r r') :
    Membership dsdl r'.cluster ∧ Extends r.cluster r'.cluster := by
  cases move with
  | switch newState lastIndex =>
    have ids : ((r.cluster.resetAllServerIndices lastIndex).servers.map fun f => f.nodeId) =
        r.cluster.servers.map fun f => f.nodeId := by
      simp [ClusterManager.resetAllServerIndices, ClusterManager.Server.resetIndices]
    exact ⟨membership.reindex rfl rfl ids, rfl, rfl, ids ▸ prefix_rfl⟩
  | enlist lastIndex unicast unknown isOpen =>
    exact ⟨membership.addServer unicast unknown isOpen lastIndex, ClusterManager.extends_addServer _ _ _⟩
  | reindex nodeId size ids => exact ⟨membership.reindex nodeId size ids, nodeId, size, ids ▸ prefix_rfl⟩
  | other | campaign | count | abandon | query | advance => exact ⟨membership, .refl _⟩

theorem Moves.membership (membership : Membership dsdl r.cluster) (moves : Moves r r') :
    Membership dsdl r'.cluster ∧ Extends r.cluster r'.cluster := by
  refine moves.invariant (P := fun x => Membership dsdl x.cluster ∧ Extends r.cluster x.cluster)
    ⟨membership, .refl _⟩ fun {x y} before move => ?_
  obtain ⟨after, further⟩ := move.membership before.1
  exact ⟨after, before.2.trans further⟩

theorem init_membership (small : dsdl.maxClusterSize < 256) {env : Env} {nodeId : NodeID}
    (run : init dsdl env nodeId st size = .ok r) :
    Membership dsdl r.cluster ∧ r.nodeId = nodeId := by
  obtain ⟨p, st₁, k, st₂, -, manager, rfl⟩ := init_eq run
  obtain ⟨n, rfl, -⟩ := ClusterManager.init_cases manager
  exact ⟨ClusterManager.init_membership small manager, rfl⟩

end RaftCore

open ClusterManager (Membership Extends)

theorem Voter.reach_membership {dsdl : Dsdl} (membership : Membership dsdl v.core.cluster)
    (run : Machines.Reach (Voter.exec dsdl) Voter.WithoutRestart v v') :
    Membership dsdl v'.core.cluster ∧ Extends v.core.cluster v'.core.cluster := by
  refine run.invariant (P := fun x => Membership dsdl x.core.cluster ∧ Extends v.core.cluster x.core.cluster)
    ⟨membership, .refl _⟩ fun {x a y} before permitted taken => ?_
  obtain ⟨after, further⟩ := (Voter.moves_exec permitted taken).membership before.1
  exact ⟨after, before.2.trans further⟩

/-- From the start of a process on, whatever arrives: the known servers are distinct other nodes, fewer than the cluster
has, and stay known; and all functions that look at the list or extend it pass their assertions. -/
theorem known_servers_in_bounds {dsdl : Dsdl} (small : dsdl.maxClusterSize < 256) {env : Env} {nodeId : NodeID}
    {st : Storage} {size : ℕ} {v₀ v v' : Voter} (started : RaftCore.init dsdl env nodeId st size = .ok v₀.core)
    (run : Machines.Reach (Voter.exec dsdl) Voter.WithoutRestart v₀ v)
    (later : Machines.Reach (Voter.exec dsdl) Voter.WithoutRestart v v') :
    (v.core.cluster.servers.map fun f => f.nodeId).Nodup ∧
      (∀ f ∈ v.core.cluster.servers, f.nodeId.isUnicast ∧ f.nodeId ≠ nodeId) ∧
      v.core.cluster.servers.length + 1 ≤ v.core.cluster.clusterSize ∧
      (v.core.cluster.servers.map fun f => f.nodeId) <+: (v'.core.cluster.servers.map fun f => f.nodeId) ∧
      (∀ id, v.core.cluster.isKnownServerChecked id = some (v.core.cluster.isKnownServer id)) ∧
      v.core.cluster.handleTimerEventChecked dsdl = some v.core.cluster.handleTimerEvent ∧
      (∀ lastIndex msg, v.core.cluster.handleDiscoveryChecked dsdl lastIndex msg =
        some (v.core.cluster.handleDiscovery lastIndex msg)) ∧
      ∀ src : NodeID, src.SendsRequests → ∀ lastIndex, v.core.cluster.meetSourceChecked dsdl src lastIndex =
        some (if !v.core.cluster.isKnownServer src && v.core.cluster.isClusterDiscovered then none
          else some (if !v.core.cluster.isKnownServer src then v.core.cluster.addServer src lastIndex
            else v.core.cluster)) := by
  obtain ⟨initial, own⟩ := RaftCore.init_membership small started
  obtain ⟨membership, extended⟩ := Voter.reach_membership initial run
  have named : v.core.cluster.nodeId = nodeId := extended.nodeId.trans own
  refine ⟨membership.nodup, fun f inside => ?_, membership.count, (Voter.reach_membership membership later).2.ids,
    membership.isKnownServerChecked, membership.handleTimerEventChecked, membership.handleDiscoveryChecked small,
    fun src sends => membership.meetSourceChecked small sends.isUnicast⟩
  exact named ▸ membership.remote _ (mem_map_of_mem inside)

/-- Whether the server has started, and knows these servers after a message. -/
def Voter.knowsAfter (dsdl : Dsdl) (msg : Discovery) (ids : List NodeID) : Except Err RaftCore → Bool
  | .ok r => (Voter.exec dsdl ⟨r, [], []⟩ (.discovery msg)).any fun v =>
    (v.core.cluster.servers.map fun f => f.nodeId) = ids
  | .error _ => false

/-- A server of three hears of itself, of two others twice, of no node at all and of a fourth server. -/
theorem known_servers_in_bounds_sample : ∃ v : Voter,
    (v.core.cluster.servers.map fun f => f.nodeId) = [⟨2⟩, ⟨3⟩] ∧
      v.core.cluster.handleTimerEventChecked ⟨5, 1, 2000, 4000⟩ = some v.core.cluster.handleTimerEvent := by
  have played : Voter.knowsAfter ⟨5, 1, 2000, 4000⟩ ⟨3, [2, 1, 2, 0, 3, 3, 4]⟩ [⟨2⟩, ⟨3⟩]
      (RaftCore.init ⟨5, 1, 2000, 4000⟩ VoterRun.late ⟨1⟩ Storage.empty 3) = true := by decide +kernel
  cases started : RaftCore.init ⟨5, 1, 2000, 4000⟩ VoterRun.late ⟨1⟩ Storage.empty 3 with
  | error err =>
    rw [started] at played
    cases played
  | ok r =>
    rw [started, Voter.knowsAfter] at played
    obtain ⟨v, taken, known⟩ := (any_eq_true _ _).mp played
    have run : Machines.Reach (Voter.exec ⟨5, 1, 2000, 4000⟩) Voter.WithoutRestart ⟨r, [], []⟩ v :=
      .step .start (a := .discovery ⟨3, [2, 1, 2, 0, 3, 3, 4]⟩) trivial taken
    have bounds := known_servers_in_bounds (by decide) started run .start
    exact ⟨v, of_decide_eq_true known, bounds.2.2.2.2.2.1⟩

end Uavcan
