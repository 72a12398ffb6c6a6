import Uavcan.DynamicNodeId.PersistentState

/-!
# The servers a server knows

`ClusterManager` learns the other members of the cluster from `Discovery` messages, up to the
configured cluster size, and keeps for each of them the two replication indices of a Raft leader.
-/

namespace Uavcan

/-- Constants of generated message types that are not part of the sources: the capacity of
`Discovery::known_nodes` and of `AppendEntries::Request::entries`, and the election timeouts. -/
structure Dsdl where
  maxClusterSize : ℕ
  entriesCapacity : ℕ
  minElectionTimeoutMs : ℕ
  maxElectionTimeoutMs : ℕ

/-- The `Discovery` message; the sender stands first among the known nodes. -/
structure Discovery where
  configuredClusterSize : ℕ
  knownNodes : List UInt8
  deriving DecidableEq

/-- A known server, and what the leader knows of its log. -/
structure ClusterManager.Server where
  nodeId : NodeID
  nextIndex : ℕ
  matchIndex : ℕ
  deriving DecidableEq

/-- `servers` are the first `num_known_servers_` slots of the array; `running` is the state of the
broadcasting timer. -/
structure ClusterManager where
  nodeId : NodeID
  servers : List ClusterManager.Server
  clusterSize : ℕ
  running : Bool

namespace ClusterManager

open StorageMarshaller

def Server.resetIndices (s : Server) (lastIndex : ℕ) : Server :=
  { s with nextIndex := toIndex (lastIndex + 1), matchIndex := 0 }

variable (c : ClusterManager)

def findServer (nodeId : NodeID) : Option Server :=
  c.servers.find? fun s => s.nodeId = nodeId

def isKnownServer (nodeId : NodeID) : Bool :=
  nodeId = c.nodeId || c.servers.any fun s => s.nodeId = nodeId

def getNumKnownServers : ℕ := c.servers.length

def isClusterDiscovered : Bool := c.getNumKnownServers + 1 = c.clusterSize

/-- The size of a majority. -/
def getQuorumSize : ℕ := c.clusterSize / 2 + 1

/-- An invalid node ID is returned if there is no such server. -/
def getRemoteServerNodeIDAtIndex (index : ℕ) : NodeID :=
  match c.servers[index]? with
  | some s => s.nodeId
  | none => NodeID.invalid

def getServerNextIndex (nodeId : NodeID) : ℕ :=
  match c.findServer nodeId with
  | some s => s.nextIndex
  | none => 0

def getServerMatchIndex (nodeId : NodeID) : ℕ :=
  match c.findServer nodeId with
  | some s => s.matchIndex
  | none => 0

/-- An update through the pointer `findServer` returns. -/
def modifyServer (nodeId : NodeID) (f : Server → Server) : List Server → List Server
  | [] => []
  | s :: rest => if s.nodeId = nodeId then f s :: rest else s :: modifyServer nodeId f rest

/-- The indices of a server are bytes. -/
def incrementServerNextIndexBy (nodeId : NodeID) (increment : ℕ) :
    ClusterManager :=
  let f := fun s : Server => { s with nextIndex := toIndex (s.nextIndex + increment) }
  { c with servers := modifyServer nodeId f c.servers }

def decrementServerNextIndex (nodeId : NodeID) : ClusterManager :=
  let f := fun s : Server => { s with nextIndex := toIndex (s.nextIndex + 255) }
  { c with servers := modifyServer nodeId f c.servers }

def setServerMatchIndex (nodeId : NodeID) (matchIndex : ℕ) :
    ClusterManager :=
  let f := fun s : Server => { s with matchIndex := matchIndex }
  { c with servers := modifyServer nodeId f c.servers }

def resetAllServerIndices (lastIndex : ℕ) : ClusterManager :=
  { c with servers := c.servers.map fun s => s.resetIndices lastIndex }

/-- `addServer`; `lastIndex` is that of the log, from which the new server's indices start. -/
def addServer (nodeId : NodeID) (lastIndex : ℕ) : ClusterManager :=
  if !c.isKnownServer nodeId && nodeId.isUnicast then
    { c with servers := c.servers ++ [(⟨nodeId, 0, 0⟩ : Server).resetIndices lastIndex] }
  else c

def startDiscoveryPublishingTimerIfNotRunning : ClusterManager :=
  { c with running := true }

/-- `handleTimerEvent`: broadcast what is known, and stop once the cluster is discovered. -/
def handleTimerEvent : ClusterManager × Discovery :=
  let msg : Discovery := ⟨c.clusterSize, c.nodeId.value :: c.servers.map fun s => s.nodeId.value⟩
  (if c.isClusterDiscovered then { c with running := false } else c, msg)

/-- The loop of `handleDiscovery` over the nodes of the message. -/
def addKnownNodes (lastIndex : ℕ) : List UInt8 → ClusterManager → ClusterManager
  | [], c => c
  | node :: rest, c =>
    if c.isClusterDiscovered then c
    else if (⟨node⟩ : NodeID).isUnicast && !c.isKnownServer ⟨node⟩ then
      addKnownNodes lastIndex rest (c.addServer ⟨node⟩ lastIndex)
    else addKnownNodes lastIndex rest c

/-- A message of another cluster size is ignored; one that lacks servers starts the broadcast again. -/
def handleDiscovery (lastIndex : ℕ) (msg : Discovery) : ClusterManager :=
  if msg.configuredClusterSize ≠ c.clusterSize then c
  else
    let c := addKnownNodes lastIndex msg.knownNodes c
    if msg.configuredClusterSize > msg.knownNodes.length then
      c.startDiscoveryPublishingTimerIfNotRunning
    else c

/-- The cluster size argument that stands for "read it from the storage". -/
def clusterSizeUnknown : ℕ := 0

def init (dsdl : Dsdl) (nodeId : NodeID) (st : Storage) (initClusterSize : ℕ) (effective : Bool) :
    Except Err ClusterManager × Storage :=
  let started (size : ℕ) : ClusterManager :=
    ClusterManager.startDiscoveryPublishingTimerIfNotRunning ⟨nodeId, [], size, false⟩
  if initClusterSize = clusterSizeUnknown then
    match get st .clusterSize with
    | .error err => (.error err, st)
    | .ok value =>
      if value = 0 ∨ value.toNat > dsdl.maxClusterSize then (.error .invalidConfiguration, st)
      else (.ok (started (toIndex value.toNat)), st)
  else if initClusterSize > dsdl.maxClusterSize then (.error .invalidParam, st)
  else
    match setAndGetBack st .clusterSize (UInt32.ofNat initClusterSize) effective with
    | (.error _, st) => (.error .failure, st)
    | (.ok value, st) =>
      if value ≠ UInt32.ofNat initClusterSize then (.error .failure, st)
      else (.ok (started initClusterSize), st)

/-! ## What stays -/

theorem nodeId_addServer (k : ClusterManager) (nodeId : NodeID) (lastIndex : ℕ) :
    (k.addServer nodeId lastIndex).nodeId = k.nodeId := by
  unfold addServer
  split <;> rfl

/-- What every new server keeps, and the start of the timer, is kept by a discovery message. -/
theorem handleDiscovery_invariant {P : ClusterManager → Prop} {k : ClusterManager} {lastIndex : ℕ} {msg : Discovery}
    (initial : P k) (added : ∀ {k node}, P k → node ∈ msg.knownNodes → (⟨node⟩ : NodeID).isUnicast →
      k.isKnownServer ⟨node⟩ = false → k.isClusterDiscovered = false → P (k.addServer ⟨node⟩ lastIndex))
    (started : ∀ {k}, P k → P k.startDiscoveryPublishingTimerIfNotRunning) :
    P (k.handleDiscovery lastIndex msg) := by
  have loop : ∀ nodes ⊆ msg.knownNodes, ∀ k, P k → P (addKnownNodes lastIndex nodes k) := by
    intro nodes inside
    induction nodes with
    | nil => exact fun _ holds => holds
    | cons node rest ih =>
      intro k holds
      obtain ⟨here, later⟩ := List.cons_subset.mp inside
      unfold addKnownNodes
      split
      case isTrue => exact holds
      case isFalse undiscovered =>
      split
      case isFalse => exact ih later k holds
      case isTrue new =>
        rw [Bool.and_eq_true, Bool.not_eq_true'] at new
        exact ih later _ (added holds here new.1 new.2 (Bool.not_eq_true _ ▸ undiscovered))
  unfold handleDiscovery
  split
  case isTrue => exact initial
  case isFalse =>
    have reached := loop msg.knownNodes (List.Subset.refl _) k initial
    split
    · exact started reached
    · exact reached

theorem nodeId_handleDiscovery (k : ClusterManager) (lastIndex : ℕ) (msg : Discovery) :
    (k.handleDiscovery lastIndex msg).nodeId = k.nodeId :=
  handleDiscovery_invariant (P := fun x => x.nodeId = k.nodeId) rfl
    (fun same _ _ _ _ => (nodeId_addServer _ _ _).trans same) fun same => same

theorem nodeId_handleTimerEvent (k : ClusterManager) : k.handleTimerEvent.1.nodeId = k.nodeId := by
  unfold handleTimerEvent
  split <;> rfl

/-- A start takes the size it finds in the storage, or stores the one it is given. -/
theorem init_cases {dsdl : Dsdl} {nodeId : NodeID} {st st' : Storage} {size : ℕ} {effective : Bool} {k : ClusterManager}
    (run : init dsdl nodeId st size effective = (.ok k, st')) :
    ∃ n, k = startDiscoveryPublishingTimerIfNotRunning ⟨nodeId, [], n, false⟩ ∧
      (∀ key, key ≠ .clusterSize → st' key = st key) ∧
      ((size = 0 ∧ st' = st ∧ ∃ value, get st .clusterSize = .ok value ∧ value ≠ 0 ∧
          value.toNat ≤ dsdl.maxClusterSize ∧ n = toIndex value.toNat) ∨
        (n = size ∧ 0 < size ∧ size ≤ dsdl.maxClusterSize ∧ get st' .clusterSize = .ok (UInt32.ofNat size))) := by
  unfold init at run
  split at run
  case isTrue unknown =>
    split at run
    case h_1 => cases run
    case h_2 value found =>
    split at run
    case isTrue => cases run
    case isFalse allowed =>
      cases run
      rw [not_or] at allowed
      exact ⟨_, rfl, fun _ _ => rfl, .inl ⟨unknown, rfl, value, found, allowed.1, Nat.not_lt.mp allowed.2, rfl⟩⟩
  case isFalse given =>
    split at run
    case isTrue => cases run
    case isFalse below =>
    split at run
    case h_1 => cases run
    case h_2 value st₁ write =>
    obtain ⟨frame, found, -⟩ := setAndGetBack_cases write
    split at run
    case isTrue => cases run
    case isFalse wanted =>
      cases run
      rw [Decidable.not_not.mp wanted] at found
      exact ⟨_, rfl, frame, .inr ⟨rfl, Nat.pos_of_ne_zero given, Nat.not_lt.mp below, found⟩⟩

end ClusterManager

end Uavcan
