import Uavcan.DynamicNodeId.RaftCore

/-!
# Free node IDs and unknown nodes

`NodeIDSelector` picks a node ID for a new node. `NodeDiscoverer` watches `NodeStatus` messages, asks nodes
that the allocator does not know for their unique IDs, and reports them to the allocator, its
`INodeDiscoveryHandler`, which is given by its answers.
-/

namespace Uavcan

open List

/-! ## Choosing a node ID -/

namespace NodeIDSelector

/-- The first free one of some candidates. -/
def firstFree (isNodeIDTaken : NodeID → Bool) : List ℕ → Option NodeID
  | [] => none
  | candidate :: rest =>
    if !isNodeIDTaken ⟨UInt8.ofNat candidate⟩ then some ⟨UInt8.ofNat candidate⟩
    else firstFree isNodeIDTaken rest

/-- Upwards from the preferred ID to the last recommended one, then downwards to one. -/
def findFreeNodeID (isNodeIDTaken : NodeID → Bool) (preferred : NodeID) : NodeID :=
  let start :=
    if preferred.isUnicast then preferred.value.toNat
    else NodeID.maxRecommendedForRegularNodes.toNat
  match firstFree isNodeIDTaken
      (List.range' start (NodeID.maxRecommendedForRegularNodes.toNat + 1 - start)) with
  | some id => id
  | none => (firstFree isNodeIDTaken (List.range' 1 start).reverse).getD NodeID.invalid

variable {isNodeIDTaken : NodeID → Bool}

theorem firstFree_free {candidates : List ℕ} {id : NodeID} (found : firstFree isNodeIDTaken candidates = some id) :
    isNodeIDTaken id = false := by
  induction candidates with
  | nil => cases found
  | cons candidate rest ih =>
    simp only [firstFree] at found
    split at found
    case isTrue free =>
      cases found
      simpa using free
    case isFalse => exact ih found

theorem findFreeNodeID_free {preferred : NodeID} (unicast : (findFreeNodeID isNodeIDTaken preferred).isUnicast) :
    isNodeIDTaken (findFreeNodeID isNodeIDTaken preferred) = false := by
  unfold findFreeNodeID at unicast ⊢
  generalize (if preferred.isUnicast = true then preferred.value.toNat
    else NodeID.maxRecommendedForRegularNodes.toNat) = start at unicast ⊢
  simp only at unicast ⊢
  cases up : firstFree isNodeIDTaken
      (range' start (NodeID.maxRecommendedForRegularNodes.toNat + 1 - start)) with
  | some id => exact firstFree_free up
  | none =>
    simp only [up] at unicast ⊢
    cases down : firstFree isNodeIDTaken (range' 1 start).reverse with
    | some id => exact firstFree_free down
    | none =>
      rw [down] at unicast
      cases unicast

/-- The candidates downwards from `k + 1`. -/
theorem reverse_range_succ (k : ℕ) : (range' 1 (k + 1)).reverse = (k + 1) :: (range' 1 k).reverse := by
  rw [range'_1_concat, reverse_append, reverse_singleton, singleton_append, Nat.add_comm]

theorem findFreeNodeID_preferred {preferred : NodeID} (unicast : preferred.isUnicast)
    (free : isNodeIDTaken preferred = false) : findFreeNodeID isNodeIDTaken preferred = preferred := by
  have first : ∀ rest, firstFree isNodeIDTaken (preferred.value.toNat :: rest) = some preferred := by
    simp [firstFree, free]
  have positive : preferred.value.toNat ≠ 0 := by
    simp only [NodeID.isUnicast, Bool.and_eq_true, decide_eq_true_eq] at unicast
    exact fun zero => unicast.2 (UInt8.toNat_inj.mp zero)
  unfold findFreeNodeID
  simp only [unicast, if_true]
  -- downwards the search begins with the preferred ID as well
  rcases Nat.eq_zero_or_pos (NodeID.maxRecommendedForRegularNodes.toNat + 1 - preferred.value.toNat) with none | some
  · obtain ⟨k, value⟩ := Nat.exists_eq_succ_of_ne_zero positive
    have down : (range' 1 preferred.value.toNat).reverse = preferred.value.toNat :: (range' 1 k).reverse := by
      rw [value, reverse_range_succ]
    rw [none, down, first]
    rfl
  · obtain ⟨k, count⟩ := Nat.exists_eq_succ_of_ne_zero (Nat.pos_iff_ne_zero.mp some)
    rw [count, range'_succ, first]

end NodeIDSelector

/-! ## Unknown nodes -/

inductive NodeAwareness
  | unknown
  | knownButNotCommitted
  | knownAndCommitted
  deriving DecidableEq

structure NodeData where
  lastSeenUptime : UInt32
  numGetNodeInfoAttempts : UInt8

/-- `calls` are the pending `GetNodeInfo` calls; `running` is the state of the timer. -/
structure NodeDiscoverer where
  committedNodeMask : NodeID → Bool
  nodeMap : List (NodeID × NodeData)
  calls : List ServiceCallID
  running : Bool

namespace NodeDiscoverer

def maxAttemptsToGetNodeInfo : UInt8 := 5

def construct : NodeDiscoverer := ⟨fun _ => false, [], [], false⟩

variable (awareness : NodeID → NodeAwareness)

variable (d : NodeDiscoverer)

def removeNode (id : NodeID) : NodeDiscoverer :=
  { d with nodeMap := d.nodeMap.filter fun pair => pair.1 ≠ id }

def pickNextNodeToQuery : NodeID :=
  match d.nodeMap with
  | [] => NodeID.invalid
  | pair :: _ => pair.1

/-- A node that turns out to be known is forgotten on the way. -/
def needToQuery (id : NodeID) : Bool × NodeDiscoverer :=
  if d.committedNodeMask id then (false, d)
  else
    match awareness id with
    | .unknown => (true, d)
    | .knownButNotCommitted => (false, d.removeNode id)
    | .knownAndCommitted =>
      let mask := Function.update d.committedNodeMask id true
      (false, ({ d with committedNodeMask := mask }).removeNode id)

/-- The loop that skips nodes which have become known.  A round that goes on removes a node, so that
there are at most as many as nodes, and a last one. -/
def cleanupMap : ℕ → NodeDiscoverer → NodeID × NodeDiscoverer
  | 0, d => (NodeID.invalid, d)
  | rounds + 1, d =>
    let id := d.pickNextNodeToQuery
    if id.isUnicast then
      match d.needToQuery awareness id with
      | (true, d) => (id, d)
      | (false, d) => cleanupMap rounds (d.removeNode id)
    else (NodeID.invalid, d)

def pickNextNodeToQueryAndCleanupMap : NodeID × NodeDiscoverer :=
  cleanupMap awareness (d.nodeMap.length + 1) d

/-- A report to the handler: the unique ID, if the node told it, and the node ID. -/
abbrev Report := Option UniqueID × NodeID

def finalizeNodeDiscovery (uniqueId : Option UniqueID) (id : NodeID) :
    NodeDiscoverer × Option Report :=
  match (d.removeNode id).needToQuery awareness id with
  | (true, d) => (d, some (uniqueId, id))
  | (false, d) => (d, none)

/-- The callback of a call; no unique ID stands for a call that timed out.  The client removes a call that was
answered before the callback, and one that timed out after it. -/
def handleGetNodeInfoResponse (id : NodeID) (uniqueId : Option UniqueID) :
    NodeDiscoverer × Option Report :=
  match uniqueId with
  | some _ => d.finalizeNodeDiscovery awareness uniqueId id
  | none =>
    match d.nodeMap.find? fun pair => pair.1 = id with
    | none => (d, none)
    | some (_, data) =>
      let attempts := data.numGetNodeInfoAttempts + 1
      let nodes := d.nodeMap.map fun pair =>
        if pair.1 = id then (id, { pair.2 with numGetNodeInfoAttempts := attempts }) else pair
      if attempts ≥ maxAttemptsToGetNodeInfo then
        ({ d with nodeMap := nodes }).finalizeNodeDiscovery awareness none id
      else ({ d with nodeMap := nodes }, none)

/-- The timer event; `call` is the call it may start, if the client accepts it. -/
def handleTimerEvent (canDiscoverNewNodes : Bool) (transferID : ℕ) (callOk : Bool)
    (d : NodeDiscoverer) : NodeDiscoverer :=
  if !d.calls.isEmpty then d
  else
    match d.pickNextNodeToQueryAndCleanupMap awareness with
    | (id, d) =>
      if !id.isUnicast then { d with running := false }
      else if !canDiscoverNewNodes then d
      else if callOk then { d with calls := d.calls ++ [⟨id, transferID⟩] }
      else d

/-- A `NodeStatus` message; `slot` is where the map has room for a new node, if it has. -/
def handleNodeStatus (slot : Option ℕ) (d : NodeDiscoverer) (src : NodeID) (uptime : UInt32) :
    NodeDiscoverer :=
  match d.needToQuery awareness src with
  | (false, d) => d
  | (true, d) =>
    let see (data : NodeData) : NodeData :=
      ⟨uptime, if uptime < data.lastSeenUptime then 0 else data.numGetNodeInfoAttempts⟩
    let known := d.nodeMap.any fun pair => pair.1 = src
    match known, slot with
    | true, _ =>
      { d with
        nodeMap := d.nodeMap.map fun pair => if pair.1 = src then (src, see pair.2) else pair
        running := true }
    | false, some i =>
      { d with nodeMap := d.nodeMap.insertIdx (min i d.nodeMap.length) (src, see ⟨0, 0⟩), running := true }
    | false, none => d

def hasUnknownNodes : Bool := !d.nodeMap.isEmpty

/-! ### The nodes in the map -/

/-- The nodes that have been heard and are not known yet. -/
def nodes : List NodeID := d.nodeMap.map Prod.fst

theorem nodes_removeNode (id : NodeID) : (d.removeNode id).nodes ⊆ d.nodes :=
  (filter_sublist.map Prod.fst).subset

theorem nodes_needToQuery (id : NodeID) : (d.needToQuery awareness id).2.nodes ⊆ d.nodes := by
  unfold needToQuery
  split
  · exact List.Subset.refl _
  split
  · exact List.Subset.refl _
  · exact d.nodes_removeNode id
  · exact nodes_removeNode _ id

theorem nodes_cleanupMap (rounds : ℕ) (d : NodeDiscoverer) : (cleanupMap awareness rounds d).2.nodes ⊆ d.nodes := by
  induction rounds generalizing d with
  | zero => exact List.Subset.refl _
  | succ rounds ih =>
    simp only [cleanupMap]
    split
    case isFalse => exact List.Subset.refl _
    case isTrue =>
      have query := nodes_needToQuery awareness d d.pickNextNodeToQuery
      generalize d.needToQuery awareness d.pickNextNodeToQuery = answer at query ⊢
      obtain ⟨needed, d'⟩ := answer
      cases needed with
      | true => exact query
      | false => exact List.Subset.trans (ih _) (List.Subset.trans (nodes_removeNode _ _) query)

theorem nodes_finalizeNodeDiscovery (uniqueId : Option UniqueID) (id : NodeID) :
    (d.finalizeNodeDiscovery awareness uniqueId id).1.nodes ⊆ d.nodes := by
  have query := nodes_needToQuery awareness (d.removeNode id) id
  unfold finalizeNodeDiscovery
  generalize (d.removeNode id).needToQuery awareness id = answer at query ⊢
  obtain ⟨needed, d'⟩ := answer
  cases needed <;> exact List.Subset.trans query (d.nodes_removeNode id)

theorem nodes_update (id : NodeID) (data : NodeData → NodeData) :
    (d.nodeMap.map fun pair => if pair.1 = id then (id, data pair.2) else pair).map Prod.fst ⊆ d.nodes := by
  intro node member
  obtain ⟨new, found, rfl⟩ := mem_map.mp member
  obtain ⟨pair, there, rfl⟩ := mem_map.mp found
  have same : (if pair.1 = id then (id, data pair.2) else pair).1 = pair.1 := by
    split
    case isTrue this => exact this.symm
    case isFalse => rfl
  rw [same]
  exact mem_map_of_mem there

theorem nodes_handleGetNodeInfoResponse (id : NodeID) (uniqueId : Option UniqueID) :
    (d.handleGetNodeInfoResponse awareness id uniqueId).1.nodes ⊆ d.nodes := by
  unfold handleGetNodeInfoResponse
  split
  · exact nodes_finalizeNodeDiscovery awareness d _ id
  split
  · exact List.Subset.refl _
  · simp only
    split
    · refine List.Subset.trans (nodes_finalizeNodeDiscovery awareness _ _ id) ?_
      exact d.nodes_update id fun data => { data with numGetNodeInfoAttempts := _ }
    · exact d.nodes_update id fun data => { data with numGetNodeInfoAttempts := _ }

theorem nodes_handleTimerEvent (canDiscoverNewNodes : Bool) (transferID : ℕ) (callOk : Bool) :
    (d.handleTimerEvent awareness canDiscoverNewNodes transferID callOk).nodes ⊆ d.nodes := by
  have clean := nodes_cleanupMap awareness (d.nodeMap.length + 1) d
  unfold handleTimerEvent
  split
  · exact List.Subset.refl _
  · simp only
    split
    · exact clean
    split
    · exact clean
    split
    · exact clean
    · exact clean

theorem nodes_handleNodeStatus (slot : Option ℕ) (src : NodeID) (uptime : UInt32) :
    (d.handleNodeStatus awareness slot src uptime).nodes ⊆ src :: d.nodes := by
  have query := nodes_needToQuery awareness d src
  unfold handleNodeStatus
  generalize d.needToQuery awareness src = answer at query ⊢
  obtain ⟨needed, d'⟩ := answer
  have old : d'.nodes ⊆ src :: d.nodes := subset_cons_of_subset src query
  cases needed with
  | false => exact old
  | true =>
    simp only
    split
    · have seen := d'.nodes_update src fun data =>
        ⟨uptime, if uptime < data.lastSeenUptime then 0 else data.numGetNodeInfoAttempts⟩
      exact List.Subset.trans seen old
    · intro id member
      obtain ⟨pair, found, rfl⟩ := mem_map.mp member
      rcases (mem_insertIdx (Nat.min_le_right _ _)).mp found with rfl | there
      · exact mem_cons_self
      · exact old (mem_map_of_mem there)
    · exact old

end NodeDiscoverer

end Uavcan
