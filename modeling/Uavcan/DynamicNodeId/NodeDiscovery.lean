import Uavcan.DynamicNodeId.NodeDiscoverer
import Uavcan.Machines.Guarded

/-!
# A discoverer does not get stuck

As long as a discoverer has unknown nodes, the server allocates no node IDs. So its timer has to run until the
map of unknown nodes is empty, and nothing may stay in the map for good: not a node that does not answer, and
not one that has been committed. Every event may forget a node in `needToQuery`, whatever the handler answers
there.
-/

namespace Uavcan

open List

/-- One thing that happens to a discoverer, with what its handler answers at that time. -/
inductive DiscovererAction
  | nodeStatus (awareness : NodeID → NodeAwareness) (src : NodeID) (uptime : UInt32) (slot : Option ℕ)
  | getNodeInfoResult (awareness : NodeID → NodeAwareness) (call : ServiceCallID) (uniqueId : Option UniqueID)
  | timer (awareness : NodeID → NodeAwareness) (canDiscoverNewNodes : Bool) (transferID : ℕ) (callOk : Bool)

namespace NodeDiscoverer

/-- The state after an action.  The subscriber of the discoverer does not take anonymous messages, so that a message has
a sender. -/
def exec (d : NodeDiscoverer) : DiscovererAction → Option NodeDiscoverer
  | .nodeStatus awareness src uptime slot =>
    if src.isUnicast then some (d.handleNodeStatus awareness slot src uptime) else none
  | .getNodeInfoResult awareness call uniqueId =>
    some (({ d with calls := d.calls.erase call }).handleGetNodeInfoResponse awareness call.serverNodeID uniqueId).1
  | .timer awareness canDiscoverNewNodes transferID callOk =>
    some (d.handleTimerEvent awareness canDiscoverNewNodes transferID callOk)

/-- The timer runs for the nodes in the map; each of them may still be asked. -/
structure Orderly (d : NodeDiscoverer) : Prop where
  running : d.nodeMap ≠ [] → d.running = true
  unicast : ∀ pair ∈ d.nodeMap, pair.1.isUnicast
  attempts : ∀ pair ∈ d.nodeMap, pair.2.numGetNodeInfoAttempts < maxAttemptsToGetNodeInfo
  unmasked : ∀ pair ∈ d.nodeMap, d.committedNodeMask pair.1 = false

variable {d d' : NodeDiscoverer} {awareness : NodeID → NodeAwareness} {id : NodeID}

theorem mem_removeNode {pair : NodeID × NodeData} :
    pair ∈ (d.removeNode id).nodeMap ↔ pair ∈ d.nodeMap ∧ pair.1 ≠ id := by
  simp [removeNode]

/-! ## Forgetting nodes -/

/-- A part of the map, with other pending calls. -/
theorem Orderly.less (orderly : Orderly d) (sub : ∀ pair ∈ d'.nodeMap, pair ∈ d.nodeMap)
    (running : d'.running = d.running) (mask : d'.committedNodeMask = d.committedNodeMask) : Orderly d' where
  running occupied := by
    obtain ⟨pair, there⟩ := exists_mem_of_ne_nil _ occupied
    rw [running]
    exact orderly.running (ne_nil_of_mem (sub pair there))
  unicast pair there := orderly.unicast pair (sub pair there)
  attempts pair there := orderly.attempts pair (sub pair there)
  unmasked pair there := mask ▸ orderly.unmasked pair (sub pair there)

theorem Orderly.removeNode (orderly : Orderly d) (id : NodeID) : Orderly (d.removeNode id) :=
  orderly.less (fun _ there => (mem_removeNode.mp there).1) rfl rfl

/-- A node is marked only when it is not in the map. -/
theorem Orderly.mark (orderly : Orderly d) (id : NodeID) :
    Orderly (({ d with committedNodeMask := Function.update d.committedNodeMask id true }).removeNode id) := by
  have removed := orderly.removeNode id
  refine ⟨removed.running, removed.unicast, removed.attempts, fun pair there => ?_⟩
  obtain ⟨old, other⟩ := mem_removeNode.mp there
  exact (Function.update_of_ne other _ _).trans (orderly.unmasked pair old)

theorem Orderly.needToQuery (orderly : Orderly d) (awareness : NodeID → NodeAwareness) (id : NodeID) :
    Orderly (d.needToQuery awareness id).2 := by
  unfold NodeDiscoverer.needToQuery
  split
  · exact orderly
  split
  · exact orderly
  · exact orderly.removeNode id
  · exact orderly.mark id

/-- A node that has to be asked is not marked, and nothing is forgotten. -/
theorem needToQuery_true (needed : d.needToQuery awareness id = (true, d')) :
    d' = d ∧ d.committedNodeMask id = false := by
  unfold needToQuery at needed
  split at needed
  · cases needed
  · rename_i unmarked
    split at needed
    · cases needed
      exact ⟨rfl, by simpa using unmarked⟩
    · cases needed
    · cases needed

/-- Whether `needToQuery` forgets the node or not, it is gone after it has been removed. -/
theorem removeNode_needToQuery (d : NodeDiscoverer) (awareness : NodeID → NodeAwareness) (id : NodeID) :
    ((d.needToQuery awareness id).2.removeNode id).nodeMap = (d.removeNode id).nodeMap := by
  unfold needToQuery
  split
  · rfl
  split
  · rfl
  · simp [removeNode]
  · simp [removeNode]

/-- The loop over the map finds a node to ask, or has emptied the map. -/
theorem Orderly.cleanupMap (orderly : Orderly d) (awareness : NodeID → NodeAwareness) {rounds : ℕ}
    (enough : d.nodeMap.length < rounds) :
    Orderly (NodeDiscoverer.cleanupMap awareness rounds d).2 ∧
      ((NodeDiscoverer.cleanupMap awareness rounds d).1.isUnicast ∨
        (NodeDiscoverer.cleanupMap awareness rounds d).2.nodeMap = []) := by
  induction rounds generalizing d with
  | zero => exact absurd enough (Nat.not_lt_zero _)
  | succ rounds ih =>
    unfold NodeDiscoverer.cleanupMap
    cases map : d.nodeMap with
    | nil =>
      have nobody : d.pickNextNodeToQuery = NodeID.invalid := by simp [pickNextNodeToQuery, map]
      rw [nobody]
      exact ⟨orderly, .inr map⟩
    | cons pair rest =>
      have first : d.pickNextNodeToQuery = pair.1 := by simp [pickNextNodeToQuery, map]
      have there : pair ∈ d.nodeMap := map ▸ mem_cons_self
      have unicast := orderly.unicast pair there
      rw [first]
      simp only [unicast]
      have after := orderly.needToQuery awareness pair.1
      have removed := d.removeNode_needToQuery awareness pair.1
      generalize d.needToQuery awareness pair.1 = answer at after removed ⊢
      obtain ⟨needed, d'⟩ := answer
      cases needed with
      | true => exact ⟨after, .inl unicast⟩
      | false =>
        -- the head of the map goes, so that the rounds are enough for the rest
        refine ih (after.removeNode pair.1) ?_
        have fewer : (d.removeNode pair.1).nodeMap.length ≤ rest.length := by
          simp only [NodeDiscoverer.removeNode, map]
          rw [filter_cons_of_neg (by simp)]
          exact length_filter_le _ _
        rw [map, length_cons] at enough
        rw [removed]
        omega

/-! ## Every action -/

theorem Orderly.finalizeNodeDiscovery (orderly : Orderly (d.removeNode id)) (awareness : NodeID → NodeAwareness)
    (uniqueId : Option UniqueID) : Orderly (d.finalizeNodeDiscovery awareness uniqueId id).1 := by
  have after := orderly.needToQuery awareness id
  unfold NodeDiscoverer.finalizeNodeDiscovery
  generalize (d.removeNode id).needToQuery awareness id = answer at after ⊢
  obtain ⟨needed, d'⟩ := answer
  cases needed <;> exact after

theorem Orderly.update (orderly : Orderly d) (id : NodeID) (data : NodeData → NodeData)
    (fewer : ∀ x, x.numGetNodeInfoAttempts < maxAttemptsToGetNodeInfo →
      (data x).numGetNodeInfoAttempts < maxAttemptsToGetNodeInfo) :
    Orderly { d with nodeMap := d.nodeMap.map fun pair => if pair.1 = id then (id, data pair.2) else pair } := by
  have entries : ∀ new ∈ d.nodeMap.map fun pair => if pair.1 = id then (id, data pair.2) else pair,
      ∃ pair ∈ d.nodeMap, new.1 = pair.1 ∧ (new.2 = pair.2 ∨ new.2 = data pair.2) := by
    intro new there
    obtain ⟨pair, old, rfl⟩ := mem_map.mp there
    refine ⟨pair, old, ?_⟩
    split
    case isTrue same => exact ⟨same.symm, .inr rfl⟩
    case isFalse => exact ⟨rfl, .inl rfl⟩
  refine ⟨fun occupied => orderly.running fun empty => occupied ?_, fun new there => ?_, fun new there => ?_,
    fun new there => ?_⟩
  · simp [empty]
  all_goals obtain ⟨pair, old, key, value⟩ := entries new there
  · exact key ▸ orderly.unicast pair old
  · rcases value with same | changed
    · exact same ▸ orderly.attempts pair old
    · exact changed ▸ fewer _ (orderly.attempts pair old)
  · exact key ▸ orderly.unmasked pair old

/-- A node that fails to answer once too often leaves the map. -/
theorem Orderly.handleGetNodeInfoResponse (orderly : Orderly d) (awareness : NodeID → NodeAwareness) (id : NodeID)
    (uniqueId : Option UniqueID) : Orderly (d.handleGetNodeInfoResponse awareness id uniqueId).1 := by
  unfold NodeDiscoverer.handleGetNodeInfoResponse
  split
  case h_1 => exact (orderly.removeNode id).finalizeNodeDiscovery awareness _
  case h_2 =>
  split
  case h_1 => exact orderly
  case h_2 key data found =>
  simp only
  split
  case isTrue =>
    refine Orderly.finalizeNodeDiscovery ?_ awareness none
    refine orderly.less (fun pair there => ?_) rfl rfl
    obtain ⟨changed, other⟩ := mem_removeNode.mp there
    obtain ⟨old, before, rfl⟩ := mem_map.mp changed
    split at other
    · exact absurd rfl other
    · rename_i elsewhere
      rw [if_neg elsewhere]
      exact before
  case isFalse few =>
    refine orderly.update id (fun x => { x with numGetNodeInfoAttempts := data.numGetNodeInfoAttempts + 1 }) ?_
    exact fun _ _ => UInt8.not_le.mp few

theorem Orderly.handleTimerEvent (orderly : Orderly d) (awareness : NodeID → NodeAwareness)
    (canDiscoverNewNodes : Bool) (transferID : ℕ) (callOk : Bool) :
    Orderly (d.handleTimerEvent awareness canDiscoverNewNodes transferID callOk) := by
  unfold NodeDiscoverer.handleTimerEvent
  split
  case isTrue => exact orderly
  case isFalse =>
  obtain ⟨after, found⟩ := orderly.cleanupMap awareness (Nat.lt_succ_self _)
  unfold pickNextNodeToQueryAndCleanupMap
  generalize NodeDiscoverer.cleanupMap awareness (d.nodeMap.length + 1) d = answer at after found ⊢
  obtain ⟨id, d'⟩ := answer
  simp only at after found ⊢
  split
  case isTrue nobody =>
    -- the timer stops over an empty map
    have empty : d'.nodeMap = [] := found.resolve_left (by simpa using nobody)
    exact ⟨fun occupied => absurd empty occupied, after.unicast, after.attempts, after.unmasked⟩
  case isFalse =>
  split
  · exact after
  · split
    · exact after.less (fun _ there => there) rfl rfl
    · exact after

/-- A node enters the map with a running timer. -/
theorem Orderly.handleNodeStatus (orderly : Orderly d) (awareness : NodeID → NodeAwareness) (slot : Option ℕ)
    {src : NodeID} (unicast : src.isUnicast) (uptime : UInt32) :
    Orderly (d.handleNodeStatus awareness slot src uptime) := by
  unfold NodeDiscoverer.handleNodeStatus
  rcases query : d.needToQuery awareness src with ⟨needed, d'⟩
  cases needed with
  | false =>
    have after := orderly.needToQuery awareness src
    rw [query] at after
    exact after
  | true =>
    obtain ⟨rfl, unmarked⟩ := needToQuery_true query
    simp only
    split
    case h_1 =>
      have seen := orderly.update src (fun data =>
        ⟨uptime, if uptime < data.lastSeenUptime then 0 else data.numGetNodeInfoAttempts⟩) ?_
      · exact ⟨fun _ => rfl, seen.unicast, seen.attempts, seen.unmasked⟩
      · intro x few
        simp only
        split
        · decide
        · exact few
    case h_2 i known =>
      have entries : ∀ pair ∈ d'.nodeMap.insertIdx (min i d'.nodeMap.length) (src, (⟨uptime,
          if uptime < 0 then 0 else 0⟩ : NodeData)), pair = (src, ⟨uptime, if uptime < 0 then 0 else 0⟩) ∨
            pair ∈ d'.nodeMap := fun pair there => (mem_insertIdx (Nat.min_le_right _ _)).mp there
      refine ⟨fun _ => rfl, fun pair there => ?_, fun pair there => ?_, fun pair there => ?_⟩
      all_goals rcases entries pair there with rfl | old
      · exact unicast
      · exact orderly.unicast pair old
      · simp [maxAttemptsToGetNodeInfo]
      · exact orderly.attempts pair old
      · exact unmarked
      · exact orderly.unmasked pair old
    case h_3 => exact orderly

theorem Orderly.exec (orderly : Orderly d) {a : DiscovererAction} (taken : d.exec a = some d') : Orderly d' := by
  cases a with
  | nodeStatus awareness src uptime slot =>
    simp only [NodeDiscoverer.exec, Option.ite_none_right_eq_some, Option.some.injEq] at taken
    obtain ⟨unicast, rfl⟩ := taken
    exact orderly.handleNodeStatus awareness slot unicast uptime
  | getNodeInfoResult awareness call uniqueId =>
    cases taken
    have ended : Orderly { d with calls := d.calls.erase call } := orderly.less (fun _ there => there) rfl rfl
    exact ended.handleGetNodeInfoResponse awareness call.serverNodeID uniqueId
  | timer awareness canDiscoverNewNodes transferID callOk =>
    cases taken
    exact orderly.handleTimerEvent awareness canDiscoverNewNodes transferID callOk

/-- Whatever happens, and whatever the handler answers: the timer runs while there are unknown nodes, each of them has
failed to answer fewer than five times, and none of them has been committed. -/
theorem discovery_not_stuck (run : Machines.Reach exec (fun _ _ => True) construct d) :
    (d.hasUnknownNodes → d.running) ∧ (∀ pair ∈ d.nodeMap, pair.2.numGetNodeInfoAttempts < 5) ∧
      ∀ id, d.committedNodeMask id → id ∉ d.nodes := by
  have orderly : Orderly d := by
    refine run.invariant (P := Orderly) ⟨fun occupied => absurd rfl occupied, nofun, nofun, nofun⟩ ?_
    exact fun before _ taken => before.exec taken
  refine ⟨fun unknown => ?_, orderly.attempts, fun id marked inside => ?_⟩
  · refine orderly.running fun empty => ?_
    simp [hasUnknownNodes, empty] at unknown
  · obtain ⟨pair, there, rfl⟩ := mem_map.mp inside
    rw [orderly.unmasked pair there] at marked
    cases marked

/-- Node 43 is committed, and no other node is known. -/
def knowsOne : NodeID → NodeAwareness := fun id => if id = ⟨43⟩ then .knownAndCommitted else .unknown

/-- Node 42 is asked and does not answer. -/
def unanswered (n : ℕ) : List DiscovererAction :=
  [.timer knowsOne true n true, .getNodeInfoResult knowsOne ⟨⟨42⟩, n⟩ none]

/-- Node 42 is heard and does not answer four times; then node 43 is heard. -/
theorem discovery_not_stuck_sample : ∃ d, Machines.Reach exec (fun _ _ => True) construct d ∧
    d.hasUnknownNodes ∧ d.running ∧ d.committedNodeMask ⟨43⟩ ∧ ⟨43⟩ ∉ d.nodes := by
  obtain ⟨d, run, unknown, marked⟩ := Machines.Reach.exists_of_play exec (fun _ _ => True) construct
    (.nodeStatus knowsOne ⟨42⟩ 1 (some 0) :: unanswered 0 ++ unanswered 1 ++ unanswered 2 ++ unanswered 3 ++
      [.nodeStatus knowsOne ⟨43⟩ 1 (some 0)])
    (fun d => d.hasUnknownNodes ∧ d.committedNodeMask ⟨43⟩) (by decide +kernel)
  obtain ⟨running, -, unmarked⟩ := discovery_not_stuck run
  exact ⟨d, run, unknown, running unknown, marked, unmarked _ marked⟩

end NodeDiscoverer

end Uavcan
