import Mathlib.Logic.Relation
import Uavcan.DynamicNodeId.CentralizedStorage
import Uavcan.DynamicNodeId.DistributedServer

/-!
# The centralized allocation server

`centralized::Server` answers allocation requests from its storage, and stores a free node ID for a node that
it does not know. A request, a discovered node, and the start of the server, which stores its own node ID,
write to the storage, all by a call of `add` (`exec_cases`). A server may be started again at any time, with
other IDs; one that stops in the middle of `add` is one whose remaining writes are lost, followed by a start.
-/

namespace Uavcan

open CentralizedStorage Option List

/-- `published` are the allocation responses ever broadcast. -/
structure CentralizedServer where
  storage : CentralizedStorage
  discoverer : NodeDiscoverer
  running : Bool
  published : List (UniqueID × NodeID)

namespace CentralizedServer

/-! ## Handlers -/

/-- The node ID to respond with, if there is one. -/
def handleAllocationRequest (s : CentralizedStorage) (uniqueId : UniqueID) (preferredNodeId : NodeID)
    (w : AddWrites) : CentralizedStorage × Option NodeID :=
  let existingNodeId := s.getNodeIDForUniqueID uniqueId
  if existingNodeId.isValid then (s, some existingNodeId)
  else
    let allocatedNodeId := NodeIDSelector.findFreeNodeID s.isNodeIDOccupied preferredNodeId
    if allocatedNodeId.isUnicast then
      match s.add allocatedNodeId uniqueId w with
      | (.ok _, s) => (s, some allocatedNodeId)
      | (.error _, s) => (s, none)
    else (s, none)

def checkNodeAwareness (s : CentralizedStorage) (nodeId : NodeID) : NodeAwareness :=
  if s.isNodeIDOccupied nodeId then .knownAndCommitted else .unknown

def handleNewNodeDiscovery (s : CentralizedStorage) (uniqueId : Option UniqueID) (nodeId : NodeID)
    (w : AddWrites) : CentralizedStorage :=
  if s.isNodeIDOccupied nodeId then s else (s.add nodeId (uniqueId.getD Server.noUniqueID) w).2

/-- The part of `init` that uses the storage. -/
def init (st : Storage) (ownUniqueId : UniqueID) (nodeId : NodeID) (w : AddWrites) :
    Except Err Unit × CentralizedStorage :=
  let s := CentralizedStorage.init st
  -- Making sure that the server is started with the same node ID
  let storedOwnNodeId := s.getNodeIDForUniqueID ownUniqueId
  if storedOwnNodeId.isValid then
    if storedOwnNodeId ≠ nodeId then (.error .invalidConfiguration, s) else (.ok (), s)
  else s.add nodeId ownUniqueId w

end CentralizedServer

/-- One thing that happens to a server.  `othersOk` says whether the request manager and the discoverer start. -/
inductive CentralizedAction
  | start (ownUniqueId : UniqueID) (nodeId : NodeID) (w : AddWrites) (othersOk : Bool)
  | allocationRequest (uniqueId : UniqueID) (preferredNodeId : NodeID) (w : AddWrites)
  | nodeStatus (src : NodeID) (uptime : UInt32) (slot : Option ℕ)
  | discovererTimer (transferID : ℕ) (callOk : Bool)
  | getNodeInfoResult (call : ServiceCallID) (uniqueId : Option UniqueID) (w : AddWrites)

/-- Whether the writes of an action satisfy a condition. -/
def CentralizedAction.WritesSatisfy (P : AddWrites → Prop) : CentralizedAction → Prop
  | .start _ _ w _ => P w
  | .allocationRequest _ _ w => P w
  | .getNodeInfoResult _ _ w => P w
  | _ => True

instance (P : AddWrites → Prop) [DecidablePred P] (a : CentralizedAction) : Decidable (a.WritesSatisfy P) := by
  cases a <;> unfold CentralizedAction.WritesSatisfy <;> infer_instance

theorem CentralizedAction.WritesSatisfy.imp {P Q : AddWrites → Prop} {a : CentralizedAction}
    (satisfied : a.WritesSatisfy P) (imp : ∀ w, P w → Q w) : a.WritesSatisfy Q := by
  cases a with
  | start _ _ w _ => exact imp w satisfied
  | allocationRequest _ _ w => exact imp w satisfied
  | getNodeInfoResult _ _ w => exact imp w satisfied
  | nodeStatus _ _ _ => trivial
  | discovererTimer _ _ => trivial

namespace CentralizedServer

/-- A server that was never started, with an empty storage. -/
def new : CentralizedServer := ⟨.init .empty, .construct, false, []⟩

/-- The state after an action; `none` where it cannot happen. -/
def exec (s : CentralizedServer) : CentralizedAction → Option CentralizedServer
  | .start ownUniqueId nodeId w othersOk =>
    let (result, storage) := init s.storage.storage ownUniqueId nodeId w
    some ⟨storage, .construct, result.isOk && othersOk, s.published⟩
  | .allocationRequest uniqueId preferredNodeId w =>
    if s.running then
      let (storage, response) := handleAllocationRequest s.storage uniqueId preferredNodeId w
      let published := s.published ++ (response.map fun nodeId => (uniqueId, nodeId)).toList
      some { s with storage := storage, published := published }
    else none
  | .nodeStatus src uptime slot =>
    if s.running ∧ src.isUnicast then
      let d := s.discoverer.handleNodeStatus (checkNodeAwareness s.storage) slot src uptime
      some { s with discoverer := d }
    else none
  | .discovererTimer transferID callOk =>
    if s.running ∧ s.discoverer.running then
      let d := s.discoverer.handleTimerEvent (checkNodeAwareness s.storage) true transferID callOk
      some { s with discoverer := d }
    else none
  | .getNodeInfoResult call uniqueId w =>
    if s.running ∧ call ∈ s.discoverer.calls then
      let d := { s.discoverer with calls := s.discoverer.calls.erase call }
      match d.handleGetNodeInfoResponse (checkNodeAwareness s.storage) call.serverNodeID uniqueId with
      | (d, none) => some { s with discoverer := d }
      | (d, some (uniqueId, nodeId)) =>
        some { s with discoverer := d, storage := handleNewNodeDiscovery s.storage uniqueId nodeId w }
    else none

/-- A server that starts without a stored node ID of its own starts with one that is not taken. -/
def FreshStart (s : CentralizedServer) : CentralizedAction → Prop
  | .start ownUniqueId nodeId _ _ => (s.storage.getNodeIDForUniqueID ownUniqueId).isValid = false →
    s.storage.isNodeIDOccupied nodeId = false
  | _ => True

instance (s : CentralizedServer) (a : CentralizedAction) : Decidable (s.FreshStart a) := by
  cases a <;> unfold FreshStart <;> infer_instance

/-- What an action does to the storage and what is broadcast: nothing, a stored node ID once more, or a call of
`add`, which a request broadcasts if it succeeds. -/
inductive Change (s : CentralizedServer) (a : CentralizedAction) (s' : CentralizedServer) : Prop
  | quiet (storage : s'.storage = s.storage) (published : s'.published = s.published)
  | repeated (uniqueId : UniqueID) (valid : (s.storage.getNodeIDForUniqueID uniqueId).isValid = true)
      (storage : s'.storage = s.storage)
      (published : s'.published = s.published ++ [(uniqueId, s.storage.getNodeIDForUniqueID uniqueId)])
  | added (uniqueId : UniqueID) (nodeId : NodeID) (w : AddWrites) (result : Except Err Unit)
      (run : s.storage.add nodeId uniqueId w = (result, s'.storage))
      (writes : ∀ P, a.WritesSatisfy P → P w)
      (free : s.FreshStart a → s.storage.isNodeIDOccupied nodeId = false)
      (published : s'.published = s.published ∨
        result = .ok () ∧ s'.published = s.published ++ [(uniqueId, nodeId)])

/-! ## What an action can do -/

/-- A request repeats the stored node ID, or adds a free one, or finds none. -/
theorem handleAllocationRequest_cases (s : CentralizedStorage) (uniqueId : UniqueID) (preferredNodeId : NodeID)
    (w : AddWrites) {s' : CentralizedStorage} {response : Option NodeID}
    (run : handleAllocationRequest s uniqueId preferredNodeId w = (s', response)) :
    ((s.getNodeIDForUniqueID uniqueId).isValid = true ∧ s' = s ∧
        response = some (s.getNodeIDForUniqueID uniqueId)) ∨
      ((s.getNodeIDForUniqueID uniqueId).isValid = false ∧
        ((s' = s ∧ response = none) ∨
          ∃ nodeId result, s.isNodeIDOccupied nodeId = false ∧ s.add nodeId uniqueId w = (result, s') ∧
            (response = none ∨ result = .ok () ∧ response = some nodeId))) := by
  unfold handleAllocationRequest at run
  simp only at run
  split at run
  case isTrue valid =>
    cases run
    exact .inl ⟨valid, rfl, rfl⟩
  case isFalse new =>
  refine .inr ⟨Bool.eq_false_iff.mpr new, ?_⟩
  split at run
  case isFalse =>
    cases run
    exact .inl ⟨rfl, rfl⟩
  case isTrue unicast =>
  have free := NodeIDSelector.findFreeNodeID_free unicast
  rcases add : s.add (NodeIDSelector.findFreeNodeID s.isNodeIDOccupied preferredNodeId) uniqueId w with ⟨result, t⟩
  rw [add] at run
  cases result with
  | ok done =>
    cases run
    exact .inr ⟨_, _, free, add, .inr ⟨rfl, rfl⟩⟩
  | error err =>
    cases run
    exact .inr ⟨_, _, free, add, .inl rfl⟩

variable {uniqueId : UniqueID} {preferredNodeId : NodeID} {w : AddWrites}

/-- A node without a stored node ID gets a free one. -/
theorem handleAllocationRequest_new {s s' : CentralizedStorage} {n : NodeID}
    (new : (s.getNodeIDForUniqueID uniqueId).isValid = false)
    (run : handleAllocationRequest s uniqueId preferredNodeId w = (s', some n)) :
    s.isNodeIDOccupied n = false ∧ s.add n uniqueId w = (.ok (), s') := by
  rcases handleAllocationRequest_cases _ _ _ _ run with
    ⟨valid, -, -⟩ | ⟨-, ⟨-, none⟩ | ⟨nodeId, result, free, add, published⟩⟩
  · exact absurd (new.symm.trans valid) Bool.noConfusion
  · cases none
  · obtain ⟨rfl, same⟩ := published.resolve_left nofun
    cases same
    exact ⟨free, add⟩

/-- What is broadcast is a valid node ID, and it is taken unless it is one that was stored and not taken; the entries
of the other nodes stay. -/
theorem handleAllocationRequest_answered {s s' : CentralizedStorage} {n : NodeID}
    (loaded : s.Loaded)
    (run : handleAllocationRequest s uniqueId preferredNodeId w = (s', some n)) :
    n.isValid = true ∧ s'.Loaded ∧
      (∀ u, u ≠ uniqueId → s'.getNodeIDForUniqueID u = s.getNodeIDForUniqueID u) ∧
      (((s.getNodeIDForUniqueID uniqueId).isValid = true →
        s.isNodeIDOccupied (s.getNodeIDForUniqueID uniqueId) = true) → s'.isNodeIDOccupied n = true) := by
  cases stored : (s.getNodeIDForUniqueID uniqueId).isValid with
  | true =>
    rw [handleAllocationRequest, if_pos stored] at run
    cases run
    exact ⟨stored, loaded, fun _ _ => rfl, fun whole => whole rfl⟩
  | false =>
    obtain ⟨added, kept⟩ := s.add_cases n uniqueId w
    have kept := kept loaded
    rw [(handleAllocationRequest_new stored run).2] at added kept
    cases added with
    | stored unicast mask _ others =>
      refine ⟨NodeID.isValid_of_isUnicast unicast, kept, others, fun _ => ?_⟩
      rw [isNodeIDOccupied_mark unicast mask, decide_eq_true rfl, Bool.true_or]

variable {s' s : CentralizedServer} {a : CentralizedAction}

/-- What an action does, and which nodes have been heard after it. -/
theorem exec_cases (loaded : s.storage.Loaded) (run : s.exec a = some s') :
    Change s a s' ∧ ∀ id ∈ s'.discoverer.nodes, id ∈ s.discoverer.nodes ∨ id.isUnicast := by
  cases a with
  | start ownUniqueId nodeId w othersOk =>
    simp only [exec, init, loaded.init_eq] at run
    split at run
    case isTrue =>
      cases run
      split
      · exact ⟨.quiet rfl rfl, fun _ member => absurd member not_mem_nil⟩
      · exact ⟨.quiet rfl rfl, fun _ member => absurd member not_mem_nil⟩
    case isFalse new =>
      cases run
      refine ⟨.added ownUniqueId nodeId w _ rfl (fun P satisfied => satisfied) (fun fresh => ?_) (.inl rfl),
        fun _ member => absurd member not_mem_nil⟩
      exact fresh (Bool.eq_false_iff.mpr new)
  | allocationRequest uniqueId preferredNodeId w =>
    simp only [exec, ite_none_right_eq_some] at run
    obtain ⟨-, run⟩ := run
    rcases handled : handleAllocationRequest s.storage uniqueId preferredNodeId w with ⟨t, response⟩
    rw [handled] at run
    cases run
    refine ⟨?_, fun id => .inl⟩
    rcases handleAllocationRequest_cases _ _ _ _ handled with
      ⟨valid, rfl, rfl⟩ | ⟨-, ⟨rfl, rfl⟩ | ⟨nodeId, result, free, add, published⟩⟩
    · exact .repeated uniqueId valid rfl rfl
    · exact .quiet rfl (append_nil _)
    · refine .added uniqueId nodeId w result add (fun P satisfied => satisfied) (fun _ => free) ?_
      rcases published with rfl | ⟨ok, rfl⟩
      · exact .inl (append_nil _)
      · exact .inr ⟨ok, rfl⟩
  | nodeStatus src uptime slot =>
    simp only [exec, ite_none_right_eq_some] at run
    obtain ⟨⟨-, unicast⟩, run⟩ := run
    cases run
    refine ⟨.quiet rfl rfl, fun id member => ?_⟩
    rcases mem_cons.mp (NodeDiscoverer.nodes_handleNodeStatus _ _ slot src uptime member) with rfl | old
    · exact .inr unicast
    · exact .inl old
  | discovererTimer transferID callOk =>
    simp only [exec, ite_none_right_eq_some] at run
    obtain ⟨-, run⟩ := run
    cases run
    exact ⟨.quiet rfl rfl, fun id member =>
      .inl (NodeDiscoverer.nodes_handleTimerEvent _ _ true transferID callOk member)⟩
  | getNodeInfoResult call uniqueId w =>
    simp only [exec, ite_none_right_eq_some] at run
    obtain ⟨-, run⟩ := run
    have less := NodeDiscoverer.nodes_handleGetNodeInfoResponse (checkNodeAwareness s.storage)
      { s.discoverer with calls := s.discoverer.calls.erase call } call.serverNodeID uniqueId
    split at run <;> rename_i handled <;> rw [handled] at less <;> cases run
    · exact ⟨.quiet rfl rfl, fun id member => .inl (less member)⟩
    · rename_i reported nodeId
      refine ⟨?_, fun id member => .inl (less member)⟩
      cases occupied : s.storage.isNodeIDOccupied nodeId with
      | true => exact .quiet (by simp [handleNewNodeDiscovery, occupied]) rfl
      | false =>
        rcases add : s.storage.add nodeId (reported.getD Server.noUniqueID) w with ⟨result, t⟩
        have stored : handleNewNodeDiscovery s.storage reported nodeId w = t := by
          rw [handleNewNodeDiscovery, occupied, if_neg Bool.false_ne_true, add]
        rw [stored]
        exact .added _ nodeId w result add (fun P satisfied => satisfied) (fun _ => occupied) (.inl rfl)

theorem Change.loaded (change : Change s a s') (loaded : s.storage.Loaded) : s'.storage.Loaded := by
  cases change with
  | quiet storage => exact storage ▸ loaded
  | repeated _ _ storage => exact storage ▸ loaded
  | added uniqueId nodeId w result run =>
    have kept := (s.storage.add_cases nodeId uniqueId w).2 loaded
    rw [run] at kept
    exact kept

variable {id : NodeID}

theorem Change.occupied (change : Change s a s') (taken : s.storage.isNodeIDOccupied id = true) :
    s'.storage.isNodeIDOccupied id = true := by
  cases change with
  | quiet storage => exact storage ▸ taken
  | repeated _ _ storage => exact storage ▸ taken
  | added uniqueId nodeId w result run =>
    have added := (s.storage.add_cases nodeId uniqueId w).1
    rw [run] at added
    cases added with
    | failed mask => rw [isNodeIDOccupied_of_mask mask, taken]
    | dangling _ _ _ mask => rw [isNodeIDOccupied_of_mask mask, taken]
    | stored unicast mask => rw [isNodeIDOccupied_mark unicast mask, taken, Bool.or_true]

/-! ## Entries that are in the mask -/

/-- Every node ID that is stored for a unique ID is taken. -/
def Marked (s : CentralizedStorage) : Prop :=
  ∀ u, (s.getNodeIDForUniqueID u).isValid = true → s.isNodeIDOccupied (s.getNodeIDForUniqueID u) = true

/-- An `add` does not lose its second write alone. -/
def Whole (w : AddWrites) : Prop := w.nodeId = true → w.mask = true

instance : DecidablePred Whole := fun w => inferInstanceAs (Decidable (w.nodeId = true → w.mask = true))

theorem Marked.add {s s' : CentralizedStorage} {nodeId : NodeID}
    {result : Except Err Unit} (marked : Marked s) (run : s.add nodeId uniqueId w = (result, s'))
    (whole : Whole w) : Marked s' := by
  have added := (s.add_cases nodeId uniqueId w).1
  rw [run] at added
  intro u valid
  cases added with
  | failed mask ids =>
    rw [ids] at valid ⊢
    rw [isNodeIDOccupied_of_mask mask]
    exact marked u valid
  | dangling written lost => exact absurd (lost.symm.trans (whole written)) Bool.noConfusion
  | stored unicast mask own others =>
    rw [isNodeIDOccupied_mark unicast mask]
    by_cases same : u = uniqueId
    · rw [same, own, decide_eq_true rfl, Bool.true_or]
    · rw [others u same] at valid ⊢
      rw [marked u valid, Bool.or_true]

theorem Change.marked (change : Change s a s') (whole : a.WritesSatisfy Whole) (marked : Marked s.storage) :
    Marked s'.storage := by
  cases change with
  | quiet storage => exact storage ▸ marked
  | repeated _ _ storage => exact storage ▸ marked
  | added uniqueId nodeId w result run writes => exact marked.add run (writes Whole whole)

theorem marked_new : Marked new.storage := by
  intro u valid
  cases valid

/-! ## One node ID for one unique ID -/

/-- No node ID is stored for two unique IDs, and a node ID that was broadcast belongs to its unique ID. -/
structure Exclusive (s : CentralizedServer) : Prop where
  marked : Marked s.storage
  unique : ∀ u v, u ≠ Server.noUniqueID → v ≠ Server.noUniqueID →
    (s.storage.getNodeIDForUniqueID u).isValid = true →
    s.storage.getNodeIDForUniqueID u = s.storage.getNodeIDForUniqueID v → u = v
  owned : ∀ u n, u ≠ Server.noUniqueID → (u, n) ∈ s.published → s.storage.isNodeIDOccupied n = true ∧
    ∀ v, v ≠ Server.noUniqueID → s.storage.getNodeIDForUniqueID v = n → v = u
  published : ∀ u v n, u ≠ Server.noUniqueID → v ≠ Server.noUniqueID → (u, n) ∈ s.published →
    (v, n) ∈ s.published → u = v

theorem exclusive_new : Exclusive new where
  marked := marked_new
  unique _ _ _ _ valid := by cases valid
  owned _ _ _ member := absurd member not_mem_nil
  published _ _ _ _ _ member := absurd member not_mem_nil

namespace Exclusive

variable {s s' : CentralizedServer} {u v : UniqueID} {n : NodeID}

theorem congr (exclusive : s.Exclusive)
    (ids : ∀ u, s'.storage.getNodeIDForUniqueID u = s.storage.getNodeIDForUniqueID u)
    (mask : s'.storage.occupationMask = s.storage.occupationMask) (published : s'.published = s.published) :
    s'.Exclusive := by
  have taken : ∀ id, s'.storage.isNodeIDOccupied id = s.storage.isNodeIDOccupied id := fun id =>
    isNodeIDOccupied_of_mask mask
  refine ⟨fun u valid => ?_, fun u v nonzero other valid same => ?_, fun u n nonzero member => ?_,
    published ▸ exclusive.published⟩
  · rw [ids] at valid ⊢
    rw [taken]
    exact exclusive.marked u valid
  · rw [ids] at valid same
    rw [ids] at same
    exact exclusive.unique u v nonzero other valid same
  · rw [taken]
    rw [published] at member
    obtain ⟨occupied, owner⟩ := exclusive.owned u n nonzero member
    exact ⟨occupied, fun v other same => owner v other (ids v ▸ same)⟩

theorem publish (exclusive : s.Exclusive) (storage : s'.storage = s.storage)
    (valid : (s.storage.getNodeIDForUniqueID u).isValid = true)
    (published : s'.published = s.published ++ [(u, s.storage.getNodeIDForUniqueID u)]) : s'.Exclusive := by
  have latest : ∀ v n, (v, n) ∈ s'.published →
      (v, n) ∈ s.published ∨ v = u ∧ n = s.storage.getNodeIDForUniqueID u := by
    intro v n member
    rw [published, mem_append, mem_singleton] at member
    exact member.imp_right Prod.mk.inj
  refine ⟨storage ▸ exclusive.marked, storage ▸ exclusive.unique, fun v n nonzero member => ?_,
    fun v₁ v₂ n nonzero₁ nonzero₂ member₁ member₂ => ?_⟩
  · rw [storage]
    rcases latest v n member with old | ⟨rfl, rfl⟩
    · exact exclusive.owned v n nonzero old
    · exact ⟨exclusive.marked v valid, fun x other same => exclusive.unique x v other nonzero (same ▸ valid) same⟩
  · rcases latest _ _ member₁ with old₁ | ⟨rfl, same₁⟩ <;> rcases latest _ _ member₂ with old₂ | ⟨rfl, same₂⟩
    · exact exclusive.published v₁ v₂ n nonzero₁ nonzero₂ old₁ old₂
    · exact ((exclusive.owned v₁ n nonzero₁ old₁).2 v₂ nonzero₂ same₂.symm).symm
    · exact (exclusive.owned v₂ n nonzero₂ old₂).2 v₁ nonzero₁ same₁.symm
    · rfl

theorem store (exclusive : s.Exclusive) (free : s.storage.isNodeIDOccupied n = false)
    (whole : Whole w) (run : s.storage.add n u w = (.ok (), s'.storage)) (published : s'.published = s.published) :
    s'.Exclusive := by
  have marked := exclusive.marked.add run whole
  have added := (s.storage.add_cases n u w).1
  rw [run] at added
  have unowned : ∀ v, s.storage.getNodeIDForUniqueID v ≠ n := by
    rintro v rfl
    cases added with
    | stored unicast =>
      have taken := exclusive.marked v (NodeID.isValid_of_isUnicast unicast)
      exact absurd (free.symm.trans taken) Bool.noConfusion
  cases added with
  | stored unicast mask own others =>
    refine ⟨marked, fun v₁ v₂ nonzero₁ nonzero₂ valid same => ?_, fun v id nonzero member => ?_,
      published ▸ exclusive.published⟩
    · by_cases new₁ : v₁ = u <;> by_cases new₂ : v₂ = u
      · rw [new₁, new₂]
      · rw [new₁, own, others v₂ new₂] at same
        exact absurd same.symm (unowned v₂)
      · rw [new₂, own, others v₁ new₁] at same
        exact absurd same (unowned v₁)
      · rw [others v₁ new₁] at valid same
        rw [others v₂ new₂] at same
        exact exclusive.unique v₁ v₂ nonzero₁ nonzero₂ valid same
    · rw [published] at member
      obtain ⟨taken, owner⟩ := exclusive.owned v id nonzero member
      have different : id ≠ n := by
        rintro rfl
        exact absurd (free.symm.trans taken) Bool.noConfusion
      refine ⟨?_, fun x other same => ?_⟩
      · rw [isNodeIDOccupied_mark unicast mask, taken, Bool.or_true]
      · by_cases new : x = u
        · rw [new, own] at same
          exact absurd same.symm different
        · rw [others x new] at same
          exact owner x other same

end Exclusive

theorem Change.exclusive (change : Change s a s') (whole : a.WritesSatisfy Whole) (fresh : s.FreshStart a)
    (exclusive : s.Exclusive) : s'.Exclusive := by
  cases change with
  | quiet storage published =>
    exact exclusive.congr (fun u => by rw [storage]) (by rw [storage]) published
  | repeated u valid storage published => exact exclusive.publish storage valid published
  | added u n w result run writes free published =>
    have whole := writes Whole whole
    have free := free fresh
    have added := (s.storage.add_cases n u w).1
    rw [run] at added
    rcases stored : s'.storage with ⟨st, m⟩
    rw [stored] at added run
    cases added with
    | failed mask ids =>
      have published := published.resolve_right fun ok => nomatch ok.1
      exact exclusive.congr (fun v => stored ▸ ids v) (stored ▸ mask) published
    | dangling written lost => exact absurd (lost.symm.trans (whole written)) Bool.noConfusion
    | stored unicast mask own others =>
      have intermediate : Exclusive { s' with published := s.published } :=
        exclusive.store free whole (stored ▸ run) rfl
      rcases published with same | ⟨-, more⟩
      · exact intermediate.congr (fun _ => rfl) rfl same
      · have found : s'.storage.getNodeIDForUniqueID u = n := stored ▸ own
        refine intermediate.publish (u := u) rfl ?_ ?_
        · exact found ▸ NodeID.isValid_of_isUnicast unicast
        · exact found ▸ more

/-! ## Runs -/

/-- The states that allowed actions lead to from a state. -/
def Later (allowed : CentralizedServer → CentralizedAction → Prop) : CentralizedServer → CentralizedServer → Prop :=
  Machines.Reach exec allowed

variable {t : CentralizedServer}

theorem Later.occupied {allowed : CentralizedServer → CentralizedAction → Prop} (later : Later allowed s t)
    (loaded : s.storage.Loaded) (taken : s.storage.isNodeIDOccupied id = true) :
    t.storage.Loaded ∧ t.storage.isNodeIDOccupied id = true := by
  refine Machines.Reach.invariant (P := fun t => t.storage.Loaded ∧ t.storage.isNodeIDOccupied id = true) later
    ⟨loaded, taken⟩ fun kept _ exec => ?_
  have change := (exec_cases kept.1 exec).1
  exact ⟨change.loaded kept.1, change.occupied kept.2⟩

/-- A node ID that is taken is stored for nobody else. -/
theorem Change.unowned (change : Change s a s') (fresh : s.FreshStart a) {u : UniqueID}
    (taken : s.storage.isNodeIDOccupied id = true) (unowned : s.storage.getNodeIDForUniqueID u ≠ id) :
    s'.storage.getNodeIDForUniqueID u ≠ id := by
  cases change with
  | quiet storage => exact storage ▸ unowned
  | repeated _ _ storage => exact storage ▸ unowned
  | added uniqueId nodeId w result run _ free =>
    have different : nodeId ≠ id := by
      rintro rfl
      exact absurd ((free fresh).symm.trans taken) Bool.noConfusion
    have added := (s.storage.add_cases nodeId uniqueId w).1
    rw [run] at added
    by_cases same : u = uniqueId
    · subst same
      cases added with
      | failed _ ids => exact ids u ▸ unowned
      | dangling _ _ _ _ own => exact own ▸ different
      | stored _ _ own => exact own ▸ different
    · cases added with
      | failed _ ids => exact ids u ▸ unowned
      | dangling _ _ _ _ _ others => exact others u same ▸ unowned
      | stored _ _ _ others => exact others u same ▸ unowned

theorem Later.unowned (later : Later FreshStart s t) (loaded : s.storage.Loaded)
    (taken : s.storage.isNodeIDOccupied id = true) {u : UniqueID} (unowned : s.storage.getNodeIDForUniqueID u ≠ id) :
    t.storage.isNodeIDOccupied id = true ∧ t.storage.getNodeIDForUniqueID u ≠ id := by
  refine (Machines.Reach.invariant (P := fun t => t.storage.Loaded ∧ t.storage.isNodeIDOccupied id = true ∧
    t.storage.getNodeIDForUniqueID u ≠ id) later ⟨loaded, taken, unowned⟩ fun kept fresh exec => ?_).2
  have change := (exec_cases kept.1 exec).1
  exact ⟨change.loaded kept.1, change.occupied kept.2.1, change.unowned fresh kept.2.1 kept.2.2⟩

end CentralizedServer

/-- The states a server can reach by allowed actions. -/
abbrev CentralizedRun (allowed : CentralizedServer → CentralizedAction → Prop) : CentralizedServer → Prop :=
  CentralizedServer.Later allowed .new

namespace CentralizedRun

open CentralizedServer

variable {allowed : CentralizedServer → CentralizedAction → Prop} {s : CentralizedServer}

theorem loaded (run : CentralizedRun allowed s) : s.storage.Loaded :=
  Machines.Reach.invariant (P := fun s => s.storage.Loaded) run rfl
    fun kept _ exec => (exec_cases kept exec).1.loaded kept

theorem marked (run : CentralizedRun (fun _ a => a.WritesSatisfy Whole) s) : Marked s.storage := by
  induction run with
  | start => exact marked_new
  | step run whole exec ih => exact (exec_cases (loaded run) exec).1.marked whole ih

/-- Where no `add` loses its second write alone, and no server starts with a node ID that is taken. -/
theorem exclusive (whole : ∀ {s a}, allowed s a → a.WritesSatisfy Whole ∧ s.FreshStart a)
    (run : CentralizedRun allowed s) : s.Exclusive := by
  induction run with
  | start => exact exclusive_new
  | step run permitted exec ih =>
    exact (exec_cases (loaded run) exec).1.exclusive (whole permitted).1 (whole permitted).2 ih

theorem heard (run : CentralizedRun allowed s) : ∀ id ∈ s.discoverer.nodes, id.isUnicast := by
  induction run with
  | start => exact fun _ member => absurd member not_mem_nil
  | step run _ exec ih =>
    exact fun id member => ((exec_cases (loaded run) exec).2 id member).elim (ih id) fun unicast => unicast

/-! ### One node ID for one unique ID -/

/-- With a storage that never fails, and if no server starts with a node ID that is taken, no node ID is stored for
two unique IDs, and none is broadcast with two; zero stands for an unknown unique ID. -/
theorem node_ids_exclusive (run : CentralizedRun (fun s a => a.WritesSatisfy (· = .all) ∧ s.FreshStart a) s) :
    (∀ u v, u ≠ Server.noUniqueID → v ≠ Server.noUniqueID →
      (s.storage.getNodeIDForUniqueID u).isValid = true →
      s.storage.getNodeIDForUniqueID u = s.storage.getNodeIDForUniqueID v → u = v) ∧
    ∀ u v n, u ≠ Server.noUniqueID → v ≠ Server.noUniqueID → (u, n) ∈ s.published → (v, n) ∈ s.published →
      u = v := by
  have exclusive := run.exclusive fun permitted =>
    ⟨permitted.1.imp fun w all _ => congrArg AddWrites.mask all, permitted.2⟩
  exact ⟨exclusive.unique, exclusive.published⟩

/-- Unique IDs that consist of one byte. -/
def idOf (byte : UInt8) : UniqueID := Vector.replicate 16 byte

theorem node_ids_exclusive_sample : ∃ s,
    CentralizedRun (fun s a => a.WritesSatisfy (· = .all) ∧ s.FreshStart a) s ∧
      s.published = [(idOf 7, ⟨125⟩), (idOf 8, ⟨124⟩)] ∧
      ∀ u v n, u ≠ Server.noUniqueID → v ≠ Server.noUniqueID → (u, n) ∈ s.published → (v, n) ∈ s.published →
        u = v := by
  obtain ⟨s, run, published⟩ := Machines.Reach.exists_of_play exec
    (fun s a => a.WritesSatisfy (· = .all) ∧ s.FreshStart a) .new
    [.start (idOf 1) ⟨1⟩ .all true, .allocationRequest (idOf 7) ⟨0⟩ .all, .allocationRequest (idOf 8) ⟨0⟩ .all]
    (fun s => s.published = [(idOf 7, ⟨125⟩), (idOf 8, ⟨124⟩)]) (by decide +kernel)
  exact ⟨s, run, published, (node_ids_exclusive run).2⟩

/-- A server starts with the node ID that another node has got from it, then once more with a third ID, and gives
the node ID to the one whose unique ID it had. -/
theorem node_id_shared : ∃ s, CentralizedRun (fun _ a => a.WritesSatisfy (· = .all)) s ∧
    s.storage.getNodeIDForUniqueID (idOf 7) = ⟨125⟩ ∧ s.storage.getNodeIDForUniqueID (idOf 2) = ⟨125⟩ ∧
    (idOf 7, ⟨125⟩) ∈ s.published ∧ (idOf 2, ⟨125⟩) ∈ s.published :=
  Machines.Reach.exists_of_play exec _ .new
    [.start (idOf 1) ⟨1⟩ .all true, .allocationRequest (idOf 7) ⟨0⟩ .all, .start (idOf 2) ⟨125⟩ .all true,
      .start (idOf 1) ⟨1⟩ .all true, .allocationRequest (idOf 2) ⟨0⟩ .all] _ (by decide +kernel)

/-! ### Dangling entries -/

/-- A request is answered with a node ID that is taken, so that no new node will get it, exactly if the stored node
ID of the requesting node, if it has one, is taken.  No other node at all gets it, as long as no server starts with
a node ID that is taken, exactly if it is stored for none of them.  All that is so in every run in which no `add` loses
its second write alone and no server starts with a node ID that is taken. -/
theorem announced_marked_iff (s : CentralizedServer) :
    (CentralizedRun (fun _ _ => True) s → ∀ uniqueId preferredNodeId w,
      ((∀ s' n, handleAllocationRequest s.storage uniqueId preferredNodeId w = (s', some n) →
          s'.isNodeIDOccupied n = true ∧
          ∀ t, Later (fun _ _ => True) { s with storage := s' } t → ∀ other preferred w' t' m,
            (t.storage.getNodeIDForUniqueID other).isValid = false →
            handleAllocationRequest t.storage other preferred w' = (t', some m) → m ≠ n) ↔
        ((s.storage.getNodeIDForUniqueID uniqueId).isValid = true →
          s.storage.isNodeIDOccupied (s.storage.getNodeIDForUniqueID uniqueId) = true))) ∧
    (CentralizedRun (fun _ _ => True) s → ∀ uniqueId preferredNodeId w s' n,
      handleAllocationRequest s.storage uniqueId preferredNodeId w = (s', some n) → s'.isNodeIDOccupied n = true →
      ((∀ t, Later FreshStart { s with storage := s' } t → ∀ other, other ≠ uniqueId → ∀ preferred w' t',
          handleAllocationRequest t.storage other preferred w' ≠ (t', some n)) ↔
        ∀ other, other ≠ uniqueId → s.storage.getNodeIDForUniqueID other ≠ n)) ∧
    (CentralizedRun (fun _ a => a.WritesSatisfy Whole) s → ∀ uniqueId,
      (s.storage.getNodeIDForUniqueID uniqueId).isValid = true →
      s.storage.isNodeIDOccupied (s.storage.getNodeIDForUniqueID uniqueId) = true) ∧
    (CentralizedRun (fun s a => a.WritesSatisfy Whole ∧ s.FreshStart a) s → ∀ u v n,
      u ≠ Server.noUniqueID → v ≠ Server.noUniqueID → (u, n) ∈ s.published → (v, n) ∈ s.published → u = v) := by
  refine ⟨fun run uniqueId preferredNodeId w => ⟨fun marked valid => ?_, fun whole s' n handled => ?_⟩,
    fun run uniqueId preferredNodeId w s' n handled marked => ⟨fun exclusive other different same => ?_,
      fun unowned t later other different preferred w' t' response => ?_⟩,
    fun run => run.marked, fun run => (run.exclusive id).published⟩
  · refine (marked s.storage _ ?_).1
    rw [handleAllocationRequest]
    simp [valid]
  · obtain ⟨-, loaded, -, occupied⟩ := handleAllocationRequest_answered run.loaded handled
    have occupied := occupied whole
    refine ⟨occupied, fun t later other preferred w' t' m new response => ?_⟩
    rintro rfl
    have taken := (later.occupied loaded occupied).2
    exact absurd ((handleAllocationRequest_new new response).1.symm.trans taken) Bool.noConfusion
  · -- the entry of the other node is found at once
    obtain ⟨valid, -, frame, -⟩ := handleAllocationRequest_answered run.loaded handled
    refine exclusive _ .start other different ⟨0⟩ .all s' ?_
    rw [handleAllocationRequest]
    simp [frame other different, same, valid]
  · obtain ⟨-, loaded, frame, -⟩ := handleAllocationRequest_answered run.loaded handled
    obtain ⟨taken, free⟩ := later.unowned loaded marked (u := other) (frame other different ▸ unowned other different)
    cases stored : (t.storage.getNodeIDForUniqueID other).isValid with
    | true =>
      rw [handleAllocationRequest, if_pos stored] at response
      cases response
      exact free rfl
    | false => exact absurd ((handleAllocationRequest_new stored response).1.symm.trans taken) Bool.noConfusion

/-- The first request of a node loses both writes, and the second one is answered. -/
theorem announced_marked_iff_sample :
    (∃ s, CentralizedRun (fun s a => a.WritesSatisfy Whole ∧ s.FreshStart a) s ∧ (idOf 7, ⟨125⟩) ∈ s.published ∧
      ∀ v, v ≠ Server.noUniqueID → (v, ⟨125⟩) ∈ s.published → idOf 7 = v) ∧
    ∃ s s', CentralizedRun (fun _ _ => True) s ∧
      handleAllocationRequest s.storage (idOf 7) ⟨0⟩ .all = (s', some ⟨125⟩) ∧ s'.isNodeIDOccupied ⟨125⟩ = true := by
  constructor
  · obtain ⟨s, run, published⟩ := Machines.Reach.exists_of_play exec
      (fun s a => a.WritesSatisfy Whole ∧ s.FreshStart a) .new
      [.start (idOf 1) ⟨9⟩ .all true, .allocationRequest (idOf 7) ⟨0⟩ ⟨false, false⟩,
        .allocationRequest (idOf 7) ⟨0⟩ .all] (fun s => (idOf 7, ⟨125⟩) ∈ s.published) (by decide +kernel)
    exact ⟨s, run, published, fun v nonzero =>
      (announced_marked_iff s).2.2.2 run (idOf 7) v ⟨125⟩ (by decide) nonzero published⟩
  · obtain ⟨s, run, new, answer⟩ := Machines.Reach.exists_of_play exec (fun _ _ => True) .new
      [.start (idOf 1) ⟨9⟩ .all true, .allocationRequest (idOf 7) ⟨0⟩ ⟨false, false⟩]
      (fun s => (s.storage.getNodeIDForUniqueID (idOf 7)).isValid = false ∧
        (handleAllocationRequest s.storage (idOf 7) ⟨0⟩ .all).2 = some ⟨125⟩) (by decide +kernel)
    have handled : handleAllocationRequest s.storage (idOf 7) ⟨0⟩ .all = (_, some ⟨125⟩) := Prod.ext rfl answer
    have whole := ((announced_marked_iff s).1 run (idOf 7) ⟨0⟩ .all).mpr (by simp [new])
    exact ⟨s, _, run, handled, (whole _ _ handled).1⟩

/-- A request loses its second write.  The next one finds the entry and broadcasts a node ID that is not taken,
which another node then gets as well. -/
theorem dangling_entry_announced : ∃ s, CentralizedRun (fun _ _ => True) s ∧
    (idOf 7, ⟨125⟩) ∈ s.published ∧ s.storage.isNodeIDOccupied ⟨125⟩ = false ∧
    (handleAllocationRequest s.storage (idOf 8) ⟨0⟩ .all).2 = some ⟨125⟩ :=
  Machines.Reach.exists_of_play exec _ .new
    [.start (idOf 1) ⟨1⟩ .all true, .allocationRequest (idOf 7) ⟨0⟩ ⟨true, false⟩,
      .allocationRequest (idOf 7) ⟨0⟩ .all] _ (by decide +kernel)

/-! ### Nodes that are being discovered -/

/-- A node that the server does not know gets no node ID of a node that has been heard, whatever it prefers,
exactly if all nodes that have been heard are in the mask already. -/
theorem heard_ids_kept_iff (run : CentralizedRun (fun _ _ => True) s) {uniqueId : UniqueID}
    (new : (s.storage.getNodeIDForUniqueID uniqueId).isValid = false) :
    (∀ preferredNodeId w n, (handleAllocationRequest s.storage uniqueId preferredNodeId w).2 = some n →
        n ∉ s.discoverer.nodes) ↔
      ∀ id ∈ s.discoverer.nodes, s.storage.isNodeIDOccupied id = true := by
  constructor
  · intro kept id member
    by_contra free
    have free := Bool.eq_false_iff.mpr free
    have unicast := run.heard id member
    refine kept id .all id ?_ member
    rcases add : s.storage.add id uniqueId .all with ⟨result, t⟩
    have ok := s.storage.add_all unicast uniqueId
    rw [add] at ok
    cases ok
    rw [handleAllocationRequest]
    simp [new, NodeIDSelector.findFreeNodeID_preferred unicast free, unicast, add]
  · intro known preferredNodeId w n response member
    rcases handled : handleAllocationRequest s.storage uniqueId preferredNodeId w with ⟨t, answer⟩
    rw [handled] at response
    obtain rfl : answer = some n := response
    exact absurd ((handleAllocationRequest_new new handled).1.symm.trans (known n member)) Bool.noConfusion

theorem heard_ids_kept_iff_sample : ∃ s, CentralizedRun (fun _ _ => True) s ∧ s.discoverer.nodes = [⟨125⟩] ∧
    ¬∀ preferredNodeId w n, (handleAllocationRequest s.storage (idOf 7) preferredNodeId w).2 = some n →
      n ∉ s.discoverer.nodes := by
  obtain ⟨s, run, nodes, new, free⟩ := Machines.Reach.exists_of_play exec (fun _ _ => True) .new
    [.start (idOf 1) ⟨1⟩ .all true, .nodeStatus ⟨125⟩ 0 (some 0)]
    (fun s => s.discoverer.nodes = [⟨125⟩] ∧ (s.storage.getNodeIDForUniqueID (idOf 7)).isValid = false ∧
      s.storage.isNodeIDOccupied ⟨125⟩ = false) (by decide +kernel)
  refine ⟨s, run, nodes, fun kept => ?_⟩
  have taken := (heard_ids_kept_iff run new).mp kept ⟨125⟩ (by rw [nodes]; exact mem_singleton_self _)
  exact absurd (free.symm.trans taken) Bool.noConfusion

/-- A node is heard, and the next one that asks for a node ID gets the same one. -/
theorem heard_id_allocated : ∃ s, CentralizedRun (fun _ _ => True) s ∧ s.discoverer.nodes = [⟨125⟩] ∧
    s.published = [(idOf 7, ⟨125⟩)] :=
  Machines.Reach.exists_of_play exec _ .new
    [.start (idOf 1) ⟨1⟩ .all true, .nodeStatus ⟨125⟩ 0 (some 0), .allocationRequest (idOf 7) ⟨0⟩ .all] _
    (by decide +kernel)

end CentralizedRun

end Uavcan
