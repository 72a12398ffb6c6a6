import Uavcan.DynamicNodeId.AllocationRequestManager

/-!
# The client side of an allocation exchange

`DynamicNodeIDClient` sends the part of its unique ID that follows the bytes in the last follow-up it has read.
Every other message makes it start again.  The delays of its timer are random; here the timer may fire whenever
the client runs.
-/

namespace Uavcan

open List

/-- `running` is the state of the timer and of the subscription. -/
structure DynamicNodeIDClient where
  uniqueId : UniqueID
  sizeOfReceivedUniqueId : ℕ
  preferredNodeId : NodeID
  allocatedNodeId : NodeID
  allocatorNodeId : NodeID
  running : Bool

namespace DynamicNodeIDClient

open AllocationMessage

def construct : DynamicNodeIDClient :=
  ⟨Vector.replicate 16 0, 0, NodeID.invalid, NodeID.invalid, NodeID.invalid, false⟩

variable (c : DynamicNodeIDClient)

def terminate : DynamicNodeIDClient := { c with running := false }

def isAllocationComplete : Bool := c.allocatedNodeId.isUnicast

/-- `localNodeID` is the ID the node already has, if any; the publisher and the subscription are taken to
start. -/
def start (localNodeID : NodeID) (uniqueId : UniqueID) (preferredNodeId : NodeID) :
    Except Err DynamicNodeIDClient :=
  let c := c.terminate
  if localNodeID.isUnicast then .error .logic
  else if uniqueId.all (· = 0) then .error .invalidParam
  else if !preferredNodeId.isValid then .error .invalidParam
  else .ok { c with
    uniqueId := uniqueId
    preferredNodeId := preferredNodeId
    allocatedNodeId := NodeID.invalid
    allocatorNodeId := NodeID.invalid
    running := true }

theorem length_part (uniqueId : UniqueID) (received size : ℕ) :
    ((uniqueId.toList.drop received).take size).length ≤ 16 := by
  rw [length_take, length_drop, Vector.length_toList]
  omega

/-- The request for the part of the unique ID that comes next. -/
def request : AllocationMessage :=
  let sizeOfUniqueIdInRequest := min maxLengthOfUniqueIdInRequest (16 - c.sizeOfReceivedUniqueId)
  ⟨c.preferredNodeId, c.sizeOfReceivedUniqueId = 0,
    (c.uniqueId.toList.drop c.sizeOfReceivedUniqueId).take sizeOfUniqueIdInRequest, length_part _ _ _⟩

/-- The state is reset before the request is sent, so that the next attempt begins with the first stage. -/
def handleTimerEvent : DynamicNodeIDClient × Option AllocationMessage :=
  if c.isAllocationComplete then (c.terminate, none)
  else ({ c with sizeOfReceivedUniqueId := 0 }, some c.request)

def handleAllocation (srcNodeID : NodeID) (isAnonymousTransfer : Bool)
    (msg : AllocationMessage) : DynamicNodeIDClient :=
  if c.isAllocationComplete then c.terminate
  else
    -- Switching to passive state by default; will switch to active state if response matches
    let c := { c with sizeOfReceivedUniqueId := 0 }
    let fullResponse : Bool := msg.uniqueId.length = 16
    if isAnonymousTransfer || msg.uniqueId.isEmpty || (fullResponse && msg.nodeId.value = 0) then c
    else if msg.uniqueId = c.uniqueId.toList.take msg.uniqueId.length then
      if fullResponse then
        ({ c with allocatedNodeId := msg.nodeId, allocatorNodeId := srcNodeID }).terminate
      else { c with sizeOfReceivedUniqueId := msg.uniqueId.length }
    else c

/-! ## What a message can do -/

/-- What a message does to a client: it resets it, or it is a follow-up with the first bytes of the unique ID, or
a response with all of them. -/
inductive Handled (c : DynamicNodeIDClient) (anonymous : Bool) (msg : AllocationMessage) :
    DynamicNodeIDClient → Prop
  | terminated (complete : c.isAllocationComplete = true) : Handled c anonymous msg c.terminate
  | passive : Handled c anonymous msg { c with sizeOfReceivedUniqueId := 0 }
  | followup (incomplete : c.isAllocationComplete = false) (server : anonymous = false)
      (part : msg.uniqueId.length ≠ 16) (begins : msg.uniqueId = c.uniqueId.toList.take msg.uniqueId.length) :
      Handled c anonymous msg { c with sizeOfReceivedUniqueId := msg.uniqueId.length }
  | response {srcNodeID : NodeID} (server : anonymous = false) (full : msg.uniqueId = c.uniqueId.toList) :
      Handled c anonymous msg (({ c with
        sizeOfReceivedUniqueId := 0
        allocatedNodeId := msg.nodeId
        allocatorNodeId := srcNodeID } : DynamicNodeIDClient).terminate)

theorem uniqueId_request :
    c.request.uniqueId = (c.uniqueId.toList.drop c.sizeOfReceivedUniqueId).take 6 := by
  change (c.uniqueId.toList.drop c.sizeOfReceivedUniqueId).take (min 6 (16 - c.sizeOfReceivedUniqueId)) = _
  have left : (c.uniqueId.toList.drop c.sizeOfReceivedUniqueId).length = 16 - c.sizeOfReceivedUniqueId := by
    rw [length_drop, Vector.length_toList]
  rw [← left]
  exact take_eq_take_min.symm

theorem handleAllocation_cases (srcNodeID : NodeID) (anonymous : Bool)
    (msg : AllocationMessage) : Handled c anonymous msg (c.handleAllocation srcNodeID anonymous msg) := by
  unfold handleAllocation
  split
  case isTrue complete => exact .terminated complete
  case isFalse incomplete =>
  simp only
  split
  case isTrue => exact .passive
  case isFalse meaningful =>
  simp only [Bool.or_eq_true, not_or, Bool.not_eq_true] at meaningful
  obtain ⟨⟨server, -⟩, -⟩ := meaningful
  split
  case isFalse => exact .passive
  case isTrue begins =>
  split
  case isTrue full =>
    have full : msg.uniqueId.length = 16 := of_decide_eq_true full
    refine .response server ?_
    rw [full, take_of_length_le (Nat.le_of_eq c.uniqueId.length_toList)] at begins
    exact begins
  case isFalse part =>
    exact .followup (Bool.eq_false_iff.mpr incomplete) server (fun full => part (decide_eq_true full)) begins

end DynamicNodeIDClient

end Uavcan
