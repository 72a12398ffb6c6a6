import Uavcan.DynamicNodeId.Storage

/-!
# The server side of an allocation exchange

A node without a node ID sends its unique ID in three anonymous `Allocation` messages. After each of the first
two `AllocationRequestManager` repeats all bytes it has so far in a follow-up message. The requests do not say
which node they are from: the manager checks their order only (`handleAllocation_cases`).
-/

namespace Uavcan

/-- The `Allocation` message.  Requests are anonymous; a server sends follow-ups and responses. -/
structure AllocationMessage where
  nodeId : NodeID
  firstPartOfUniqueId : Bool
  uniqueId : List UInt8
  fits : uniqueId.length ≤ 16
  deriving DecidableEq

/-- `MAX_LENGTH_OF_UNIQUE_ID_IN_REQUEST`. -/
def AllocationMessage.maxLengthOfUniqueIdInRequest : ℕ := 6

structure AllocationRequestManager where
  stageTimeout : ℕ
  lastMessageTimestamp : ℕ
  currentUniqueId : List UInt8
  fits : currentUniqueId.length ≤ 16

namespace AllocationRequestManager

open AllocationMessage

inductive Stage
  | first
  | second
  | third
  deriving DecidableEq

/-- What the manager does about a message: it publishes a follow-up, or passes a unique ID to the allocator. -/
inductive Effect
  | nothing
  | followup (msg : AllocationMessage)
  | handleAllocationRequest (uniqueId : UniqueID) (preferredNodeId : NodeID)

def construct (stageTimeout : ℕ) : AllocationRequestManager := ⟨stageTimeout, 0, [], by decide⟩

/-- No stage stands for `InvalidStage`. -/
def detectRequestStage (msg : AllocationMessage) : Option Stage :=
  if msg.uniqueId.length ≠ maxLengthOfUniqueIdInRequest ∧
      msg.uniqueId.length ≠ 16 - maxLengthOfUniqueIdInRequest * 2 ∧ msg.uniqueId.length ≠ 16 then none
  else if msg.firstPartOfUniqueId then some .first
  else if msg.uniqueId.length = maxLengthOfUniqueIdInRequest then some .second
  else if msg.uniqueId.length < maxLengthOfUniqueIdInRequest then some .third
  else none

variable (a : AllocationRequestManager)

def getExpectedStage : Option Stage :=
  if a.currentUniqueId.isEmpty then some .first
  else if a.currentUniqueId.length ≥ maxLengthOfUniqueIdInRequest * 2 then some .third
  else if a.currentUniqueId.length ≥ maxLengthOfUniqueIdInRequest then some .second
  else none

def clear : AllocationRequestManager :=
  { a with currentUniqueId := [], fits := Nat.zero_le 16 }

/-- Reset the expected stage on timeout. -/
def checkTimeout (timestamp : ℕ) : AllocationRequestManager :=
  if timestamp > a.lastMessageTimestamp + a.stageTimeout then a.clear else a

/-- The follow-up with all bytes so far. -/
def followup : AllocationMessage :=
  ⟨NodeID.broadcast, false, a.currentUniqueId, a.fits⟩

/-- A request of the expected stage that fits. -/
def accept (canPublishFollowupAllocationResponse : Bool) (timestamp : ℕ)
    (msg : AllocationMessage) (room : msg.uniqueId.length ≤ 16 - a.currentUniqueId.length) :
    AllocationRequestManager × Effect :=
  have fits : (a.currentUniqueId ++ msg.uniqueId).length ≤ 16 := by
    have := a.fits
    rw [List.length_append]
    omega
  let a : AllocationRequestManager :=
    { a with
      currentUniqueId := a.currentUniqueId ++ msg.uniqueId
      lastMessageTimestamp := timestamp
      fits := fits }
  if full : a.currentUniqueId.length = 16 then
    (a.clear, .handleAllocationRequest ⟨a.currentUniqueId.toArray, full⟩ msg.nodeId)
  else if canPublishFollowupAllocationResponse then (a, .followup a.followup)
  else (a.clear, .nothing)

/-- The timestamp is that of the message.  The handler is asked whether it may publish follow-ups. -/
def handleAllocation (canPublishFollowupAllocationResponse : Bool)
    (isAnonymousTransfer : Bool) (timestamp : ℕ) (msg : AllocationMessage) :
    AllocationRequestManager × Effect :=
  if !isAnonymousTransfer then (a, .nothing)
  else
    let a := a.checkTimeout timestamp
    match detectRequestStage msg, a.getExpectedStage with
    | some requestStage, some expectedStage =>
      if requestStage ≠ expectedStage then (a, .nothing)
      else if room : msg.uniqueId.length ≤ 16 - a.currentUniqueId.length then
        a.accept canPublishFollowupAllocationResponse timestamp msg room
      else (a, .nothing)
    | _, _ => (a, .nothing)

def broadcastAllocationResponse (uniqueId : UniqueID) (allocatedNodeId : NodeID) : AllocationMessage :=
  ⟨allocatedNodeId, false, uniqueId.toList, by simp⟩

/-! ## What a message can do -/

/-- The bytes before the request: none after a timeout, and none or those of the manager otherwise. -/
theorem currentUniqueId_checkTimeout (timestamp : ℕ) :
    (a.checkTimeout timestamp).currentUniqueId = [] ∨ a.checkTimeout timestamp = a := by
  unfold checkTimeout
  split
  · exact .inl rfl
  · exact .inr rfl

theorem length_of_getExpectedStage {a : AllocationRequestManager} {stage : Stage}
    (expected : a.getExpectedStage = some stage) :
    match stage with
    | .first => a.currentUniqueId = []
    | .second => 6 ≤ a.currentUniqueId.length ∧ a.currentUniqueId.length < 12
    | .third => 12 ≤ a.currentUniqueId.length := by
  unfold getExpectedStage at expected
  split at expected
  case isTrue none =>
    cases expected
    exact List.isEmpty_iff.mp none
  case isFalse =>
  split at expected
  case isTrue many =>
    cases expected
    exact many
  case isFalse few =>
  split at expected
  case isTrue some =>
    cases expected
    exact ⟨some, Nat.not_le.mp few⟩
  case isFalse => cases expected

theorem length_of_detectRequestStage {msg : AllocationMessage} {stage : Stage}
    (detected : detectRequestStage msg = some stage) :
    match stage with
    | .first => msg.firstPartOfUniqueId = true
    | .second => msg.firstPartOfUniqueId = false ∧ msg.uniqueId.length = 6
    | .third => msg.firstPartOfUniqueId = false ∧ msg.uniqueId.length < 6 := by
  unfold detectRequestStage at detected
  split at detected
  case isTrue => cases detected
  case isFalse =>
  split at detected
  case isTrue first =>
    cases detected
    exact first
  case isFalse later =>
  have later : msg.firstPartOfUniqueId = false := Bool.eq_false_iff.mpr later
  split at detected
  case isTrue six =>
    cases detected
    exact ⟨later, six⟩
  case isFalse =>
  split at detected
  case isTrue fewer =>
    cases detected
    exact ⟨later, fewer⟩
  case isFalse => cases detected

/-- What an accepted request does with the bytes `all` that the manager then has. -/
inductive Accepted (all : List UInt8) (nodeId : NodeID) : AllocationRequestManager × Effect → Prop
  | complete {a : AllocationRequestManager} {uniqueId : UniqueID} (none : a.currentUniqueId = [])
      (full : uniqueId.toList = all) : Accepted all nodeId (a, .handleAllocationRequest uniqueId nodeId)
  | followup {a : AllocationRequestManager} (some : a.currentUniqueId = all) (part : all.length < 16) :
      Accepted all nodeId (a, .followup a.followup)
  | denied {a : AllocationRequestManager} (none : a.currentUniqueId = []) : Accepted all nodeId (a, .nothing)

theorem accept_cases (canPublish : Bool) (timestamp : ℕ)
    (msg : AllocationMessage) (room : msg.uniqueId.length ≤ 16 - a.currentUniqueId.length) :
    Accepted (a.currentUniqueId ++ msg.uniqueId) msg.nodeId (a.accept canPublish timestamp msg room) := by
  have fits : (a.currentUniqueId ++ msg.uniqueId).length ≤ 16 := by
    have := a.fits
    rw [List.length_append]
    omega
  unfold accept
  simp only
  split
  case isTrue full => exact .complete rfl (by simp [Vector.toList])
  case isFalse part =>
    split
    · exact .followup rfl (Nat.lt_of_le_of_ne fits part)
    · exact .denied rfl

/-- A message is left alone, apart from a timeout, or it is of the expected stage and fits. -/
theorem handleAllocation_inv (canPublish anonymous : Bool) (timestamp : ℕ)
    (msg : AllocationMessage) :
    (anonymous = false ∧ a.handleAllocation canPublish anonymous timestamp msg = (a, .nothing)) ∨
      (anonymous = true ∧ a.handleAllocation canPublish anonymous timestamp msg =
        (a.checkTimeout timestamp, .nothing)) ∨
      (anonymous = true ∧ ∃ stage room, detectRequestStage msg = some stage ∧
        (a.checkTimeout timestamp).getExpectedStage = some stage ∧
        a.handleAllocation canPublish anonymous timestamp msg =
          (a.checkTimeout timestamp).accept canPublish timestamp msg room) := by
  unfold handleAllocation
  cases anonymous with
  | false => exact .inl ⟨rfl, rfl⟩
  | true =>
    right
    rw [if_neg (by decide)]
    simp only
    split
    case h_2 => exact .inl ⟨trivial, rfl⟩
    case h_1 requestStage expectedStage detected expected =>
    split
    case isTrue => exact .inl ⟨trivial, rfl⟩
    case isFalse same =>
    obtain rfl : requestStage = expectedStage := Decidable.not_not.mp same
    split
    case isFalse => exact .inl ⟨trivial, rfl⟩
    case isTrue room => exact .inr ⟨trivial, requestStage, room, detected, expected, rfl⟩

/-- What a message does: nothing, apart from a timeout, or it is accepted in its stage. -/
theorem handleAllocation_cases (canPublish anonymous : Bool) (timestamp : ℕ)
    (msg : AllocationMessage) {a' : AllocationRequestManager} {effect : Effect}
    (run : a.handleAllocation canPublish anonymous timestamp msg = (a', effect)) :
    (effect = .nothing ∧ (a'.currentUniqueId = [] ∨ a'.currentUniqueId = a.currentUniqueId)) ∨
      (∃ bytes, (bytes = [] ∨ bytes = a.currentUniqueId) ∧ Accepted (bytes ++ msg.uniqueId) msg.nodeId (a', effect) ∧
        anonymous = true ∧
        ((msg.firstPartOfUniqueId = true ∧ bytes = []) ∨
          (msg.firstPartOfUniqueId = false ∧ msg.uniqueId.length = 6 ∧ 6 ≤ bytes.length ∧ bytes.length < 12) ∨
          (msg.firstPartOfUniqueId = false ∧ msg.uniqueId.length < 6 ∧ 12 ≤ bytes.length))) := by
  have before : (a.checkTimeout timestamp).currentUniqueId = [] ∨
      (a.checkTimeout timestamp).currentUniqueId = a.currentUniqueId :=
    (a.currentUniqueId_checkTimeout timestamp).imp_right (congrArg currentUniqueId)
  rcases a.handleAllocation_inv canPublish anonymous timestamp msg with ⟨-, same⟩ | ⟨-, same⟩ |
    ⟨request, stage, room, detected, expected, same⟩
  · cases run.symm.trans same
    exact .inl ⟨rfl, .inr rfl⟩
  · cases run.symm.trans same
    exact .inl ⟨rfl, before⟩
  · have accepted := accept_cases (a.checkTimeout timestamp) canPublish timestamp msg room
    rw [← same, run] at accepted
    refine .inr ⟨_, before, accepted, request, ?_⟩
    have length := length_of_getExpectedStage expected
    have form := length_of_detectRequestStage detected
    cases stage with
    | first => exact .inl ⟨form, length⟩
    | second => exact .inr (.inl ⟨form.1, form.2, length⟩)
    | third => exact .inr (.inr ⟨form.1, form.2, length⟩)

end AllocationRequestManager

end Uavcan
