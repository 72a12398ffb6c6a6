import Uavcan.DynamicNodeId.AllocationRequestManager
import Uavcan.Machines.Guarded

/-!
# The stages of allocation requests

`AllocationRequestManager` tells the stage of a request from its length and its flag, and the stage it expects
from the number of bytes it has. The two agree, but for one kind of message: a request of four bytes, the
length of the last part, with the flag of the first part is taken for a first stage (`ShortStart`). After it
the manager has four bytes, which belong to no stage.
-/

namespace Uavcan

/-- A message as the manager gets it, with the answer of its handler. -/
structure AllocationRequest where
  canPublishFollowupAllocationResponse : Bool
  isAnonymousTransfer : Bool
  timestamp : ℕ
  msg : AllocationMessage

namespace AllocationRequestManager

open AllocationMessage

/-- The stage of a well-formed request: the first part is of six bytes, or of all sixteen; then come six and four. -/
def properStage (msg : AllocationMessage) : Option Stage :=
  if msg.firstPartOfUniqueId then
    if msg.uniqueId.length = 6 ∨ msg.uniqueId.length = 16 then some .first else none
  else if msg.uniqueId.length = 6 then some .second
  else if msg.uniqueId.length = 4 then some .third
  else none

/-- A first part that is as short as a last one. -/
def shortFirstPart (msg : AllocationMessage) : Bool := msg.firstPartOfUniqueId && msg.uniqueId.length = 4

/-- The stage of a request is what its form says, unless it is a short first part. -/
theorem detectRequestStage_eq (msg : AllocationMessage) :
    detectRequestStage msg = if shortFirstPart msg then some .first else properStage msg := by
  unfold shortFirstPart detectRequestStage properStage maxLengthOfUniqueIdInRequest
  cases msg.firstPartOfUniqueId with
  | true =>
    by_cases four : msg.uniqueId.length = 4
    · simp [four]
    · by_cases proper : msg.uniqueId.length = 6 ∨ msg.uniqueId.length = 16
      · rw [if_neg (by omega)]
        simp [proper]
      · rw [if_pos (by omega)]
        simp [four, proper]
  | false =>
    by_cases six : msg.uniqueId.length = 6
    · simp [six]
    · by_cases four : msg.uniqueId.length = 4
      · simp [four]
      · simp [six, four]
        omega

variable (a : AllocationRequestManager)

def handle (r : AllocationRequest) : AllocationRequestManager × Effect :=
  a.handleAllocation r.canPublishFollowupAllocationResponse r.isAnonymousTransfer r.timestamp r.msg

def exec (r : AllocationRequest) : Option AllocationRequestManager :=
  some (a.handle r).1

/-- No exchange is in progress when a message with this timestamp arrives. -/
def IdleAt (timestamp : ℕ) : Prop := (a.checkTimeout timestamp).currentUniqueId = []

/-- The message begins an exchange with four bytes. -/
def ShortStart (r : AllocationRequest) : Prop :=
  r.isAnonymousTransfer ∧ shortFirstPart r.msg ∧ a.IdleAt r.timestamp ∧ r.canPublishFollowupAllocationResponse

instance (a : AllocationRequestManager) (r : AllocationRequest) : Decidable (a.ShortStart r) :=
  inferInstanceAs (Decidable (_ ∧ _ ∧ (a.checkTimeout r.timestamp).currentUniqueId = [] ∧ _))

/-! ## Between messages -/

variable {a : AllocationRequestManager} {r : AllocationRequest}

/-- The bytes after a request of the expected stage. -/
theorem currentUniqueId_accept (a : AllocationRequestManager) (canPublish : Bool) (timestamp : ℕ)
    (msg : AllocationMessage) (room : msg.uniqueId.length ≤ 16 - a.currentUniqueId.length) :
    (a.accept canPublish timestamp msg room).1.currentUniqueId =
      if (a.currentUniqueId ++ msg.uniqueId).length ≠ 16 ∧ canPublish then a.currentUniqueId ++ msg.uniqueId
      else [] := by
  unfold accept
  simp only
  split
  case isTrue full => simp [full, clear]
  case isFalse part =>
    rw [List.length_append] at part
    cases canPublish with
    | true => simp [part]
    | false => simp [clear]

/-- The bytes of whole stages. -/
def WholeStages (a : AllocationRequestManager) : Prop :=
  a.currentUniqueId.length = 0 ∨ a.currentUniqueId.length = 6 ∨ a.currentUniqueId.length = 12

theorem WholeStages.checkTimeout (whole : a.WholeStages) (timestamp : ℕ) : (a.checkTimeout timestamp).WholeStages := by
  rcases a.currentUniqueId_checkTimeout timestamp with empty | same
  · exact .inl (by rw [empty]; rfl)
  · rw [same]
    exact whole

theorem WholeStages.expected (whole : a.WholeStages) : a.getExpectedStage ≠ none := by
  intro unexpected
  unfold getExpectedStage maxLengthOfUniqueIdInRequest at unexpected
  split at unexpected
  case isTrue => cases unexpected
  case isFalse started =>
  split at unexpected
  case isTrue => cases unexpected
  case isFalse =>
  split at unexpected
  case isTrue => cases unexpected
  case isFalse few =>
    have length : a.currentUniqueId.length ≠ 0 := by simpa using started
    unfold WholeStages at whole
    omega

theorem length_of_properStage {msg : AllocationMessage} {stage : Stage} (proper : properStage msg = some stage) :
    match stage with
    | .first => msg.uniqueId.length = 6 ∨ msg.uniqueId.length = 16
    | .second => msg.uniqueId.length = 6
    | .third => msg.uniqueId.length = 4 := by
  unfold properStage at proper
  split at proper
  · split at proper
    · cases proper
      assumption
    · cases proper
  · split at proper
    · cases proper
      assumption
    · split at proper
      · cases proper
        assumption
      · cases proper

theorem WholeStages.handle (whole : a.WholeStages) (long : ¬ a.ShortStart r) : (a.handle r).1.WholeStages := by
  unfold AllocationRequestManager.handle
  rcases a.handleAllocation_inv r.canPublishFollowupAllocationResponse r.isAnonymousTransfer r.timestamp r.msg with
    ⟨-, same⟩ | ⟨-, same⟩ | ⟨anonymous, stage, room, detected, expected, same⟩
  · rw [same]
    exact whole
  · rw [same]
    exact whole.checkTimeout r.timestamp
  · rw [same, WholeStages, currentUniqueId_accept]
    split
    case isFalse => exact .inl rfl
    case isTrue part =>
    obtain ⟨part, canPublish⟩ := part
    have before := whole.checkTimeout r.timestamp
    have bytes := length_of_getExpectedStage expected
    rw [List.length_append] at part ⊢
    rw [detectRequestStage_eq] at detected
    split at detected
    case isTrue short =>
      cases detected
      exact absurd ⟨anonymous, short, bytes, canPublish⟩ long
    case isFalse =>
    have length := length_of_properStage detected
    unfold WholeStages at before
    cases stage with
    | first =>
      omega
    | second =>
      omega
    | third =>
      omega

/-! ## When no exchange is in progress -/

/-- A malformed request that does not begin an exchange leaves nothing behind. -/
theorem idle_after_malformed (anonymous : r.isAnonymousTransfer = true) (malformed : properStage r.msg = none)
    (idle : a.IdleAt r.timestamp) (long : ¬ a.ShortStart r) : (a.handle r).1.currentUniqueId = [] := by
  unfold handle
  rcases a.handleAllocation_inv r.canPublishFollowupAllocationResponse r.isAnonymousTransfer r.timestamp r.msg with
    ⟨other, -⟩ | ⟨-, same⟩ | ⟨-, stage, room, detected, -, same⟩
  · rw [anonymous] at other
    cases other
  · rw [same]
    exact idle
  · rw [detectRequestStage_eq, malformed] at detected
    split at detected
    case isFalse => cases detected
    case isTrue short =>
    rw [same, currentUniqueId_accept, if_neg]
    exact fun part => long ⟨anonymous, short, idle, part.2⟩

theorem accepts_first (anonymous : r.isAnonymousTransfer = true) (first : properStage r.msg = some .first)
    (idle : a.IdleAt r.timestamp) : Accepted r.msg.uniqueId r.msg.nodeId (a.handle r) ∧
      (r.canPublishFollowupAllocationResponse = true → (a.handle r).2 ≠ .nothing) := by
  have idle : (a.checkTimeout r.timestamp).currentUniqueId = [] := idle
  have detected : detectRequestStage r.msg = some .first := by
    rw [detectRequestStage_eq, first, ite_self]
  have expected : (a.checkTimeout r.timestamp).getExpectedStage = some .first := by
    simp [getExpectedStage, idle]
  have room : r.msg.uniqueId.length ≤ 16 - (a.checkTimeout r.timestamp).currentUniqueId.length := by
    rw [idle]
    exact r.msg.fits
  have run : a.handle r = (a.checkTimeout r.timestamp).accept r.canPublishFollowupAllocationResponse r.timestamp
      r.msg room := by
    simp [handle, handleAllocation, anonymous, detected, expected, room]
  rw [run]
  refine ⟨?_, fun canPublish => ?_⟩
  · have accepted := (a.checkTimeout r.timestamp).accept_cases r.canPublishFollowupAllocationResponse r.timestamp
      r.msg room
    rwa [idle] at accepted
  · unfold accept
    simp only [canPublish]
    split <;> simp

/-- In every run in which no exchange begins with four bytes, the manager has the bytes of whole stages between
messages, and expects a stage whenever one arrives; and a malformed request that arrives while no exchange is in
progress does not stop the next exchange from beginning. -/
theorem stages_kept {stageTimeout : ℕ}
    (run : Machines.Reach exec (fun a r => ¬ a.ShortStart r) (construct stageTimeout) a) :
    (a.currentUniqueId.length = 0 ∨ a.currentUniqueId.length = 6 ∨ a.currentUniqueId.length = 12) ∧
    (∀ timestamp, (a.checkTimeout timestamp).getExpectedStage ≠ none) ∧
    ∀ malformed : AllocationRequest, malformed.isAnonymousTransfer = true → properStage malformed.msg = none →
      a.IdleAt malformed.timestamp → ¬ a.ShortStart malformed →
        (a.handle malformed).1.currentUniqueId = [] ∧
        ∀ first : AllocationRequest, first.isAnonymousTransfer = true → properStage first.msg = some .first →
          Accepted first.msg.uniqueId first.msg.nodeId ((a.handle malformed).1.handle first) ∧
          (first.canPublishFollowupAllocationResponse = true →
            ((a.handle malformed).1.handle first).2 ≠ .nothing) := by
  have whole : a.WholeStages := by
    refine run.invariant (P := WholeStages) (.inl rfl) fun {a r a'} before long taken => ?_
    cases taken
    exact before.handle long
  refine ⟨whole, fun timestamp => (whole.checkTimeout timestamp).expected, ?_⟩
  intro malformed anonymous form idle long
  have empty := idle_after_malformed anonymous form idle long
  refine ⟨empty, fun first anonymous' proper => accepts_first anonymous' proper ?_⟩
  rcases (a.handle malformed).1.currentUniqueId_checkTimeout first.timestamp with cleared | same
  · exact cleared
  · rw [IdleAt, same, empty]

/-- A request in its first part, with follow-ups allowed. -/
def firstPart (timestamp length : ℕ) : AllocationRequest :=
  ⟨true, true, timestamp, ⟨NodeID.broadcast, true, (List.replicate length 7).take 16, List.length_take_le 16 _⟩⟩

/-- After a first part of five bytes, one of six bytes is accepted; then another one of five bytes is ignored. -/
theorem stages_kept_sample : ∃ a, Machines.Reach exec (fun a r => ¬ a.ShortStart r) (construct 500000) a ∧
    a.currentUniqueId.length = 6 ∧ ∀ timestamp, (a.checkTimeout timestamp).getExpectedStage ≠ none := by
  obtain ⟨a, run, reached⟩ := Machines.Reach.exists_of_play exec (fun a r => ¬ a.ShortStart r) (construct 500000)
    [firstPart 1 5, firstPart 2 6, firstPart 3 5] (fun a => a.currentUniqueId.length = 6) (by decide)
  exact ⟨a, run, reached, (stages_kept run).2.1⟩

/-- A first part of four bytes is malformed, but begins an exchange.  Then no stage is expected, and a proper first part
that follows is ignored. -/
theorem short_first_part_blocks :
    properStage (firstPart 1 4).msg = none ∧ (construct 500000).IdleAt 1 ∧
      ∃ a effect, (construct 500000).handle (firstPart 1 4) = (a, effect) ∧
        a.currentUniqueId.length = 4 ∧ (a.checkTimeout 2).getExpectedStage = none ∧
        properStage (firstPart 2 6).msg = some .first ∧
        a.handle (firstPart 2 6) = (a, .nothing) := by
  refine ⟨by decide, rfl, _, _, rfl, by decide, by decide, by decide, rfl⟩

end AllocationRequestManager

end Uavcan
