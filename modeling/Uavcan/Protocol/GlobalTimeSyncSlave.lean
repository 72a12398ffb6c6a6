import Uavcan.Transport.TransferReceiver

/-!
# The slave of the time synchronization

A slave follows one master at a time. It remembers a message of that master (`updateFromMsg`), and the next
message of the same master on the same interface says when that one was sent, which gives the error of the
local clock (`adjustFromMsg`). A run keeps what was done with each message, newest first; the state of the
slave says which message was used for the last update (`Tracks`).
-/

namespace Uavcan

open List

/-- The constants of the data type `uavcan.protocol.GlobalTimeSync`, in milliseconds. -/
structure GlobalTimeSync where
  minBroadcastingPeriodMs : ℕ
  maxBroadcastingPeriodMs : ℕ
  recommendedBroadcasterTimeoutMs : ℕ
  maxBroadcastingPeriodMs_lt : maxBroadcastingPeriodMs < 2 ^ 32

/-- `MonotonicDuration::toMSec`. -/
def toMSec (duration : ℤ) : ℤ := duration.tdiv 1000

namespace GlobalTimeSyncSlave

/-- A received message.  A master has a valid node ID, and `RxFrame::parse` and `TransferReceiver::addFrame` let no
frame through that was received at the monotonic time zero. -/
structure Message where
  tsMono : ℕ
  tsMono_ne : tsMono ≠ 0
  tsUtc : ℕ
  transferType : TransferType
  transferId : TransferID
  srcNodeId : NodeID
  srcNodeId_valid : srcNodeId.isValid
  ifaceIndex : ℕ
  previousTransmissionTimestampUsec : ℕ
  deriving DecidableEq

inductive State
  | update
  | adjust
  deriving DecidableEq

end GlobalTimeSyncSlave

open GlobalTimeSyncSlave in
structure GlobalTimeSyncSlave where
  prevTsUtc : ℕ
  prevTsMono : ℕ
  lastAdjustmentTs : ℕ
  state : State
  masterNid : NodeID
  prevTid : TransferID
  prevIfaceIndex : ℕ
  suppressed : Bool

namespace GlobalTimeSyncSlave

def construct : GlobalTimeSyncSlave where
  prevTsUtc := 0
  prevTsMono := 0
  lastAdjustmentTs := 0
  state := .update
  masterNid := .invalid
  prevTid := ⟨0⟩
  prevIfaceIndex := 0xFF
  suppressed := false

/-- What is done with a message; `adjusted` with the adjustment, and whether the clock is told. -/
inductive Response
  | ignored
  | updated
  | adjusted (adjustment : ℤ) (adjustUtc : Bool)
  deriving DecidableEq

variable (c : GlobalTimeSync) (slave : GlobalTimeSyncSlave) (msg : Message)

def adjustFromMsg : GlobalTimeSyncSlave × Response :=
  let adjustment := timeDiff msg.previousTransmissionTimestampUsec slave.prevTsUtc
  ({ slave with lastAdjustmentTs := msg.tsMono, state := .update }, .adjusted adjustment !slave.suppressed)

def updateFromMsg : GlobalTimeSyncSlave × Response :=
  ({ slave with
      prevTsUtc := msg.tsUtc
      prevTsMono := msg.tsMono
      masterNid := msg.srcNodeId
      prevIfaceIndex := msg.ifaceIndex
      prevTid := msg.transferId
      state := .adjust }, .updated)

def sinceLast : ℤ := timeDiff msg.tsMono slave.prevTsMono

/-- The message starts a new lock on a master. -/
def forcesUpdate : Bool :=
  let needsInit := !slave.masterNid.isValid || slave.prevTsMono = 0
  let switchMaster : Bool := msg.srcNodeId.value < slave.masterNid.value
  let pubTimeout : Bool := toMSec (slave.sinceLast msg) > c.recommendedBroadcasterTimeoutMs
  switchMaster || pubTimeout || needsInit

/-- The message cannot be used for an adjustment. -/
def skipsAdjustment : Bool :=
  let msgInvalid : Bool := msg.previousTransmissionTimestampUsec = 0
  let wrongTid : Bool := slave.prevTid.computeForwardDistance msg.transferId ≠ 1
  let wrongTiming : Bool := toMSec (slave.sinceLast msg) > c.maxBroadcastingPeriodMs
  msgInvalid || wrongTid || wrongTiming

def processMsg : GlobalTimeSyncSlave × Response :=
  if slave.forcesUpdate c msg then
    slave.updateFromMsg msg
  else if msg.ifaceIndex = slave.prevIfaceIndex ∧ msg.srcNodeId = slave.masterNid then
    let slave :=
      if slave.state = .adjust then
        if slave.skipsAdjustment c msg then { slave with state := .update } else slave
      else slave
    if slave.state = .adjust then slave.adjustFromMsg msg else slave.updateFromMsg msg
  else (slave, .ignored)

def handleGlobalTimeSync : GlobalTimeSyncSlave × Response :=
  if msg.transferType = .messageBroadcast then slave.processMsg c msg else (slave, .ignored)

/-- `GlobalTimeSyncSlave::suppress`. -/
def suppress (suppressed : Bool) : GlobalTimeSyncSlave := { slave with suppressed := suppressed }

/-! ## What a message does -/

variable {c slave msg}

/-- The message is used for an update or for an adjustment, or nothing changes. -/
inductive Outcome (c : GlobalTimeSync) (slave : GlobalTimeSyncSlave) (msg : Message) :
    GlobalTimeSyncSlave × Response → Prop
  | updated (used : slave.forcesUpdate c msg = true ∨ msg.srcNodeId = slave.masterNid) :
      Outcome c slave msg (slave.updateFromMsg msg)
  | adjusted (locked : slave.forcesUpdate c msg = false) (iface : msg.ifaceIndex = slave.prevIfaceIndex)
      (master : msg.srcNodeId = slave.masterNid) (state : slave.state = .adjust)
      (usable : slave.skipsAdjustment c msg = false) : Outcome c slave msg (slave.adjustFromMsg msg)
  | ignored : Outcome c slave msg (slave, .ignored)

theorem handleGlobalTimeSync_outcome (c : GlobalTimeSync) (slave : GlobalTimeSyncSlave) (msg : Message) :
    Outcome c slave msg (slave.handleGlobalTimeSync c msg) := by
  unfold handleGlobalTimeSync
  split
  · unfold processMsg
    by_cases forced : slave.forcesUpdate c msg = true
    · rw [if_pos forced]
      exact .updated (.inl forced)
    · rw [if_neg forced]
      split
      · rename_i same
        by_cases adjust : slave.state = .adjust
        · rcases skipped : slave.skipsAdjustment c msg with _ | _
          · simp only [adjust, if_true, Bool.false_eq_true, if_false]
            exact .adjusted (Bool.not_eq_true _ ▸ forced) same.1 same.2 adjust skipped
          · simp only [adjust]
            exact .updated (.inr same.2)
        · simp only [adjust, if_false]
          exact .updated (.inr same.2)
      · exact .ignored
  · exact .ignored

/-! ## Runs -/

/-- A message and what was done with it. -/
structure Handled where
  message : Message
  response : Response
  deriving DecidableEq

/-- The slaves that are reached, with the messages they have got, newest first. -/
inductive Run (c : GlobalTimeSync) : GlobalTimeSyncSlave → List Handled → Prop
  | start : Run c construct []
  | message {slave : GlobalTimeSyncSlave} {history : List Handled} (run : Run c slave history) (msg : Message) :
      Run c (slave.handleGlobalTimeSync c msg).1 (⟨msg, (slave.handleGlobalTimeSync c msg).2⟩ :: history)
  | suppress {slave : GlobalTimeSyncSlave} {history : List Handled} (run : Run c slave history) (suppressed : Bool) :
      Run c (slave.suppress suppressed) history

/-- `master` is the message that was last used for an update. -/
def LastUpdate (history : List Handled) (master : Message) : Prop :=
  ∃ newer older, history = newer ++ ⟨master, .updated⟩ :: older ∧ ∀ handled ∈ newer, handled.response ≠ .updated

variable {history : List Handled}

theorem LastUpdate.cons {master : Message} (last : LastUpdate history master) {handled : Handled}
    (other : handled.response ≠ .updated) : LastUpdate (handled :: history) master := by
  obtain ⟨newer, older, rfl, none⟩ := last
  exact ⟨handled :: newer, older, rfl, forall_mem_cons.mpr ⟨other, none⟩⟩

theorem LastUpdate.unique {a b : Message} (first : LastUpdate history a) (second : LastUpdate history b) : a = b := by
  obtain ⟨newer, older, rfl, none⟩ := first
  obtain ⟨newer', older', split, none'⟩ := second
  induction newer generalizing newer' with
  | nil =>
    cases newer' with
    | nil => exact (Handled.mk.inj (cons.inj split).1).1
    | cons head _ => exact absurd rfl ((cons.inj split).1 ▸ none' head (mem_cons_self ..))
  | cons head newer ih =>
    cases newer' with
    | nil => exact absurd rfl ((cons.inj split).1 ▸ none head (mem_cons_self ..))
    | cons head' newer' =>
      exact ih (fun h mem => none h (mem_cons_of_mem _ mem)) newer' (cons.inj split).2
        fun h mem => none' h (mem_cons_of_mem _ mem)

/-- The slave remembers the message of the last update, and waits for an adjustment only after an update. -/
inductive Tracks (slave : GlobalTimeSyncSlave) (history : List Handled) : Prop
  | fresh (none : ∀ handled ∈ history, handled.response ≠ .updated) (master : slave.masterNid = .invalid)
      (state : slave.state = .update)
  | locked (last : Message) (updated : LastUpdate history last) (tsUtc : slave.prevTsUtc = last.tsUtc)
      (tsMono : slave.prevTsMono = last.tsMono) (master : slave.masterNid = last.srcNodeId)
      (iface : slave.prevIfaceIndex = last.ifaceIndex) (tid : slave.prevTid = last.transferId)

theorem Run.tracks (run : Run c slave history) : Tracks slave history := by
  induction run with
  | start => exact .fresh nofun rfl rfl
  | @message slave history _ msg ih =>
    have outcome := handleGlobalTimeSync_outcome c slave msg
    generalize slave.handleGlobalTimeSync c msg = result at outcome ⊢
    cases outcome with
    | updated used => exact .locked msg ⟨[], history, rfl, nofun⟩ rfl rfl rfl rfl rfl
    | adjusted locked iface master state usable =>
      cases ih with
      | fresh _ _ waiting => exact absurd (waiting.symm.trans state) nofun
      | locked last updated tsUtc tsMono master iface tid =>
        exact .locked last (updated.cons nofun) tsUtc tsMono master iface tid
    | ignored =>
      cases ih with
      | fresh none master state => exact .fresh (forall_mem_cons.mpr ⟨nofun, none⟩) master state
      | locked last updated tsUtc tsMono master iface tid =>
        exact .locked last (updated.cons nofun) tsUtc tsMono master iface tid
  | suppress _ _ ih =>
    cases ih with
    | fresh none master state => exact .fresh none master state
    | locked last updated tsUtc tsMono master iface tid => exact .locked last updated tsUtc tsMono master iface tid

/-- The slave that got a message of the history. -/
theorem Run.of_append {newer older : List Handled} {handled : Handled}
    (run : Run c slave (newer ++ handled :: older)) :
    ∃ before, Run c before older ∧ (before.handleGlobalTimeSync c handled.message).2 = handled.response := by
  generalize split : newer ++ handled :: older = history at run
  induction run generalizing newer with
  | start => simp at split
  | @message slave history before msg ih =>
    cases newer with
    | nil =>
      obtain ⟨rfl, rfl⟩ := cons.inj split
      exact ⟨slave, before, rfl⟩
    | cons newest newer => exact ih (cons.inj split).2
  | suppress _ _ ih => exact ih split

/-- What a message that adjusts the clock and the last update have to do with each other. -/
structure Consistent (c : GlobalTimeSync) (m1 m2 : Message) (adjustment : ℤ) : Prop where
  master : m1.srcNodeId = m2.srcNodeId
  iface : m1.ifaceIndex = m2.ifaceIndex
  transferId : m2.transferId = m1.transferId.increment
  period : toMSec (timeDiff m2.tsMono m1.tsMono) ≤ c.maxBroadcastingPeriodMs
  adjustment : adjustment = timeDiff m2.previousTransmissionTimestampUsec m1.tsUtc
  nonzero : m2.previousTransmissionTimestampUsec ≠ 0

namespace Sample

def constants : GlobalTimeSync := ⟨40, 1100, 2200, by decide⟩

/-- A message of a master on the first interface. -/
def message (tsMono tsUtc : ℕ) (stamped : tsMono ≠ 0) (tid : Fin 32) (src : NodeID) (valid : src.isValid)
    (previous : ℕ) : Message :=
  ⟨tsMono, stamped, tsUtc, .messageBroadcast, ⟨tid⟩, src, valid, 0, previous⟩

def first : Message := message 1000 500 (by decide) 31 ⟨10⟩ rfl 0

def second : Message := message 601000 600500 (by decide) 0 ⟨10⟩ rfl 700

def higher : Message := message 602000 601500 (by decide) 5 ⟨20⟩ rfl 9

theorem run : Run constants (((construct.handleGlobalTimeSync constants first).1.handleGlobalTimeSync constants
    second).1.handleGlobalTimeSync constants higher).1
    [⟨higher, .ignored⟩, ⟨second, .adjusted 200 true⟩, ⟨first, .updated⟩] :=
  .message (.message (.message .start first) second) higher

end Sample

end GlobalTimeSyncSlave

end Uavcan
