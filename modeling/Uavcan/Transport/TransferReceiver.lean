import Uavcan.Transport.Frame
import Uavcan.Transport.TransferBuffer

/-!
# Receiving transfers

A `TransferReceiver` gets the frames that one node sends in transfers of one data type and type of transfer.
It decides from the transfer ID, the toggle bit, the interface and the time which frames belong to the
transfer that it is receiving, and collects their payload in a buffer.
-/

namespace Uavcan

open TransferBufferAccessor TransferBufferManagerEntry

/-- A number of microseconds as a signed 64-bit integer. -/
def toInt64 (n : ℕ) : ℤ := if n % 2 ^ 64 < 2 ^ 63 then n % 2 ^ 64 else n % 2 ^ 64 - 2 ^ 64

/-- The difference of two times in microseconds. -/
def timeDiff (a b : ℕ) : ℤ := if a > b then toInt64 (a - b) else -toInt64 (b - a)

theorem toInt64_le (n : ℕ) : toInt64 n ≤ n := by
  unfold toInt64
  split <;> omega

theorem timeDiff_le {a b : ℕ} (ordered : b ≤ a) : timeDiff a b ≤ (a - b : ℕ) := by
  unfold timeDiff
  split
  · exact toInt64_le _
  · rw [show b - a = a - b by omega, show a - b = 0 by omega]
    decide

inductive ResultCode
  | notComplete
  | complete
  | singleFrame
  deriving DecidableEq

/-- The state of the transfer that is being received from one node. -/
structure TransferReceiver where
  prevTransferTs : ℕ
  thisTransferTs : ℕ
  firstFrameTs : ℕ
  transferIntervalMSec : ℕ
  thisTransferCrc : UInt16
  bufferWritePos : ℕ
  tid : TransferID
  nextToggle : Bool
  ifaceIndex : ℕ
  errorCnt : ℕ
  deriving DecidableEq

namespace TransferReceiver

def minTransferIntervalMSec : ℕ := 1

def maxTransferIntervalMSec : ℕ := 0xFFFF

def defaultTransferIntervalMSec : ℕ := 1000

def defaultTidTimeoutMSec : ℕ := 1000

/-- One more than the greatest index of an interface. -/
def ifaceIndexNotSet : ℕ := 3

/-- The constructor. -/
def init : TransferReceiver := ⟨0, 0, 0, defaultTransferIntervalMSec, 0, 0, ⟨0⟩, false, ifaceIndexNotSet, 0⟩

variable {size : ℕ} (r : TransferReceiver)

def isInitialized : Bool := r.ifaceIndex ≠ ifaceIndexNotSet

def isMidTransfer : Bool := r.bufferWritePos > 0

/-- In microseconds, like the next one. -/
def getIfaceSwitchDelay : ℤ := r.transferIntervalMSec * 1000

def getTidTimeout : ℤ := defaultTidTimeoutMSec * 1000

/-- The counter has five bits. -/
def registerError : TransferReceiver := { r with errorCnt := (r.errorCnt + 1) % 32 }

def yieldErrorCount : ℕ × TransferReceiver := (r.errorCnt, { r with errorCnt := 0 })

/-- The interval is a moving average. -/
def updateTransferTimings : TransferReceiver :=
  let prevPrevTs := r.prevTransferTs
  let prevTransferTs := r.thisTransferTs
  let intervalMSec := ((timeDiff prevTransferTs prevPrevTs).tdiv 1000 % 2 ^ 64).toNat
  let intervalMSec := max (min intervalMSec maxTransferIntervalMSec) minTransferIntervalMSec
  { r with
    prevTransferTs := prevTransferTs
    transferIntervalMSec :=
      if prevPrevTs ≠ 0 ∧ prevTransferTs ≠ 0 ∧ prevTransferTs ≥ prevPrevTs then
        (r.transferIntervalMSec * 7 + intervalMSec) / 8 % 2 ^ 16
      else r.transferIntervalMSec }

/-- The next transfer is expected with the next transfer ID. -/
def prepareForNextTransfer : TransferReceiver :=
  { r with tid := r.tid.increment, nextToggle := false, bufferWritePos := 0 }

variable (frame : RxFrame)

/-- Whether a frame is accepted; errors are counted. -/
def validate : Bool × TransferReceiver :=
  if r.ifaceIndex ≠ frame.ifaceIndex then (false, r)
  else if frame.startOfTransfer && !frame.endOfTransfer &&
    frame.payload.length < TransferCRC.numBytes then (false, r.registerError)
  else if frame.startOfTransfer && frame.toggle then (false, r.registerError)
  else
    -- an unexpected start of transfer is an error, but not a reason to reject the frame
    let r := if frame.startOfTransfer && r.isMidTransfer then r.registerError else r
    if frame.toggle ≠ r.nextToggle then (false, r.registerError)
    else if frame.transferId ≠ r.tid then (false, r.registerError)
    else (true, r)

/-- The first two bytes of a start frame, little endian. -/
def frameCrc : UInt16 :=
  (frame.payload.getD 0 0).toUInt16 ||| ((frame.payload.getD 1 0).toUInt16 <<< 8)

/-- The first two bytes of a start frame are the CRC; they are not written. -/
def writePayload (mem : Memory size) (frame : RxFrame) (buf : TransferBufferManagerEntry size) :
    Bool × TransferReceiver × TransferBufferManagerEntry size :=
  if frame.startOfTransfer then
    if frame.payload.length < TransferCRC.numBytes then (false, r, buf)
    else
      let r := { r with thisTransferCrc := frameCrc frame }
      let effective := frame.payload.drop TransferCRC.numBytes
      let (res, buf) := buf.write mem r.bufferWritePos effective
      if res = effective.length then
        (true, { r with bufferWritePos := (r.bufferWritePos + effective.length) % 2 ^ 16 }, buf)
      else (false, r, buf)
  else
    let (res, buf) := buf.write mem r.bufferWritePos frame.payload
    if res = frame.payload.length then
      (true, { r with bufferWritePos := (r.bufferWritePos + frame.payload.length) % 2 ^ 16 }, buf)
    else (false, r, buf)

/-- The buffer of the transfer, a new one if there is none. -/
def acquire (mem : Memory size) (tba : TransferBufferAccessor size) :
    Option (TransferBufferManagerEntry size) × TransferBufferAccessor size :=
  match tba.access with
  | some buf => (some buf, tba)
  | none => tba.create mem

/-- Transfer timestamps are derived from the first frame. -/
def stamp : TransferReceiver :=
  { r with
    thisTransferTs := if frame.startOfTransfer then frame.tsMono else r.thisTransferTs
    firstFrameTs := if frame.startOfTransfer then frame.tsUtc else r.firstFrameTs }

/-- A frame that was accepted; one that cannot be stored ends the transfer. -/
def receive (mem : Memory size) (frame : RxFrame) (tba : TransferBufferAccessor size) :
    ResultCode × TransferReceiver × TransferBufferAccessor size :=
  let r := r.stamp frame
  if frame.startOfTransfer && frame.endOfTransfer then
    (.singleFrame, { r.updateTransferTimings.prepareForNextTransfer with thisTransferCrc := 0 },
      tba.remove)
  else
    let (buf, tba) := acquire mem tba
    match buf with
    | none => (.notComplete, r.prepareForNextTransfer.registerError, tba)
    | some buf =>
      let (success, r, buf) := r.writePayload mem frame buf
      let tba := tba.store buf
      if !success then (.notComplete, r.prepareForNextTransfer.registerError, tba.remove)
      else
        let r := { r with nextToggle := !r.nextToggle }
        if frame.endOfTransfer then (.complete, r.updateTransferTimings.prepareForNextTransfer, tba)
        else (.notComplete, r, tba)

def isTimedOut (currentTs : ℕ) : Bool := timeDiff currentTs r.thisTransferTs > getTidTimeout

/-- Whether the frame starts the receiver anew. -/
def needRestart : Bool :=
  let notInitialized := !r.isInitialized
  let tidTimedOut := r.isTimedOut frame.tsMono
  let sameIface : Bool := frame.ifaceIndex = r.ifaceIndex
  let firstFrame := frame.startOfTransfer
  let nonWrappedTid : Bool := r.tid.computeForwardDistance frame.transferId < TransferID.half
  let notPreviousTid : Bool := frame.transferId.computeForwardDistance r.tid > 1
  let ifaceSwitchAllowed : Bool := timeDiff frame.tsMono r.thisTransferTs > r.getIfaceSwitchDelay
  notInitialized || tidTimedOut || (sameIface && firstFrame && notPreviousTid) ||
    (ifaceSwitchAllowed && firstFrame && nonWrappedTid)

/-- The receiver after a restart: it expects the first frame of the transfer of this frame. -/
def restart : TransferReceiver :=
  { r with
    errorCnt :=
      if r.isInitialized && r.tid ≠ frame.transferId then r.registerError.errorCnt else r.errorCnt
    ifaceIndex := frame.ifaceIndex % 4
    tid := frame.transferId
    nextToggle := false
    bufferWritePos := 0
    thisTransferCrc := 0 }

def getLastTransferTimestampMonotonic : ℕ := r.prevTransferTs

def getLastTransferTimestampUtc : ℕ := r.firstFrameTs

def getLastTransferCrc : UInt16 := r.thisTransferCrc

/-- A frame is ignored if it has no time or one before the transfers that were received. -/
def isOutdated : Bool :=
  frame.tsMono = 0 || frame.tsMono < r.prevTransferTs || frame.tsMono < r.thisTransferTs

/-- A restart at a frame that is not a start frame skips the transfer. -/
def addFrame (mem : Memory size) (frame : RxFrame) (tba : TransferBufferAccessor size) :
    ResultCode × TransferReceiver × TransferBufferAccessor size :=
  if r.isOutdated frame then (.notComplete, r, tba)
  else
    let restarts := r.needRestart frame
    let (r, tba) := if restarts then (r.restart frame, tba.remove) else (r, tba)
    if restarts && !frame.startOfTransfer then
      (.notComplete, { r with tid := r.tid.increment }, tba)
    else
      let (valid, r) := r.validate frame
      if !valid then (.notComplete, r, tba) else r.receive mem frame tba

/-! ## What the functions do -/

variable {r} in
theorem isInitialized_of_lt (iface : r.ifaceIndex < 3) : r.isInitialized = true :=
  decide_eq_true (Nat.ne_of_lt iface)

/-- A frame is the one that is expected next. -/
def Matches : Prop :=
  r.ifaceIndex = frame.ifaceIndex ∧ frame.toggle = r.nextToggle ∧ frame.transferId = r.tid ∧
    (frame.startOfTransfer = true → frame.toggle = false) ∧
    (frame.startOfTransfer = true → frame.endOfTransfer = false →
      TransferCRC.numBytes ≤ frame.payload.length)

instance (frame : RxFrame) : Decidable (r.Matches frame) := by
  unfold Matches
  infer_instance

/-- `validate` accepts the frames that match, and changes nothing but the error counter. -/
theorem validate_eq :
    ∃ n, r.validate frame = (decide (r.Matches frame), { r with errorCnt := n }) := by
  unfold validate
  split
  · rename_i iface
    exact ⟨r.errorCnt, by simp [Matches, iface]⟩
  rename_i iface
  split
  · rename_i short
    simp only [Bool.and_eq_true, Bool.not_eq_true', decide_eq_true_eq] at short
    refine ⟨_, Prod.ext (Eq.symm (decide_eq_false fun matched => ?_)) rfl⟩
    exact absurd (matched.2.2.2.2 short.1.1 short.1.2) (Nat.not_le_of_lt short.2)
  rename_i long
  split
  · rename_i toggled
    simp only [Bool.and_eq_true] at toggled
    refine ⟨_, Prod.ext (Eq.symm (decide_eq_false fun matched => ?_)) rfl⟩
    rw [matched.2.2.2.1 toggled.1] at toggled
    exact absurd toggled.2 (by decide)
  rename_i cleared
  -- the error of an unexpected start is counted first
  obtain ⟨n, counted⟩ : ∃ n, (if frame.startOfTransfer && r.isMidTransfer then r.registerError else r) =
      { r with errorCnt := n } := by
    split
    · exact ⟨_, rfl⟩
    · exact ⟨r.errorCnt, rfl⟩
  simp only [counted]
  split
  · rename_i toggle
    exact ⟨_, Prod.ext (Eq.symm (decide_eq_false fun matched => toggle matched.2.1)) rfl⟩
  rename_i toggle
  split
  · rename_i tid
    exact ⟨_, Prod.ext (Eq.symm (decide_eq_false fun matched => tid matched.2.2.1)) rfl⟩
  · rename_i tid
    refine ⟨n, Prod.ext (Eq.symm (decide_eq_true ⟨not_not.mp iface, not_not.mp toggle, not_not.mp tid,
      fun start => ?_, fun start more => ?_⟩)) rfl⟩
    · cases toggled : frame.toggle with
      | false => rfl
      | true => simp [start, toggled] at cleared
    · simp only [start, more, Bool.and_eq_true, Bool.not_false, decide_eq_true_eq, true_and,
        Nat.not_lt] at long
      exact long

/-- The payload that a frame brings: a start frame has the CRC in front. -/
def frameBytes : List UInt8 :=
  if frame.startOfTransfer then frame.payload.drop TransferCRC.numBytes else frame.payload

/-- The write position of a receiver lies within its buffer. -/
structure Fit (tba : TransferBufferAccessor size) : Prop where
  sound : tba.Sound
  position : r.bufferWritePos ≤ tba.content.length

variable {r} {mem : Memory size} {frame : RxFrame} {tba tba' : TransferBufferAccessor size}

theorem Fit.of_zero (sound : tba.Sound) (zero : r.bufferWritePos = 0) : r.Fit tba :=
  ⟨sound, zero ▸ Nat.zero_le _⟩

theorem acquire_cases {buf : Option (TransferBufferManagerEntry size)} (sound : tba.Sound)
    (run : acquire mem tba = (buf, tba')) :
    tba.SameElsewhere tba' ∧ tba'.access = buf ∧ tba'.Sound ∧ tba'.content = tba.content ∧
      (mem.buffer = true → buf.isSome) := by
  unfold acquire at run
  split at run
  case h_1 e found =>
    cases run
    exact ⟨.refl _, found, sound, rfl, fun _ => rfl⟩
  case h_2 absent =>
    obtain ⟨found, -, created⟩ := tba.create_cases mem
    rw [run] at found created
    have elsewhere := TransferBufferAccessor.SameElsewhere.create tba mem
    rw [run] at elsewhere
    cases room : mem.buffer with
    | false =>
      rw [room] at created
      cases created
      refine ⟨elsewhere, found, .of_none found, ?_, nofun⟩
      rw [content_of_none found, content_of_none absent]
    | true =>
      rw [room] at created
      cases created
      refine ⟨elsewhere, found, .of_access found (Nat.zero_le _) (Nat.zero_le _) ?_, ?_, fun _ => rfl⟩
      · exact elsewhere.maxBufSize.symm
      · rw [content_eq found, content_of_none absent]
        rfl

variable (r) in
/-- Whether the payload of a frame gets into the buffer. -/
def writes (mem : Memory size) (frame : RxFrame) (tba : TransferBufferAccessor size) : Bool :=
  (acquire mem tba).1.any fun buf => (r.writePayload mem frame buf).1

variable (r) in
/-- The receiver after it has written the payload of a frame. -/
def advance (frame : RxFrame) : TransferReceiver :=
  { r.stamp frame with
    thisTransferCrc := if frame.startOfTransfer then frameCrc frame else r.thisTransferCrc
    bufferWritePos := r.bufferWritePos + (frameBytes frame).length
    nextToggle := !r.nextToggle }

variable {buf : TransferBufferManagerEntry size}

section

variable (long : frame.startOfTransfer = true → TransferCRC.numBytes ≤ frame.payload.length)

include long

/-- Both branches of `writePayload` write the bytes of the frame at the write position. -/
theorem writePayload_eq :
    r.writePayload mem frame buf =
      let r := { r with
        thisTransferCrc := if frame.startOfTransfer then frameCrc frame else r.thisTransferCrc }
      let (res, buf) := buf.write mem r.bufferWritePos (frameBytes frame)
      if res = (frameBytes frame).length then
        (true,
          { r with bufferWritePos := (r.bufferWritePos + (frameBytes frame).length) % 2 ^ 16 }, buf)
      else (false, r, buf) := by
  unfold writePayload frameBytes
  cases start : frame.startOfTransfer with
  | false => rfl
  | true => simp [Nat.not_lt.mpr (long start)]

theorem writePayload_fst :
    (r.writePayload mem frame buf).1 =
      decide ((buf.write mem r.bufferWritePos (frameBytes frame)).1 = (frameBytes frame).length) := by
  rw [writePayload_eq long]
  by_cases whole : (buf.write mem r.bufferWritePos (frameBytes frame)).1 = (frameBytes frame).length
  · simp [whole]
  · simp [whole]

theorem writePayload_cases (positive : 0 < size) {r' : TransferReceiver} {success : Bool}
    {buf' : TransferBufferManagerEntry size} (filled : buf.Filled) (bounded : buf.maxWritePos ≤ buf.maxSize.toNat)
    (start : r.bufferWritePos ≤ buf.maxWritePos)
    (run : r.writePayload mem frame buf = (success, r', buf')) :
    buf'.key = buf.key ∧
      (success = true →
        r' = { r with
          thisTransferCrc := if frame.startOfTransfer then frameCrc frame else r.thisTransferCrc
          bufferWritePos := r.bufferWritePos + (frameBytes frame).length } ∧
        buf'.Filled ∧ buf'.maxWritePos ≤ buf'.maxSize.toNat ∧ buf'.maxSize = buf.maxSize ∧
        buf'.data = Buffers.splice buf.data r.bufferWritePos (frameBytes frame)) ∧
      (success = false → ∃ c, r' = { r with thisTransferCrc := c }) ∧
      ((∀ k, (mem.block k).isSome) → r.bufferWritePos + (frameBytes frame).length ≤ buf.maxSize.toNat →
        success = true) := by
  rw [writePayload_eq long] at run
  rcases written : buf.write mem r.bufferWritePos (frameBytes frame) with ⟨res, buf₁⟩
  obtain ⟨filled', key, maxSize, data, most, all, -⟩ :=
    write_cases positive filled start written
  simp only [written] at run
  split at run
  case isTrue whole =>
    cases run
    rw [whole, List.take_length] at data
    have small := buf.maxSize.toNat_lt
    refine ⟨key, fun _ => ⟨?_, filled', ?_, maxSize, data⟩, nofun, fun _ _ => rfl⟩
    · rw [Nat.mod_eq_of_lt (by omega)]
    · rw [← length_data filled', data, Buffers.length_splice,
        length_data filled, maxSize]
      · omega
      · rw [length_data filled]
        exact start
  case isFalse part =>
    cases run
    refine ⟨key, nofun, fun _ => ⟨_, rfl⟩, fun blocks room => ?_⟩
    exact absurd ((all blocks).trans (by omega)) part

/-- What `receive` does with a frame of a multi-frame transfer. -/
theorem receive_cases (positive : 0 < size) {r' : TransferReceiver} {result : ResultCode}
    (fit : r.Fit tba) (multi : (frame.startOfTransfer && frame.endOfTransfer) = false)
    (run : r.receive mem frame tba = (result, r', tba')) :
    tba.SameElsewhere tba' ∧
      ((r.writes mem frame tba = true ∧ result = (if frame.endOfTransfer then .complete else .notComplete) ∧
          r' = (if frame.endOfTransfer then (r.advance frame).updateTransferTimings.prepareForNextTransfer
            else r.advance frame) ∧
          tba'.Sound ∧ tba'.access.isSome ∧
          tba'.content = Buffers.splice tba.content r.bufferWritePos (frameBytes frame)) ∨
        (r.writes mem frame tba = false ∧ result = .notComplete ∧ tba'.access = none ∧
          ∃ c n, r' = { (r.stamp frame).prepareForNextTransfer with thisTransferCrc := c, errorCnt := n })) := by
  unfold receive at run
  simp only [multi] at run
  unfold writes
  rcases acquired : acquire mem tba with ⟨buf, tba₁⟩
  obtain ⟨elsewhere, found, sound, content, -⟩ := acquire_cases fit.sound acquired
  simp only [acquired] at run
  cases buf with
  | none =>
    cases run
    exact ⟨elsewhere, .inr ⟨rfl, rfl, found, _, _, rfl⟩⟩
  | some buf =>
    have start : (r.stamp frame).bufferWritePos ≤ buf.maxWritePos := by
      rw [← length_data (sound.filled _ found),
        ← content_eq found, content]
      exact fit.position
    -- the times do not matter for the write
    have success : ((r.stamp frame).writePayload mem frame buf).1 = (r.writePayload mem frame buf).1 := by
      rw [writePayload_fst long, writePayload_fst long]
      rfl
    rw [Option.any_some, ← success]
    rcases written : (r.stamp frame).writePayload mem frame buf with ⟨success', r₁, buf₁⟩
    obtain ⟨key, whole, part, -⟩ := writePayload_cases long positive (sound.filled _ found)
      (sound.bounded _ found) start written
    simp only [written] at run
    have stored := access_store tba₁ (key.trans (tba₁.key_of_access found)) found
    have elsewhere₁ := elsewhere.trans (.store tba₁ (key.trans (tba₁.key_of_access found)))
    cases success' with
    | false =>
      obtain ⟨c, rfl⟩ := part rfl
      cases run
      exact ⟨elsewhere₁.trans (.remove _), .inr ⟨rfl, rfl, access_remove _, _, _, rfl⟩⟩
    | true =>
      obtain ⟨rfl, filled, bounded, maxSize, data⟩ := whole rfl
      have sound' : (tba₁.store buf₁).Sound :=
        .of_access stored filled bounded (maxSize.trans (sound.maxSize _ found))
      rw [← content_eq found, content,
        ← content_eq stored] at data
      simp only [Bool.not_true, Bool.false_eq_true, if_false] at run
      split at run
      case isTrue last =>
        cases run
        exact ⟨elsewhere₁, .inl ⟨rfl, (if_pos last).symm, (if_pos last).symm, sound', by rw [stored]; rfl,
          data⟩⟩
      case isFalse more =>
        cases run
        exact ⟨elsewhere₁, .inl ⟨rfl, (if_neg more).symm, (if_neg more).symm, sound', by rw [stored]; rfl,
          data⟩⟩

/-- With enough memory, what fits into the buffer is written. -/
theorem writes_of_enough (positive : 0 < size) (fit : r.Fit tba) (enough : mem.Enough)
    (room : r.bufferWritePos + (frameBytes frame).length ≤ tba.bufmgr.maxBufSize.toNat) :
    r.writes mem frame tba = true := by
  rcases acquired : acquire mem tba with ⟨buf, tba₁⟩
  obtain ⟨elsewhere, found, sound, content, given⟩ := acquire_cases fit.sound acquired
  obtain ⟨buf, rfl⟩ := Option.isSome_iff_exists.mp (given enough.2.1)
  have start : r.bufferWritePos ≤ buf.maxWritePos := by
    rw [← length_data (sound.filled _ found),
      ← content_eq found, content]
    exact fit.position
  rw [writes, acquired, Option.any_some]
  rcases written : r.writePayload mem frame buf with ⟨success, r₁, buf₁⟩
  obtain ⟨-, -, -, all⟩ := writePayload_cases long positive (sound.filled _ found) (sound.bounded _ found) start
    written
  refine all enough.2.2 ?_
  rw [sound.maxSize _ found, elsewhere.maxBufSize]
  exact room

end

end TransferReceiver

end Uavcan
