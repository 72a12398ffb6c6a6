import Uavcan.Transport.Reception

/-!
# Transfer listeners

A listener subscribes to one data type.  It has a receiver for each node and type of transfer from which it
has got a frame, checks the CRC of complete multi-frame transfers and hands over what it has received.
-/

namespace Uavcan

open TransferBufferAccessor List Function

/-- Where the payload of a received transfer is: in its only frame or in a buffer. -/
inductive IncomingPayload (size : ℕ)
  | frame (payload : List UInt8)
  | buffer (buf : TransferBufferManagerEntry size)

/-- A received transfer as it is handed over. -/
structure IncomingTransfer (size : ℕ) where
  tsMono : ℕ
  tsUtc : ℕ
  priority : TransferPriority
  transferType : TransferType
  transferId : TransferID
  srcNodeId : NodeID
  ifaceIndex : ℕ
  payload : IncomingPayload size

namespace IncomingTransfer

variable {size : ℕ}

/-- The constructor of `SingleFrameIncomingTransfer`. -/
def ofFrame (frame : RxFrame) : IncomingTransfer size :=
  ⟨frame.tsMono, frame.tsUtc, frame.priority, frame.transferType, frame.transferId, frame.srcNodeId,
    frame.ifaceIndex, .frame frame.payload⟩

/-- The constructor of `MultiFrameIncomingTransfer`. -/
def ofBuffer (tsMono tsUtc : ℕ) (lastFrame : RxFrame) (buf : TransferBufferManagerEntry size) :
    IncomingTransfer size :=
  ⟨tsMono, tsUtc, lastFrame.priority, lastFrame.transferType, lastFrame.transferId, lastFrame.srcNodeId,
    lastFrame.ifaceIndex, .buffer buf⟩

def read (it : IncomingTransfer size) (offset len : ℕ) : List UInt8 :=
  match it.payload with
  | .frame payload =>
    if offset ≥ payload.length then []
    else
      let len := if offset + len > payload.length then payload.length - offset else len
      (payload.drop offset).take len
  | .buffer buf => buf.read offset len

/-- All of the payload. -/
def data (it : IncomingTransfer size) : List UInt8 :=
  match it.payload with
  | .frame payload => payload
  | .buffer buf => buf.data

theorem read_eq (it : IncomingTransfer size) (offset len : ℕ) :
    it.read offset len = (it.data.drop offset).take len := by
  unfold read data
  split
  · split
    · rename_i beyond
      rw [drop_eq_nil_of_le beyond, take_nil]
    · split
      · rw [take_of_length_le (by rw [length_drop]), take_of_length_le (by
          rw [length_drop]; omega)]
      · rfl
  · exact TransferBufferManagerEntry.read_eq _ _ _

end IncomingTransfer

/-- The key under which the transfers of a frame are received. -/
def RxFrame.key (frame : RxFrame) : TransferBufferManagerKey := ⟨frame.srcNodeId, frame.transferType⟩

theorem RxFrame.isEmpty_key (frame : RxFrame) (unicast : frame.srcNodeId.isUnicast) :
    frame.key.isEmpty = false := by
  simp [RxFrame.key, TransferBufferManagerKey.isEmpty, NodeID.isValid_of_isUnicast unicast]

structure TransferListener (size : ℕ) where
  bufmgr : TransferBufferManager size
  receivers : TransferBufferManagerKey → Option TransferReceiver
  perf : TransferPerfCounter
  crcBase : TransferCRC
  allowAnonymousTransfers : Bool

namespace TransferListener

variable {size : ℕ}

/-- The constructor; the size of buffers, the signature of the data type and the counters are given. -/
def construct (perf : TransferPerfCounter) (signature : UInt64) (maxBufferSize : UInt16) :
    TransferListener size :=
  ⟨⟨maxBufferSize, [], List.nodup_nil⟩, fun _ => none, perf, DataTypeSignature.toTransferCRC signature,
    false⟩

variable (l : TransferListener size)

/-- The loop of `checkPayloadCrc`, which reads 16 bytes at a time. -/
def crcLoop (tbb : TransferBufferManagerEntry size) : (rounds offset : ℕ) → TransferCRC → TransferCRC
  | 0, _, crc => crc
  | rounds + 1, offset, crc =>
    let buf := tbb.read offset 16
    if buf.length = 0 then crc else crcLoop tbb rounds (offset + buf.length) (crc.add buf)

def checkPayloadCrc (compareWith : UInt16) (tbb : TransferBufferManagerEntry size) : Bool :=
  (crcLoop tbb (tbb.maxWritePos + 1) 0 l.crcBase).value = compareWith

/-- What a receiver makes of a frame: the transfer that is handed over, if any, and the listener then.
A buffer is given back after its transfer was handed over. -/
def handleReception (mem : Memory size) (receiver : TransferReceiver) (frame : RxFrame)
    (tba : TransferBufferAccessor size) : Option (IncomingTransfer size) × TransferListener size :=
  let (result, receiver, tba) := receiver.addFrame mem frame tba
  match result with
  | .notComplete =>
    let (errors, receiver) := receiver.yieldErrorCount
    (none,
      { l with
        bufmgr := tba.bufmgr
        receivers := update l.receivers tba.key (some receiver)
        perf := l.perf.addErrors errors })
  | .singleFrame =>
    (some (.ofFrame frame),
      { l with
        bufmgr := tba.bufmgr
        receivers := update l.receivers tba.key (some receiver)
        perf := l.perf.addRxTransfer })
  | .complete =>
    let l :=
      { l with
        bufmgr := tba.bufmgr
        receivers := update l.receivers tba.key (some receiver)
        perf := l.perf.addRxTransfer }
    match tba.access with
    | none => (none, l)
    | some tbb =>
      if !l.checkPayloadCrc receiver.getLastTransferCrc tbb then (none, l)
      else
        (some (.ofBuffer receiver.getLastTransferTimestampMonotonic receiver.getLastTransferTimestampUtc
          frame tbb), { l with bufmgr := tba.remove.bufmgr })

def handleAnonymousTransferReception (frame : RxFrame) :
    Option (IncomingTransfer size) × TransferListener size :=
  if l.allowAnonymousTransfers then (some (.ofFrame frame), { l with perf := l.perf.addRxTransfer })
  else (none, l)

/-- The accessor for the buffer of a key. -/
def accessor (key : TransferBufferManagerKey) (valid : key.isEmpty = false) :
    TransferBufferAccessor size :=
  ⟨l.bufmgr, key, valid⟩

def handleFrame (mem : Memory size) (frame : RxFrame) :
    Option (IncomingTransfer size) × TransferListener size :=
  if unicast : frame.srcNodeId.isUnicast then
    let tba := l.accessor frame.key (frame.isEmpty_key unicast)
    match l.receivers frame.key with
    | none =>
      if !frame.startOfTransfer then (none, l)
      else if !mem.receiver then (none, l)
      else l.handleReception mem .init frame tba
    | some recv => l.handleReception mem recv frame tba
  else if frame.srcNodeId.isBroadcast && frame.startOfTransfer && frame.endOfTransfer &&
      frame.dstNodeId.isBroadcast then
    l.handleAnonymousTransferReception frame
  else (none, l)

/-- The listener gets frames one after another: each frame with the transfer that was handed over then, if
any, and the listener in the end. -/
def handleFrames (l : TransferListener size) : List (Memory size × RxFrame) →
    List (RxFrame × Option (IncomingTransfer size)) × TransferListener size
  | [] => ([], l)
  | (mem, frame) :: rest =>
    let (it, l) := l.handleFrame mem frame
    let (handled, l) := l.handleFrames rest
    ((frame, it) :: handled, l)

/-- `cleanup` removes the receivers that have timed out, with their buffers. -/
def cleanup (ts : ℕ) : TransferListener size :=
  { l with
    bufmgr :=
      { l.bufmgr with
        buffers := l.bufmgr.buffers.filter fun e => !(l.receivers e.key).any fun r => r.isTimedOut ts
        nodup := l.bufmgr.nodup.sublist (List.filter_sublist.map _) }
    receivers := fun key => (l.receivers key).filter fun r => !r.isTimedOut ts }

/-! ## What the functions do -/

variable {l} {mem : Memory size} {frame : RxFrame}

/-- The loop computes the CRC of the data from its offset on. -/
theorem crcLoop_eq {tbb : TransferBufferManagerEntry size} {rounds offset : ℕ}
    (enough : tbb.data.length < offset + rounds) (crc : TransferCRC) :
    crcLoop tbb rounds offset crc = crc.add (tbb.data.drop offset) := by
  induction rounds generalizing offset crc with
  | zero =>
    rw [drop_of_length_le (by omega)]
    rfl
  | succ rounds ih =>
    unfold crcLoop
    simp only [TransferBufferManagerEntry.read_eq]
    split
    case isTrue done =>
      have none_left : tbb.data.drop offset = [] := by
        rw [length_eq_zero_iff, take_eq_nil_iff] at done
        exact done.resolve_left (by decide)
      rw [none_left]
      rfl
    case isFalse more =>
      rw [ih (by omega), ← TransferCRC.add_append, ← drop_drop]
      conv_rhs => rw [← take_append_drop 16 (tbb.data.drop offset)]
      rw [length_take, Buffers.drop_min_length]

theorem checkPayloadCrc_eq {tbb : TransferBufferManagerEntry size} (filled : tbb.Filled)
    (compareWith : UInt16) :
    l.checkPayloadCrc compareWith tbb = decide ((l.crcBase.add tbb.data).value = compareWith) := by
  rw [checkPayloadCrc, crcLoop_eq (by rw [TransferBufferManagerEntry.length_data filled]; omega),
    drop_zero]

/-- What the listener makes of the result of its receiver.  A complete transfer is handed over exactly if
the CRC of the buffer is the one from the first frame. -/
def Reacts (l : TransferListener size) (frame : RxFrame) (receiver : TransferReceiver)
    (tba : TransferBufferAccessor size) (it : Option (IncomingTransfer size))
    (bufmgr : TransferBufferManager size) : ResultCode → Prop
  | .notComplete => it = none ∧ bufmgr = tba.bufmgr
  | .singleFrame => it = some (.ofFrame frame) ∧ bufmgr = tba.bufmgr
  | .complete =>
    if (l.crcBase.add tba.content).value = receiver.getLastTransferCrc then
      bufmgr = tba.remove.bufmgr ∧ ∃ tbb, tba.access = some tbb ∧
        it = some (.ofBuffer receiver.getLastTransferTimestampMonotonic
          receiver.getLastTransferTimestampUtc frame tbb)
    else it = none ∧ bufmgr = tba.bufmgr

variable {r : TransferReceiver} {tba : TransferBufferAccessor size}
  {it : Option (IncomingTransfer size)} {l' : TransferListener size}

theorem handleReception_cases {receiver : TransferReceiver} {tba' : TransferBufferAccessor size} {result : ResultCode}
    (added : receiver.addFrame mem frame tba = (result, r, tba'))
    (complete : result = .complete → tba'.Sound ∧ tba'.access.isSome)
    (run : l.handleReception mem receiver frame tba = (it, l')) :
    l'.crcBase = l.crcBase ∧
      (∃ n, l'.receivers = update l.receivers tba'.key (some { r with errorCnt := n })) ∧
      l.Reacts frame r tba' it l'.bufmgr result := by
  simp only [handleReception, added] at run
  cases result with
  | notComplete =>
    cases run
    exact ⟨rfl, ⟨_, rfl⟩, rfl, rfl⟩
  | singleFrame =>
    cases run
    exact ⟨rfl, ⟨_, rfl⟩, rfl, rfl⟩
  | complete =>
    obtain ⟨sound, present⟩ := complete rfl
    obtain ⟨tbb, found⟩ := Option.isSome_iff_exists.mp present
    simp only [found, checkPayloadCrc_eq (sound.filled tbb found)] at run
    simp only [Reacts, content_eq found]
    split
    case isTrue equal =>
      simp only [equal] at run
      cases run
      exact ⟨rfl, ⟨_, rfl⟩, rfl, tbb, found, rfl⟩
    case isFalse differ =>
      simp only [differ] at run
      cases run
      exact ⟨rfl, ⟨_, rfl⟩, rfl, rfl⟩

/-- Two listeners have received the same from one key. -/
structure SameFor (l l' : TransferListener size) (key : TransferBufferManagerKey) : Prop where
  receiver : l'.receivers key = l.receivers key
  buffer : l'.bufmgr.findFirst key = l.bufmgr.findFirst key
  maxBufSize : l'.bufmgr.maxBufSize = l.bufmgr.maxBufSize
  crcBase : l'.crcBase = l.crcBase

theorem SameFor.refl (l : TransferListener size) (key : TransferBufferManagerKey) : l.SameFor l key :=
  ⟨rfl, rfl, rfl, rfl⟩

variable {key : TransferBufferManagerKey}

theorem SameFor.trans {l'' : TransferListener size} (first : l.SameFor l' key)
    (second : l'.SameFor l'' key) : l.SameFor l'' key :=
  ⟨second.receiver.trans first.receiver, second.buffer.trans first.buffer,
    second.maxBufSize.trans first.maxBufSize, second.crcBase.trans first.crcBase⟩

theorem SameFor.access (same : l.SameFor l' key) (valid : key.isEmpty = false) :
    (l'.accessor key valid).access = (l.accessor key valid).access := by
  rw [access_eq, access_eq]
  exact same.buffer

/-- Every buffer is filled as far as it was written, and every write position lies within its buffer. -/
structure Sound (l : TransferListener size) : Prop where
  buffer : ∀ key valid, (l.accessor key valid).Sound
  position : ∀ key valid r, l.receivers key = some r →
    r.bufferWritePos ≤ (l.accessor key valid).content.length

theorem Sound.fit (sound : l.Sound) (found : l.receivers key = some r)
    (valid : key.isEmpty = false) : r.Fit (l.accessor key valid) :=
  ⟨sound.buffer key valid, sound.position key valid r found⟩

/-- The receiver that gets a frame: the one of its key, or a new one for a first frame. -/
def receiverOf (l : TransferListener size) (mem : Memory size) (frame : RxFrame) :
    Option TransferReceiver :=
  match l.receivers frame.key with
  | none => if frame.startOfTransfer && mem.receiver then some .init else none
  | some recv => some recv

theorem handleFrame_eq (unicast : frame.srcNodeId.isUnicast) :
    l.handleFrame mem frame =
      match l.receiverOf mem frame with
      | none => (none, l)
      | some recv => l.handleReception mem recv frame (l.accessor frame.key (frame.isEmpty_key unicast)) := by
  simp only [handleFrame, unicast, receiverOf]
  cases l.receivers frame.key with
  | some recv => rfl
  | none => cases frame.startOfTransfer <;> cases mem.receiver <;> rfl

theorem Sound.fit_receiverOf (sound : l.Sound) (found : l.receiverOf mem frame = some r)
    (valid : frame.key.isEmpty = false) :
    r.Fit (l.accessor frame.key valid) := by
  unfold receiverOf at found
  split at found
  case h_1 =>
    obtain ⟨-, same⟩ := Option.ite_none_right_eq_some.mp found
    cases same
    exact .of_zero (sound.buffer _ valid) rfl
  case h_2 recv known =>
    cases found
    exact sound.fit known valid

/-- The listener keeps the buffer as its receiver left it, or gives it back after a complete transfer. -/
theorem Reacts.bufmgr_eq {bufmgr : TransferBufferManager size} {result : ResultCode}
    (reacts : l.Reacts frame r tba it bufmgr result) :
    bufmgr = tba.bufmgr ∨ (result = .complete ∧ bufmgr = tba.remove.bufmgr) := by
  cases result with
  | notComplete => exact .inl reacts.2
  | singleFrame => exact .inl reacts.2
  | complete =>
    simp only [Reacts] at reacts
    split at reacts
    · exact .inr ⟨rfl, reacts.1⟩
    · exact .inl reacts.2

/-- What a frame does to the receiver and the buffer of its key, and to the listener. -/
structure Handles (l : TransferListener size) (mem : Memory size) (frame : RxFrame)
    (r : TransferReceiver) (tba : TransferBufferAccessor size) (it : Option (IncomingTransfer size))
    (l' : TransferListener size) (result : ResultCode) (r' : TransferReceiver)
    (tba' : TransferBufferAccessor size) : Prop where
  outcome : r.Outcome frame tba (r.verdict mem frame tba) result r' tba'
  elsewhere : tba.SameElsewhere tba'
  crcBase : l'.crcBase = l.crcBase
  receivers : ∃ n, l'.receivers = update l.receivers frame.key (some { r' with errorCnt := n })
  reacts : l.Reacts frame r' tba' it l'.bufmgr result

theorem handleFrame_cases (positive : 0 < size) (sound : l.Sound) (unicast : frame.srcNodeId.isUnicast)
    (found : l.receiverOf mem frame = some r) (run : l.handleFrame mem frame = (it, l')) :
    ∃ result r' tba', l.Handles mem frame r (l.accessor frame.key (frame.isEmpty_key unicast)) it l'
      result r' tba' := by
  have fit := sound.fit_receiverOf found (frame.isEmpty_key unicast)
  rw [handleFrame_eq unicast, found] at run
  rcases added : r.addFrame mem frame (l.accessor frame.key (frame.isEmpty_key unicast)) with
    ⟨result, r', tba'⟩
  obtain ⟨elsewhere, outcome⟩ := TransferReceiver.addFrame_cases positive fit added
  have complete : result = .complete → tba'.Sound ∧ tba'.access.isSome := by
    rintro rfl
    exact outcome.buffer_of_complete
  obtain ⟨crcBase, receivers, reacts⟩ := handleReception_cases added complete run
  rw [elsewhere.key] at receivers
  exact ⟨result, r', tba', outcome, elsewhere, crcBase, receivers, reacts⟩

theorem accessor_eq {valid : key.isEmpty = false} (same : tba.key = key)
    (bufmgr : l'.bufmgr = tba.bufmgr) : l'.accessor key valid = tba := by
  subst same
  simp only [accessor, bufmgr]

namespace Handles

variable {r r' : TransferReceiver} {valid : frame.key.isEmpty = false}
  {tba' : TransferBufferAccessor size} {it : Option (IncomingTransfer size)}
  {l' : TransferListener size} {result : ResultCode}

section

variable (handles : l.Handles mem frame r (l.accessor frame.key valid) it l' result r' tba')

include handles

theorem sameFor
    (other : key ≠ frame.key) : l.SameFor l' key := by
  obtain ⟨n, receivers⟩ := handles.receivers
  have elsewhere : ∃ tba'' : TransferBufferAccessor size,
      (l.accessor frame.key valid).SameElsewhere tba'' ∧ l'.bufmgr = tba''.bufmgr := by
    rcases handles.reacts.bufmgr_eq with same | ⟨-, removed⟩
    · exact ⟨tba', handles.elsewhere, same⟩
    · exact ⟨tba'.remove, handles.elsewhere.trans (.remove tba'), removed⟩
  obtain ⟨tba'', same, bufmgr⟩ := elsewhere
  refine ⟨?_, ?_, ?_, handles.crcBase⟩
  · rw [receivers, update_of_ne other]
  · rw [bufmgr]
    exact same.others key other
  · rw [bufmgr]
    exact same.maxBufSize

theorem fit
    (before : r.Fit (l.accessor frame.key valid)) : r'.Fit (l'.accessor frame.key valid) := by
  have after := handles.outcome.fit before
  have key : tba'.key = frame.key := handles.elsewhere.key
  rcases handles.reacts.bufmgr_eq with same | ⟨rfl, removed⟩
  · rw [accessor_eq key same]
    exact after
  · rw [accessor_eq (tba'.key_remove.trans key) removed]
    exact .of_zero (.of_none tba'.access_remove) handles.outcome.bufferWritePos_of_complete

theorem sound
    (before : r.Fit (l.accessor frame.key valid)) (sound : l.Sound) : l'.Sound := by
  have after := handles.fit before
  obtain ⟨n, receivers⟩ := handles.receivers
  constructor
  · intro key valid'
    by_cases own : key = frame.key
    · subst own
      exact after.sound
    · have same := handles.sameFor own
      exact (sound.buffer key valid').congr (same.access valid') same.maxBufSize
  · intro key valid' recv found
    by_cases own : key = frame.key
    · subst own
      rw [receivers, update_self] at found
      cases found
      exact after.position
    · have same := handles.sameFor own
      rw [content_congr (same.access valid')]
      exact sound.position key valid' recv (same.receiver ▸ found)

end

end Handles

theorem handleFrame_of_none (unicast : frame.srcNodeId.isUnicast)
    (absent : l.receiverOf mem frame = none) : l.handleFrame mem frame = (none, l) := by
  rw [handleFrame_eq unicast, absent]

theorem handleFrame_of_not_unicast (l : TransferListener size) (mem : Memory size)
    (anonymous : ¬ frame.srcNodeId.isUnicast) :
    ∃ perf, (l.handleFrame mem frame).2 = { l with perf := perf } := by
  rw [handleFrame, dif_neg anonymous]
  split
  · unfold handleAnonymousTransferReception
    split
    · exact ⟨_, rfl⟩
    · exact ⟨_, rfl⟩
  · exact ⟨_, rfl⟩

theorem handleFrame_sound (positive : 0 < size) (sound : l.Sound) (mem : Memory size) (frame : RxFrame) :
    (l.handleFrame mem frame).2.Sound := by
  by_cases unicast : frame.srcNodeId.isUnicast
  · cases found : l.receiverOf mem frame with
    | none =>
      rw [handleFrame_of_none unicast found]
      exact sound
    | some r =>
      obtain ⟨_, _, _, handles⟩ := handleFrame_cases positive sound unicast found rfl
      exact handles.sound (sound.fit_receiverOf found _) sound
  · obtain ⟨perf, same⟩ := handleFrame_of_not_unicast l mem unicast
    rw [same]
    exact ⟨sound.buffer, sound.position⟩

theorem handleFrame_sameFor (positive : 0 < size) (sound : l.Sound) (mem : Memory size)
    (other : frame.key ≠ key) : l.SameFor (l.handleFrame mem frame).2 key := by
  by_cases unicast : frame.srcNodeId.isUnicast
  · cases found : l.receiverOf mem frame with
    | none =>
      rw [handleFrame_of_none unicast found]
      exact .refl l key
    | some r =>
      obtain ⟨_, _, _, handles⟩ := handleFrame_cases positive sound unicast found rfl
      exact handles.sameFor other.symm
  · obtain ⟨perf, same⟩ := handleFrame_of_not_unicast l mem unicast
    rw [same]
    exact ⟨rfl, rfl, rfl, rfl⟩

theorem handleFrame_config (positive : 0 < size) (sound : l.Sound) (mem : Memory size) (frame : RxFrame) :
    (l.handleFrame mem frame).2.bufmgr.maxBufSize = l.bufmgr.maxBufSize ∧
      (l.handleFrame mem frame).2.crcBase = l.crcBase := by
  -- any key but the one of the frame will do
  obtain ⟨type, other⟩ : ∃ type, frame.transferType ≠ type := by
    cases frame.transferType with
    | messageBroadcast => exact ⟨.serviceRequest, by decide⟩
    | _ => exact ⟨.messageBroadcast, by decide⟩
  have same : l.SameFor (l.handleFrame mem frame).2 ⟨frame.srcNodeId, type⟩ :=
    handleFrame_sameFor positive sound mem fun equal => other (congrArg (·.transferType) equal)
  exact ⟨same.maxBufSize, same.crcBase⟩

theorem sound_construct (perf : TransferPerfCounter) (signature : UInt64) (maxBufferSize : UInt16) :
    (construct perf signature maxBufferSize : TransferListener size).Sound where
  buffer _ _ := .of_none (by rw [access_eq]; rfl)
  position _ _ _ found := nomatch found

/-- What `cleanup` leaves of a key: its receiver and its buffer, or neither. -/
theorem cleanup_cases (l : TransferListener size) (ts : ℕ) (key : TransferBufferManagerKey) :
    (∃ r, l.receivers key = some r ∧ r.isTimedOut ts = true ∧ (l.cleanup ts).receivers key = none ∧
      (l.cleanup ts).bufmgr.findFirst key = none) ∨
    ((∀ r, l.receivers key = some r → r.isTimedOut ts = false) ∧ l.SameFor (l.cleanup ts) key) := by
  have buffers : (l.cleanup ts).bufmgr.findFirst key = l.bufmgr.buffers.find? fun e =>
      !((l.receivers key).any fun r => r.isTimedOut ts) && decide (e.key = key) := by
    simp only [TransferBufferManager.findFirst, cleanup, find?_filter]
    congr 1
    funext e
    by_cases same : e.key = key
    · simp [same]
    · simp [same]
  cases gone : (l.receivers key).any fun r => r.isTimedOut ts with
  | true =>
    cases found : l.receivers key with
    | none => simp [found] at gone
    | some r =>
      have timedOut : r.isTimedOut ts = true := by simpa [found] using gone
      refine .inl ⟨r, rfl, timedOut, ?_, ?_⟩
      · simp [cleanup, found, timedOut]
      · rw [buffers, gone]
        simp
  | false =>
    have stays : ∀ r, l.receivers key = some r → r.isTimedOut ts = false := by
      intro r found
      simpa [found] using gone
    refine .inr ⟨stays, ?_, ?_, rfl, rfl⟩
    · cases found : l.receivers key with
      | none => simp [cleanup, found]
      | some r => simp [cleanup, found, stays r found]
    · rw [buffers, gone]
      simp [TransferBufferManager.findFirst]

theorem Sound.cleanup (sound : l.Sound) (ts : ℕ) : (l.cleanup ts).Sound := by
  constructor
  · intro key valid
    rcases cleanup_cases l ts key with ⟨r, -, -, -, removed⟩ | ⟨-, same⟩
    · exact .of_none ((access_eq _).trans removed)
    · exact (sound.buffer key valid).congr (same.access valid) same.maxBufSize
  · intro key valid recv found
    rcases cleanup_cases l ts key with ⟨r, -, -, gone, -⟩ | ⟨-, same⟩
    · rw [gone] at found
      cases found
    · rw [content_congr (same.access valid)]
      exact sound.position key valid recv (same.receiver ▸ found)

end TransferListener

/-- The states of a listener from its construction on. -/
inductive ListenerRun {size : ℕ} : TransferListener size → Prop
  | construct (perf : TransferPerfCounter) (signature : UInt64) (maxBufferSize : UInt16) :
    ListenerRun (.construct perf signature maxBufferSize)
  | handleFrame {l : TransferListener size} (mem : Memory size) (frame : RxFrame) :
    ListenerRun l → ListenerRun (l.handleFrame mem frame).2
  | cleanup {l : TransferListener size} (ts : ℕ) : ListenerRun l → ListenerRun (l.cleanup ts)
  | allowAnonymousTransfers {l : TransferListener size} :
    ListenerRun l → ListenerRun { l with allowAnonymousTransfers := true }

theorem ListenerRun.sound {size : ℕ} (positive : 0 < size) {l : TransferListener size}
    (run : ListenerRun l) : l.Sound := by
  induction run with
  | construct => exact TransferListener.sound_construct ..
  | handleFrame mem frame _ ih => exact TransferListener.handleFrame_sound positive ih mem frame
  | cleanup ts _ ih => exact ih.cleanup ts
  | allowAnonymousTransfers _ ih => exact ⟨ih.buffer, ih.position⟩

end Uavcan
