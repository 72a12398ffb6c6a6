import Uavcan.Buffers.Overwrite
import Uavcan.Transport.Frame

/-!
# Sending transfers

`send` cuts a payload into frames. A payload that fits into one frame is sent as it is. A longer one has its
CRC in front, and the toggle bit alternates from frame to frame. `io` says what the driver answers to each
frame; what was sent is the list of the frames that it has taken.
-/

namespace Uavcan

open List

/-- A sender; `nodeId` is the node ID of its dispatcher. -/
structure TransferSender where
  maxTransferInterval : ℤ
  nodeId : NodeID
  priority : TransferPriority
  crcBase : TransferCRC
  dataTypeId : DataTypeID
  allowAnonymousTransfers : Bool

namespace TransferSender

/-- `Dispatcher::send`: the frame is compiled and given to the driver. -/
def dispatch (io : Except Err ℕ) (frame : Frame) : Except Err (ℕ × CanFrame) :=
  match frame.compile with
  | none => .error .logic
  | some can => io.map fun res => (res, can)

/-- The frame after `frame`, and the offset behind it. -/
def nextFrame (payload : List UInt8) (offset : ℕ) (frame : Frame) : Frame × ℕ :=
  let frame := { frame with startOfTransfer := false, toggle := !frame.toggle }
  let (frame, writeRes) := frame.setPayload (payload.drop offset)
  let offset := offset + writeRes
  (if offset ≥ payload.length then { frame with endOfTransfer := true } else frame, offset)

/-- The loop of a multi-frame transfer. -/
def sendLoop (io : ℕ → Except Err ℕ) (payload : List UInt8) :
    (rounds numSent offset : ℕ) → Frame → Except Err ℕ × List CanFrame
  | 0, _, _, _ => (.error .logic, [])
  | rounds + 1, numSent, offset, frame =>
    match dispatch (io numSent) frame with
    | .error err => (.error err, [])
    | .ok (_, can) =>
      if frame.endOfTransfer then (.ok (numSent + 1), [can])
      else
        let (frame, offset) := nextFrame payload offset frame
        let (res, rest) := sendLoop io payload rounds (numSent + 1) offset frame
        (res, can :: rest)

variable (s : TransferSender)

/-- The frame with which `send` starts. -/
def header (transferType : TransferType) (dstNodeId : NodeID) (tid : TransferID) : Frame where
  payload := []
  priority := s.priority
  transferType := transferType
  dataTypeId := s.dataTypeId
  srcNodeId := s.nodeId
  dstNodeId := dstNodeId
  transferId := tid
  startOfTransfer := true
  endOfTransfer := false
  toggle := false

/-- The transfer CRC, little endian, and the beginning of the payload. -/
def firstBytes (payload : List UInt8) : List UInt8 :=
  let crc := (s.crcBase.add payload).value
  (crc &&& 0xFF).toUInt8 :: ((crc >>> 8) &&& 0xFF).toUInt8 :: payload.take (CanFrame.maxDataLen - 2)

/-- `send` with an explicit transfer ID. -/
def send (io : ℕ → Except Err ℕ) (perf : TransferPerfCounter) (payload : List UInt8)
    (transferType : TransferType) (dstNodeId : NodeID) (tid : TransferID) :
    Except Err ℕ × List CanFrame × TransferPerfCounter :=
  let frame := s.header transferType dstNodeId tid
  -- in passive mode only anonymous transfers can be sent, if they are enabled
  if !s.nodeId.isUnicast && !(s.allowAnonymousTransfers && transferType = .messageBroadcast &&
      payload.length ≤ Frame.payloadCapacity) then
    (.error .passiveMode, [], perf)
  else
    let perf := perf.addTxTransfer
    if Frame.payloadCapacity ≥ payload.length then
      let (frame, res) := frame.setPayload payload
      if res ≠ payload.length then (.error .logic, [], perf.addError)
      else
        match dispatch (io 0) { frame with endOfTransfer := true } with
        | .error err => (.error err, [], perf)
        | .ok (res, can) => (.ok res, [can], perf)
    else
      let (frame, writeRes) := frame.setPayload (s.firstBytes payload)
      if writeRes < 2 then (.ok writeRes, [], perf.addError)
      else
        match sendLoop io payload (payload.length + 1) 0 (writeRes - 2) frame with
        | (.error err, sent) => (.error err, sent, perf.addError)
        | (.ok numSent, sent) => (.ok numSent, sent, perf)

end TransferSender

/-! ## The frames of a transfer -/

/-- Everything in the header of a frame is valid. -/
structure Frame.Addressed (header : Frame) : Prop where
  unicast : header.srcNodeId.isUnicast
  dst : header.dstNodeId.isValid
  other : header.srcNodeId ≠ header.dstNodeId
  type : header.transferType ≠ .numTransferTypes
  broadcast : header.transferType = .messageBroadcast ↔ header.dstNodeId.isBroadcast
  dataType : header.dataTypeId.isValidForDataTypeKind (getDataTypeKindForTransferType header.transferType)
  priority : header.priority.isValid

/-- A frame with this header. -/
def Frame.part (header : Frame) (payload : List UInt8) (start stop toggle : Bool) : Frame :=
  { header with payload, startOfTransfer := start, endOfTransfer := stop, toggle }

@[simp] theorem Frame.endOfTransfer_part (header : Frame) (payload : List UInt8) (start stop toggle : Bool) :
    (header.part payload start stop toggle).endOfTransfer = stop := rfl

theorem Frame.Addressed.isValid_part {header : Frame} (addressed : header.Addressed) {payload : List UInt8}
    {start stop toggle : Bool} (short : payload.length ≤ payloadCapacity)
    (clear : start = true → toggle = false) : (header.part payload start stop toggle).isValid := by
  refine isValid_iff.mpr ⟨fun ⟨first, toggled⟩ => ?_, NodeID.isValid_of_isUnicast addressed.unicast,
    addressed.dst, fun ⟨_, same⟩ => addressed.other same, addressed.type, addressed.broadcast,
    fun anonymous => ?_, short, addressed.dataType, addressed.priority⟩
  · exact absurd (clear first) (by simp [show toggle = true from toggled])
  · exact absurd anonymous (by simp [part, NodeID.isBroadcast_eq_false addressed.unicast])

/-- The frames after the first one of a transfer, with the toggle bit of the next frame and the bytes that
they carry. -/
inductive Chunks (header : Frame) : Bool → List UInt8 → List Frame → Prop
  | last {toggle : Bool} {chunk : List UInt8} : Chunks header toggle chunk [header.part chunk false true toggle]
  | more {toggle : Bool} {chunk bytes : List UInt8} {rest : List Frame} :
    Chunks header (!toggle) bytes rest →
    Chunks header toggle (chunk ++ bytes) (header.part chunk false false toggle :: rest)

/-- The two bytes of a transfer CRC, little endian. -/
def TransferCRC.bytes (crc : TransferCRC) : List UInt8 :=
  [(crc.value &&& 0xFF).toUInt8, ((crc.value >>> 8) &&& 0xFF).toUInt8]

/-- The frames of the transfer of a payload. -/
inductive Fragments (crcBase : TransferCRC) (header : Frame) : List UInt8 → List Frame → Prop
  | single {payload : List UInt8} : Fragments crcBase header payload [header.part payload true true false]
  | multi {chunk bytes : List UInt8} {rest : List Frame} : Chunks header true bytes rest →
    Fragments crcBase header (chunk ++ bytes)
      (header.part ((crcBase.add (chunk ++ bytes)).bytes ++ chunk) true false false :: rest)

namespace TransferSender

variable {io : ℕ → Except Err ℕ} {payload chunk : List UInt8} {header : Frame} {offset : ℕ}

theorem nextFrame_part (start toggle : Bool) :
    nextFrame payload offset (header.part chunk start false toggle) =
      (header.part ((payload.drop offset).take Frame.payloadCapacity) false
        (decide (payload.length ≤ offset + min Frame.payloadCapacity (payload.drop offset).length)) (!toggle),
        offset + min Frame.payloadCapacity (payload.drop offset).length) := by
  have take : (payload.drop offset).take (min Frame.payloadCapacity (payload.drop offset).length) =
      (payload.drop offset).take Frame.payloadCapacity := by
    rw [← take_take, take_length]
  simp only [nextFrame, Frame.setPayload, Frame.part, take]
  split
  case isTrue stop => rw [decide_eq_true stop]
  case isFalse more => rw [decide_eq_false more]

theorem dispatch_part (addressed : header.Addressed) (chunk : List UInt8) (start stop toggle : Bool)
    (res : ℕ) (short : chunk.length ≤ Frame.payloadCapacity) (clear : start = true → toggle = false) :
    ∃ can, (header.part chunk start stop toggle).compile = some can ∧
      dispatch (.ok res) (header.part chunk start stop toggle) = .ok (res, can) := by
  obtain ⟨can, compiled, -⟩ := Frame.parse_compile (addressed.isValid_part short clear) addressed.unicast
  exact ⟨can, compiled, by simp [dispatch, compiled, Except.map]⟩

/-- The loop sends what is in its frame and the rest of the payload. -/
theorem sendLoop_chunks (addressed : header.Addressed) (accepted : ∀ k, ∃ res, io k = .ok res)
    (payload : List UInt8) (rounds numSent offset : ℕ) (chunk : List UInt8) (toggle : Bool)
    (inside : offset ≤ payload.length) (enough : payload.length < offset + rounds)
    (short : chunk.length ≤ Frame.payloadCapacity) :
    ∃ frames sent, sendLoop io payload rounds numSent offset
        (header.part chunk false (decide (payload.length ≤ offset)) toggle) =
          (.ok (numSent + frames.length), sent) ∧
      List.Forall₂ (fun frame can => Frame.compile frame = some can) frames sent ∧
      Chunks header toggle (chunk ++ payload.drop offset) frames := by
  induction rounds generalizing numSent offset toggle chunk with
  | zero => omega
  | succ rounds ih =>
    obtain ⟨res, taken⟩ := accepted numSent
    by_cases stop : payload.length ≤ offset
    · obtain ⟨can, compiled, sent⟩ :=
        dispatch_part addressed chunk false true toggle res short (by simp)
      refine ⟨[header.part chunk false true toggle], [can], ?_, .cons compiled .nil, ?_⟩
      · simp [sendLoop, taken, stop, sent]
      · rw [drop_of_length_le stop, append_nil]
        exact .last
    · obtain ⟨can, compiled, sent⟩ :=
        dispatch_part addressed chunk false false toggle res short (by simp)
      have progress : 0 < min Frame.payloadCapacity (payload.drop offset).length := by
        rw [length_drop, Frame.payloadCapacity]
        omega
      have rest : payload.drop offset = (payload.drop offset).take Frame.payloadCapacity ++
          payload.drop (offset + min Frame.payloadCapacity (payload.drop offset).length) := by
        rw [← drop_drop, Buffers.drop_min_length, take_append_drop]
      obtain ⟨frames, cans, loop, compiles, chunks⟩ := ih (numSent + 1)
        (offset + min Frame.payloadCapacity (payload.drop offset).length)
        ((payload.drop offset).take Frame.payloadCapacity) (!toggle)
        (by rw [length_drop]; omega) (by omega) (length_take_le _ _)
      refine ⟨header.part chunk false false toggle :: frames, can :: cans, ?_, .cons compiled compiles, ?_⟩
      · rw [sendLoop, taken, decide_eq_false stop, sent]
        simp only [Frame.endOfTransfer_part, Bool.false_eq_true, if_false, nextFrame_part, loop]
        rw [length_cons, Nat.add_assoc, Nat.add_comm 1]
      · rw [rest]
        exact .more chunks

/-- If the driver takes every frame, `send` sends the frames of the transfer. -/
theorem send_fragments {s : TransferSender} {transferType : TransferType} {dstNodeId : NodeID}
    {tid : TransferID} (addressed : (s.header transferType dstNodeId tid).Addressed)
    (accepted : ∀ k, ∃ res, io k = .ok res) (perf : TransferPerfCounter) (payload : List UInt8) :
    ∃ n frames sent perf', s.send io perf payload transferType dstNodeId tid = (.ok n, sent, perf') ∧
      List.Forall₂ (fun frame can => Frame.compile frame = some can) frames sent ∧
      Fragments s.crcBase (s.header transferType dstNodeId tid) payload frames := by
  have active : s.nodeId.isUnicast = true := addressed.unicast
  obtain ⟨res, taken⟩ := accepted 0
  by_cases fits : payload.length ≤ Frame.payloadCapacity
  · have set : (s.header transferType dstNodeId tid).setPayload payload =
        ((s.header transferType dstNodeId tid).part payload true false false, payload.length) := by
      simp only [Frame.setPayload, Nat.min_eq_right fits, take_length]
      rfl
    obtain ⟨can, compiled, sent⟩ := dispatch_part addressed payload true true false res fits (fun _ => rfl)
    refine ⟨res, _, [can], perf.addTxTransfer, ?_, .cons compiled .nil, .single⟩
    have sent' : dispatch (io 0) { (s.header transferType dstNodeId tid).part payload true false false with
        endOfTransfer := true } = .ok (res, can) := taken ▸ sent
    simp [send, active, fits, set, sent']
  · have long : 8 ≤ payload.length := Nat.lt_of_not_le fits
    have set : (s.header transferType dstNodeId tid).setPayload (s.firstBytes payload) =
        ((s.header transferType dstNodeId tid).part
          ((s.crcBase.add payload).bytes ++ payload.take 5) true false false, 7) := by
      have length : (s.firstBytes payload).length = 8 := by
        simp only [firstBytes, length_cons, length_take, CanFrame.maxDataLen]
        omega
      have take : (s.firstBytes payload).take 7 = (s.crcBase.add payload).bytes ++ payload.take 5 := by
        simp [firstBytes, TransferCRC.bytes, CanFrame.maxDataLen, take_take]
      rw [Frame.setPayload, length, show min Frame.payloadCapacity 8 = 7 from rfl, take]
      rfl
    -- the first frame, and the loop from the second one on
    obtain ⟨can, compiled, sent⟩ := dispatch_part addressed
      ((s.crcBase.add payload).bytes ++ payload.take 5) true false false res
      (by rw [length_append]; exact Nat.add_le_add_left (length_take_le 5 payload) 2) (fun _ => rfl)
    obtain ⟨frames, cans, loop, compiles, chunks⟩ := sendLoop_chunks addressed accepted payload
      payload.length 1 (5 + min Frame.payloadCapacity (payload.drop 5).length)
      ((payload.drop 5).take Frame.payloadCapacity) true (by rw [length_drop]; omega) (by omega)
      (length_take_le _ _)
    rw [← drop_drop, Buffers.drop_min_length, take_append_drop] at chunks
    have whole : Fragments s.crcBase (s.header transferType dstNodeId tid)
        (payload.take 5 ++ payload.drop 5) _ := .multi chunks
    rw [take_append_drop] at whole
    refine ⟨1 + frames.length, _, can :: cans, perf.addTxTransfer, ?_, .cons compiled compiles, whole⟩
    have first : sendLoop io payload (payload.length + 1) 0 5 ((s.header transferType dstNodeId tid).part
        ((s.crcBase.add payload).bytes ++ payload.take 5) true false false) =
          (.ok (1 + frames.length), can :: cans) := by
      rw [sendLoop, taken, sent]
      simp only [Frame.endOfTransfer_part, Bool.false_eq_true, if_false, nextFrame_part, Bool.not_false, loop]
    simp [send, active, fits, set, first]

end TransferSender

end Uavcan
