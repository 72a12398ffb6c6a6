import Uavcan.Transport.Transfer
import Uavcan.Transport.CRC
import Mathlib.Data.Nat.Bitwise

/-!
# Frames

A `Frame` is one CAN frame of a transfer: its CAN ID carries priority, data type, node IDs and the type
of the transfer, and its last data byte, the tail, the transfer ID and the position in the transfer.
`Frame.compile` makes the CAN frame, `Frame.parse` reads it.
-/

namespace Uavcan

/-! ## CAN frames -/

/-- A raw CAN frame; `data` are the bytes that count, so its length is the data length code. -/
structure CanFrame where
  id : UInt32
  data : List UInt8
  deriving DecidableEq

namespace CanFrame

def maskExtID : UInt32 := 0x1FFFFFFF

def flagEFF : UInt32 := 0x80000000

def flagRTR : UInt32 := 0x40000000

def flagERR : UInt32 := 0x20000000

def maxDataLen : ℕ := 8

def dlc (f : CanFrame) : ℕ := f.data.length

def isExtended (f : CanFrame) : Bool := f.id &&& flagEFF ≠ 0

def isRemoteTransmissionRequest (f : CanFrame) : Bool := f.id &&& flagRTR ≠ 0

def isErrorFrame (f : CanFrame) : Bool := f.id &&& flagERR ≠ 0

end CanFrame

/-- A CAN frame as it was received; times are in microseconds. -/
structure CanRxFrame extends CanFrame where
  tsMono : ℕ
  tsUtc : ℕ
  ifaceIndex : ℕ

/-- A field of some bits of a CAN ID. -/
def bitunpack (offset width : ℕ) (val : UInt32) : UInt32 :=
  (val >>> UInt32.ofNat offset) &&& (((1 : UInt32) <<< UInt32.ofNat width) - 1)

def bitpack (offset width : ℕ) (field : UInt32) : UInt32 :=
  (field &&& (((1 : UInt32) <<< UInt32.ofNat width) - 1)) <<< UInt32.ofNat offset

/-! ## Frames of transfers -/

structure Frame where
  payload : List UInt8
  priority : TransferPriority
  transferType : TransferType
  dataTypeId : DataTypeID
  srcNodeId : NodeID
  dstNodeId : NodeID
  transferId : TransferID
  startOfTransfer : Bool
  endOfTransfer : Bool
  toggle : Bool
  deriving DecidableEq

namespace Frame

def payloadCapacity : ℕ := 7

/-- `setPayload` stores what fits and returns how much that is. -/
def setPayload (f : Frame) (data : List UInt8) : Frame × ℕ :=
  let len := min payloadCapacity data.length
  ({ f with payload := data.take len }, len)

def isValid (f : Frame) : Bool :=
  if f.startOfTransfer && f.toggle then false
  else if !f.srcNodeId.isValid || !f.dstNodeId.isValid then false
  else if f.srcNodeId.isUnicast && f.srcNodeId = f.dstNodeId then false
  else if f.transferType = .numTransferTypes then false
  else if (decide (f.transferType = .messageBroadcast)) != f.dstNodeId.isBroadcast then false
  -- anonymous transfers
  else if f.srcNodeId.isBroadcast &&
    (!f.startOfTransfer || !f.endOfTransfer || f.transferType ≠ .messageBroadcast) then false
  else if f.payload.length > payloadCapacity then false
  else if !f.dataTypeId.isValidForDataTypeKind (getDataTypeKindForTransferType f.transferType) then false
  else if !f.priority.isValid then false
  else true

/-- The last data byte. -/
def tail (f : Frame) : UInt8 :=
  f.transferId.get ||| (if f.startOfTransfer then 0x80 else 0) |||
    (if f.endOfTransfer then 0x40 else 0) ||| (if f.toggle then 0x20 else 0)

/-- The CAN ID without the discriminator of anonymous frames. -/
def canID (f : Frame) : UInt32 :=
  let id := CanFrame.flagEFF ||| bitpack 0 7 f.srcNodeId.value.toUInt32 |||
    bitpack 24 5 f.priority.value.toUInt32
  if f.transferType = .messageBroadcast then
    id ||| (bitpack 7 1 0 ||| bitpack 8 16 f.dataTypeId.get.toUInt32)
  else
    id ||| (bitpack 7 1 1 ||| bitpack 8 7 f.dstNodeId.value.toUInt32 |||
      bitpack 15 1 (if f.transferType = .serviceRequest then 1 else 0) |||
      bitpack 16 8 f.dataTypeId.get.toUInt32)

def compile (f : Frame) : Option CanFrame :=
  if !f.isValid then none
  else
    let data := f.payload ++ [f.tail]
    let id :=
      if f.srcNodeId.isBroadcast then
        f.canID ||| bitpack 10 14 ((TransferCRC.init.add data).value &&& 0x3FFF).toUInt32
      else f.canID
    some ⟨id, data⟩

/-- Transfer type, destination and data type, as the CAN ID has them. -/
def parseID (id : UInt32) : TransferType × NodeID × DataTypeID :=
  if bitunpack 7 1 id ≠ 0 then
    (if bitunpack 15 1 id ≠ 0 then .serviceRequest else .serviceResponse,
      ⟨(bitunpack 8 7 id).toUInt8⟩, .ofUInt16 (bitunpack 16 8 id).toUInt16)
  else
    let dataTypeId : UInt16 := (bitunpack 8 16 id).toUInt16
    -- the upper bits of an anonymous frame are the discriminator
    (.messageBroadcast, .broadcast,
      .ofUInt16 (if (⟨(bitunpack 0 7 id).toUInt8⟩ : NodeID).isBroadcast then dataTypeId &&& 3
        else dataTypeId))

def parse (can : CanFrame) : Option Frame :=
  if can.isErrorFrame || can.isRemoteTransmissionRequest || !can.isExtended then none
  else if can.dlc > CanFrame.maxDataLen then none
  else if can.dlc < 1 then none
  else
    let id := can.id &&& CanFrame.maskExtID
    let (transferType, dstNodeId, dataTypeId) := parseID id
    let tail := can.data.getLastD 0
    let f : Frame :=
      { payload := can.data.dropLast
        priority := ⟨(bitunpack 24 5 id).toUInt8⟩
        transferType := transferType
        dataTypeId := dataTypeId
        srcNodeId := ⟨(bitunpack 0 7 id).toUInt8⟩
        dstNodeId := dstNodeId
        transferId := .ofByte (tail &&& 31)
        startOfTransfer := tail &&& 0x80 ≠ 0
        endOfTransfer := tail &&& 0x40 ≠ 0
        toggle := tail &&& 0x20 ≠ 0 }
    if f.isValid then some f else none

end Frame

/-- A frame as it was received. -/
structure RxFrame extends Frame where
  tsMono : ℕ
  tsUtc : ℕ
  ifaceIndex : ℕ

/-- Monotonic timestamps are mandatory. -/
def RxFrame.parse (can : CanRxFrame) : Option RxFrame :=
  match Frame.parse can.toCanFrame with
  | none => none
  | some f =>
    if can.tsMono = 0 then none
    else some { f with tsMono := can.tsMono, tsUtc := can.tsUtc, ifaceIndex := can.ifaceIndex }

/-! ## Fields of a CAN ID as numbers -/

theorem toNat_ofNat_of_lt {n : ℕ} (bound : n < 32) : (UInt32.ofNat n).toNat = n :=
  UInt32.toNat_ofNat_of_lt' (bound.trans (by decide))

variable {w : ℕ}

theorem toNat_mask (bound : w < 32) :
    (((1 : UInt32) <<< UInt32.ofNat w) - 1).toNat = 2 ^ w - 1 := by
  have small : 2 ^ w < 2 ^ 32 := Nat.pow_lt_pow_right (by decide) bound
  have shifted : ((1 : UInt32) <<< UInt32.ofNat w).toNat = 2 ^ w := by
    rw [UInt32.toNat_shiftLeft, toNat_ofNat_of_lt (by omega), Nat.mod_eq_of_lt bound,
      Nat.shiftLeft_eq, UInt32.toNat_one, one_mul, Nat.mod_eq_of_lt small]
  rw [UInt32.toNat_sub_of_le, shifted]
  · rfl
  · rw [UInt32.le_iff_toNat_le, shifted]
    exact Nat.one_le_two_pow

theorem toNat_bitunpack (o w : ℕ) (val : UInt32) (offset : o < 32) (width : w < 32) :
    (bitunpack o w val).toNat = val.toNat / 2 ^ o % 2 ^ w := by
  rw [bitunpack, UInt32.toNat_and, toNat_mask width, Nat.and_two_pow_sub_one_eq_mod,
    UInt32.toNat_shiftRight, toNat_ofNat_of_lt (by omega), Nat.mod_eq_of_lt offset,
    Nat.shiftRight_eq_div_pow]

theorem toNat_bitpack {o : ℕ} (field : UInt32) (fits : o + w < 32) :
    (bitpack o w field).toNat = field.toNat % 2 ^ w * 2 ^ o := by
  have bound : field.toNat % 2 ^ w * 2 ^ o < 2 ^ (o + w) := by
    rw [Nat.add_comm, Nat.pow_add]
    exact Nat.mul_lt_mul_of_pos_right (Nat.mod_lt _ (Nat.two_pow_pos _)) (Nat.two_pow_pos _)
  rw [bitpack, UInt32.toNat_shiftLeft, UInt32.toNat_and, toNat_mask (by omega),
    Nat.and_two_pow_sub_one_eq_mod, toNat_ofNat_of_lt (by omega),
    Nat.mod_eq_of_lt (show o < 32 by omega), Nat.shiftLeft_eq]
  exact Nat.mod_eq_of_lt (bound.trans_le (Nat.pow_le_pow_right (by decide) fits.le))

/-- A field below the other fields adds its value. -/
theorem toNat_bitpack_or {o n m : ℕ} {field rest : UInt32} (fits : o + w < 32) (low : field.toNat = n)
    (high : rest.toNat = m) (small : n < 2 ^ w) (above : m % 2 ^ (o + w) = 0) :
    (bitpack o w field ||| rest).toNat = n * 2 ^ o + m := by
  have bound : n * 2 ^ o < 2 ^ (o + w) := by
    rw [Nat.add_comm, Nat.pow_add]
    exact Nat.mul_lt_mul_of_pos_right small (Nat.two_pow_pos _)
  have packed : (bitpack o w field).toNat = n * 2 ^ o := by
    rw [toNat_bitpack field fits, low, Nat.mod_eq_of_lt small]
  obtain ⟨upper, rfl⟩ := Nat.dvd_of_mod_eq_zero above
  rw [UInt32.toNat_or, packed, high, Nat.or_comm, ← Nat.two_pow_add_eq_or_of_lt bound, Nat.add_comm]

theorem and_flag_ne_zero {k : ℕ} {flag : UInt32} (power : flag.toNat = 2 ^ k) (x : UInt32) :
    (x &&& flag ≠ 0) = (x.toNat / 2 ^ k % 2 = 1) := by
  have zero : x &&& flag = 0 ↔ x.toNat &&& 2 ^ k = 0 := by
    rw [← UInt32.toNat_inj, UInt32.toNat_and, power]
    rfl
  rw [ne_eq, zero, Nat.and_two_pow, Nat.testBit_eq_decide_div_mod_eq]
  by_cases one : x.toNat / 2 ^ k % 2 = 1
  · simp [one]
  · simp [one]

namespace Frame

variable {f : Frame}

theorem toNat_canID_message (message : f.transferType = .messageBroadcast) (src : f.srcNodeId.isValid)
    (priority : f.priority.isValid) :
    f.canID.toNat = f.srcNodeId.value.toNat + f.dataTypeId.get.toNat * 2 ^ 8 +
      f.priority.value.toNat * 2 ^ 24 + 2 ^ 31 := by
  have order : f.canID = bitpack 0 7 f.srcNodeId.value.toUInt32 |||
      (bitpack 8 16 f.dataTypeId.get.toUInt32 |||
        (bitpack 24 5 f.priority.value.toUInt32 ||| CanFrame.flagEFF)) := by
    rw [canID, if_pos message]
    generalize bitpack 24 5 _ = priority
    ac_rfl
  have srcBound := NodeID.toNat_le src
  have priorityBound := TransferPriority.toNat_lt priority
  have typeBound := f.dataTypeId.get.toNat_lt
  have flag : CanFrame.flagEFF.toNat = 2 ^ 31 := by decide
  have field₂ := toNat_bitpack_or (o := 24) (w := 5) (by decide)
    (UInt8.toNat_toUInt32 f.priority.value) flag priorityBound (by decide)
  have field₁ := toNat_bitpack_or (o := 8) (w := 16) (by decide)
    (UInt16.toNat_toUInt32 f.dataTypeId.get) field₂ typeBound (by omega)
  have field₀ := toNat_bitpack_or (o := 0) (w := 7) (by decide)
    (UInt8.toNat_toUInt32 f.srcNodeId.value) field₁ (Nat.lt_succ_of_le srcBound) (by omega)
  rw [order, field₀]
  omega

theorem toNat_canID_service (service : f.transferType ≠ .messageBroadcast) (src : f.srcNodeId.isValid)
    (dst : f.dstNodeId.isValid) (priority : f.priority.isValid) (dataType : f.dataTypeId.get.toNat < 256) :
    f.canID.toNat = f.srcNodeId.value.toNat + 2 ^ 7 + f.dstNodeId.value.toNat * 2 ^ 8 +
      (if f.transferType = .serviceRequest then 1 else 0) * 2 ^ 15 + f.dataTypeId.get.toNat * 2 ^ 16 +
      f.priority.value.toNat * 2 ^ 24 + 2 ^ 31 := by
  have order : f.canID = bitpack 0 7 f.srcNodeId.value.toUInt32 |||
      (bitpack 7 1 1 ||| (bitpack 8 7 f.dstNodeId.value.toUInt32 |||
        (bitpack 15 1 (if f.transferType = .serviceRequest then 1 else 0) |||
          (bitpack 16 8 f.dataTypeId.get.toUInt32 |||
            (bitpack 24 5 f.priority.value.toUInt32 ||| CanFrame.flagEFF))))) := by
    rw [canID, if_neg service]
    generalize bitpack 24 5 _ = priority
    generalize bitpack 15 1 _ = request
    generalize bitpack 16 8 _ = dataType
    ac_rfl
  have srcBound := NodeID.toNat_le src
  have dstBound := NodeID.toNat_le dst
  have priorityBound := TransferPriority.toNat_lt priority
  have flag : CanFrame.flagEFF.toNat = 2 ^ 31 := by decide
  have request : (if f.transferType = .serviceRequest then 1 else 0 : UInt32).toNat =
      if f.transferType = .serviceRequest then 1 else 0 := by
    split <;> rfl
  have requestBound : (if f.transferType = .serviceRequest then 1 else 0 : ℕ) < 2 := by
    split <;> decide
  have field₅ := toNat_bitpack_or (o := 24) (w := 5) (by decide)
    (UInt8.toNat_toUInt32 f.priority.value) flag priorityBound (by decide)
  have field₄ := toNat_bitpack_or (o := 16) (w := 8) (by decide)
    (UInt16.toNat_toUInt32 f.dataTypeId.get) field₅ dataType (by omega)
  have field₃ := toNat_bitpack_or (o := 15) (w := 1) (by decide) request field₄ requestBound (by omega)
  have field₂ := toNat_bitpack_or (o := 8) (w := 7) (by decide)
    (UInt8.toNat_toUInt32 f.dstNodeId.value) field₃ (Nat.lt_succ_of_le dstBound) (by omega)
  have field₁ := toNat_bitpack_or (o := 7) (w := 1) (by decide) UInt32.toNat_one field₂ (by decide)
    (by omega)
  have field₀ := toNat_bitpack_or (o := 0) (w := 7) (by decide)
    (UInt8.toNat_toUInt32 f.srcNodeId.value) field₁ (Nat.lt_succ_of_le srcBound) (by omega)
  rw [order, field₀]
  omega

theorem isValid_iff : f.isValid ↔
    ¬(f.startOfTransfer ∧ f.toggle) ∧ f.srcNodeId.isValid ∧ f.dstNodeId.isValid ∧
      ¬(f.srcNodeId.isUnicast ∧ f.srcNodeId = f.dstNodeId) ∧ f.transferType ≠ .numTransferTypes ∧
      (f.transferType = .messageBroadcast ↔ f.dstNodeId.isBroadcast) ∧
      (f.srcNodeId.isBroadcast →
        f.startOfTransfer ∧ f.endOfTransfer ∧ f.transferType = .messageBroadcast) ∧
      f.payload.length ≤ payloadCapacity ∧
      f.dataTypeId.isValidForDataTypeKind (getDataTypeKindForTransferType f.transferType) ∧
      f.priority.isValid := by
  unfold isValid
  cases f.startOfTransfer <;> cases f.toggle <;> cases f.endOfTransfer <;>
    cases f.srcNodeId.isBroadcast <;> cases f.srcNodeId.isUnicast <;> cases f.dstNodeId.isBroadcast <;>
    simp [and_assoc]

theorem tail_parts (f : Frame) :
    TransferID.ofByte (f.tail &&& 31) = f.transferId ∧ decide (f.tail &&& 0x80 ≠ 0) = f.startOfTransfer ∧
      decide (f.tail &&& 0x40 ≠ 0) = f.endOfTransfer ∧ decide (f.tail &&& 0x20 ≠ 0) = f.toggle := by
  unfold tail
  generalize f.transferId = tid
  generalize f.startOfTransfer = sot
  generalize f.endOfTransfer = eot
  generalize f.toggle = toggle
  obtain ⟨value⟩ := tid
  revert value sot eot toggle
  decide +kernel

/-! ## Fields of a frame as numbers -/

theorem toNat_toUInt8_bitunpack (o w : ℕ) (id : UInt32) (offset : o < 32) (width : w ≤ 8) :
    (bitunpack o w id).toUInt8.toNat = id.toNat / 2 ^ o % 2 ^ w := by
  have small : 2 ^ w ≤ 2 ^ 8 := Nat.pow_le_pow_right (by decide) width
  rw [UInt32.toNat_toUInt8, toNat_bitunpack o w id offset (by omega)]
  exact Nat.mod_eq_of_lt (by omega)

theorem toNat_ofUInt16_bitunpack (o w : ℕ) (id : UInt32) (offset : o < 32) (width : w ≤ 16) :
    (DataTypeID.ofUInt16 (bitunpack o w id).toUInt16).value.toNat = id.toNat / 2 ^ o % 2 ^ w := by
  have small : 2 ^ w ≤ 2 ^ 16 := Nat.pow_le_pow_right (by decide) width
  rw [DataTypeID.ofUInt16, UInt16.toNat_toUInt32, UInt32.toNat_toUInt16, toNat_bitunpack o w id offset (by omega)]
  exact Nat.mod_eq_of_lt (by omega)

theorem bitunpack_ne_zero (o : ℕ) (id : UInt32) (offset : o < 32) :
    bitunpack o 1 id ≠ 0 ↔ id.toNat / 2 ^ o % 2 = 1 := by
  rw [ne_eq, ← UInt32.toNat_inj, toNat_bitunpack o 1 id offset (by decide)]
  show ¬_ = 0 ↔ _
  omega

theorem toNat_and_three (x : UInt16) : (x &&& 3).toNat = x.toNat % 2 ^ 2 := by
  rw [UInt16.toNat_and, show (3 : UInt16).toNat = 2 ^ 2 - 1 by decide, Nat.and_two_pow_sub_one_eq_mod]

theorem toNat_and_maskExtID (id : UInt32) : (id &&& CanFrame.maskExtID).toNat = id.toNat % 2 ^ 29 := by
  rw [UInt32.toNat_and, show CanFrame.maskExtID.toNat = 2 ^ 29 - 1 by decide,
    Nat.and_two_pow_sub_one_eq_mod]

/-- Transfer type, destination and data type of a message or a service call, by the number that its CAN ID is. -/
def ReadsID (id : ℕ) (type : TransferType) (dst : NodeID) (dataType : DataTypeID) : Prop :=
  (id / 2 ^ 7 % 2 = 0 ∧ type = .messageBroadcast ∧ dst = .broadcast ∧
      dataType.value.toNat = if id % 2 ^ 7 = 0 then id / 2 ^ 8 % 2 ^ 2 else id / 2 ^ 8 % 2 ^ 16) ∨
    (id / 2 ^ 7 % 2 = 1 ∧ type = (if id / 2 ^ 15 % 2 = 1 then .serviceRequest else .serviceResponse) ∧
      dst.value.toNat = id / 2 ^ 8 % 2 ^ 7 ∧ dataType.value.toNat = id / 2 ^ 16 % 2 ^ 8)

theorem ReadsID.message_iff {id : ℕ} {type : TransferType} {dst : NodeID} {dataType : DataTypeID}
    (reads : ReadsID id type dst dataType) : type = .messageBroadcast ↔ id / 2 ^ 7 % 2 = 0 := by
  rcases reads with ⟨kind, message, -⟩ | ⟨kind, rfl, -⟩
  · exact iff_of_true message kind
  · refine iff_of_false ?_ (by omega)
    split <;> decide

/-- The flags of a CAN ID do not matter. -/
theorem readsID_parseID {id : UInt32} {n : ℕ} (masked : id.toNat = n % 2 ^ 29) :
    ReadsID n (parseID id).1 (parseID id).2.1 (parseID id).2.2 := by
  unfold parseID
  by_cases service : id.toNat / 2 ^ 7 % 2 = 1
  · rw [if_pos ((bitunpack_ne_zero 7 id (by decide)).mpr service)]
    have node := toNat_toUInt8_bitunpack 8 7 id (by decide) (by decide)
    have field := toNat_ofUInt16_bitunpack 16 8 id (by decide) (by decide)
    refine .inr ⟨by omega, ?_, node.trans (by omega), field.trans (by omega)⟩
    simp only [bitunpack_ne_zero 15 id (by decide), show id.toNat / 2 ^ 15 % 2 = n / 2 ^ 15 % 2 by omega]
  · rw [if_neg (mt (bitunpack_ne_zero 7 id (by decide)).mp service)]
    have field := toNat_ofUInt16_bitunpack 8 16 id (by decide) (by decide)
    have anonymous : (⟨(bitunpack 0 7 id).toUInt8⟩ : NodeID).isBroadcast = decide (n % 2 ^ 7 = 0) := by
      have source := toNat_toUInt8_bitunpack 0 7 id (by decide) (by decide)
      rw [NodeID.isBroadcast, decide_eq_decide, ← UInt8.toNat_inj, source]
      show _ = 0 ↔ _
      omega
    refine .inl ⟨by omega, rfl, rfl, ?_⟩
    simp only [DataTypeID.ofUInt16, UInt16.toNat_toUInt32] at field ⊢
    by_cases zero : n % 2 ^ 7 = 0
    · simp only [anonymous, zero, decide_true, if_true, toNat_and_three, field]
      omega
    · simp only [anonymous, zero, decide_false, Bool.false_eq_true, if_false, field]
      omega

theorem ReadsID.unique {id : ℕ} {type type' : TransferType} {dst dst' : NodeID} {dataType dataType' : DataTypeID}
    (first : ReadsID id type dst dataType) (second : ReadsID id type' dst' dataType') :
    (type, dst, dataType) = (type', dst', dataType') := by
  rcases first with ⟨kind, rfl, rfl, field⟩ | ⟨kind, rfl, node, field⟩
  · rcases second with ⟨-, rfl, rfl, field'⟩ | ⟨kind', -⟩
    · rw [DataTypeID.ext (UInt32.toNat_inj.mp (field.trans field'.symm))]
    · cases kind.symm.trans kind'
  · rcases second with ⟨kind', -⟩ | ⟨-, rfl, node', field'⟩
    · cases kind.symm.trans kind'
    · rw [NodeID.ext (UInt8.toNat_inj.mp (node.trans node'.symm)),
        DataTypeID.ext (UInt32.toNat_inj.mp (field.trans field'.symm))]

/-! ## What is compiled is parsed back -/

/-- What an accepted CAN frame has to do with the frame it is parsed to; the number of its CAN ID has the flag of
extended frames and no other one. -/
structure Parses (id : ℕ) (data : List UInt8) (f : Frame) : Prop where
  flags : id / 2 ^ 29 = 4
  data : data = f.payload ++ [f.tail]
  valid : f.isValid
  fields : ReadsID id f.transferType f.dstNodeId f.dataTypeId
  priority : f.priority.value.toNat = id / 2 ^ 24 % 2 ^ 5
  src : f.srcNodeId.value.toNat = id % 2 ^ 7

theorem parse_of_parses {can : CanFrame} (parses : Parses can.id.toNat can.data f) : parse can = some f := by
  obtain ⟨flags, data, valid, reads, priority, src⟩ := parses
  obtain ⟨tid, sot, eot, toggle⟩ := f.tail_parts
  have masked := toNat_and_maskExtID can.id
  have fields : parseID (can.id &&& CanFrame.maskExtID) = (f.transferType, f.dstNodeId, f.dataTypeId) :=
    (readsID_parseID masked).unique reads
  have priority : (bitunpack 24 5 (can.id &&& CanFrame.maskExtID)).toUInt8 = f.priority.value := by
    rw [← UInt8.toNat_inj, toNat_toUInt8_bitunpack 24 5 _ (by decide) (by decide)]
    omega
  have src : (bitunpack 0 7 (can.id &&& CanFrame.maskExtID)).toUInt8 = f.srcNodeId.value := by
    rw [← UInt8.toNat_inj, toNat_toUInt8_bitunpack 0 7 _ (by decide) (by decide)]
    omega
  have short : ¬ (f.payload.length + 1 > 8) := by
    have : f.payload.length ≤ 7 := (isValid_iff.mp valid).2.2.2.2.2.2.2.1
    omega
  have extended : can.id &&& CanFrame.flagEFF ≠ 0 := by
    rw [and_flag_ne_zero (k := 31) (by decide)]
    omega
  have regular : ¬ (can.id &&& CanFrame.flagRTR ≠ 0) := by
    rw [and_flag_ne_zero (k := 30) (by decide)]
    omega
  have correct : ¬ (can.id &&& CanFrame.flagERR ≠ 0) := by
    rw [and_flag_ne_zero (k := 29) (by decide)]
    omega
  simp only [parse, CanFrame.isErrorFrame, CanFrame.isRemoteTransmissionRequest, CanFrame.isExtended,
    CanFrame.dlc, CanFrame.maxDataLen, regular, correct, fields, priority, src, data,
    List.length_append, List.length_singleton, short, List.getLastD_concat,
    tid, sot, eot, toggle]
  simpa [valid] using extended

/-- The CAN ID of a frame from a unicast source says what was put in. -/
theorem parses_canID (valid : f.isValid) (unicast : f.srcNodeId.isUnicast) :
    Parses f.canID.toNat (f.payload ++ [f.tail]) f := by
  obtain ⟨-, src, dst, -, proper, kind, -, -, dataType, priority⟩ := isValid_iff.mp valid
  have srcBound := NodeID.toNat_le src
  have dstBound := NodeID.toNat_le dst
  have priorityBound := TransferPriority.toNat_lt priority
  have dataTypeBound := UInt32.le_iff_toNat_le.mp (of_decide_eq_true dataType)
  have get : f.dataTypeId.get.toNat = f.dataTypeId.value.toNat % 2 ^ 16 := UInt32.toNat_toUInt16 _
  have positive := NodeID.toNat_ne_zero unicast
  by_cases message : f.transferType = .messageBroadcast
  · have whole := toNat_canID_message message src priority
    rw [message] at dataTypeBound
    have dataTypeBound : f.dataTypeId.value.toNat ≤ 65535 := dataTypeBound
    have broadcast : f.dstNodeId = .broadcast := congrArg NodeID.mk (of_decide_eq_true (kind.mp message))
    refine ⟨by omega, rfl, valid, .inl ⟨by omega, message, broadcast, ?_⟩, by omega, by omega⟩
    rw [if_neg (by omega)]
    omega
  · have service : f.dataTypeId.value.toNat ≤ 255 := by
      cases type : f.transferType with
      | messageBroadcast => exact absurd type message
      | numTransferTypes => exact absurd type proper
      | _ => rw [type] at dataTypeBound; exact dataTypeBound
    have whole := toNat_canID_service message src dst priority (by omega)
    have bound : (if f.transferType = .serviceRequest then 1 else 0) < 2 := by split <;> decide
    have bit : f.canID.toNat / 2 ^ 15 % 2 = if f.transferType = .serviceRequest then 1 else 0 := by omega
    refine ⟨by omega, rfl, valid, .inr ⟨by omega, ?_, by omega, by omega⟩, by omega, by omega⟩
    rw [bit]
    cases type : f.transferType with
    | messageBroadcast => exact absurd type message
    | numTransferTypes => exact absurd type proper
    | _ => rfl

theorem isValid_of_parse {can : CanFrame} (parsed : parse can = some f) : f.isValid := by
  simp only [parse] at parsed
  split at parsed
  · cases parsed
  · split at parsed
    · cases parsed
    · split at parsed
      · cases parsed
      · split at parsed
        case isTrue valid =>
          cases parsed
          exact valid
        case isFalse => cases parsed

theorem parse_compile (valid : f.isValid) (unicast : f.srcNodeId.isUnicast) :
    ∃ can, f.compile = some can ∧ parse can = some f := by
  refine ⟨⟨f.canID, f.payload ++ [f.tail]⟩, ?_, parse_of_parses (parses_canID valid unicast)⟩
  simp [compile, valid, NodeID.isBroadcast_eq_false unicast]

end Frame

theorem RxFrame.parse_compile {f : Frame} (valid : f.isValid) (unicast : f.srcNodeId.isUnicast)
    {tsMono : ℕ} (timed : tsMono ≠ 0) (tsUtc ifaceIndex : ℕ) :
    ∃ can, f.compile = some can ∧ RxFrame.parse { can with tsMono, tsUtc, ifaceIndex } =
      some { f with tsMono, tsUtc, ifaceIndex } := by
  obtain ⟨can, compiled, parsed⟩ := Frame.parse_compile valid unicast
  exact ⟨can, compiled, by simp [RxFrame.parse, parsed, timed]⟩

theorem RxFrame.parse_toFrame {can : CanRxFrame} {f : RxFrame} (parsed : RxFrame.parse can = some f) :
    Frame.parse can.toCanFrame = some f.toFrame := by
  unfold RxFrame.parse at parsed
  split at parsed
  case h_1 => cases parsed
  case h_2 frame whole =>
    split at parsed
    · cases parsed
    · cases parsed
      exact whole

theorem RxFrame.isValid_of_parse {can : CanRxFrame} {f : RxFrame} (parsed : RxFrame.parse can = some f) :
    f.isValid :=
  Frame.isValid_of_parse (RxFrame.parse_toFrame parsed)

end Uavcan
