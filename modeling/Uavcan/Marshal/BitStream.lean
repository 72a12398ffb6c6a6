import Uavcan.Buffers.Bits

/-!
# Bit streams

A `BitStream` writes and reads bit fields of any length in a byte buffer. Fields are not aligned, so a write
merges its first bits with what the last write left in its last byte, which the stream keeps in `byteCache`. A
stream that was written is described by the bits it holds (`Holds`), and one that is read by the bits ahead
(`ahead`): a write appends a field (`write_holds`) and a read takes one off (`read_eq`).
-/

namespace Uavcan

open Buffers List

/-! ## Copying bit arrays -/

/-- The byte of the destination after one round of `bitarrayCopy`. -/
def copyByte (src dst : UInt8) (srcBitOffset dstBitOffset copyBits : ℕ) : UInt8 :=
  let writeMask := UInt8.ofNat (0xFF00 >>> copyBits) >>> UInt8.ofNat dstBitOffset
  let srcData := UInt8.ofNat ((src.toNat <<< srcBitOffset) >>> dstBitOffset)
  (dst &&& ~~~writeMask) ||| (srcData &&& writeMask)

/-- The loop of `bitarrayCopy`; every round copies a bit at least. -/
def bitarrayCopyLoop (src : List UInt8) (lastBit : ℕ) : ℕ → ℕ → List UInt8 → ℕ → List UInt8
  | 0, _, dst, _ => dst
  | rounds + 1, srcOffset, dst, dstOffset =>
    if lastBit - srcOffset = 0 then dst
    else
      let srcBitOffset := srcOffset % 8
      let dstBitOffset := dstOffset % 8
      let copyBits := min (lastBit - srcOffset) (8 - max srcBitOffset dstBitOffset)
      let byte := copyByte (src.getD (srcOffset / 8) 0) (dst.getD (dstOffset / 8) 0) srcBitOffset
        dstBitOffset copyBits
      bitarrayCopyLoop src lastBit rounds (srcOffset + copyBits) (dst.set (dstOffset / 8) byte)
        (dstOffset + copyBits)

variable (src : List UInt8)

def bitarrayCopy (srcOffset srcLen : ℕ) (dst : List UInt8) (dstOffset : ℕ) :
    List UInt8 :=
  bitarrayCopyLoop src (srcOffset + srcLen) srcLen srcOffset dst dstOffset

variable {copyBits dstBitOffset j : ℕ}

theorem writeMask_bit (fits : dstBitOffset + copyBits ≤ 8) (bit : j < 8) (some : dstBitOffset < 8) :
    byteBit (UInt8.ofNat (0xFF00 >>> copyBits) >>> UInt8.ofNat dstBitOffset) j =
      decide (dstBitOffset ≤ j ∧ j < dstBitOffset + copyBits) := by
  have all : ∀ d < 8, ∀ n < 9, d + n ≤ 8 → ∀ j < 8,
      byteBit (UInt8.ofNat (0xFF00 >>> n) >>> UInt8.ofNat d) j = decide (d ≤ j ∧ j < d + n) := by
    decide +kernel
  exact all _ some _ (by omega) fits _ bit

/-- The bits of the source as they lie over the destination. -/
theorem srcData_bit (src : UInt8) {srcBitOffset : ℕ} (first : dstBitOffset ≤ j)
    (last : srcBitOffset + (j - dstBitOffset) < 8) (bit : j < 8) :
    byteBit (UInt8.ofNat ((src.toNat <<< srcBitOffset) >>> dstBitOffset)) j =
      byteBit src (srcBitOffset + (j - dstBitOffset)) := by
  rw [byteBit_eq_testBit _ bit, byteBit_eq_testBit _ last, UInt8.toNat_ofNat']
  rw [Nat.testBit_mod_two_pow]
  have low : 7 - j < 8 := by omega
  have above : srcBitOffset ≤ dstBitOffset + (7 - j) := by omega
  have index : dstBitOffset + (7 - j) - srcBitOffset = 7 - (srcBitOffset + (j - dstBitOffset)) := by omega
  simp [low, above, index]

theorem copyByte_bit (src dst : UInt8) {srcBitOffset : ℕ} (source : srcBitOffset + copyBits ≤ 8)
    (target : dstBitOffset + copyBits ≤ 8) (bit : j < 8) (some : dstBitOffset < 8) :
    byteBit (copyByte src dst srcBitOffset dstBitOffset copyBits) j =
      if dstBitOffset ≤ j ∧ j < dstBitOffset + copyBits then byteBit src (srcBitOffset + (j - dstBitOffset))
      else byteBit dst j := by
  have mask := writeMask_bit target bit some
  unfold copyByte
  rw [byteBit_or, byteBit_and, byteBit_and, byteBit_not _ bit, mask]
  split
  · next inside =>
    rw [decide_eq_true inside, srcData_bit src inside.1 (by omega) bit]
    simp
  · next outside =>
    rw [decide_eq_false outside]
    simp

@[simp] theorem length_bitarrayCopyLoop (lastBit rounds srcOffset : ℕ) (dst : List UInt8)
    (dstOffset : ℕ) :
    (bitarrayCopyLoop src lastBit rounds srcOffset dst dstOffset).length = dst.length := by
  fun_induction bitarrayCopyLoop src lastBit rounds srcOffset dst dstOffset with
  | case1 => rfl
  | case2 => rfl
  | case3 _ _ _ _ _ _ _ _ _ ih => rw [ih, length_set]

/-- One round copies up to the end of a byte of the source or of the destination. -/
theorem bitAt_copyRound (src dst : List UInt8) {srcOffset dstOffset : ℕ} (source : srcOffset % 8 + copyBits ≤ 8)
    (target : dstOffset % 8 + copyBits ≤ 8) (inside : dstOffset / 8 < dst.length) (i : ℕ) :
    bitAt (dst.set (dstOffset / 8) (copyByte (src.getD (srcOffset / 8) 0) (dst.getD (dstOffset / 8) 0)
        (srcOffset % 8) (dstOffset % 8) copyBits)) i =
      if dstOffset ≤ i ∧ i < dstOffset + copyBits then bitAt src (srcOffset + (i - dstOffset))
      else bitAt dst i := by
  rw [bitAt_set inside]
  by_cases byte : i / 8 = dstOffset / 8
  · rw [if_pos byte, copyByte_bit _ _ source target (Nat.mod_lt _ (by decide)) (Nat.mod_lt _ (by decide))]
    by_cases here : dstOffset ≤ i ∧ i < dstOffset + copyBits
    · have sourceByte : (srcOffset + (i - dstOffset)) / 8 = srcOffset / 8 := by omega
      have sourceBit : (srcOffset + (i - dstOffset)) % 8 = srcOffset % 8 + (i % 8 - dstOffset % 8) := by omega
      rw [if_pos here, if_pos (by omega), bitAt, sourceByte, sourceBit]
    · rw [if_neg here, if_neg (by omega), bitAt, byte]
  · rw [if_neg byte, if_neg (by omega)]

theorem bitAt_bitarrayCopyLoop (lastBit rounds srcOffset : ℕ) (dst : List UInt8)
    (dstOffset : ℕ) (enough : lastBit - srcOffset ≤ rounds)
    (fits : dstOffset + (lastBit - srcOffset) ≤ 8 * dst.length) (i : ℕ) :
    bitAt (bitarrayCopyLoop src lastBit rounds srcOffset dst dstOffset) i =
      if dstOffset ≤ i ∧ i < dstOffset + (lastBit - srcOffset) then bitAt src (srcOffset + (i - dstOffset))
      else bitAt dst i := by
  fun_induction bitarrayCopyLoop src lastBit rounds srcOffset dst dstOffset with
  | case1 srcOffset dst dstOffset => rw [if_neg (by omega)]
  | case2 rounds srcOffset dst dstOffset done => rw [if_neg (by omega)]
  | case3 rounds srcOffset dst dstOffset more srcBitOffset dstBitOffset copyBits byte ih =>
    have source : srcOffset % 8 + copyBits ≤ 8 := by omega
    have target : dstOffset % 8 + copyBits ≤ 8 := by omega
    have inside : dstOffset / 8 < dst.length := by omega
    rw [ih (by omega) (by rw [length_set]; omega), bitAt_copyRound src dst source target inside]
    by_cases later : dstOffset + copyBits ≤ i ∧ i < dstOffset + copyBits + (lastBit - (srcOffset + copyBits))
    · have index : srcOffset + copyBits + (i - (dstOffset + copyBits)) = srcOffset + (i - dstOffset) := by omega
      rw [if_pos later, if_pos (by omega), index]
    · rw [if_neg later]
      by_cases now : dstOffset ≤ i ∧ i < dstOffset + copyBits
      · rw [if_pos now, if_pos (by omega)]
      · rw [if_neg now, if_neg (by omega)]

@[simp] theorem length_bitarrayCopy (srcOffset srcLen : ℕ) (dst : List UInt8)
    (dstOffset : ℕ) : (bitarrayCopy src srcOffset srcLen dst dstOffset).length = dst.length :=
  length_bitarrayCopyLoop ..

/-- Exactly the bits of the destination range are replaced. -/
theorem bitAt_bitarrayCopy (srcOffset srcLen : ℕ) {dst : List UInt8} {dstOffset : ℕ}
    (fits : dstOffset + srcLen ≤ 8 * dst.length) (i : ℕ) :
    bitAt (bitarrayCopy src srcOffset srcLen dst dstOffset) i =
      if dstOffset ≤ i ∧ i < dstOffset + srcLen then bitAt src (srcOffset + (i - dstOffset))
      else bitAt dst i := by
  have length : srcOffset + srcLen - srcOffset = srcLen := by omega
  rw [bitarrayCopy, bitAt_bitarrayCopyLoop src (srcOffset + srcLen) srcLen srcOffset dst dstOffset
    (by omega) (by omega), length]

/-! ## Static transfer buffers -/

/-- `StaticTransferBufferImpl`: memory of a fixed size, written up to `maxWritePos`. -/
structure StaticTransferBuffer where
  data : List UInt8
  maxWritePos : ℕ
  written : maxWritePos ≤ data.length

namespace StaticTransferBuffer

/-- A buffer to which nothing was written yet. -/
def blank (size : ℕ) : StaticTransferBuffer := ⟨List.replicate size 0, 0, Nat.zero_le _⟩

variable (buf : StaticTransferBuffer)

def getSize : ℕ := buf.data.length

/-- What was written so far. -/
def bytes : List UInt8 := buf.data.take buf.maxWritePos

/-- How much of `len` bytes at `offset` lies before `limit`. -/
def cutLen (limit offset len : ℕ) : ℕ := if offset + len > limit then limit - offset else len

theorem cutLen_eq (limit offset len : ℕ) (inside : offset ≤ limit) :
    cutLen limit offset len = min len (limit - offset) := by
  unfold cutLen
  split <;> omega

/-- The result of `read` is the length of the list. -/
def read (offset len : ℕ) : List UInt8 :=
  if offset ≥ buf.maxWritePos then []
  else (buf.data.drop offset).take (cutLen buf.maxWritePos offset len)

def write (offset : ℕ) (input : List UInt8) : ℕ × StaticTransferBuffer :=
  if h : offset ≥ buf.getSize then (0, buf)
  else
    let len := cutLen buf.getSize offset input.length
    (len,
      { data := overwrite buf.data offset (input.take len)
        maxWritePos := max (offset + len) buf.maxWritePos
        written := by
          have inside : offset ≤ buf.data.length := (not_le.mp h).le
          have data := buf.written
          have cut : len = min input.length (buf.data.length - offset) := cutLen_eq _ _ _ inside
          rw [length_overwrite]
          omega })

@[simp] theorem length_bytes : buf.bytes.length = buf.maxWritePos := by
  rw [bytes, length_take, Nat.min_eq_left buf.written]

theorem read_eq (offset len : ℕ) :
    buf.read offset len = (buf.bytes.drop offset).take len := by
  unfold read bytes
  split
  · next beyond => rw [drop_of_length_le (by rw [length_take]; omega), take_nil]
  · rw [drop_take, take_take, cutLen_eq _ _ _ (by omega)]

@[simp] theorem getSize_write (offset : ℕ) (input : List UInt8) :
    (buf.write offset input).2.getSize = buf.getSize := by
  unfold write
  split
  · rfl
  · exact length_overwrite ..

/-- The write is complete exactly if the memory is large enough. -/
theorem write_lt_iff (offset : ℕ) {input : List UInt8} (some : 0 < input.length) :
    (buf.write offset input).1 < input.length ↔ buf.getSize < offset + input.length := by
  unfold write
  split
  · omega
  · simp only
    rw [cutLen_eq _ _ _ (by omega)]
    omega

theorem write_fits {buf : StaticTransferBuffer} {offset : ℕ} {input : List UInt8} (some : 0 < input.length)
    (fits : offset + input.length ≤ buf.getSize) :
    (buf.write offset input).2.data = overwrite buf.data offset input ∧
      (buf.write offset input).2.maxWritePos = max (offset + input.length) buf.maxWritePos := by
  have start : ¬offset ≥ buf.getSize := by omega
  have whole : cutLen buf.getSize offset input.length = input.length := if_neg (by omega)
  simp [write, dif_neg start, whole]

end StaticTransferBuffer

/-! ## The stream -/

def bitlenToBytelen (bits : ℕ) : ℕ := (bits + 7) / 8

/-- `ResultOutOfBuffer`. -/
def resultOutOfBuffer : ℤ := 0

/-- `ResultOk`. -/
def resultOk : ℤ := 1

structure BitStream where
  buf : StaticTransferBuffer
  bitOffset : ℕ
  byteCache : UInt8

namespace BitStream

/-- The constructor of the source. -/
def init (buf : StaticTransferBuffer) : BitStream := ⟨buf, 0, 0⟩

variable (stream : BitStream)

/-- The temporary buffer of `write`: the new bits after the cached ones. -/
def merge (bytes : List UInt8) (bitlen : ℕ) : List UInt8 :=
  let bytelen := bitlenToBytelen (bitlen + stream.bitOffset % 8)
  let tmp := bitarrayCopy bytes 0 bitlen (List.replicate bytelen 0) (stream.bitOffset % 8)
  tmp.set 0 (tmp.getD 0 0 ||| stream.byteCache)

def write (stream : BitStream) (bytes : List UInt8) (bitlen : ℕ) : ℤ × BitStream :=
  let bytelen := bitlenToBytelen (bitlen + stream.bitOffset % 8)
  let tmp := stream.merge bytes bitlen
  let newBitOffset := stream.bitOffset + bitlen
  let byteCache := if newBitOffset % 8 ≠ 0 then tmp.getD (bytelen - 1) 0 else 0
  let (writeRes, buf) := stream.buf.write (stream.bitOffset / 8) tmp
  if writeRes < bytelen then (resultOutOfBuffer, ⟨buf, stream.bitOffset, byteCache⟩)
  else (resultOk, ⟨buf, newBitOffset, byteCache⟩)

/-- Reads into `bytes`, which is left as it is when the stream ends before. -/
def read (stream : BitStream) (bytes : List UInt8) (bitlen : ℕ) : ℤ × List UInt8 × BitStream :=
  let bytelen := bitlenToBytelen (bitlen + stream.bitOffset % 8)
  let tmp := stream.buf.read (stream.bitOffset / 8) bytelen
  if tmp.length < bytelen then (resultOutOfBuffer, bytes, stream)
  else
    let bytes := overwrite bytes 0 (List.replicate (bitlenToBytelen bitlen) 0)
    (resultOk, bitarrayCopy tmp (stream.bitOffset % 8) bitlen bytes 0,
      { stream with bitOffset := stream.bitOffset + bitlen })

/-! ## Writing appends bits -/

/-- The stream was written with `bits`; the rest of the last byte is zero. -/
structure Holds (stream : BitStream) (bits : List Bool) : Prop where
  offset : stream.bitOffset = bits.length
  length : stream.buf.maxWritePos = bitlenToBytelen bits.length
  bit : ∀ i, bitAt stream.buf.bytes i = bits.getD i false
  cache : ∀ j < 8, byteBit stream.byteCache j = bits.getD (8 * (bits.length / 8) + j) false

theorem holds_init (data : List UInt8) : Holds (init ⟨data, 0, Nat.zero_le _⟩) [] where
  offset := rfl
  length := rfl
  bit _ := bitAt_of_le (Nat.zero_le _)
  cache j _ := byteBit_zero j

@[simp] theorem length_merge (bytes : List UInt8) (bitlen : ℕ) :
    (stream.merge bytes bitlen).length = bitlenToBytelen (bitlen + stream.bitOffset % 8) := by
  rw [merge, length_set, length_bitarrayCopy, length_replicate]

section Write

variable {stream : BitStream} {bits : List Bool} {bytes : List UInt8} {bitlen : ℕ}

/-- The temporary buffer holds the stream from its last incomplete byte on, with the new field. -/
theorem Holds.bitAt_merge (holds : Holds stream bits) (some : 0 < bitlen) (i : ℕ) :
    bitAt (stream.merge bytes bitlen) i =
      (bits ++ takeBits bytes bitlen).getD (8 * (bits.length / 8) + i) false := by
  have fits : bits.length % 8 + bitlen ≤
      8 * (replicate (bitlenToBytelen (bitlen + bits.length % 8)) (0 : UInt8)).length := by
    rw [length_replicate, bitlenToBytelen]
    omega
  have copied := bitAt_bitarrayCopy bytes 0 bitlen fits
  have nonempty : 0 < (bitarrayCopy bytes 0 bitlen
      (replicate (bitlenToBytelen (bitlen + bits.length % 8)) 0) (bits.length % 8)).length := by
    rw [length_bitarrayCopy, length_replicate, bitlenToBytelen]
    omega
  have first : ∀ j < 8, byteBit ((bitarrayCopy bytes 0 bitlen
      (replicate (bitlenToBytelen (bitlen + bits.length % 8)) 0) (bits.length % 8)).getD 0 0) j =
      if bits.length % 8 ≤ j ∧ j < bits.length % 8 + bitlen then bitAt bytes (j - bits.length % 8)
      else false := by
    intro j bit
    have here := copied j
    rw [bitAt, Nat.div_eq_of_lt bit, Nat.mod_eq_of_lt bit, bitAt_replicate_zero, Nat.zero_add] at here
    exact here
  rw [merge, holds.offset, bitAt_set nonempty]
  by_cases cached : 8 * (bits.length / 8) + i < bits.length
  · -- the bits before the field come from the cache
    have zero : i / 8 = 0 := by omega
    rw [if_pos zero, byteBit_or, first _ (Nat.mod_lt _ (by decide)), if_neg (by omega), Bool.false_or,
      holds.cache _ (Nat.mod_lt _ (by decide)), getD_append _ _ _ _ cached, Nat.mod_eq_of_lt (by omega)]
  · rw [getD_append_right _ _ _ _ (by omega), getD_takeBits]
    have index : 8 * (bits.length / 8) + i - bits.length = i - bits.length % 8 := by omega
    rw [index]
    by_cases zero : i / 8 = 0
    · have small : i % 8 = i := by omega
      have empty : byteBit stream.byteCache i = false := by
        rw [holds.cache _ (by omega), getD_eq_default _ _ (by omega)]
      rw [if_pos zero, byteBit_or, small, first _ (by omega), empty, Bool.or_false]
      by_cases new : i < bits.length % 8 + bitlen
      · rw [if_pos (by omega), decide_eq_true (by omega), Bool.true_and]
      · rw [if_neg (by omega), decide_eq_false (by omega), Bool.false_and]
    · rw [if_neg zero, copied, bitAt_replicate_zero, Nat.zero_add]
      by_cases new : i < bits.length % 8 + bitlen
      · rw [if_pos (by omega), decide_eq_true (by omega), Bool.true_and]
      · rw [if_neg (by omega), decide_eq_false (by omega), Bool.false_and]

/-- A write succeeds exactly if the buffer has room for the field. -/
theorem write_cases (stream : BitStream) (bytes : List UInt8) (some : 0 < bitlen) :
    (stream.write bytes bitlen).2.buf.getSize = stream.buf.getSize ∧
      ((stream.bitOffset + bitlen ≤ 8 * stream.buf.getSize ∧
          (stream.write bytes bitlen).1 = resultOk ∧
          (stream.write bytes bitlen).2.bitOffset = stream.bitOffset + bitlen) ∨
        (8 * stream.buf.getSize < stream.bitOffset + bitlen ∧
          (stream.write bytes bitlen).1 = resultOutOfBuffer ∧
          (stream.write bytes bitlen).2.bitOffset = stream.bitOffset)) := by
  have length := length_merge stream bytes bitlen
  have nonempty : 0 < (stream.merge bytes bitlen).length := by
    rw [length, bitlenToBytelen]
    omega
  have short := stream.buf.write_lt_iff (stream.bitOffset / 8) nonempty
  rw [length] at short
  unfold write
  simp only
  split
  · next less =>
    have beyond := short.mp less
    rw [bitlenToBytelen] at beyond
    exact ⟨StaticTransferBuffer.getSize_write .., .inr ⟨by omega, rfl, rfl⟩⟩
  · next whole =>
    have inside := mt short.mpr whole
    rw [bitlenToBytelen] at inside
    exact ⟨StaticTransferBuffer.getSize_write .., .inl ⟨by omega, rfl, rfl⟩⟩

theorem Holds.write (holds : Holds stream bits) (some : 0 < bitlen)
    (room : bits.length + bitlen ≤ 8 * stream.buf.getSize) :
    Holds (stream.write bytes bitlen).2 (bits ++ takeBits bytes bitlen) := by
  have offset := holds.offset
  have length := length_merge stream bytes bitlen
  rw [offset] at length
  have merged : ∀ i, bitAt (stream.merge bytes bitlen) i =
      (bits ++ takeBits bytes bitlen).getD (8 * (bits.length / 8) + i) false := holds.bitAt_merge some
  have fits : bits.length / 8 + (stream.merge bytes bitlen).length ≤ stream.buf.getSize := by
    rw [length, bitlenToBytelen]
    omega
  have nonempty : 0 < (stream.merge bytes bitlen).length := by
    rw [length, bitlenToBytelen]
    omega
  have whole := mt (stream.buf.write_lt_iff (bits.length / 8) nonempty).mp (by omega)
  rw [length] at whole
  obtain ⟨data, position⟩ := StaticTransferBuffer.write_fits nonempty fits
  have position' : (stream.buf.write (bits.length / 8) (stream.merge bytes bitlen)).2.maxWritePos =
      bitlenToBytelen (bits.length + bitlen) := by
    rw [position, length, holds.length, bitlenToBytelen, bitlenToBytelen, bitlenToBytelen]
    omega
  have total : (bits ++ takeBits bytes bitlen).length = bits.length + bitlen := by
    rw [length_append, length_takeBits]
  simp only [BitStream.write, offset, if_neg whole]
  constructor
  · exact total.symm
  · rw [total, position']
  · intro i
    change bitAt (take _ _) i = _
    rw [data, position', bitAt_take, bitAt_overwrite fits]
    by_cases old : i < 8 * (bits.length / 8)
    · have before : i < bits.length := by omega
      have kept := holds.bit i
      rw [StaticTransferBuffer.bytes, holds.length, bitAt_take, bitlenToBytelen,
        decide_eq_true (by omega), Bool.true_and] at kept
      rw [if_neg (by omega), kept, getD_append _ _ _ _ before, decide_eq_true (by omega), Bool.true_and]
    · have index : 8 * (bits.length / 8) + (i - 8 * (bits.length / 8)) = i := by omega
      by_cases inside : i < 8 * bitlenToBytelen (bits.length + bitlen)
      · rw [decide_eq_true inside, Bool.true_and, merged, index, length]
        rw [bitlenToBytelen] at inside ⊢
        rw [if_pos (by omega)]
      · rw [decide_eq_false inside, Bool.false_and]
        rw [bitlenToBytelen] at inside
        rw [getD_eq_default _ _ (by omega)]
  · intro j bit
    rw [total]
    by_cases aligned : (bits.length + bitlen) % 8 = 0
    · rw [if_neg (not_not.mpr aligned), byteBit_zero, getD_eq_default _ _ (by omega)]
    · -- the last byte of the temporary buffer
      have last := merged (8 * (bitlenToBytelen (bitlen + bits.length % 8) - 1) + j)
      have byte : (8 * (bitlenToBytelen (bitlen + bits.length % 8) - 1) + j) / 8 =
          bitlenToBytelen (bitlen + bits.length % 8) - 1 := by omega
      have index : 8 * (bits.length / 8) + (8 * (bitlenToBytelen (bitlen + bits.length % 8) - 1) + j) =
          8 * ((bits.length + bitlen) / 8) + j := by
        rw [bitlenToBytelen]
        omega
      rw [bitAt, byte, Nat.mul_add_mod, Nat.mod_eq_of_lt bit, index] at last
      rw [if_pos aligned, last]

end Write

/-! ## Reading takes bits -/

/-- The bits that were not read yet. -/
def ahead : List Bool := (toBits stream.buf.bytes).drop stream.bitOffset

theorem length_ahead :
    stream.ahead.length = 8 * stream.buf.maxWritePos - stream.bitOffset := by
  rw [ahead, length_drop, length_toBits, StaticTransferBuffer.length_bytes]

theorem getD_ahead (i : ℕ) :
    stream.ahead.getD i false = bitAt stream.buf.bytes (stream.bitOffset + i) := by
  rw [ahead, getD_eq_getElem?_getD, List.getElem?_drop, ← getD_eq_getElem?_getD, bitAt_toBits]

variable {stream : BitStream}

/-- The buffer has fewer bytes left than a field needs. -/
theorem length_read_lt_iff {bitlen : ℕ} (positive : 0 < bitlen) : (stream.buf.read (stream.bitOffset / 8)
      (bitlenToBytelen (bitlen + stream.bitOffset % 8))).length <
      bitlenToBytelen (bitlen + stream.bitOffset % 8) ↔ stream.ahead.length < bitlen := by
  rw [length_ahead, StaticTransferBuffer.read_eq, length_take, length_drop, StaticTransferBuffer.length_bytes,
    bitlenToBytelen]
  omega

theorem read_short {bytes : List UInt8} {bitlen : ℕ} (short : stream.ahead.length < bitlen) :
    stream.read bytes bitlen = (resultOutOfBuffer, bytes, stream) :=
  if_pos ((length_read_lt_iff (Nat.zero_lt_of_lt short)).mpr short)

/-- A read of a field that is there: its bits, then zeros up to the end of its last byte. -/
theorem read_field {bytes : List UInt8} {bitlen : ℕ} (some : 0 < bitlen) (there : bitlen ≤ stream.ahead.length)
    (fits : bitlen ≤ 8 * bytes.length) :
    ∃ bytes', stream.read bytes bitlen =
        (resultOk, bytes', { stream with bitOffset := stream.bitOffset + bitlen }) ∧
      bytes'.length = bytes.length ∧
      ∀ i, bitAt bytes' i = if i < bitlen then stream.ahead.getD i false
        else if i < 8 * bitlenToBytelen bitlen then false else bitAt bytes i := by
  have whole := mt (length_read_lt_iff some).mp (Nat.not_lt.mpr there)
  rw [length_ahead] at there
  have zeros : 0 + (replicate (bitlenToBytelen bitlen) (0 : UInt8)).length ≤ bytes.length := by
    rw [length_replicate, bitlenToBytelen]
    omega
  refine ⟨_, if_neg whole, ?_, fun i => ?_⟩
  · rw [length_bitarrayCopy, length_overwrite]
  · rw [bitAt_bitarrayCopy _ _ _ (by rw [length_overwrite]; omega), bitAt_overwrite zeros,
      bitAt_replicate_zero, length_replicate]
    by_cases field : i < bitlen
    · have index : 8 * (stream.bitOffset / 8) + (stream.bitOffset % 8 + i) = stream.bitOffset + i := by omega
      rw [if_pos ⟨Nat.zero_le _, by omega⟩, if_pos field, getD_ahead, StaticTransferBuffer.read_eq,
        bitAt_take, bitAt_drop, Nat.sub_zero, index, bitlenToBytelen, decide_eq_true (by omega),
        Bool.true_and]
    · rw [if_neg (by omega), if_neg field]
      by_cases last : i < 8 * bitlenToBytelen bitlen
      · rw [if_pos (by omega), if_pos last]
      · rw [if_neg (by omega), if_neg last]

theorem ahead_skip (stream : BitStream) (bitlen : ℕ) :
    ahead { stream with bitOffset := stream.bitOffset + bitlen } = stream.ahead.drop bitlen := by
  rw [ahead, ahead, drop_drop]

/-- A reader of what was written sees the bits and less than a byte of zeros. -/
theorem Holds.ahead_init {bits : List Bool} (holds : Holds stream bits) {buf : StaticTransferBuffer}
    (same : buf.bytes = stream.buf.bytes) :
    ∃ k < 8, ahead (init buf) = bits ++ replicate k false := by
  have length : 8 * buf.bytes.length = 8 * bitlenToBytelen bits.length := by
    rw [same, StaticTransferBuffer.length_bytes, holds.length]
  refine ⟨8 * bitlenToBytelen bits.length - bits.length, by rw [bitlenToBytelen]; omega, ?_⟩
  rw [ahead, show (init buf).bitOffset = 0 from rfl, drop_zero]
  refine eq_append_of_getD ?_ fun i inside => ?_
  · rw [length_toBits, length_replicate, show (init buf).buf = buf from rfl, length, bitlenToBytelen]
    omega
  · rw [bitAt_toBits, show (init buf).buf = buf from rfl, same, holds.bit]
    split
    · rfl
    · next beyond =>
      rw [getD_eq_default _ _ (by omega)]
      by_cases within : i - bits.length < 8 * bitlenToBytelen bits.length - bits.length
      · rw [getD_replicate _ within]
      · rw [getD_eq_default _ _ (by rw [length_replicate]; omega)]

/-! ## Sequences of fields -/

/-- A bit string as the codec writes it. -/
structure Field where
  bytes : List UInt8
  bitlen : ℕ
  positive : 0 < bitlen
  le : bitlen ≤ 64
  covered : bitlen ≤ 8 * bytes.length

def Field.bits (f : Field) : List Bool := takeBits f.bytes f.bitlen

/-- Writes one after the other, with their results. -/
def writeAll : List Field → BitStream → List ℤ × BitStream
  | [], stream => ([], stream)
  | f :: rest, stream =>
    let (res, stream) := stream.write f.bytes f.bitlen
    let (results, stream) := writeAll rest stream
    (res :: results, stream)

/-- Reads one after the other: the results and the bits.  A field of `n` bits is read into `memory n`. -/
def readAll (memory : ℕ → List UInt8) : List ℕ → BitStream → List (ℤ × List Bool)
  | [], _ => []
  | bitlen :: rest, stream =>
    let (res, bytes, stream) := stream.read (memory bitlen) bitlen
    (res, takeBits bytes bitlen) :: readAll memory rest stream

/-- Writes that fit append their fields. -/
theorem Holds.writeAll {bits : List Bool} (holds : Holds stream bits) {fields : List Field}
    (room : bits.length + (fields.flatMap Field.bits).length ≤ 8 * stream.buf.getSize) :
    (writeAll fields stream).1 = fields.map (fun _ => resultOk) ∧
      Holds (writeAll fields stream).2 (bits ++ fields.flatMap Field.bits) ∧
      (writeAll fields stream).2.buf.getSize = stream.buf.getSize := by
  induction fields generalizing stream bits with
  | nil => exact ⟨rfl, by simpa [BitStream.writeAll] using holds, rfl⟩
  | cons f rest ih =>
    rw [flatMap_cons, length_append, Field.bits, length_takeBits] at room
    have written : Holds (stream.write f.bytes f.bitlen).2 _ := holds.write f.positive (by omega)
    obtain ⟨size, ⟨-, res, -⟩ | ⟨beyond, -⟩⟩ := write_cases stream f.bytes f.positive
    · obtain ⟨results, held, sizes⟩ := ih written (by rw [length_append, length_takeBits]; omega)
      rw [append_assoc] at held
      exact ⟨congrArg₂ cons res results, held, sizes.trans size⟩
    · rw [holds.offset] at beyond
      omega

theorem readAll_fields {memory : ℕ → List UInt8} (wide : ∀ n, n ≤ 8 * (memory n).length) {fields : List Field}
    {rest : List Bool} (ahead : stream.ahead = fields.flatMap Field.bits ++ rest) :
    readAll memory (fields.map Field.bitlen) stream = fields.map fun f => (resultOk, f.bits) := by
  induction fields generalizing stream with
  | nil => rfl
  | cons f others ih =>
    rw [flatMap_cons, append_assoc] at ahead
    have length : f.bits.length = f.bitlen := length_takeBits ..
    obtain ⟨bytes, read, -, bit⟩ := read_field f.positive (by rw [ahead, length_append]; omega) (wide f.bitlen)
    have same : takeBits bytes f.bitlen = f.bits := by
      refine ext_getElem (by rw [length_takeBits, length]) fun i inside inside' => ?_
      rw [← getD_eq_getElem _ false, ← getD_eq_getElem _ false, getD_takeBits, bit, if_pos (by omega), ahead,
        getD_append _ _ _ _ inside', decide_eq_true (by omega), Bool.true_and]
    rw [map_cons, readAll, read]
    refine congrArg₂ cons (by rw [same]) (ih ?_)
    rw [ahead_skip, ahead, drop_left' length]

/-- Fields written from the start of a buffer that is large enough are read back.  No write changes earlier bits, and
after the last field there are only the zeros of its last byte. -/
theorem fields_round_trip (fields : List Field) (data : List UInt8)
    (room : (fields.flatMap Field.bits).length ≤ 8 * data.length) (memory : ℕ → List UInt8)
    (wide : ∀ n, n ≤ 8 * (memory n).length) :
    let start := init ⟨data, 0, Nat.zero_le _⟩
    let final := (writeAll fields start).2
    (writeAll fields start).1 = fields.map (fun _ => resultOk) ∧
      readAll memory (fields.map Field.bitlen) (init final.buf) = fields.map (fun f => (resultOk, f.bits)) ∧
      (∀ earlier later, fields = earlier ++ later → ∀ i < (earlier.flatMap Field.bits).length,
        bitAt final.buf.bytes i = bitAt (writeAll earlier start).2.buf.bytes i) ∧
      final.buf.bytes.length = bitlenToBytelen (fields.flatMap Field.bits).length ∧
      ∀ i, (fields.flatMap Field.bits).length ≤ i → bitAt final.buf.bytes i = false := by
  intro start final
  have fits : ∀ written : List Field, (written.flatMap Field.bits).length ≤ 8 * data.length →
      0 + (written.flatMap Field.bits).length ≤ 8 * start.buf.getSize := fun _ small => (Nat.zero_add _).trans_le small
  obtain ⟨results, holds, -⟩ := (holds_init data).writeAll (fits fields room)
  rw [nil_append] at holds
  obtain ⟨k, -, ahead⟩ := holds.ahead_init rfl
  refine ⟨results, readAll_fields wide ahead, ?_, ?_, fun i beyond => ?_⟩
  · rintro earlier later rfl i inside
    rw [flatMap_append] at room holds
    rw [length_append] at room
    have before := ((holds_init data).writeAll (fits earlier (by omega))).2.1
    rw [holds.bit, before.bit, nil_append, getD_append _ _ _ _ inside]
  · rw [StaticTransferBuffer.length_bytes, holds.length]
  · rw [holds.bit, getD_eq_default _ _ beyond]

/-- A bit, twelve bits and another bit. -/
def Field.sample : List Field :=
  [⟨[0x80], 1, by decide, by decide, by decide⟩, ⟨[0xAB, 0xC0], 12, by decide, by decide, by decide⟩,
    ⟨[0x80], 1, by decide, by decide, by decide⟩]

theorem fields_round_trip_sample :
    (writeAll Field.sample (init ⟨[1, 2, 3], 0, Nat.zero_le _⟩)).2.buf.bytes = [0xD5, 0xE4] ∧
      (writeAll Field.sample (init ⟨[1, 2, 3], 0, Nat.zero_le _⟩)).1 = [resultOk, resultOk, resultOk] :=
  ⟨by decide, (fields_round_trip Field.sample [1, 2, 3] (by decide) (fun n => replicate n 0)
    fun n => by rw [length_replicate]; omega).1⟩

end BitStream

end Uavcan
