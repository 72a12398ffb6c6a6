import Uavcan.Marshal.BitStream

/-!
# Scalars

`ScalarCodec` writes the low bits of a machine integer and reads them back. The bytes go out in little-endian
order; the bits left over from whole bytes are moved to the upper end of the last byte, because a bit stream
starts at the most significant bit. The machine integer is a bit vector of the width of its storage type. The
host is little-endian, so that `convertByteOrder` does nothing.
-/

namespace Uavcan

open Buffers List Nat

namespace ScalarCodec

variable {w : ℕ}

def clearExtraBits (bitLen : ℕ) (value : BitVec w) : BitVec w :=
  if bitLen < w then value &&& (1#w <<< bitLen - 1#w) else value

def fixTwosComplement (isSigned : Bool) (bitLen : ℕ) (value : BitVec w) : BitVec w :=
  if isSigned = true ∧ bitLen < w then
    -- the most significant bit is set: negative
    if value &&& (1#w <<< (bitLen - 1)) ≠ 0#w then
      value ||| (BitVec.allOnes w &&& ~~~(1#w <<< bitLen - 1#w))
    else value
  else value

/-- Where the bits of an incomplete last byte are moved. -/
def tailShift (bitlen : ℕ) : UInt8 := UInt8.ofNat ((8 - bitlen % 8) &&& 7)

variable (bytes : List UInt8)

/-- The step of `encodeBytesImpl` before the write. -/
def shiftTail (bitlen : ℕ) : List UInt8 :=
  if bitlen % 8 ≠ 0 then bytes.set (bitlen / 8) (bytes.getD (bitlen / 8) 0 <<< tailShift bitlen) else bytes

/-- The step of `decodeBytesImpl` after the read. -/
def unshiftTail (bitlen : ℕ) : List UInt8 :=
  if bitlen % 8 ≠ 0 then bytes.set (bitlen / 8) (bytes.getD (bitlen / 8) 0 >>> tailShift bitlen) else bytes

def encodeBytesImpl (bitlen : ℕ) (stream : BitStream) : ℤ × BitStream :=
  stream.write (shiftTail bytes bitlen) bitlen

def decodeBytesImpl (bitlen : ℕ) (stream : BitStream) :
    ℤ × List UInt8 × BitStream :=
  let (readRes, bytes, stream) := stream.read bytes bitlen
  if readRes > 0 then (readRes, unshiftTail bytes bitlen, stream) else (readRes, bytes, stream)

/-- The number of bytes of a storage type; `bool` takes a byte. -/
def sizeofStorage (w : ℕ) : ℕ := (w + 7) / 8

def encode (bitLen : ℕ) (value : BitVec w) (stream : BitStream) : ℤ × BitStream :=
  encodeBytesImpl (littleEndian (sizeofStorage w) (clearExtraBits bitLen value).toNat) bitLen stream

/-- The value, which is left as it is when the stream ends before. -/
def decode (isSigned : Bool) (bitLen : ℕ) (value : BitVec w) (stream : BitStream) :
    ℤ × BitVec w × BitStream :=
  let (readRes, bytes, stream) := decodeBytesImpl (littleEndian (sizeofStorage w) 0) bitLen stream
  if readRes > 0 then
    (readRes, fixTwosComplement isSigned bitLen (BitVec.ofNat w (ofLittleEndian bytes)), stream)
  else (readRes, value, stream)

/-! ## The bits on the wire -/

theorem extraBits_eq {bitLen : ℕ} (narrow : bitLen < w) :
    1#w <<< bitLen - 1#w = BitVec.ofNat w (2 ^ bitLen - 1) := by
  have power : 2 ^ bitLen < 2 ^ w := Nat.pow_lt_pow_right (by decide) narrow
  have one : 1 < 2 ^ w := Nat.one_lt_two_pow (by omega)
  have some : 0 < 2 ^ bitLen := Nat.two_pow_pos _
  apply BitVec.eq_of_toNat_eq
  rw [BitVec.toNat_sub, BitVec.toNat_shiftLeft, BitVec.toNat_ofNat, BitVec.toNat_ofNat,
    mod_eq_of_lt one, shiftLeft_eq, Nat.one_mul, mod_eq_of_lt power,
    show 2 ^ w - 1 + 2 ^ bitLen = 2 ^ bitLen - 1 + 2 ^ w by omega, add_mod_right,
    mod_eq_of_lt (by omega)]

theorem getLsbD_extraBits {bitLen : ℕ} (narrow : bitLen < w) (i : ℕ) :
    (1#w <<< bitLen - 1#w).getLsbD i = decide (i < bitLen) := by
  rw [extraBits_eq narrow, BitVec.getLsbD_ofNat]
  by_cases low : i < bitLen
  · simp [low.trans narrow]
  · simp [low]

theorem getLsbD_clearExtraBits {bitLen : ℕ} (fits : bitLen ≤ w) (value : BitVec w) (i : ℕ) :
    (clearExtraBits bitLen value).getLsbD i = (decide (i < bitLen) && value.getLsbD i) := by
  unfold clearExtraBits
  split
  · next narrow => rw [BitVec.getLsbD_and, getLsbD_extraBits narrow, Bool.and_comm]
  · by_cases low : i < bitLen
    · simp [low]
    · rw [BitVec.getLsbD_of_ge _ _ (by omega), Bool.and_false]

theorem toNat_clearExtraBits {bitLen : ℕ} (fits : bitLen ≤ w) (value : BitVec w) :
    (clearExtraBits bitLen value).toNat = value.toNat % 2 ^ bitLen := by
  unfold clearExtraBits
  split
  · next narrow =>
    have power : 2 ^ bitLen < 2 ^ w := Nat.pow_lt_pow_right (by decide) narrow
    rw [extraBits_eq narrow, BitVec.toNat_and, BitVec.toNat_ofNat, mod_eq_of_lt ((Nat.sub_le _ _).trans_lt power),
      and_two_pow_sub_one_eq_mod]
  · next wide =>
    obtain rfl : bitLen = w := by omega
    rw [mod_eq_of_lt value.isLt]

theorem toNat_clearExtraBits_lt {bitLen : ℕ} (fits : bitLen ≤ w) (value : BitVec w) :
    (clearExtraBits bitLen value).toNat < 2 ^ bitLen := by
  rw [toNat_clearExtraBits fits]
  exact mod_lt _ (Nat.two_pow_pos _)

@[simp] theorem length_shiftTail (bitlen : ℕ) :
    (shiftTail bytes bitlen).length = bytes.length := by
  unfold shiftTail
  split
  · exact length_set
  · rfl

variable {bitlen : ℕ}

theorem tailShift_toNat (partially : bitlen % 8 ≠ 0) :
    (tailShift bitlen).toNat % 8 = 8 - bitlen % 8 := by
  have all : ∀ r < 8, r ≠ 0 → (UInt8.ofNat ((8 - r) &&& 7)).toNat % 8 = 8 - r := by decide
  exact all _ (mod_lt _ (by decide)) partially

theorem unshift_shift (partially : bitlen % 8 ≠ 0) {b : UInt8} (small : b.toNat < 2 ^ (bitlen % 8)) :
    b <<< tailShift bitlen >>> tailShift bitlen = b := by
  have power : 2 ^ (bitlen % 8) * 2 ^ (8 - bitlen % 8) = 256 := by
    rw [← Nat.pow_add, show bitlen % 8 + (8 - bitlen % 8) = 8 by omega]
  have shifted : b.toNat * 2 ^ (8 - bitlen % 8) < 256 := by
    rw [← power]
    exact Nat.mul_lt_mul_of_pos_right small (Nat.two_pow_pos _)
  apply UInt8.toNat_inj.mp
  rw [UInt8.toNat_shiftRight, UInt8.toNat_shiftLeft, tailShift_toNat partially, shiftLeft_eq,
    mod_eq_of_lt shifted, shiftRight_eq_div_pow, Nat.mul_div_cancel _ (Nat.two_pow_pos _)]

theorem byteBit_shift (partially : bitlen % 8 ≠ 0) (b : UInt8) {j : ℕ} (low : bitlen % 8 ≤ j) (bit : j < 8) :
    byteBit (b <<< tailShift bitlen) j = false := by
  rw [byteBit_eq_testBit _ bit, UInt8.toNat_shiftLeft, tailShift_toNat partially, testBit_mod_two_pow,
    testBit_shiftLeft, decide_eq_false (show ¬7 - j ≥ 8 - bitlen % 8 by omega), Bool.false_and,
    Bool.and_false]

section Tail

variable {bytes : List UInt8} {bitlen : ℕ}

/-- The bytes hold a number of `bitlen` bits: nothing above the incomplete byte. -/
structure Narrow (bytes : List UInt8) (bitlen : ℕ) : Prop where
  fits : bitlen ≤ 8 * bytes.length
  last : (bytes.getD (bitlen / 8) 0).toNat < 2 ^ (bitlen % 8)
  above : ∀ k, bitlen / 8 < k → bytes.getD k 0 = 0

theorem unshiftTail_shiftTail (narrow : Narrow bytes bitlen) :
    unshiftTail (shiftTail bytes bitlen) bitlen = bytes := by
  have fits := narrow.fits
  unfold unshiftTail shiftTail
  split
  · next partially =>
    have inside : bitlen / 8 < bytes.length := by omega
    have changed : (bytes.set (bitlen / 8) (bytes.getD (bitlen / 8) 0 <<< tailShift bitlen)).getD
        (bitlen / 8) 0 = bytes.getD (bitlen / 8) 0 <<< tailShift bitlen := by
      rw [getD_eq_getElem?_getD, List.getElem?_set_self inside, Option.getD_some]
    rw [changed, unshift_shift partially narrow.last, set_set, getD_eq_getElem _ _ inside,
      set_getElem_self]
  · rfl

theorem bitAt_shiftTail_of_le (narrow : Narrow bytes bitlen) {i : ℕ} (beyond : bitlen ≤ i) :
    bitAt (shiftTail bytes bitlen) i = false := by
  have fits := narrow.fits
  unfold shiftTail
  split
  · next partially =>
    rw [bitAt_set (by omega)]
    split
    · exact byteBit_shift partially _ (by omega) (mod_lt _ (by decide))
    · rw [bitAt, narrow.above _ (by omega), byteBit_zero]
  · next whole =>
    have zero : bytes.getD (i / 8) 0 = 0 := by
      rcases Nat.lt_or_ge (bitlen / 8) (i / 8) with above | same
      · exact narrow.above _ above
      · have last := narrow.last
        rw [not_not.mp whole] at last
        rw [show i / 8 = bitlen / 8 by omega]
        exact UInt8.toNat_inj.mp (by simpa using last)
    rw [bitAt, zero, byteBit_zero]

end Tail

theorem narrow_littleEndian {bitLen count n : ℕ} (fits : bitLen ≤ 8 * count) (small : n < 2 ^ bitLen) :
    Narrow (littleEndian count n) bitLen where
  fits := by rwa [length_littleEndian]
  last := by
    rcases Nat.lt_or_ge (bitLen / 8) count with inside | beyond
    · have power : 2 ^ bitLen = 2 ^ (8 * (bitLen / 8)) * 2 ^ (bitLen % 8) := by
        rw [← Nat.pow_add, div_add_mod]
      rw [getD_littleEndian inside]
      refine (mod_le _ _).trans_lt (Nat.div_lt_of_lt_mul ?_)
      rwa [← power]
    · rw [getD_eq_default _ _ (by rwa [length_littleEndian])]
      exact Nat.two_pow_pos _
  above k above := by
    rcases Nat.lt_or_ge k count with inside | beyond
    · have power : 2 ^ bitLen ≤ 2 ^ (8 * k) := Nat.pow_le_pow_right (by decide) (by omega)
      rw [getD_littleEndian inside, div_eq_of_lt (small.trans_le power)]
      rfl
    · rw [getD_eq_default _ _ (by rwa [length_littleEndian])]

/-- The field that stands for a value. -/
def fieldBits (bitLen : ℕ) (value : BitVec w) : List Bool :=
  takeBits (shiftTail (littleEndian (sizeofStorage w) (clearExtraBits bitLen value).toNat) bitLen) bitLen

@[simp] theorem length_fieldBits (bitLen : ℕ) (value : BitVec w) : (fieldBits bitLen value).length = bitLen :=
  length_takeBits ..

theorem decode_short {stream : BitStream} {bitLen : ℕ} (short : stream.ahead.length < bitLen) (isSigned : Bool)
    (value : BitVec w) :
    decode isSigned bitLen value stream = (resultOutOfBuffer, value, stream) := by
  unfold decode decodeBytesImpl
  rw [BitStream.read_short short]
  rfl

theorem fieldBits_zero (bitLen : ℕ) : fieldBits bitLen (0#w) = replicate bitLen false := by
  have clear : clearExtraBits bitLen (0#w) = 0#w := by
    unfold clearExtraBits
    split
    · exact BitVec.zero_and
    · rfl
  have zeros : shiftTail (replicate (sizeofStorage w) 0) bitLen = replicate (sizeofStorage w) 0 := by
    unfold shiftTail
    split
    · have zero : (replicate (sizeofStorage w) (0 : UInt8)).getD (bitLen / 8) 0 = 0 := by
        rw [getD_eq_getElem?_getD, List.getElem?_replicate]
        split <;> rfl
      rw [zero, UInt8.zero_shiftLeft, set_replicate_self]
    · rfl
  rw [fieldBits, clear, BitVec.toNat_ofNat, zero_mod, littleEndian_zero, zeros, takeBits]
  exact eq_replicate_iff.mpr ⟨by simp, by simp [bitAt_replicate_zero]⟩

section Field

variable {bitLen : ℕ} (some : 0 < bitLen) (fits : bitLen ≤ w)
include some

variable {stream : BitStream}

theorem encode_holds {bits : List Bool} (holds : stream.Holds bits)
    (room : bits.length + bitLen ≤ 8 * stream.buf.getSize) (value : BitVec w) :
    ∃ stream', encode bitLen value stream = (resultOk, stream') ∧
      stream'.Holds (bits ++ fieldBits bitLen value) ∧ stream'.buf.getSize = stream.buf.getSize := by
  obtain ⟨size, done | out⟩ := BitStream.write_cases stream
    (shiftTail (littleEndian (sizeofStorage w) (clearExtraBits bitLen value).toNat) bitLen) some
  · exact ⟨_, Prod.ext done.2.1 rfl, holds.write some room, size⟩
  · have offset := holds.offset
    omega

theorem encode_cases (stream : BitStream) (value : BitVec w) :
    (encode bitLen value stream).2.buf.getSize = stream.buf.getSize ∧
      ((stream.bitOffset + bitLen ≤ 8 * stream.buf.getSize ∧
          (encode bitLen value stream).1 = resultOk ∧
          (encode bitLen value stream).2.bitOffset = stream.bitOffset + bitLen) ∨
        (8 * stream.buf.getSize < stream.bitOffset + bitLen ∧
          (encode bitLen value stream).1 = resultOutOfBuffer ∧
          (encode bitLen value stream).2.bitOffset = stream.bitOffset)) :=
  BitStream.write_cases stream _ some

include fits

theorem decode_there (there : bitLen ≤ stream.ahead.length) (isSigned : Bool) (old : BitVec w) :
    (decode isSigned bitLen old stream).1 = resultOk := by
  have space : bitLen ≤ 8 * (littleEndian (sizeofStorage w) 0).length := by
    rw [length_littleEndian, sizeofStorage]
    omega
  obtain ⟨bytes, read, -, -⟩ := BitStream.read_field some there space
  unfold decode decodeBytesImpl
  rw [read]
  rfl

/-- What is read is the value that was written, without its extra bits. -/
theorem decode_field {value : BitVec w} {rest : List Bool} (ahead : stream.ahead = fieldBits bitLen value ++ rest)
    (isSigned : Bool) (old : BitVec w) :
    decode isSigned bitLen old stream =
      (resultOk, fixTwosComplement isSigned bitLen (clearExtraBits bitLen value),
        { stream with bitOffset := stream.bitOffset + bitLen }) := by
  have size : bitLen ≤ 8 * sizeofStorage w := by
    rw [sizeofStorage]
    omega
  have narrow := narrow_littleEndian size (toNat_clearExtraBits_lt fits value)
  have space : bitLen ≤ 8 * (littleEndian (sizeofStorage w) 0).length := by rwa [length_littleEndian]
  have there : bitLen ≤ stream.ahead.length := by
    rw [ahead, length_append, length_fieldBits]
    omega
  obtain ⟨bytes, read, length, bit⟩ := BitStream.read_field some there space
  have same : bytes = shiftTail
      (littleEndian (sizeofStorage w) (clearExtraBits bitLen value).toNat) bitLen := by
    refine eq_of_bitAt (by rw [length, length_shiftTail, length_littleEndian, length_littleEndian]) fun i => ?_
    rw [bit, ahead, littleEndian_zero, bitAt_replicate_zero, ite_self]
    split
    · next inside =>
      rw [getD_append _ _ _ _ (by rwa [length_fieldBits]), fieldBits, getD_takeBits,
        decide_eq_true inside, Bool.true_and]
    · next beyond => rw [bitAt_shiftTail_of_le narrow (by omega)]
  have number : ofLittleEndian (unshiftTail bytes bitLen) = (clearExtraBits bitLen value).toNat := by
    rw [same, unshiftTail_shiftTail narrow, ofLittleEndian_littleEndian]
    exact (toNat_clearExtraBits_lt fits value).trans_le (Nat.pow_le_pow_right (by decide) size)
  unfold decode decodeBytesImpl
  rw [read]
  simp [resultOk, number]

end Field

/-! ## Restoring a value -/

section Restore

variable {bitLen : ℕ} {value : BitVec w}

theorem and_signBit_ne_zero (some : 0 < bitLen) (fits : bitLen ≤ w) :
    value &&& (1#w <<< (bitLen - 1)) ≠ 0#w ↔ value.getLsbD (bitLen - 1) = true := by
  have inside : bitLen - 1 < w := by omega
  have one : ∀ i, (1#w <<< (bitLen - 1)).getLsbD i = decide (i = bitLen - 1) := by
    intro i
    by_cases same : i = bitLen - 1
    · subst same
      simp [inside]
    · rw [decide_eq_false same]
      by_cases below : i < bitLen - 1
      · simp [below]
      · simp [show i - (bitLen - 1) ≠ 0 by omega]
  constructor
  · intro nonzero
    by_contra clear
    refine nonzero (BitVec.eq_of_getLsbD_eq fun i _ => ?_)
    rw [BitVec.getLsbD_and, one, BitVec.getLsbD_zero]
    by_cases same : i = bitLen - 1
    · rw [same, Bool.not_eq_true _ |>.mp clear, Bool.false_and]
    · rw [decide_eq_false same, Bool.and_false]
  · intro set zero
    have bit := congrArg (fun v => v.getLsbD (bitLen - 1)) zero
    simp only [BitVec.getLsbD_and, one, set, decide_true, Bool.and_true, BitVec.getLsbD_zero,
      Bool.true_eq_false] at bit

/-- The field is read with copies of its sign in the bits above it. -/
theorem fixTwosComplement_clearExtraBits (some : 0 < bitLen) (fits : bitLen ≤ w) :
    fixTwosComplement true bitLen (clearExtraBits bitLen value) = (value.setWidth bitLen).signExtend w := by
  rcases fits.lt_or_eq with narrow | rfl
  · have sign : (clearExtraBits bitLen value).getLsbD (bitLen - 1) = (value.setWidth bitLen).msb := by
      rw [getLsbD_clearExtraBits fits, BitVec.msb_eq_getLsbD_last, BitVec.getLsbD_setWidth]
    unfold fixTwosComplement
    rw [if_pos ⟨rfl, narrow⟩]
    refine BitVec.eq_of_getLsbD_eq fun i inside => ?_
    rw [BitVec.getLsbD_signExtend]
    split
    · next set =>
      rw [and_signBit_ne_zero some fits, sign] at set
      rw [BitVec.getLsbD_or, BitVec.getLsbD_and, BitVec.getLsbD_not,
        getLsbD_clearExtraBits fits, getLsbD_extraBits narrow]
      by_cases low : i < bitLen
      · simp [low, inside]
      · simp [low, set]
    · next clear =>
      rw [and_signBit_ne_zero some fits, sign] at clear
      rw [getLsbD_clearExtraBits fits]
      by_cases low : i < bitLen
      · simp [low, inside]
      · simp [low, clear]
  · simp [fixTwosComplement, clearExtraBits]

/-- In two's complement: the value modulo `2 ^ bitLen`, the upper half of it negative. -/
theorem toInt_restored (some : 0 < bitLen) (fits : bitLen ≤ w) :
    (fixTwosComplement true bitLen (clearExtraBits bitLen value)).toInt = value.toInt.bmod (2 ^ bitLen) := by
  rw [fixTwosComplement_clearExtraBits some fits, BitVec.toInt_signExtend_of_le fits, BitVec.toInt_setWidth,
    BitVec.toInt_eq_toNat_bmod value, Int.bmod_bmod_of_dvd (Nat.pow_dvd_pow 2 fits)]

end Restore

end ScalarCodec

end Uavcan
