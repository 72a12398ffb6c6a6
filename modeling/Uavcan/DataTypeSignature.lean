import Uavcan.Buffers.ShiftRegister
import Uavcan.Transport.CRC

/-!
# Signatures of data types

The signature of a data type with fields of other types is computed from the signature of its own definition,
which is extended with that of each field's type. An extension is two rounds of CRC-64-WE.
-/

namespace Uavcan

open Buffers ShiftRegister List

structure DataTypeSignatureCRC where
  crc : UInt64
  deriving DecidableEq

namespace DataTypeSignatureCRC

def init : DataTypeSignatureCRC := ⟨0xFFFFFFFFFFFFFFFF⟩

def extend (crc : UInt64) : DataTypeSignatureCRC := ⟨crc ^^^ 0xFFFFFFFFFFFFFFFF⟩

/-- One round of the loop of `add`. -/
def shiftBit (crc : UInt64) : UInt64 :=
  if crc &&& 0x8000000000000000 ≠ 0 then (crc <<< 1) ^^^ 0x42F0E1EBA9EA3693 else crc <<< 1

def shiftBits : ℕ → UInt64 → UInt64
  | 0, crc => crc
  | n + 1, crc => shiftBits n (shiftBit crc)

def addByte (s : DataTypeSignatureCRC) (byte : UInt8) : DataTypeSignatureCRC :=
  ⟨shiftBits 8 (s.crc ^^^ (byte.toUInt64 <<< 56))⟩

def add (s : DataTypeSignatureCRC) (bytes : List UInt8) : DataTypeSignatureCRC := bytes.foldl addByte s

def get (s : DataTypeSignatureCRC) : UInt64 := s.crc ^^^ 0xFFFFFFFFFFFFFFFF

/-- The feedback word. -/
def poly : BitVec 64 := 0x42F0E1EBA9EA3693

theorem poly_odd : poly.getLsbD 0 = true := rfl

theorem toBitVec_shiftBit (crc : UInt64) : (shiftBit crc).toBitVec = shift poly crc.toBitVec := by
  have highest : crc &&& 0x8000000000000000 ≠ 0 ↔ crc.toBitVec.msb = true := by
    rw [ne_eq, ← UInt64.toBitVec_inj, UInt64.toBitVec_and, BitVec.msb_eq_getLsbD_last]
    have := BitVec.and_twoPow crc.toBitVec 63
    rw [show UInt64.toBitVec 0x8000000000000000 = BitVec.twoPow 64 63 from rfl, this]
    cases crc.toBitVec.getLsbD 63 <;> decide
  unfold shiftBit shift
  by_cases high : crc.toBitVec.msb = true
  · rw [if_pos (highest.mpr high), if_pos high]
    rfl
  · rw [if_neg (mt highest.mp high), if_neg high]
    rfl

theorem toBitVec_shiftBits (n : ℕ) (crc : UInt64) : (shiftBits n crc).toBitVec = shifts poly n crc.toBitVec := by
  induction n generalizing crc with
  | zero => rfl
  | succ n ih => rw [shiftBits, ih, toBitVec_shiftBit, shifts]

theorem addByte_eq_feed (s : DataTypeSignatureCRC) (byte : UInt8) :
    (s.addByte byte).crc.toBitVec = feed poly s.crc.toBitVec (byteBits byte) := by
  rw [feed_byteBits _ _ (by decide), addByte, toBitVec_shiftBits]
  rfl

theorem add_eq_feed (s : DataTypeSignatureCRC) (bytes : List UInt8) :
    (s.add bytes).crc.toBitVec = feed poly s.crc.toBitVec (messageBits bytes) :=
  foldl_eq_feed (fun s => s.crc.toBitVec) addByte_eq_feed s bytes

-- the check value that the source gives for this CRC
example : (init.add [0x31, 0x32, 0x33, 0x34, 0x35, 0x36, 0x37, 0x38, 0x39]).get = 0x62EC59E3F1A4F00A := by
  refine UInt64.toBitVec_inj.mp ?_
  rw [get, UInt64.toBitVec_xor, add_eq_feed]
  simp [init, feed, messageBits, byteBits, range_succ, shift, poly, top, BitVec.twoPow, BitVec.msb_eq_getLsbD_last]

end DataTypeSignatureCRC

namespace DataTypeSignature

open DataTypeSignatureCRC (poly poly_odd)

/-- The bytes of a word, LSB first. -/
def wordBytes (x : UInt64) : List UInt8 := (range 8).map fun i => (x >>> (8 * UInt64.ofNat i)).toUInt8

def mixin64 (value x : UInt64) : UInt64 := ((DataTypeSignatureCRC.extend value).add (wordBytes x)).get

def extend (value dts : UInt64) : UInt64 := mixin64 (mixin64 value dts) value

/-- The signature of a generated type, from that of its definition and those of the types of its fields. Fields of
primitive types do not count. -/
def getDataTypeSignature (dsdlSignature : UInt64) (fields : List UInt64) : UInt64 := fields.foldl extend dsdlSignature

/-- The state of the register after it was fed a word. -/
def feedWord (v : BitVec 64) (x : UInt64) : BitVec 64 := feed poly v (messageBits (wordBytes x))

theorem toBitVec_mixin64 (value x : UInt64) :
    (mixin64 value x).toBitVec = feedWord (value.toBitVec ^^^ BitVec.allOnes 64) x ^^^ BitVec.allOnes 64 := by
  rw [mixin64, DataTypeSignatureCRC.get, UInt64.toBitVec_xor, DataTypeSignatureCRC.add_eq_feed]
  rfl

/-- The inversions between the two rounds cancel. -/
theorem toBitVec_extend (value dts : UInt64) : (extend value dts).toBitVec =
    feedWord (feedWord (value.toBitVec ^^^ BitVec.allOnes 64) dts) value ^^^ BitVec.allOnes 64 := by
  rw [extend, toBitVec_mixin64, toBitVec_mixin64, BitVec.xor_assoc, BitVec.xor_self, BitVec.xor_zero]

theorem wordBytes_xor (x y : UInt64) : wordBytes (x ^^^ y) = zipWith (· ^^^ ·) (wordBytes x) (wordBytes y) := by
  rw [wordBytes, wordBytes, wordBytes, zipWith_map, zipWith_self]
  refine map_congr_left fun i _ => ?_
  rw [UInt64.shiftRight_xor, UInt64.toUInt8_xor]

theorem length_wordBytes (x : UInt64) : (wordBytes x).length = 8 := by simp [wordBytes]

theorem wordBytes_injective : Function.Injective wordBytes := by
  intro x y same
  have bytes : ∀ i < 8, x.toNat / 2 ^ (8 * i) % 2 ^ 8 = y.toNat / 2 ^ (8 * i) % 2 ^ 8 := by
    intro i inside
    have byte := congrArg UInt8.toNat (map_inj_left.mp same i (mem_range.mpr inside))
    have amount : (8 * UInt64.ofNat i).toNat % 64 = 8 * i := by
      rw [UInt64.toNat_mul, UInt64.toNat_ofNat', show (8 : UInt64).toNat = 8 from rfl]
      omega
    rwa [UInt64.toNat_toUInt8, UInt64.toNat_toUInt8, UInt64.toNat_shiftRight, UInt64.toNat_shiftRight, amount,
      Nat.shiftRight_eq_div_pow, Nat.shiftRight_eq_div_pow] at byte
  refine UInt64.toNat_inj.mp (Nat.eq_of_testBit_eq fun j => ?_)
  by_cases inside : j < 64
  · have bit := congrArg (Nat.testBit · (j % 8)) (bytes (j / 8) (by omega))
    simp only [Nat.testBit_mod_two_pow, Nat.testBit_div_two_pow, Nat.mod_lt j (show 0 < 8 by decide), decide_true,
      Bool.true_and] at bit
    rwa [Nat.mod_add_div] at bit
  · have large : 2 ^ 64 ≤ 2 ^ j := Nat.pow_le_pow_right (by decide) (Nat.le_of_not_lt inside)
    rw [Nat.testBit_lt_two_pow (x.toNat_lt.trans_le large), Nat.testBit_lt_two_pow (y.toNat_lt.trans_le large)]

theorem feedWord_xor (v u : BitVec 64) (x y : UInt64) :
    feedWord (v ^^^ u) (x ^^^ y) = feedWord v x ^^^ feedWord u y := by
  have bytes : (wordBytes x).length = (wordBytes y).length := by rw [length_wordBytes, length_wordBytes]
  rw [feedWord, wordBytes_xor, messageBits_xor bytes, feed_xor]
  · rfl
  · rw [length_messageBits, length_messageBits, bytes]

theorem feedWord_injective (v : BitVec 64) : Function.Injective (feedWord v) := by
  intro x y same
  have length : (wordBytes x).length = (wordBytes y).length := by rw [length_wordBytes, length_wordBytes]
  refine wordBytes_injective (messageBits_injective length (feed_injective_bits poly_odd ?_ ?_ same))
  · rw [length_messageBits, length_messageBits, length]
  · rw [length_messageBits, length_wordBytes]

theorem extend_injective (value : UInt64) : Function.Injective (extend value) := by
  intro dts other same
  have states := congrArg UInt64.toBitVec same
  rw [toBitVec_extend, toBitVec_extend] at states
  exact feedWord_injective _ (feed_injective_state poly_odd _ ((BitVec.xor_left_inj _).mp states))

/-- Types that differ only in the type of their last field have the same signature only if those types have. -/
theorem getDataTypeSignature_last_iff (dsdlSignature : UInt64) (fields : List UInt64) (last other : UInt64) :
    getDataTypeSignature dsdlSignature (fields ++ [last]) = getDataTypeSignature dsdlSignature (fields ++ [other]) ↔
      last = other := by
  rw [getDataTypeSignature, getDataTypeSignature, foldl_concat, foldl_concat]
  exact (extend_injective _).eq_iff

/-- Two words that both rounds together map to zero. -/
def lost : List UInt64 := [0x1CF7C6AC5B6A6630, 0xE56EE19C1CFB90E1]

theorem feedWord_first : feedWord (feedWord 0x1CF7C6AC5B6A6630#64 0) 0x1CF7C6AC5B6A6630 = 0#64 := by
  simp [feedWord, feed, messageBits, wordBytes, byteBits, range_succ, shift, poly, top, BitVec.twoPow,
    BitVec.msb_eq_getLsbD_last]

theorem feedWord_second : feedWord (feedWord 0xE56EE19C1CFB90E1#64 0) 0xE56EE19C1CFB90E1 = 0#64 := by
  simp [feedWord, feed, messageBits, wordBytes, byteBits, range_succ, shift, poly, top, BitVec.twoPow,
    BitVec.msb_eq_getLsbD_last]

theorem feedWord_lost : ∀ k ∈ lost, feedWord (feedWord k.toBitVec 0) k = 0#64 :=
  forall_mem_cons.mpr ⟨feedWord_first, forall_mem_singleton.mpr feedWord_second⟩

theorem extend_xor_lost (value dts : UInt64) : ∀ k ∈ lost, extend (value ^^^ k) dts = extend value dts := by
  intro k member
  refine UInt64.toBitVec_inj.mp ?_
  rw [toBitVec_extend, toBitVec_extend]
  refine congrArg (· ^^^ BitVec.allOnes 64) ?_
  calc
    feedWord (feedWord ((value ^^^ k).toBitVec ^^^ BitVec.allOnes 64) dts) (value ^^^ k) =
        feedWord (feedWord ((value.toBitVec ^^^ BitVec.allOnes 64) ^^^ k.toBitVec) (dts ^^^ 0)) (value ^^^ k) := by
      rw [UInt64.toBitVec_xor, UInt64.xor_zero, BitVec.xor_assoc, BitVec.xor_comm k.toBitVec, ← BitVec.xor_assoc]
    _ = feedWord (feedWord (value.toBitVec ^^^ BitVec.allOnes 64) dts) value := by
      rw [feedWord_xor, feedWord_xor, feedWord_lost k member, BitVec.xor_zero]

/-- Two bits of the signature of a definition are lost with the first field of another type: for any fields, types
whose definitions differ by one of the words have the same signature. -/
theorem getDataTypeSignature_xor_lost (dsdlSignature field : UInt64) (fields : List UInt64) :
    ∀ k ∈ lost, getDataTypeSignature (dsdlSignature ^^^ k) (field :: fields) =
      getDataTypeSignature dsdlSignature (field :: fields) := by
  intro k member
  rw [getDataTypeSignature, foldl_cons, extend_xor_lost dsdlSignature field k member]
  rfl

theorem getDataTypeSignature_xor_lost_sample :
    getDataTypeSignature (5 ^^^ 0x1CF7C6AC5B6A6630) [7] = getDataTypeSignature 5 [7] :=
  getDataTypeSignature_xor_lost 5 7 [] 0x1CF7C6AC5B6A6630 (by decide)

end DataTypeSignature

end Uavcan
