import Uavcan.Transport.CRC
import Uavcan.Buffers.Gf2
import Uavcan.Buffers.ShiftRegister
import Mathlib

/-!
# The two computations of the CRC

The CRC is computed with a table, or bit by bit in a build for small targets. Both compute the remainder of the
message modulo the generator polynomial.
-/

namespace Uavcan

namespace TransferCRC

open Buffers Polynomial

/-- One round of the loop of the bitwise version. -/
def shiftBit (value : BitVec 16) : BitVec 16 := if value.getLsbD 15 then (value <<< 1) ^^^ 0x1021 else value <<< 1

def shiftBits : ℕ → BitVec 16 → BitVec 16
  | 0, value => value
  | bits + 1, value => shiftBits bits (shiftBit value)

/-- `add` for one byte, compiled under `UAVCAN_TINY`. -/
def addByteTiny (crc : TransferCRC) (byte : UInt8) : TransferCRC :=
  ⟨⟨shiftBits 8 (crc.value.toBitVec ^^^ (byte.toBitVec.setWidth 16 <<< 8))⟩⟩

def addTiny (crc : TransferCRC) (bytes : List UInt8) : TransferCRC := bytes.foldl addByteTiny crc

/-! ## The table -/

theorem shiftBit_xor (v w : BitVec 16) : shiftBit (v ^^^ w) = shiftBit v ^^^ shiftBit w := ShiftRegister.shift_xor v w

theorem shiftBits_xor (bits : ℕ) (v w : BitVec 16) :
    shiftBits bits (v ^^^ w) = shiftBits bits v ^^^ shiftBits bits w := by
  induction bits generalizing v w with
  | zero => rfl
  | succ bits ih => rw [shiftBits, shiftBit_xor, ih, shiftBits, shiftBits]

/-- The entries of the table: eight rounds on the high byte. -/
theorem shiftBits_high : ∀ b : Fin 256,
    shiftBits 8 (BitVec.ofNat 16 (b.val * 256)) = (table.getD b.val 0).toBitVec := by
  decide +kernel

/-- Eight rounds move the low byte up. -/
theorem shiftBits_low : ∀ b : Fin 256, shiftBits 8 (BitVec.ofNat 16 b.val) = BitVec.ofNat 16 b.val <<< 8 := by
  decide +kernel

/-- A word is its high byte and its low byte. -/
theorem bytes_xor (w : BitVec 16) :
    BitVec.ofNat 16 ((w >>> 8).toNat * 256) ^^^ BitVec.ofNat 16 (w.toNat % 256) = w := by
  have high : BitVec.ofNat 16 ((w >>> 8).toNat * 256) = (w >>> 8) <<< 8 := by
    apply BitVec.eq_of_toNat_eq
    rw [BitVec.toNat_ofNat, BitVec.toNat_shiftLeft, Nat.shiftLeft_eq]
  have low : BitVec.ofNat 16 (w.toNat % 256) = w &&& 0xFF#16 := by
    apply BitVec.eq_of_toNat_eq
    rw [BitVec.toNat_ofNat, BitVec.toNat_and, show (0xFF#16).toNat = 2 ^ 8 - 1 from rfl, Nat.and_two_pow_sub_one_eq_mod]
    omega
  rw [high, low]
  ext i inside
  interval_cases i <;> simp

theorem low_shiftLeft (w : BitVec 16) : BitVec.ofNat 16 (w.toNat % 256) <<< 8 = w <<< 8 := by
  apply BitVec.eq_of_toNat_eq
  rw [BitVec.toNat_shiftLeft, BitVec.toNat_shiftLeft, BitVec.toNat_ofNat, Nat.shiftLeft_eq, Nat.shiftLeft_eq]
  omega

/-- Eight rounds by the table. -/
theorem shiftBits_eq (w : BitVec 16) :
    shiftBits 8 w = (w <<< 8) ^^^ (table.getD (w >>> 8).toNat 0).toBitVec := by
  have byte : (w >>> 8).toNat < 256 := by
    rw [BitVec.toNat_ushiftRight, Nat.shiftRight_eq_div_pow]
    have := w.isLt
    omega
  have high := shiftBits_high ⟨(w >>> 8).toNat, byte⟩
  have low := shiftBits_low ⟨w.toNat % 256, Nat.mod_lt _ (by decide)⟩
  calc
    shiftBits 8 w = shiftBits 8 (BitVec.ofNat 16 ((w >>> 8).toNat * 256) ^^^ BitVec.ofNat 16 (w.toNat % 256)) := by
      rw [bytes_xor]
    _ = (w <<< 8) ^^^ (table.getD (w >>> 8).toNat 0).toBitVec := by
      rw [shiftBits_xor, high, low, low_shiftLeft, BitVec.xor_comm]

/-- The index into the table is the high byte, with the new byte added. -/
theorem high_byte (v : BitVec 16) (b : BitVec 8) :
    (v ^^^ (b.setWidth 16 <<< 8)) >>> 8 = ((v >>> 8) ^^^ b.setWidth 16) &&& 0xFF#16 := by
  ext i inside
  interval_cases i <;> simp

theorem xor_shiftLeft (v : BitVec 16) (b : BitVec 8) : (v ^^^ (b.setWidth 16 <<< 8)) <<< 8 = v <<< 8 := by
  ext i inside
  interval_cases i <;> simp

theorem addByte_eq_tiny (crc : TransferCRC) (byte : UInt8) : crc.addByte byte = crc.addByteTiny byte := by
  rw [addByteTiny, shiftBits_eq, high_byte, xor_shiftLeft]
  rfl

/-! ## The remainder -/

/-- The generator polynomial. -/
noncomputable def generator : (ZMod 2)[X] := X ^ 16 + X ^ 12 + X ^ 5 + 1

theorem toPoly_feedback : toPoly (0x1021 : BitVec 16) = X ^ 12 + X ^ 5 + 1 := by
  simp [toPoly, Finset.sum_range_succ]
  ring

theorem toPoly_shiftBit (v : BitVec 16) : ∃ q, toPoly (shiftBit v) + generator * q = X * toPoly v := by
  have shifted : toPoly (v <<< 1) + (if v.getLsbD 15 then X ^ 16 else 0) = X * toPoly v :=
    toPoly_shiftLeft_one v (by decide)
  unfold shiftBit
  by_cases top : v.getLsbD 15
  · refine ⟨1, ?_⟩
    rw [if_pos top] at shifted ⊢
    rw [toPoly_xor, toPoly_feedback, generator, ← shifted]
    linear_combination two_eq_zero_poly (X ^ 12 + X ^ 5 + 1)
  · refine ⟨0, ?_⟩
    rw [if_neg top] at shifted ⊢
    rw [← shifted, mul_zero]

theorem toPoly_shiftBits (bits : ℕ) (v : BitVec 16) :
    ∃ q, toPoly (shiftBits bits v) + generator * q = X ^ bits * toPoly v := by
  induction bits generalizing v with
  | zero => exact ⟨0, by simp [shiftBits]⟩
  | succ bits ih =>
    obtain ⟨q, first⟩ := toPoly_shiftBit v
    obtain ⟨r, later⟩ := ih (shiftBit v)
    refine ⟨r + X ^ bits * q, ?_⟩
    rw [shiftBits]
    linear_combination later + X ^ bits * first

theorem toPoly_addByteTiny (crc : TransferCRC) (byte : UInt8) :
    ∃ q, toPoly (crc.addByteTiny byte).value.toBitVec + generator * q =
      toPoly crc.value.toBitVec * X ^ 8 + toPoly byte.toBitVec * X ^ 16 := by
  obtain ⟨q, shifted⟩ := toPoly_shiftBits 8 (crc.value.toBitVec ^^^ (byte.toBitVec.setWidth 16 <<< 8))
  refine ⟨q, ?_⟩
  rw [toPoly_xor, toPoly_shiftLeft_eight] at shifted
  rw [addByteTiny]
  linear_combination shifted

theorem toPoly_addTiny (crc : TransferCRC) (bytes : List UInt8) :
    ∃ q, toPoly (crc.addTiny bytes).value.toBitVec + generator * q =
      toPoly crc.value.toBitVec * X ^ (8 * bytes.length) + messagePoly bytes * X ^ 16 := by
  induction bytes generalizing crc with
  | nil => exact ⟨0, by simp [addTiny, messagePoly]⟩
  | cons byte bytes ih =>
    obtain ⟨q, first⟩ := toPoly_addByteTiny crc byte
    obtain ⟨r, later⟩ := ih (crc.addByteTiny byte)
    refine ⟨r + q * X ^ (8 * bytes.length), ?_⟩
    rw [addTiny, List.foldl_cons, ← addTiny, messagePoly, List.length_cons, Nat.mul_succ, pow_add]
    linear_combination later + X ^ (8 * bytes.length) * first

theorem generator_monic : generator.Monic := by
  unfold generator
  monicity!

theorem degree_generator : generator.degree = 16 := by
  unfold generator
  compute_degree!

/-- Both versions compute the remainder of the message, preceded by the state, modulo the generator. -/
theorem add_eq_addTiny (crc : TransferCRC) (bytes : List UInt8) :
    crc.add bytes = crc.addTiny bytes ∧
      toPoly (crc.add bytes).value.toBitVec =
        (toPoly crc.value.toBitVec * X ^ (8 * bytes.length) + messagePoly bytes * X ^ 16) %ₘ generator := by
  have same : crc.add bytes = crc.addTiny bytes := by
    rw [add, addTiny, show @addByte = @addByteTiny from funext fun crc => funext (addByte_eq_tiny crc)]
  refine ⟨same, ?_⟩
  obtain ⟨q, divided⟩ := toPoly_addTiny crc bytes
  rw [same]
  refine (div_modByMonic_unique q _ generator_monic ⟨divided, ?_⟩).2.symm
  rw [degree_generator]
  exact degree_toPoly_lt _

end TransferCRC

end Uavcan
