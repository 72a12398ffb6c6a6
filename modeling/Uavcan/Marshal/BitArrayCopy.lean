import Uavcan.Marshal.BitStream

/-!
# Copies of bits

The loop of `bitarrayCopy` ends within as many rounds as there are bits, and what it leaves is the destination
with the bits of the range replaced.
-/

namespace Uavcan

open Buffers List

/-- A loop that has copied everything does not go on. -/
theorem bitarrayCopyLoop_succ (src : List UInt8) (lastBit rounds srcOffset : ℕ) (dst : List UInt8) (dstOffset : ℕ)
    (enough : lastBit - srcOffset ≤ rounds) :
    bitarrayCopyLoop src lastBit (rounds + 1) srcOffset dst dstOffset =
      bitarrayCopyLoop src lastBit rounds srcOffset dst dstOffset := by
  induction rounds generalizing srcOffset dst dstOffset with
  | zero => exact if_pos (by omega)
  | succ rounds ih =>
    by_cases done : lastBit - srcOffset = 0
    · exact (if_pos done).trans (if_pos done).symm
    · exact (if_neg done).trans ((ih _ _ _ (by omega)).trans (if_neg done).symm)

theorem bitarrayCopyLoop_eq (src : List UInt8) (srcOffset srcLen : ℕ) (dst : List UInt8) (dstOffset : ℕ) {rounds : ℕ}
    (enough : srcLen ≤ rounds) :
    bitarrayCopyLoop src (srcOffset + srcLen) rounds srcOffset dst dstOffset =
      bitarrayCopy src srcOffset srcLen dst dstOffset := by
  induction rounds, enough using Nat.le_induction with
  | base => rfl
  | succ rounds enough ih => rw [bitarrayCopyLoop_succ _ _ _ _ _ _ (by omega), ih]

/-- The copy ends, and has replaced exactly the bits of the range. -/
theorem bitarrayCopy_exact (src : List UInt8) {dst : List UInt8} {srcOffset dstOffset srcLen : ℕ}
    (fits : dstOffset + srcLen ≤ 8 * dst.length) :
    (∀ rounds, srcLen ≤ rounds → bitarrayCopyLoop src (srcOffset + srcLen) rounds srcOffset dst dstOffset =
        bitarrayCopy src srcOffset srcLen dst dstOffset) ∧
      (bitarrayCopy src srcOffset srcLen dst dstOffset).length = dst.length ∧
      (∀ i, i < dstOffset ∨ dstOffset + srcLen ≤ i →
        bitAt (bitarrayCopy src srcOffset srcLen dst dstOffset) i = bitAt dst i) ∧
      ∀ i, i < srcLen →
        bitAt (bitarrayCopy src srcOffset srcLen dst dstOffset) (dstOffset + i) = bitAt src (srcOffset + i) := by
  refine ⟨fun rounds enough => bitarrayCopyLoop_eq src srcOffset srcLen dst dstOffset enough,
    length_bitarrayCopy .., fun i outside => ?_, fun i inside => ?_⟩
  · rw [bitAt_bitarrayCopy src srcOffset srcLen fits, if_neg (by omega)]
  · rw [bitAt_bitarrayCopy src srcOffset srcLen fits, if_pos (by omega), Nat.add_sub_cancel_left]

theorem bitarrayCopy_exact_sample :
    (bitarrayCopy [0xA5, 0xC3] 3 7 [0xFF, 0x00] 5).length = 2 ∧
      bitAt (bitarrayCopy [0xA5, 0xC3] 3 7 [0xFF, 0x00] 5) (5 + 2) = bitAt [0xA5, 0xC3] (3 + 2) :=
  have copied := @bitarrayCopy_exact [0xA5, 0xC3] [0xFF, 0x00] 3 5 7 (by decide)
  ⟨copied.2.1, copied.2.2.2 2 (by decide)⟩

end Uavcan
