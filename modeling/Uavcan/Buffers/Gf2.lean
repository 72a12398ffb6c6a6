import Mathlib

/-!
# Words as polynomials over two elements

Bit `i` of a word is the coefficient of `X ^ i`. Exclusive or is addition, and shifting left by one bit is
multiplication by `X`, up to the bit that is lost.
-/

namespace Buffers

open Polynomial Finset

/-- The polynomial of a word. -/
noncomputable def toPoly {n : ℕ} (v : BitVec n) : (ZMod 2)[X] := ∑ i ∈ range n, if v.getLsbD i then X ^ i else 0

/-- The polynomial of a sequence of bytes, the first bit first. -/
noncomputable def messagePoly : List UInt8 → (ZMod 2)[X]
  | [] => 0
  | b :: bytes => toPoly b.toBitVec * X ^ (8 * bytes.length) + messagePoly bytes

theorem two_eq_zero_poly (p : (ZMod 2)[X]) : p + p = 0 := CharTwo.add_self_eq_zero p

theorem toPoly_xor {n : ℕ} (v w : BitVec n) : toPoly (v ^^^ w) = toPoly v + toPoly w := by
  rw [toPoly, toPoly, toPoly, ← sum_add_distrib]
  refine sum_congr rfl fun i _ => ?_
  rw [BitVec.getLsbD_xor]
  cases v.getLsbD i <;> cases w.getLsbD i <;> simp [two_eq_zero_poly]

theorem toPoly_shiftLeft_one {n : ℕ} (v : BitVec n) (positive : 0 < n) :
    toPoly (v <<< 1) + (if v.getLsbD (n - 1) then X ^ n else 0) = X * toPoly v := by
  obtain ⟨m, rfl⟩ := Nat.exists_eq_succ_of_ne_zero (Nat.ne_of_gt positive)
  have low : ∀ i ∈ range m, (if (v <<< 1).getLsbD (i + 1) then (X : (ZMod 2)[X]) ^ (i + 1) else 0) =
      X * if v.getLsbD i then X ^ i else 0 := by
    intro i inside
    have bound := mem_range.mp inside
    rw [BitVec.getLsbD_shiftLeft, decide_eq_true (by omega : i + 1 < m + 1), Nat.add_sub_cancel]
    cases v.getLsbD i <;> simp [pow_succ, mul_comm]
  rw [toPoly, sum_range_succ', sum_congr rfl low, ← mul_sum, toPoly, sum_range_succ, mul_add, Nat.succ_sub_one]
  cases v.getLsbD m <;> simp [pow_succ, mul_comm]

theorem toPoly_shiftLeft_eight (b : BitVec 8) : toPoly ((b.setWidth 16) <<< 8) = toPoly b * X ^ 8 := by
  simp [toPoly, sum_range_succ, BitVec.getLsbD_shiftLeft, add_mul, ite_mul, ← pow_add]
  rw [← pow_succ']

theorem degree_toPoly_lt {n : ℕ} (v : BitVec n) : (toPoly v).degree < n := by
  refine (degree_sum_le _ _).trans_lt ((Finset.sup_lt_iff (WithBot.bot_lt_coe n)).mpr fun i inside => ?_)
  split
  · rw [degree_X_pow]
    exact WithBot.coe_lt_coe.mpr (mem_range.mp inside)
  · rw [degree_zero]
    exact WithBot.bot_lt_coe n

end Buffers
