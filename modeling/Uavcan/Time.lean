import Mathlib

/-!
# Times and durations

The arithmetic of `uavcan/time.hpp`: a time is an unsigned and a duration a signed number of microseconds,
both of 64 bits, and the intermediate results wrap around. A sum of a time and a duration is kept within the
range of times. The difference of a time and a duration negates the duration first, which the smallest
duration does not survive: its negative is itself.
-/

namespace Uavcan

namespace DurationBase

def getAbs (d : Int64) : Int64 := if d < 0 then -d else d

end DurationBase

namespace TimeBase

/-- `operator+`. -/
def add (t : UInt64) (d : Int64) : UInt64 :=
  if d < 0 then
    if (DurationBase.getAbs d).toUInt64 > t then 0 else (t.toInt64 + d).toUInt64
  else if (t.toInt64 + d).toUInt64 < t then 0xFFFFFFFFFFFFFFFF
  else (t.toInt64 + d).toUInt64

/-- `operator-` with a duration. -/
def sub (t : UInt64) (d : Int64) : UInt64 := add t (-d)

/-- `operator-` with a time. -/
def diff (t r : UInt64) : Int64 := if t > r then (t - r).toInt64 else -(r - t).toInt64

/-! ## Values -/

/-- A number brought into the range of times. -/
def clamp (x : ℤ) : ℤ := min (max x 0) (2 ^ 64 - 1)

/-- The value of a signed word, by its bits. -/
theorem toInt_eq (d : Int64) :
    d.toInt = if d.toUInt64.toNat < 2 ^ 63 then (d.toUInt64.toNat : ℤ) else d.toUInt64.toNat - 2 ^ 64 := by
  have range := d.toUInt64.toNat_lt
  rw [← Int64.toInt_toBitVec, BitVec.toInt_eq_toNat_bmod, Int64.toNat_toBitVec, Int.bmod_def]
  split <;> split <;> omega

theorem toInt_toInt64 (t : UInt64) :
    t.toInt64.toInt = if t.toNat < 2 ^ 63 then (t.toNat : ℤ) else t.toNat - 2 ^ 64 := by
  rw [toInt_eq, UInt64.toUInt64_toInt64]

theorem toNat_sum (t : UInt64) (d : Int64) :
    (t.toInt64 + d).toUInt64.toNat = (t.toNat + d.toUInt64.toNat) % 2 ^ 64 := by
  rw [Int64.toUInt64_add, UInt64.toUInt64_toInt64, UInt64.toNat_add]

/-- The sum is exact up to the range, for the smallest duration as well: its absolute value as an unsigned word is
right. -/
theorem toNat_add (t : UInt64) (d : Int64) : ((add t d).toNat : ℤ) = clamp (t.toNat + d.toInt) := by
  have value := toInt_eq d
  have range := d.toUInt64.toNat_lt
  have time := t.toNat_lt
  have sum := toNat_sum t d
  unfold add
  by_cases negative : d < 0
  · have below := Int64.lt_iff_toInt_lt.mp negative
    rw [Int64.toInt_zero] at below
    have high : ¬d.toUInt64.toNat < 2 ^ 63 := by omega
    rw [if_neg high] at value
    have abs : (DurationBase.getAbs d).toUInt64.toNat = 2 ^ 64 - d.toUInt64.toNat := by
      rw [DurationBase.getAbs, if_pos negative, Int64.toUInt64_neg, UInt64.toNat_neg, UInt64.size]
      omega
    rw [if_pos negative]
    split
    · rename_i larger
      rw [gt_iff_lt, UInt64.lt_iff_toNat_lt] at larger
      rw [UInt64.toNat_zero, clamp]
      omega
    · rename_i fits
      rw [gt_iff_lt, UInt64.lt_iff_toNat_lt] at fits
      rw [sum, clamp]
      omega
  · have above := negative
    rw [Int64.lt_iff_toInt_lt, Int64.toInt_zero] at above
    rw [if_pos (by omega)] at value
    rw [if_neg negative]
    split
    · rename_i wrapped
      rw [UInt64.lt_iff_toNat_lt] at wrapped
      rw [show (0xFFFFFFFFFFFFFFFF : UInt64).toNat = 2 ^ 64 - 1 from rfl, clamp]
      omega
    · rename_i fits
      rw [UInt64.lt_iff_toNat_lt] at fits
      rw [sum, clamp]
      omega

theorem toInt_neg (d : Int64) : (-d).toInt = if d = Int64.minValue then -2 ^ 63 else -d.toInt := by
  split
  · rename_i least
    rw [least]
    rfl
  · rename_i other
    have other : d.toInt ≠ -2 ^ 63 := fun same => other (Int64.toInt_inj.mp same)
    have lower := d.le_toInt
    have upper := d.toInt_lt
    rw [Int64.toInt_neg, Int.bmod_def]
    omega

/-- A difference of times that fits is exact. -/
theorem toInt_diff {t r : UInt64} (lower : -2 ^ 63 ≤ (t.toNat : ℤ) - r.toNat)
    (upper : (t.toNat : ℤ) - r.toNat < 2 ^ 63) : (diff t r).toInt = t.toNat - r.toNat := by
  unfold diff
  split
  · rename_i later
    have later := UInt64.lt_iff_toNat_lt.mp later
    rw [toInt_toInt64, UInt64.toNat_sub_of_le _ _ (UInt64.le_iff_toNat_le.mpr (Nat.le_of_lt later))]
    split <;> omega
  · rename_i earlier
    have earlier : t ≤ r := UInt64.not_lt.mp earlier
    have value := toInt_toInt64 (r - t)
    rw [UInt64.toNat_sub_of_le _ _ earlier] at value
    have earlier := UInt64.le_iff_toNat_le.mp earlier
    rw [toInt_neg]
    split
    · rename_i least
      rw [least, show Int64.minValue.toInt = -2 ^ 63 from rfl] at value
      split at value <;> omega
    · rename_i other
      have other : (r - t).toInt64.toInt ≠ -2 ^ 63 := fun same => other (Int64.toInt_inj.mp same)
      split at value <;> omega

/-! ## Saturation -/

/-- What the operators are to compute. -/
def Saturates (t r : UInt64) (d : Int64) : Prop :=
  ((add t d).toNat : ℤ) = clamp (t.toNat + d.toInt) ∧
    ((sub t d).toNat : ℤ) = clamp (t.toNat - d.toInt) ∧
      (-2 ^ 63 ≤ (t.toNat : ℤ) - r.toNat → (t.toNat : ℤ) - r.toNat < 2 ^ 63 →
        (diff t r).toInt = t.toNat - r.toNat)

/-- Only the smallest duration is not subtracted right. -/
theorem saturates_iff (t r : UInt64) (d : Int64) : Saturates t r d ↔ d ≠ Int64.minValue := by
  have time := t.toNat_lt
  have difference := toNat_add t (-d)
  rw [toInt_neg] at difference
  constructor
  · rintro ⟨-, subtracted, -⟩ rfl
    rw [sub, difference, if_pos rfl, show Int64.minValue.toInt = -2 ^ 63 from rfl] at subtracted
    unfold clamp at subtracted
    omega
  · intro other
    rw [if_neg other] at difference
    exact ⟨toNat_add t d, difference, toInt_diff⟩

/-- A time of five seconds and the largest duration. -/
theorem saturates_five_seconds : (sub 5000000 Int64.maxValue).toNat = clamp (5000000 - Int64.maxValue.toInt) :=
  ((saturates_iff 5000000 0 Int64.maxValue).mpr (by decide)).2.1

/-- Minus the smallest duration, a time is to grow, but becomes zero. -/
theorem not_saturates_minValue :
    ¬Saturates 5000000 0 Int64.minValue ∧ sub 5000000 Int64.minValue = 0 ∧
      clamp (5000000 - Int64.minValue.toInt) = 5000000 + 2 ^ 63 :=
  ⟨fun saturates => absurd saturates.2.1 (by decide), by decide, by decide⟩

end TimeBase

end Uavcan
