import Mathlib.Data.Int.Notation
import Mathlib.Data.List.Basic

/-!
# Strings of the C library

A string is stored as its characters and a NUL character after them.
-/

namespace Buffers

open List

/-- `strncmp` on two pieces of memory: the difference of the first characters that differ, among at most `n` and up to
the end of the strings.  There is no result if a string is not terminated in time. -/
def strncmp : ℕ → List UInt8 → List UInt8 → Option ℤ
  | 0, _, _ => some 0
  | n + 1, a :: as, b :: bs =>
    if a ≠ b then some (a.toNat - b.toNat) else if a = 0 then some 0 else strncmp n as bs
  | _, _, _ => none

theorem strncmp_of_ne {a b : UInt8} (differ : a ≠ b) (n : ℕ) (as bs : List UInt8) :
    strncmp (n + 1) (a :: as) (b :: bs) ≠ some 0 := by
  have numbers := UInt8.toNat_inj.not.mpr differ
  rw [strncmp, if_pos differ]
  simp only [ne_eq, Option.some.injEq]
  omega

theorem strncmp_eq_zero_iff {n : ℕ} {s s' rest rest' : List UInt8} (clean : 0 ∉ s) (clean' : 0 ∉ s') :
    strncmp n (s ++ 0 :: rest) (s' ++ 0 :: rest') = some 0 ↔ s.take n = s'.take n := by
  induction n generalizing s s' with
  | zero => simp [strncmp]
  | succ n ih =>
    match s, s' with
    | [], [] => simp [strncmp]
    | [], b :: s' =>
      have other : (0 : UInt8) ≠ b := fun same => clean' (same ▸ mem_cons_self)
      simpa using strncmp_of_ne other n rest (s' ++ 0 :: rest')
    | a :: s, [] =>
      have other : a ≠ 0 := fun same => clean (same ▸ mem_cons_self)
      simpa using strncmp_of_ne other n (s ++ 0 :: rest) rest'
    | a :: s, b :: s' =>
      rw [mem_cons, not_or] at clean clean'
      by_cases same : a = b
      · rw [cons_append, cons_append, strncmp, if_neg (by simpa using same), if_neg (Ne.symm clean.1),
          ih clean.2 clean'.2, take_succ_cons, take_succ_cons, same, cons_inj_right]
      · simpa [same] using strncmp_of_ne same n (s ++ 0 :: rest) (s' ++ 0 :: rest')

end Buffers
