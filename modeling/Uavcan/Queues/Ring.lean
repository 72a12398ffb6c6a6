import Mathlib.Data.List.Basic

/-!
# Rings

The cells of a buffer in a circle. A run of cells from some position is read as a list; a cell after the run can
be written, and the run can be moved on by one cell at either end.
-/

namespace Queues

open List

universe u

variable {α : Type u}

/-- The next position in a buffer of this size. -/
def wrap (size i : ℕ) : ℕ := if i ≥ size then 0 else i

/-- The `len` cells from position `out` on. -/
def window (buf : List α) (out len : ℕ) : List (Option α) :=
  (range len).map fun i => buf[(out + i) % buf.length]?

theorem wrap_succ {size i : ℕ} (inside : i < size) : wrap size (i + 1) = (i + 1) % size := by
  unfold wrap
  split
  · rw [show i + 1 = size by omega, Nat.mod_self]
  · exact (Nat.mod_eq_of_lt (by omega)).symm

theorem window_succ (buf : List α) (out len : ℕ) :
    window buf out (len + 1) = buf[out % buf.length]? :: window buf (out + 1) len := by
  rw [window, range_succ_eq_map, map_cons, map_map, window, Nat.add_zero]
  refine congrArg _ (map_congr_left fun i _ => ?_)
  rw [Function.comp_apply, Nat.add_succ, Nat.succ_add]

theorem window_mod (buf : List α) (out len : ℕ) : window buf (out % buf.length) len = window buf out len :=
  map_congr_left fun _ _ => by rw [Nat.mod_add_mod]

/-- Two cells of the circle that are less than a round apart. -/
theorem add_mod_ne {size out i len : ℕ} (before : i < len) (fits : len < size) :
    (out + i) % size ≠ (out + len) % size := by
  intro same
  have divides : size ∣ out + len - (out + i) := Nat.dvd_of_mod_eq_zero (Nat.sub_mod_eq_zero_of_mod_eq same.symm)
  have small := Nat.le_of_dvd (by omega) divides
  omega

/-- A cell is written right after a run that does not go all the way round. -/
theorem window_set {buf : List α} {out len : ℕ} (fits : len < buf.length) (a : α) :
    window (buf.set ((out + len) % buf.length) a) out (len + 1) = window buf out len ++ [some a] := by
  have inside : (out + len) % buf.length < buf.length := Nat.mod_lt _ (by omega)
  rw [window, range_succ, map_append, map_singleton, length_set, getElem?_set_self inside, window]
  refine congrArg (· ++ _) (map_congr_left fun i before => ?_)
  exact getElem?_set_ne (add_mod_ne (mem_range.mp before) fits).symm

end Queues
