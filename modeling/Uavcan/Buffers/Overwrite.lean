import Mathlib.Algebra.Group.Nat.Defs
import Mathlib.Data.List.Basic
import Mathlib.Order.Lattice

/-!
# Writing into a sequence

`overwrite l k xs` writes `xs` over the elements of `l` from position `k` on and drops what does not fit. A
storage made of several pieces is written piece by piece (`overwrite_append`). `splice` also extends the
sequence where `xs` goes beyond its end: that is what writing means for the data of a buffer, as opposed to
its memory (`take_overwrite`).
-/

namespace Buffers

open List

variable {α : Type}

def overwrite : List α → ℕ → List α → List α
  | [], _, _ => []
  | a :: l, 0, [] => a :: l
  | _ :: l, 0, x :: xs => x :: overwrite l 0 xs
  | a :: l, k + 1, xs => a :: overwrite l k xs

@[simp] theorem length_overwrite (l : List α) (k : ℕ) (xs : List α) :
    (overwrite l k xs).length = l.length := by
  fun_induction overwrite l k xs with
  | case1 => rfl
  | case2 => rfl
  | case3 a l x xs ih => simp [ih]
  | case4 a l k xs ih => simp [ih]

@[simp] theorem nil_overwrite (k : ℕ) (xs : List α) : overwrite [] k xs = [] := by rw [overwrite]

@[simp] theorem overwrite_nil (l : List α) (k : ℕ) : overwrite l k [] = l := by
  induction l generalizing k with
  | nil => rfl
  | cons a l ih =>
    cases k with
    | zero => rfl
    | succ k => rw [overwrite, ih]

/-- Writing over two pieces: the second one takes what goes beyond the first one. -/
theorem overwrite_append (l l' : List α) (k : ℕ) (xs : List α) :
    overwrite (l ++ l') k xs =
      overwrite l k xs ++ overwrite l' (k - l.length) (xs.drop (l.length - k)) := by
  fun_induction overwrite l k xs with
  | case1 k xs => simp
  | case2 a l => simp
  | case3 a l x xs ih => simpa [overwrite] using ih
  | case4 a l k xs ih => simpa [overwrite] using ih

variable {l : List α} {k : ℕ}

theorem overwrite_eq {xs : List α} (inside : k + xs.length ≤ l.length) :
    overwrite l k xs = l.take k ++ xs ++ l.drop (k + xs.length) := by
  fun_induction overwrite l k xs with
  | case1 k xs =>
    obtain rfl : xs = [] := by
      rw [← length_eq_zero_iff]
      simp only [length_nil] at inside
      omega
    simp
  | case2 => simp
  | case3 a l x xs ih =>
    simp only [length_cons] at inside
    rw [ih (by omega)]
    simp
  | case4 a l k xs ih =>
    simp only [length_cons] at inside
    rw [ih (by omega)]
    simp [Nat.add_right_comm k 1]

theorem overwrite_take (l : List α) (k : ℕ) (xs : List α) :
    overwrite l k (xs.take (l.length - k)) = overwrite l k xs := by
  fun_induction overwrite l k xs with
  | case1 => rfl
  | case2 => simp
  | case3 a l x xs ih => simpa [overwrite] using ih
  | case4 a l k xs ih => simpa [overwrite] using ih

/-- The sequence with `xs` at position `k`, longer if need be. -/
def splice (l : List α) (k : ℕ) (xs : List α) : List α := l.take k ++ xs ++ l.drop (k + xs.length)

@[simp] theorem splice_nil (l : List α) (k : ℕ) : splice l k [] = l := by simp [splice]

theorem length_splice (inside : k ≤ l.length) (xs : List α) :
    (splice l k xs).length = max l.length (k + xs.length) := by
  simp only [splice, length_append, length_take, length_drop]
  omega

/-- Two writes one after the other are one. -/
theorem splice_splice (inside : k ≤ l.length) (xs ys : List α) :
    splice (splice l k xs) (k + xs.length) ys = splice l k (xs ++ ys) := by
  have split : (l.take k ++ xs).length = k + xs.length := by
    rw [length_append, length_take, Nat.min_eq_left inside]
  have beyond : (l.take k ++ xs ++ l.drop (k + xs.length)).drop (k + xs.length + ys.length) =
      l.drop (k + xs.length + ys.length) := by
    rw [← split, drop_length_add_append, drop_drop]
  unfold splice
  rw [take_left' split, beyond, append_assoc (l.take k), length_append, Nat.add_assoc]

/-- Nothing else is left exactly if the write starts at the beginning and covers everything. -/
theorem splice_eq_iff (inside : k ≤ l.length) (xs : List α) :
    splice l k xs = xs ↔ k = 0 ∧ l.length ≤ xs.length := by
  constructor
  · intro same
    have lengths := length_splice inside xs
    rw [same] at lengths
    omega
  · rintro ⟨rfl, covered⟩
    rw [splice, take_zero, nil_append, Nat.zero_add, drop_of_length_le covered,
      append_nil]

/-- The data of a buffer after a write that starts in the data: the memory `l` holds data up to `m`. -/
theorem take_overwrite {m : ℕ} (start : k ≤ m) (data : m ≤ l.length) {xs : List α}
    (inside : k + xs.length ≤ l.length) :
    (overwrite l k xs).take (max (k + xs.length) m) = splice (l.take m) k xs := by
  have split : (l.take k ++ xs).length = k + xs.length := by
    rw [length_append, length_take, Nat.min_eq_left (start.trans data)]
  have rest : max (k + xs.length) m - (k + xs.length) = m - (k + xs.length) := by omega
  rw [overwrite_eq inside, splice, take_append, split, rest,
    take_of_length_le (by rw [split]; exact Nat.le_max_left _ _), take_take,
    Nat.min_eq_left start, drop_take]

theorem drop_min_length (l : List α) (k : ℕ) : l.drop (min k l.length) = l.drop k := by
  rcases Nat.le_total k l.length with inside | beyond
  · rw [Nat.min_eq_left inside]
  · rw [Nat.min_eq_right beyond, drop_length, drop_of_length_le beyond]

end Buffers
