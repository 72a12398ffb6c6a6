import Uavcan.Buffers.Overwrite
import Mathlib.Data.List.GetD

/-!
# The bits of a byte sequence

A byte sequence is a sequence of bits, the most significant bit of each byte first. `bitAt` is one of these
bits, false beyond the end, and `toBits` is all of them. What an operation does to the bytes is stated by what
it does to `bitAt`.
-/

namespace Buffers

open List

/-- Bit `j` of a byte, the most significant one being bit 0. -/
def byteBit (b : UInt8) (j : ℕ) : Bool := b.toBitVec.getMsbD j

variable (bytes : List UInt8)

def bitAt (i : ℕ) : Bool := byteBit (bytes.getD (i / 8) 0) (i % 8)

def toBits : List Bool := (List.range (8 * bytes.length)).map (bitAt bytes)

/-- The first `n` bits. -/
def takeBits (n : ℕ) : List Bool := (List.range n).map (bitAt bytes)

@[simp] theorem length_toBits : (toBits bytes).length = 8 * bytes.length := by
  simp [toBits]

@[simp] theorem length_takeBits (n : ℕ) : (takeBits bytes n).length = n := by
  simp [takeBits]

@[simp] theorem byteBit_zero (j : ℕ) : byteBit 0 j = false := by
  simp [byteBit]

theorem byteBit_or (a b : UInt8) (j : ℕ) : byteBit (a ||| b) j = (byteBit a j || byteBit b j) := by
  simp [byteBit]

theorem byteBit_and (a b : UInt8) (j : ℕ) : byteBit (a &&& b) j = (byteBit a j && byteBit b j) := by
  simp [byteBit]

theorem byteBit_not (b : UInt8) {j : ℕ} (h : j < 8) : byteBit (~~~b) j = !byteBit b j := by
  simp [byteBit, h]

theorem byteBit_eq_testBit (b : UInt8) {j : ℕ} (h : j < 8) :
    byteBit b j = b.toNat.testBit (7 - j) := by
  simp [byteBit, BitVec.getMsbD, h, BitVec.getLsbD]

theorem bitAt_of_le {bytes : List UInt8} {i : ℕ} (h : 8 * bytes.length ≤ i) : bitAt bytes i = false := by
  rw [bitAt, getD_eq_default _ _ (by omega), byteBit_zero]

theorem bitAt_toBits (i : ℕ) : (toBits bytes).getD i false = bitAt bytes i := by
  by_cases h : i < 8 * bytes.length
  · simp [toBits, h]
  · rw [bitAt_of_le (by omega), getD_eq_default _ _ (by rw [length_toBits]; omega)]

theorem getD_takeBits (n i : ℕ) :
    (takeBits bytes n).getD i false = (decide (i < n) && bitAt bytes i) := by
  by_cases h : i < n
  · simp [takeBits, h]
  · simp [h]

theorem bitAt_replicate_zero (n i : ℕ) : bitAt (replicate n 0) i = false := by
  by_cases h : i / 8 < n
  · rw [bitAt, getD_replicate _ h, byteBit_zero]
  · exact bitAt_of_le (by rw [length_replicate]; omega)

theorem bitAt_append (xs ys : List UInt8) (i : ℕ) :
    bitAt (xs ++ ys) i = if i < 8 * xs.length then bitAt xs i else bitAt ys (i - 8 * xs.length) := by
  split
  · rw [bitAt, bitAt, getD_append _ _ _ _ (by omega)]
  · have byte : (i - 8 * xs.length) / 8 = i / 8 - xs.length := by omega
    have bit : (i - 8 * xs.length) % 8 = i % 8 := by omega
    rw [bitAt, bitAt, getD_append_right _ _ _ _ (by omega), byte, bit]

theorem bitAt_take (n i : ℕ) :
    bitAt (bytes.take n) i = (decide (i < 8 * n) && bitAt bytes i) := by
  by_cases h : i < 8 * n
  · have inside : i / 8 < n := by omega
    simp [bitAt, h, List.getElem?_take_of_lt inside]
  · rw [bitAt_of_le (by rw [length_take]; omega)]
    simp [h]

theorem bitAt_drop (n i : ℕ) : bitAt (bytes.drop n) i = bitAt bytes (8 * n + i) := by
  have byte : (8 * n + i) / 8 = n + i / 8 := by omega
  simp [bitAt, byte]

variable {k : ℕ}

theorem bitAt_overwrite {bytes xs : List UInt8} (inside : k + xs.length ≤ bytes.length) (i : ℕ) :
    bitAt (overwrite bytes k xs) i =
      if 8 * k ≤ i ∧ i < 8 * (k + xs.length) then bitAt xs (i - 8 * k) else bitAt bytes i := by
  have before : (bytes.take k).length = k := by
    rw [length_take]
    omega
  rw [overwrite_eq inside, bitAt_append, bitAt_append, length_append, before]
  by_cases head : i < 8 * k
  · rw [if_pos (by omega), if_pos head, if_neg (by omega), bitAt_take, decide_eq_true head,
      Bool.true_and]
  by_cases middle : i < 8 * (k + xs.length)
  · rw [if_pos middle, if_neg head, if_pos ⟨by omega, middle⟩]
  · rw [if_neg middle, if_neg (by omega), bitAt_drop]
    congr 1
    omega

theorem bitAt_set {bytes : List UInt8} (inside : k < bytes.length) (b : UInt8) (i : ℕ) :
    bitAt (bytes.set k b) i = if i / 8 = k then byteBit b (i % 8) else bitAt bytes i := by
  simp only [bitAt, getD_eq_getElem?_getD, List.getElem?_set]
  by_cases same : k = i / 8
  · rw [if_pos same, if_pos inside, if_pos same.symm, Option.getD_some]
  · rw [if_neg same, if_neg (Ne.symm same)]

theorem eq_append_of_getD {xs ys zs : List Bool} (length : xs.length = ys.length + zs.length)
    (same : ∀ i < xs.length,
      xs.getD i false = if i < ys.length then ys.getD i false else zs.getD (i - ys.length) false) :
    xs = ys ++ zs := by
  refine ext_getElem (by rw [length, length_append]) fun i inside _ => ?_
  have bit := same i inside
  rw [getD_eq_getElem _ _ inside] at bit
  rw [bit, getElem_append]
  split
  · exact getD_eq_getElem _ _ _
  · exact getD_eq_getElem _ _ _

theorem eq_of_byteBit {a b : UInt8} (same : ∀ j < 8, byteBit a j = byteBit b j) : a = b := by
  refine UInt8.toNat_inj.mp (Nat.eq_of_testBit_eq fun k => ?_)
  by_cases inside : k < 8
  · have bit := same (7 - k) (by omega)
    rwa [byteBit_eq_testBit _ (by omega), byteBit_eq_testBit _ (by omega),
      show 7 - (7 - k) = k by omega] at bit
  · have large : 2 ^ 8 ≤ 2 ^ k := Nat.pow_le_pow_right (by decide) (by omega)
    rw [Nat.testBit_lt_two_pow (a.toNat_lt.trans_le large), Nat.testBit_lt_two_pow (b.toNat_lt.trans_le large)]

theorem eq_of_bitAt {xs ys : List UInt8} (length : xs.length = ys.length)
    (same : ∀ i, bitAt xs i = bitAt ys i) : xs = ys := by
  refine ext_getElem length fun k inside inside' => eq_of_byteBit fun j bit => ?_
  have here := same (8 * k + j)
  have byte : (8 * k + j) / 8 = k := by omega
  rwa [bitAt, bitAt, byte, Nat.mul_add_mod, Nat.mod_eq_of_lt bit, getD_eq_getElem _ _ inside,
    getD_eq_getElem _ _ inside'] at here

/-! ## Numbers as bytes, the least significant byte first -/

def littleEndian : ℕ → ℕ → List UInt8
  | 0, _ => []
  | count + 1, n => UInt8.ofNat n :: littleEndian count (n / 256)

def ofLittleEndian : List UInt8 → ℕ
  | [] => 0
  | b :: bytes => b.toNat + 256 * ofLittleEndian bytes

@[simp] theorem length_littleEndian (count n : ℕ) : (littleEndian count n).length = count := by
  induction count generalizing n with
  | zero => rfl
  | succ count ih => rw [littleEndian, length_cons, ih]

theorem ofLittleEndian_littleEndian {count n : ℕ} (small : n < 2 ^ (8 * count)) :
    ofLittleEndian (littleEndian count n) = n := by
  induction count generalizing n with
  | zero =>
    obtain rfl : n = 0 := by simpa using small
    rfl
  | succ count ih =>
    have power : 2 ^ (8 * (count + 1)) = 256 * 2 ^ (8 * count) := by
      rw [Nat.mul_succ, Nat.pow_add, Nat.mul_comm]
    rw [littleEndian, ofLittleEndian, ih (by omega), UInt8.toNat_ofNat']
    omega

theorem getD_littleEndian {count : ℕ} (inside : k < count) (n : ℕ) :
    (littleEndian count n).getD k 0 = UInt8.ofNat (n / 2 ^ (8 * k)) := by
  induction count generalizing n k with
  | zero => omega
  | succ count ih =>
    cases k with
    | zero => simp [littleEndian]
    | succ k =>
      have power : 256 * 2 ^ (8 * k) = 2 ^ (8 * (k + 1)) := by rw [Nat.mul_succ, Nat.pow_add, Nat.mul_comm]
      rw [littleEndian, getD_cons_succ, ih (by omega), Nat.div_div_eq_div_mul, power]

theorem littleEndian_zero (count : ℕ) : littleEndian count 0 = replicate count 0 := by
  induction count with
  | zero => rfl
  | succ count ih =>
    rw [littleEndian, ih]
    rfl

end Buffers
