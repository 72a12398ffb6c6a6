import Mathlib

/-!
# Shift registers with feedback

A register of `w` bits moves up by one, and the feedback word is added when a bit leaves it. Bits are fed in at
the top. A register whose feedback word is odd never loses information: as many bits as it is wide can be told
apart from its state, and its state can be told apart after any input.
-/

namespace Buffers

open List

namespace ShiftRegister

variable {w : ℕ} (feedback : BitVec w)

def shift (v : BitVec w) : BitVec w := if v.msb then (v <<< 1) ^^^ feedback else v <<< 1

def shifts : ℕ → BitVec w → BitVec w
  | 0, v => v
  | n + 1, v => shifts n (shift feedback v)

/-- The word with one bit, at the top. -/
def top (b : Bool) : BitVec w := if b then BitVec.twoPow w (w - 1) else 0

def feed (v : BitVec w) (bits : List Bool) : BitVec w := bits.foldl (fun v b => shift feedback (v ^^^ top b)) v

/-- The word that starts with these bits. -/
def align : List Bool → BitVec w
  | [] => 0
  | b :: bits => top b ^^^ (align bits >>> 1)

/-- The bits of a byte, the most significant one first. -/
def byteBits (byte : UInt8) : List Bool := (range 8).map byte.toBitVec.getMsbD

variable {feedback} {v u : BitVec w} {bits other : List Bool}

/-! ## One shift -/

theorem shift_xor (v u : BitVec w) : shift feedback (v ^^^ u) = shift feedback v ^^^ shift feedback u := by
  unfold shift
  rw [BitVec.msb_xor, BitVec.shiftLeft_xor_distrib]
  generalize v <<< 1 = v'
  generalize u <<< 1 = u'
  cases v.msb <;> cases u.msb
  · rfl
  · exact BitVec.xor_assoc v' u' _
  · simp only [Bool.xor_false, if_true, Bool.false_eq_true, if_false]
    rw [BitVec.xor_assoc, BitVec.xor_comm u', BitVec.xor_assoc]
  · simp only [Bool.xor_self, if_true, Bool.false_eq_true, if_false]
    rw [BitVec.xor_assoc, BitVec.xor_comm u', ← BitVec.xor_assoc feedback feedback u', BitVec.xor_self, BitVec.zero_xor]

theorem shift_of_msb_false (low : v.msb = false) : shift feedback v = v <<< 1 := by
  rw [shift, low, if_neg Bool.false_ne_true]

theorem eq_zero_of_shiftLeft_one (low : v.msb = false) (zero : v <<< 1 = 0#w) : v = 0#w := by
  refine BitVec.eq_of_getMsbD_eq fun i inside => ?_
  rw [BitVec.getMsbD_zero]
  cases i with
  | zero => exact low
  | succ i =>
    have moved := congrArg (BitVec.getMsbD · i) zero
    simpa [BitVec.getMsbD_shiftLeft, Nat.add_comm] using moved

/-- The lowest bit of the feedback word shows that a bit has left the register. -/
theorem eq_zero_of_shift (odd : feedback.getLsbD 0 = true) (zero : shift feedback v = 0#w) : v = 0#w := by
  unfold shift at zero
  split at zero
  · have low := congrArg (BitVec.getLsbD · 0) zero
    simp [odd] at low
  · exact eq_zero_of_shiftLeft_one (Bool.eq_false_iff.mpr ‹_›) zero

theorem shift_injective (odd : feedback.getLsbD 0 = true) : Function.Injective (shift feedback) := by
  intro v u same
  refine BitVec.xor_eq_zero_iff.mp (eq_zero_of_shift odd ?_)
  rw [shift_xor, same, BitVec.xor_self]

theorem shifts_injective (odd : feedback.getLsbD 0 = true) (n : ℕ) : Function.Injective (shifts feedback n) := by
  induction n with
  | zero => exact Function.injective_id
  | succ n ih => exact ih.comp (shift_injective odd)

/-! ## The word of a sequence of bits -/

theorem getMsbD_top (b : Bool) (i : ℕ) (inside : i < w) : (top b : BitVec w).getMsbD i = (decide (i = 0) && b) := by
  cases b with
  | false => simp [top]
  | true =>
    rw [top, if_pos rfl, BitVec.getMsbD_twoPow]
    by_cases first : i = 0 <;> simp [first] <;> omega

theorem getMsbD_align (bits : List Bool) (i : ℕ) (inside : i < w) :
    (align bits : BitVec w).getMsbD i = bits.getD i false := by
  induction bits generalizing i with
  | nil => simp [align]
  | cons b bits ih =>
    rw [align, BitVec.getMsbD_xor, getMsbD_top b i inside, BitVec.getMsbD_ushiftRight]
    cases i with
    | zero => simp
    | succ i => simp [ih i (by omega), inside]

/-- Words tell sequences of bits apart that are no longer than they are. -/
theorem align_injective (length : bits.length = other.length) (fits : bits.length ≤ w)
    (same : (align bits : BitVec w) = align other) : bits = other := by
  refine ext_getElem length fun i inside inside' => ?_
  have bit := congrArg (BitVec.getMsbD · i) same
  simpa [getMsbD_align _ i (Nat.lt_of_lt_of_le inside fits), inside, inside'] using bit

/-! ## Feeding bits -/

theorem feed_append (v : BitVec w) (bits other : List Bool) :
    feed feedback v (bits ++ other) = feed feedback (feed feedback v bits) other :=
  foldl_append

/-- Moving the word of the other bits down by one place loses nothing, as its last place is free. -/
theorem shift_align (fits : bits.length < w) : shift feedback ((align bits : BitVec w) >>> 1) = align bits := by
  have low : ((align bits : BitVec w) >>> 1).msb = false := by
    rw [BitVec.msb_eq_getMsbD_zero, BitVec.getMsbD_ushiftRight]
    simp
  rw [shift_of_msb_false low]
  refine BitVec.eq_of_getMsbD_eq fun i inside => ?_
  rw [BitVec.getMsbD_shiftLeft, BitVec.getMsbD_ushiftRight]
  by_cases last : i + 1 < w
  · simp [last]
  · rw [getMsbD_align bits i inside, getD_eq_default _ _ (by omega)]
    simp [last]

/-- Feeding bits one by one is adding their word and shifting as many times. -/
theorem feed_eq_shifts (v : BitVec w) (fits : bits.length ≤ w) :
    feed feedback v bits = shifts feedback bits.length (v ^^^ align bits) := by
  induction bits generalizing v with
  | nil => simp [feed, shifts, align]
  | cons b bits ih =>
    have shorter : bits.length < w := fits
    calc
      feed feedback v (b :: bits) = feed feedback (shift feedback (v ^^^ top b)) bits := rfl
      _ = shifts feedback bits.length (shift feedback (v ^^^ top b) ^^^ align bits) := ih _ shorter.le
      _ = shifts feedback bits.length (shift feedback (v ^^^ top b ^^^ align bits >>> 1)) := by
        rw [shift_xor (v ^^^ top b), shift_align shorter]
      _ = shifts feedback (b :: bits).length (v ^^^ align (b :: bits)) := by
        rw [BitVec.xor_assoc]
        rfl

theorem feed_injective_state (odd : feedback.getLsbD 0 = true) (bits : List Bool)
    (same : feed feedback v bits = feed feedback u bits) : v = u := by
  induction bits generalizing v u with
  | nil => exact same
  | cons b bits ih => exact BitVec.xor_left_inj _ |>.mp (shift_injective odd (ih same))

theorem feed_injective_bits (odd : feedback.getLsbD 0 = true) (length : bits.length = other.length)
    (fits : bits.length ≤ w) (same : feed feedback v bits = feed feedback v other) : bits = other := by
  rw [feed_eq_shifts v fits, feed_eq_shifts v (length ▸ fits), ← length] at same
  exact align_injective length fits (BitVec.xor_right_inj v |>.mp (shifts_injective odd _ same))

/-! ## Bytes -/

theorem length_byteBits (byte : UInt8) : (byteBits byte).length = 8 := by simp [byteBits]

theorem align_byteBits (byte : UInt8) (wide : 8 ≤ w) :
    align (byteBits byte) = byte.toBitVec.setWidth w <<< (w - 8) := by
  refine BitVec.eq_of_getMsbD_eq fun i inside => ?_
  rw [getMsbD_align _ i inside, BitVec.getMsbD_shiftLeft, BitVec.getMsbD_setWidth]
  rw [show i + (w - 8) + 8 - w = i by omega]
  by_cases first : i < 8
  · simp [byteBits, first]
  · rw [BitVec.getMsbD_of_ge _ _ (Nat.le_of_not_lt first)]
    simp [byteBits, first]

theorem byteBits_injective : Function.Injective byteBits := by
  intro byte other same
  have aligned := congrArg (align (w := 8)) same
  rw [align_byteBits byte (Nat.le_refl 8), align_byteBits other (Nat.le_refl 8)] at aligned
  exact UInt8.toBitVec_inj.mp (by simpa using aligned)

/-- A byte is added to the top of the register, which is then shifted eight times. -/
theorem feed_byteBits (v : BitVec w) (byte : UInt8) (wide : 8 ≤ w) :
    feed feedback v (byteBits byte) = shifts feedback 8 (v ^^^ (byte.toBitVec.setWidth w <<< (w - 8))) := by
  rw [feed_eq_shifts v (by rw [length_byteBits]; exact wide), length_byteBits, align_byteBits byte wide]

/-- The bits of a message, in the order in which they are fed. -/
def messageBits (bytes : List UInt8) : List Bool := bytes.flatMap byteBits

theorem messageBits_injective {bytes other : List UInt8} (length : bytes.length = other.length)
    (same : messageBits bytes = messageBits other) : bytes = other := by
  induction bytes generalizing other with
  | nil => exact (length_eq_zero_iff.mp length.symm).symm
  | cons byte bytes ih =>
    cases other with
    | nil => cases length
    | cons byte' other =>
      rw [messageBits, messageBits, flatMap_cons, flatMap_cons] at same
      obtain ⟨head, tail⟩ := append_inj same (by rw [length_byteBits, length_byteBits])
      rw [byteBits_injective head, ih (Nat.succ.inj length) tail]

/-- A fold over the bytes of a message that feeds each byte feeds the message. -/
theorem foldl_eq_feed {σ : Type} (state : σ → BitVec w) {add : σ → UInt8 → σ}
    (byte : ∀ s b, state (add s b) = feed feedback (state s) (byteBits b)) (s : σ) (bytes : List UInt8) :
    state (bytes.foldl add s) = feed feedback (state s) (messageBits bytes) := by
  induction bytes generalizing s with
  | nil => rfl
  | cons b bytes ih => rw [foldl_cons, ih, byte, ← feed_append, messageBits, messageBits, flatMap_cons]

/-! ## Linearity -/

theorem top_xor (b c : Bool) : (top (b ^^ c) : BitVec w) = top b ^^^ top c := by
  cases b <;> cases c <;> simp [top]

theorem feed_xor (v u : BitVec w) (length : bits.length = other.length) :
    feed feedback (v ^^^ u) (zipWith xor bits other) = feed feedback v bits ^^^ feed feedback u other := by
  induction bits generalizing v u other with
  | nil =>
    cases other with
    | nil => rfl
    | cons => cases length
  | cons b bits ih =>
    cases other with
    | nil => cases length
    | cons c other =>
      have swap : v ^^^ u ^^^ top (b ^^ c) = (v ^^^ top b) ^^^ (u ^^^ top c) := by
        rw [top_xor]
        ac_rfl
      calc
        feed feedback (v ^^^ u) (zipWith xor (b :: bits) (c :: other)) =
            feed feedback (shift feedback (v ^^^ u ^^^ top (b ^^ c))) (zipWith xor bits other) := rfl
        _ = feed feedback (shift feedback (v ^^^ top b) ^^^ shift feedback (u ^^^ top c)) (zipWith xor bits other) := by
          rw [swap, shift_xor]
        _ = feed feedback v (b :: bits) ^^^ feed feedback u (c :: other) := ih _ _ (Nat.succ.inj length)

theorem byteBits_xor (byte other : UInt8) :
    byteBits (byte ^^^ other) = zipWith xor (byteBits byte) (byteBits other) := by
  rw [byteBits, byteBits, byteBits, zipWith_map, zipWith_self]
  exact map_congr_left fun i _ => BitVec.getMsbD_xor

theorem length_messageBits (bytes : List UInt8) : (messageBits bytes).length = 8 * bytes.length := by
  induction bytes with
  | nil => rfl
  | cons byte bytes ih =>
    rw [messageBits, flatMap_cons, length_append, length_byteBits, ← messageBits, ih, length_cons]
    omega

theorem messageBits_xor {bytes other : List UInt8} (length : bytes.length = other.length) :
    messageBits (zipWith (· ^^^ ·) bytes other) = zipWith xor (messageBits bytes) (messageBits other) := by
  induction bytes generalizing other with
  | nil => rfl
  | cons byte bytes ih =>
    cases other with
    | nil => cases length
    | cons byte' other =>
      have later := ih (Nat.succ.inj length)
      rw [messageBits, messageBits, messageBits] at later ⊢
      rw [zipWith_cons_cons, flatMap_cons, flatMap_cons, flatMap_cons,
        zipWith_append (by rw [length_byteBits, length_byteBits]), later, byteBits_xor]

/-- A message is received with errors that all lie in a window of `n` bits. -/
def Burst (n : ℕ) (sent received : List UInt8) : Prop :=
  ∃ before bits other after, bits.length ≤ n ∧ bits.length = other.length ∧ bits ≠ other ∧
    messageBits sent = before ++ bits ++ after ∧ messageBits received = before ++ other ++ after

/-- The register tells a message from one with a burst of errors. -/
theorem Burst.feed_ne (odd : feedback.getLsbD 0 = true) {sent received : List UInt8} (burst : Burst w sent received) :
    feed feedback v (messageBits received) ≠ feed feedback v (messageBits sent) := by
  obtain ⟨before, bits, other, after, fits, length, differ, same, same'⟩ := burst
  rw [same, same', feed_append, feed_append, feed_append, feed_append]
  -- the states are equal after the window already
  exact fun equal => differ (feed_injective_bits odd length fits (feed_injective_state odd after equal.symm))

end ShiftRegister

end Buffers
