import Uavcan.Marshal.ScalarCodec

/-!
# Integer fields

`IntegerSpec` describes an integer field: its length, its signedness and what happens to a value out of
range.  Values live in the smallest storage type that is wide enough.
-/

namespace Uavcan

open Buffers ScalarCodec List

inductive Signedness where
  | unsigned
  | signed
  deriving DecidableEq

inductive CastMode where
  | saturate
  | truncate
  deriving DecidableEq

inductive TailArrayOptimizationMode where
  | disabled
  | enabled
  deriving DecidableEq

/-- The instantiations that exist: 1 to 64 bits, and no signed integer of one bit. -/
structure IntegerSpec where
  bitLen : ℕ
  signedness : Signedness
  castMode : CastMode
  positive : 0 < bitLen
  bitLen_le : bitLen ≤ 64
  signed_lt : signedness = .signed → 1 < bitLen

namespace IntegerSpec

variable (spec : IntegerSpec)

def isSigned : Bool := spec.signedness = .signed

/-- The width of the storage type: `bool`, or 8, 16, 32 or 64 bits. -/
def storageBits : ℕ :=
  if spec.bitLen = 1 then 1
  else if spec.bitLen ≤ 8 then 8
  else if spec.bitLen ≤ 16 then 16
  else if spec.bitLen ≤ 32 then 32
  else 64

abbrev StorageType : Type := BitVec spec.storageBits

theorem bitLen_le_storageBits : spec.bitLen ≤ spec.storageBits := by
  have := spec.bitLen_le
  unfold storageBits
  repeat' split
  all_goals omega

def max : spec.StorageType :=
  if spec.isSigned then BitVec.ofNat _ (2 ^ (spec.bitLen - 1) - 1) else BitVec.ofNat _ (2 ^ spec.bitLen - 1)

def min : spec.StorageType := if spec.isSigned then -spec.max - 1#_ else 0#_

def mask : spec.StorageType := BitVec.ofNat _ (2 ^ spec.bitLen - 1)

/-- The comparison of the storage type. -/
def less (a b : spec.StorageType) : Bool := if spec.isSigned then a.slt b else a.ult b

variable (value : spec.StorageType)

def saturate : spec.StorageType :=
  if spec.less spec.max value then spec.max
  else if !spec.less spec.min value then spec.min
  else value

def truncate : spec.StorageType := value &&& spec.mask

/-- The value that is written; the specialisation for `bool` writes it as it is. -/
def cast : spec.StorageType :=
  if spec.bitLen = 1 then value
  else
    match spec.castMode with
    | .saturate => spec.saturate value
    | .truncate => spec.truncate value

def encode (value : spec.StorageType) (stream : BitStream) (_ : TailArrayOptimizationMode) : ℤ × BitStream :=
  ScalarCodec.encode spec.bitLen (spec.cast value) stream

def decode (outValue : spec.StorageType) (stream : BitStream) (_ : TailArrayOptimizationMode) :
    ℤ × spec.StorageType × BitStream :=
  ScalarCodec.decode spec.isSigned spec.bitLen outValue stream

/-- The value is between the limits of the field. -/
def inRange : Bool := !spec.less value spec.min && !spec.less spec.max value

/-- The number that a value stands for. -/
def number : ℤ := if spec.isSigned then value.toInt else value.toNat

/-- The range of the bit length. -/
def lowest : ℤ := if spec.isSigned then -((2 ^ (spec.bitLen - 1) : ℕ) : ℤ) else 0

def highest : ℤ :=
  if spec.isSigned then ((2 ^ (spec.bitLen - 1) : ℕ) : ℤ) - 1 else ((2 ^ spec.bitLen : ℕ) : ℤ) - 1

/-- A number modulo `2 ^ bitLen`; the upper half is negative in two's complement. -/
def wrap (x : ℤ) : ℤ := if spec.isSigned then x.bmod (2 ^ spec.bitLen) else x % (2 ^ spec.bitLen : ℕ)

/-- What the cast mode makes of a number. -/
def castNumber (x : ℤ) : ℤ :=
  if spec.castMode = .saturate then Max.max spec.lowest (Min.min x spec.highest) else spec.wrap x

/-! ## Values in range -/

/-- The limits of a signed field in its storage type. -/
theorem signed_limits : 0 < 2 ^ (spec.bitLen - 1) ∧ 2 ^ spec.storageBits = 2 * 2 ^ (spec.storageBits - 1) ∧
    2 ^ (spec.bitLen - 1) ≤ 2 ^ (spec.storageBits - 1) := by
  have width := spec.bitLen_le_storageBits
  have some := spec.positive
  refine ⟨Nat.two_pow_pos _, ?_, Nat.pow_le_pow_right (by decide) (by omega)⟩
  rw [← Nat.pow_succ', Nat.succ_eq_add_one, Nat.sub_add_cancel (by omega)]

variable {spec} {value : spec.StorageType}

theorem toNat_max (unsigned : spec.isSigned = false) : spec.max.toNat = 2 ^ spec.bitLen - 1 := by
  have width : 2 ^ spec.bitLen ≤ 2 ^ spec.storageBits :=
    Nat.pow_le_pow_right (by decide) spec.bitLen_le_storageBits
  have some : 0 < 2 ^ spec.bitLen := Nat.two_pow_pos _
  rw [max, if_neg (by simp [unsigned])]
  exact Nat.mod_eq_of_lt (by omega)

theorem toInt_max (signed : spec.isSigned = true) :
    spec.max.toInt = ((2 ^ (spec.bitLen - 1) : ℕ) : ℤ) - 1 := by
  obtain ⟨some, half, below⟩ := spec.signed_limits
  have small : 2 ^ (spec.bitLen - 1) - 1 < 2 ^ spec.storageBits := by omega
  rw [max, if_pos signed, BitVec.toInt_eq_toNat_cond, BitVec.toNat_ofNat, Nat.mod_eq_of_lt small]
  omega

theorem toInt_min (signed : spec.isSigned = true) : spec.min.toInt = -((2 ^ (spec.bitLen - 1) : ℕ) : ℤ) := by
  obtain ⟨some, half, below⟩ := spec.signed_limits
  have wide : 1 < spec.storageBits :=
    (spec.signed_lt (of_decide_eq_true signed)).trans_le spec.bitLen_le_storageBits
  have neg : (-spec.max).toInt = -(((2 ^ (spec.bitLen - 1) : ℕ) : ℤ) - 1) := by
    rw [BitVec.toInt_neg, toInt_max signed]
    exact Int.bmod_eq_of_le (by omega) (by omega)
  rw [min, if_pos signed, BitVec.toInt_sub, BitVec.toInt_one wide,
    Int.bmod_eq_of_le (by omega) (by omega)]
  omega

theorem number_injective : Function.Injective spec.number := by
  intro a b same
  unfold number at same
  split at same
  · exact BitVec.eq_of_toInt_eq same
  · exact BitVec.eq_of_toNat_eq (Int.ofNat_inj.mp same)

theorem less_iff {a b : spec.StorageType} : spec.less a b = true ↔ spec.number a < spec.number b := by
  unfold less number
  split
  · exact decide_eq_true_iff
  · rw [BitVec.ult, decide_eq_true_iff, Int.ofNat_lt]

theorem number_max : spec.number spec.max = spec.highest := by
  unfold number highest
  split
  · next signed => exact toInt_max signed
  · next unsigned =>
    have some : 0 < 2 ^ spec.bitLen := Nat.two_pow_pos _
    rw [toNat_max (by simpa using unsigned)]
    omega

theorem number_min : spec.number spec.min = spec.lowest := by
  unfold number lowest
  split
  · next signed => exact toInt_min signed
  · next unsigned => simp [min, unsigned]

theorem inRange_iff_number :
    spec.inRange value = true ↔ spec.lowest ≤ spec.number value ∧ spec.number value ≤ spec.highest := by
  rw [inRange, Bool.and_eq_true, Bool.not_eq_true', Bool.not_eq_true', ← Bool.not_eq_true, ← Bool.not_eq_true, less_iff,
    less_iff, number_max, number_min, not_lt, not_lt]

theorem inRange_iff (unsigned : spec.isSigned = false) :
    spec.inRange value = true ↔ value.toNat < 2 ^ spec.bitLen := by
  rw [inRange_iff_number, number, lowest, highest]
  simp only [unsigned, Bool.false_eq_true, if_false]
  omega

/-- Up to `2 ^ bitLen` a field keeps the number of its value. -/
theorem number_restored (value : spec.StorageType) :
    spec.number (fixTwosComplement spec.isSigned spec.bitLen (clearExtraBits spec.bitLen value)) =
      spec.wrap (spec.number value) := by
  unfold number wrap
  split
  · next signed => rw [signed, toInt_restored spec.positive spec.bitLen_le_storageBits]
  · next unsigned =>
    rw [fixTwosComplement, if_neg (by simp [unsigned]), toNat_clearExtraBits spec.bitLen_le_storageBits]
    exact Int.natCast_emod ..

theorem wrap_of_range {x : ℤ} (lower : spec.lowest ≤ x) (upper : x ≤ spec.highest) : spec.wrap x = x := by
  have power : 2 ^ spec.bitLen = 2 * 2 ^ (spec.bitLen - 1) := by
    rw [← Nat.pow_succ', Nat.succ_eq_add_one, Nat.sub_add_cancel spec.positive]
  unfold lowest at lower
  unfold highest at upper
  unfold wrap
  split at lower
  · next signed =>
    rw [if_pos signed] at upper ⊢
    exact Int.bmod_eq_of_le (by omega) (by omega)
  · next unsigned =>
    rw [if_neg unsigned] at upper ⊢
    exact Int.emod_eq_of_lt lower (by omega)

theorem range_zero (spec : IntegerSpec) : spec.lowest ≤ 0 ∧ 0 ≤ spec.highest := by
  have half : 0 < 2 ^ (spec.bitLen - 1) := Nat.two_pow_pos _
  have whole : 0 < 2 ^ spec.bitLen := Nat.two_pow_pos _
  unfold lowest highest
  split <;> omega

theorem number_saturate (value : spec.StorageType) :
    spec.number (spec.saturate value) = Max.max spec.lowest (Min.min (spec.number value) spec.highest) := by
  have range := spec.range_zero
  unfold saturate
  split
  · next above =>
    rw [less_iff, number_max] at above
    rw [number_max]
    omega
  · next below =>
    rw [less_iff, number_max] at below
    split
    · next least =>
      rw [Bool.not_eq_true', ← Bool.not_eq_true, less_iff, number_min] at least
      rw [number_min]
      omega
    · next more =>
      rw [Bool.not_eq_true', Bool.not_eq_false, less_iff, number_min] at more
      omega

theorem clearExtraBits_truncate (value : spec.StorageType) :
    clearExtraBits spec.bitLen (spec.truncate value) = clearExtraBits spec.bitLen value := by
  refine BitVec.eq_of_getLsbD_eq fun i inside => ?_
  rw [getLsbD_clearExtraBits spec.bitLen_le_storageBits, getLsbD_clearExtraBits spec.bitLen_le_storageBits,
    truncate, BitVec.getLsbD_and, mask, BitVec.getLsbD_ofNat]
  by_cases low : i < spec.bitLen
  · simp [low, inside]
  · simp [low]

variable {stream : BitStream}

section

variable (inRange : spec.inRange value = true)

include inRange

theorem restore_inRange :
    fixTwosComplement spec.isSigned spec.bitLen (clearExtraBits spec.bitLen value) = value := by
  obtain ⟨lower, upper⟩ := inRange_iff_number.mp inRange
  exact number_injective ((number_restored value).trans (wrap_of_range lower upper))

theorem saturate_inRange : spec.saturate value = value := by
  obtain ⟨lower, upper⟩ := inRange_iff_number.mp inRange
  refine number_injective ((number_saturate value).trans ?_)
  omega

/-- In range, the cast changes nothing on the wire. -/
theorem fieldBits_cast :
    fieldBits spec.bitLen (spec.cast value) = fieldBits spec.bitLen value := by
  unfold cast
  split
  · rfl
  · split
    · rw [saturate_inRange inRange]
    · rw [fieldBits, fieldBits, clearExtraBits_truncate]

theorem encode_holds {bits : List Bool} (holds : stream.Holds bits)
    (room : bits.length + spec.bitLen ≤ 8 * stream.buf.getSize)
    (mode : TailArrayOptimizationMode) :
    ∃ stream', spec.encode value stream mode = (resultOk, stream') ∧
      stream'.Holds (bits ++ fieldBits spec.bitLen value) ∧ stream'.buf.getSize = stream.buf.getSize := by
  rw [← fieldBits_cast inRange]
  exact ScalarCodec.encode_holds spec.positive holds room (spec.cast value)

theorem decode_field {rest : List Bool}
    (ahead : stream.ahead = fieldBits spec.bitLen value ++ rest) (old : spec.StorageType)
    (mode : TailArrayOptimizationMode) :
    ∃ stream', spec.decode old stream mode = (resultOk, value, stream') ∧ stream'.ahead = rest := by
  have run := ScalarCodec.decode_field spec.positive spec.bitLen_le_storageBits ahead spec.isSigned old
  rw [restore_inRange inRange] at run
  exact ⟨_, run, by rw [BitStream.ahead_skip, ahead, drop_left' (length_fieldBits ..)]⟩

end

theorem inRange_zero (spec : IntegerSpec) : spec.inRange 0#_ = true := by
  rw [inRange_iff_number, show spec.number 0#_ = 0 by simp [number]]
  exact spec.range_zero

theorem decode_zeros {k : ℕ} (ahead : stream.ahead = replicate k false) (old : spec.StorageType)
    (mode : TailArrayOptimizationMode) :
    spec.decode old stream mode = (resultOutOfBuffer, old, stream) ∨
      ∃ stream', spec.decode old stream mode = (resultOk, 0#_, stream') ∧ spec.bitLen ≤ k ∧
        stream'.ahead = replicate (k - spec.bitLen) false := by
  rcases Nat.lt_or_ge k spec.bitLen with short | enough
  · exact .inl (decode_short (by rwa [ahead, length_replicate]) _ _)
  · have zeros : stream.ahead = fieldBits spec.bitLen (BitVec.ofNat spec.storageBits 0) ++
        replicate (k - spec.bitLen) false := by
      rw [ahead, fieldBits_zero, ← replicate_add, Nat.add_sub_cancel' enough]
    obtain ⟨stream', run, left⟩ := decode_field spec.inRange_zero zeros old mode
    exact .inr ⟨stream', run, enough, left⟩

theorem decode_cases (stream : BitStream) (old : spec.StorageType) (mode : TailArrayOptimizationMode) :
    (spec.decode old stream mode).1 = resultOk ∨ (spec.decode old stream mode).1 = resultOutOfBuffer := by
  unfold decode
  rcases Nat.lt_or_ge stream.ahead.length spec.bitLen with short | enough
  · exact .inr (by rw [decode_short short])
  · exact .inl (decode_there spec.positive spec.bitLen_le_storageBits enough _ _)

/-! ## The value that comes back -/

theorem inRange_bool (one : spec.bitLen = 1) (value : spec.StorageType) : spec.inRange value = true := by
  have unsigned : spec.isSigned = false := by
    refine decide_eq_false fun signed => ?_
    have := spec.signed_lt signed
    omega
  have width : spec.storageBits = spec.bitLen := by rw [storageBits, if_pos one, one]
  rw [inRange_iff unsigned, ← width]
  exact value.isLt

theorem number_restored_cast (value : spec.StorageType) :
    spec.number (fixTwosComplement spec.isSigned spec.bitLen (clearExtraBits spec.bitLen (spec.cast value))) =
      spec.castNumber (spec.number value) := by
  have saturated : spec.number (fixTwosComplement spec.isSigned spec.bitLen
      (clearExtraBits spec.bitLen (spec.saturate value))) =
      Max.max spec.lowest (Min.min (spec.number value) spec.highest) := by
    have range := spec.range_zero
    rw [restore_inRange (inRange_iff_number.mpr ?_), number_saturate]
    rw [number_saturate]
    omega
  unfold cast castNumber
  split_ifs with one mode mode
  · rw [← saturated, saturate_inRange (inRange_bool one value)]
  · exact number_restored value
  · rw [mode, saturated]
  · cases truncated : spec.castMode with
    | saturate => exact absurd truncated mode
    | truncate => rw [clearExtraBits_truncate, number_restored]

/-- From any position of a stream that has room for the field: what is read is the value in the range of the field, and
both the writer and the reader move by the length of the field. -/
theorem codec_round_trip (spec : IntegerSpec) (value old : spec.StorageType) (mode : TailArrayOptimizationMode)
    (fields : List BitStream.Field) (data : List UInt8)
    (room : (fields.flatMap BitStream.Field.bits).length + spec.bitLen ≤ 8 * data.length) :
    let start := (BitStream.writeAll fields (.init ⟨data, 0, Nat.zero_le _⟩)).2
    let encoded := spec.encode value start mode
    let decoded := spec.decode old ⟨encoded.2.buf, start.bitOffset, 0⟩ mode
    start.bitOffset = (fields.flatMap BitStream.Field.bits).length ∧
      encoded.1 = resultOk ∧ encoded.2.bitOffset = start.bitOffset + spec.bitLen ∧
      decoded.1 = resultOk ∧ decoded.2.2.bitOffset = start.bitOffset + spec.bitLen ∧
      spec.number decoded.2.1 = spec.castNumber (spec.number value) := by
  intro start encoded decoded
  have fits : 0 + (fields.flatMap BitStream.Field.bits).length ≤ 8 * data.length := by omega
  obtain ⟨-, holds, size⟩ := (BitStream.holds_init data).writeAll fits
  obtain ⟨written, run, held, -⟩ := ScalarCodec.encode_holds spec.positive holds (by
    rw [size]
    exact room) (spec.cast value)
  have encoded_eq : encoded = (resultOk, written) := run
  obtain ⟨k, -, ahead⟩ := held.ahead_init rfl
  have there : BitStream.ahead ⟨written.buf, start.bitOffset, 0⟩ =
      fieldBits spec.bitLen (spec.cast value) ++ replicate k false := by
    have skipped := BitStream.ahead_skip (.init written.buf) start.bitOffset
    rw [ahead, holds.offset, append_assoc, drop_left] at skipped
    rw [← skipped, holds.offset]
    simp [BitStream.init]
  have read := ScalarCodec.decode_field spec.positive spec.bitLen_le_storageBits there spec.isSigned old
  have decoded_eq : decoded = _ := (congrArg (fun e : ℤ × BitStream =>
    spec.decode old ⟨e.2.buf, start.bitOffset, 0⟩ mode) encoded_eq).trans read
  rw [decoded_eq, encoded_eq]
  refine ⟨holds.offset, rfl, ?_, rfl, rfl, number_restored_cast value⟩
  rw [held.offset, length_append, length_fieldBits, holds.offset]

/-- A signed field of five bits. -/
def sample : IntegerSpec :=
  ⟨5, .signed, .truncate, Nat.succ_pos _, Nat.le_add_right 5 59, fun _ => Nat.le_add_right 2 3⟩

theorem codec_round_trip_sample :
    sample.number (sample.decode 0#_ ⟨(sample.encode 19#_ (.init ⟨[0, 0], 0, Nat.zero_le _⟩) .disabled).2.buf, 0, 0⟩
      .disabled).2.1 = -13 :=
  (codec_round_trip sample 19#_ 0#_ .disabled [] [0, 0] (by decide)).2.2.2.2.2

end IntegerSpec

end Uavcan
