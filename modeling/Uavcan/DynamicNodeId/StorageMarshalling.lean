import Uavcan.DynamicNodeId.Storage
import Mathlib.Data.List.Induction
import Mathlib.Data.Nat.Digits.Defs

/-!
# Numbers and unique IDs as arguments

The functions of `StorageMarshaller` have their value as an argument that goes in and out: here as in the
source. A number is read as text of at most ten digits, converted to 64 bits and then narrowed; numbers of
ten digits need not fit into 32 bits.
-/

namespace Uavcan

open List Function

namespace StorageMarshaller

/-- The output argument after a `get`: an error leaves it as it was.  Every byte of a unique ID is written if its text
passes the checks. -/
def into {V : Type} (result : Except Err V) (outValue : V) : Except Err Unit × V :=
  match result with
  | .ok value => (.ok (), value)
  | .error err => (.error err, outValue)

variable (st : Storage)

/-- `get` of a number, with its output argument. -/
def getNumber (key : Key) (outValue : UInt32) : Except Err Unit × UInt32 := into (get st key) outValue

/-- `get` of a unique ID, with its output argument. -/
def getUniqueIDInto (key : Key) (outValue : UniqueID) : Except Err Unit × UniqueID :=
  into (getUniqueID st key) outValue

/-- `setAndGetBack` of a number, with its argument that goes in and out. -/
def setAndGetBackNumber (key : Key) (inoutValue : UInt32) (effective : Bool) :
    (Except Err Unit × UInt32) × Storage :=
  let (result, st) := setAndGetBack st key inoutValue effective
  (into result inoutValue, st)

/-- `setAndGetBack` of a unique ID, with its argument that goes in and out. -/
def setAndGetBackUniqueIDInto (key : Key) (inoutValue : UniqueID) (effective : Bool) :
    (Except Err Unit × UniqueID) × Storage :=
  let (result, st) := setAndGetBackUniqueID st key inoutValue effective
  (into result inoutValue, st)

/-! ## Numbers that denote -/

def digitValue (ch : Char) : ℕ := ch.toNat - '0'.toNat

/-- The text is of one to ten decimal digits, and this is its value. -/
structure Denotes (val : List Char) (n : ℕ) : Prop where
  nonempty : val ≠ []
  short : val.length ≤ 10
  digits : ∀ ch ∈ val, '0' ≤ ch ∧ ch ≤ '9'
  value : Nat.ofDigits 10 (val.reverse.map digitValue) = n

/-- The conversion adds up the digits by their places. -/
theorem ofDigitChars_eq_ofDigits (val : List Char) :
    Nat.ofDigitChars 10 val 0 = Nat.ofDigits 10 (val.reverse.map digitValue) := by
  induction val using reverseRecOn with
  | nil => rfl
  | append_singleton rest ch ih =>
    rw [Nat.ofDigitChars_append, ih, Nat.ofDigitChars_cons, reverse_append,
      Nat.add_comm]
    rfl

variable {val : List Char}

theorem Denotes.lt {n : ℕ} (denotes : Denotes val n) : n < 10 ^ 10 := by
  have digits : ∀ x ∈ val.reverse.map digitValue, x < 10 := by
    intro x member
    obtain ⟨ch, inside, rfl⟩ := mem_map.mp member
    obtain ⟨-, upper⟩ := denotes.digits ch (mem_reverse.mp inside)
    have upper : ch.toNat ≤ 57 := Char.le_def.mp upper
    simp only [digitValue, Char.reduceToNat]
    omega
  calc n = Nat.ofDigits 10 (val.reverse.map digitValue) := denotes.value.symm
    _ < 10 ^ (val.reverse.map digitValue).length := Nat.ofDigits_lt_base_pow_length (by decide) digits
    _ ≤ 10 ^ 10 := Nat.pow_le_pow_right (by decide) (by simpa using denotes.short)

/-- Ten digits are far below the range of the conversion. -/
theorem Denotes.strtoull_eq {n : ℕ} (denotes : Denotes val n) : strtoull val = (n, false) := by
  have small := denotes.lt
  have value := (ofDigitChars_eq_ofDigits val).trans denotes.value
  rw [StorageMarshaller.strtoull_eq denotes.digits (by omega), value]

/-- What is read: the value of a text that denotes one, narrowed to 32 bits; and otherwise an error. -/
theorem get_cases (key : Key) :
    (∃ n, Denotes (st key) n ∧ get st key = .ok (UInt32.ofNat n)) ∨
      ((¬ ∃ n, Denotes (st key) n) ∧ get st key = .error .failure) := by
  unfold get
  simp only
  split
  case isTrue empty =>
    right
    refine ⟨?_, rfl⟩
    rintro ⟨n, denotes⟩
    exact denotes.nonempty (List.isEmpty_iff.mp empty)
  case isFalse occupied =>
  split
  case isTrue other =>
    right
    refine ⟨?_, rfl⟩
    rintro ⟨n, denotes⟩
    obtain ⟨ch, inside, outside⟩ := any_eq_true.mp other
    obtain ⟨lower, upper⟩ := denotes.digits ch inside
    simp only [Bool.or_eq_true, decide_eq_true_eq] at outside
    rcases outside with below | above
    · exact absurd lower (Char.not_le.mpr below)
    · exact absurd upper (Char.not_le.mpr above)
  case isFalse digits =>
  split
  case isTrue long =>
    right
    refine ⟨?_, rfl⟩
    rintro ⟨n, denotes⟩
    exact absurd denotes.short (Nat.not_le.mpr long)
  case isFalse short =>
    left
    have denotes : Denotes (st key) (Nat.ofDigits 10 ((st key).reverse.map digitValue)) := by
      refine ⟨by simpa using occupied, Nat.not_lt.mp short, fun ch inside => ?_, rfl⟩
      have inRange := any_eq_false.mp (Bool.not_eq_true _ ▸ digits) ch inside
      simp only [Bool.or_eq_true, decide_eq_true_eq, not_or] at inRange
      exact ⟨Char.not_lt.mp inRange.1, Char.not_lt.mp inRange.2⟩
    refine ⟨_, denotes, ?_⟩
    rw [denotes.strtoull_eq]
    rfl

/-- A number is read exactly if the text is of one to ten decimal digits and this is its value, and otherwise there is
an error and the argument stays as it was, if and only if the text is not a number of ten digits that exceeds 32
bits. -/
theorem number_read_strictly_iff (key : Key) (outValue : UInt32) :
    ((∀ value, getNumber st key outValue = (.ok (), value) ↔ Denotes (st key) value.toNat) ∧
      ((¬ ∃ value : UInt32, Denotes (st key) value.toNat) →
        getNumber st key outValue = (.error .failure, outValue))) ↔
      ∀ n, Denotes (st key) n → n < 2 ^ 32 := by
  unfold getNumber
  rcases get_cases st key with ⟨n, denotes, run⟩ | ⟨nothing, run⟩
  · have unique {m : ℕ} (denoted : Denotes (st key) m) : m = n := denoted.value.symm.trans denotes.value
    rw [run]
    constructor
    · -- the value that was read is the one that the text denotes, and it has 32 bits
      rintro ⟨strict, -⟩ m denoted
      have read := (strict (UInt32.ofNat n)).mp rfl
      rw [unique denoted, ← unique read]
      exact UInt32.toNat_lt _
    · intro fits
      have kept : (UInt32.ofNat n).toNat = n := UInt32.toNat_ofNat_of_lt' (fits n denotes)
      refine ⟨fun value => ⟨fun same => ?_, fun denoted => ?_⟩, fun nothing => ?_⟩
      · cases same
        exact kept.symm ▸ denotes
      · rw [← unique denoted, UInt32.ofNat_toNat]
        rfl
      · exact absurd ⟨UInt32.ofNat n, kept.symm ▸ denotes⟩ nothing
  · rw [run]
    refine iff_of_true ⟨fun value => ⟨fun same => ?_, fun denoted => ?_⟩, fun _ => rfl⟩ fun n denoted => ?_
    · cases same
    · exact absurd ⟨value.toNat, denoted⟩ nothing
    · exact absurd ⟨n, denoted⟩ nothing

/-- The text of 2³². -/
def exceedingText : List Char := ['4', '2', '9', '4', '9', '6', '7', '2', '9', '6']

/-- The next number after the largest is read as zero. -/
theorem number_read_narrowed : Denotes exceedingText 4294967296 ∧
    getNumber (fun _ => exceedingText) .currentTerm 7 = (.ok (), 0) := by
  refine ⟨⟨by decide, by decide, by simp [exceedingText], by decide⟩, ?_⟩
  rfl

/-! ## Every value is read back -/

theorem setAndGetBackNumber_kept (key : Key) (value : UInt32) :
    setAndGetBackNumber st key value true = ((.ok (), value), update st key (formatNumber value)) := by
  rw [setAndGetBackNumber, setAndGetBack, serializeNumber_eq, Storage.set_kept, get_set (update_self ..)]
  rfl

theorem setAndGetBackUniqueIDInto_kept (key : Key) (value : UniqueID) :
    setAndGetBackUniqueIDInto st key value true =
      ((.ok (), value), update st key (convertUniqueIDToHex value)) := by
  rw [setAndGetBackUniqueIDInto, setAndGetBackUniqueID, Storage.set_kept, getUniqueID_set (update_self ..)]
  rfl

theorem convertUniqueIDToHex_injective : Function.Injective convertUniqueIDToHex := by
  intro x y same
  have first : getUniqueID (fun _ => convertUniqueIDToHex x) .currentTerm = .ok x := getUniqueID_set rfl
  have second : getUniqueID (fun _ => convertUniqueIDToHex x) .currentTerm = .ok y := getUniqueID_set same
  exact Except.ok.inj (first.symm.trans second)

/-- With a backend that keeps what was set last, each value is read back with success, by the setter and by every later
`get`, and nothing else in the storage changes; no text is cut off, the assertion on the length of the text of a unique
ID holds, and different unique IDs have different texts. -/
theorem marshalling_round_trip (st : Storage) (key : Key) :
    (∀ value : UInt32, ∃ st', setAndGetBackNumber st key value true = ((.ok (), value), st') ∧
      st' = update st key (formatNumber value) ∧
      ∀ outValue, getNumber st' key outValue = (.ok (), value)) ∧
    (∀ value : UniqueID, ∃ st', setAndGetBackUniqueIDInto st key value true = ((.ok (), value), st') ∧
      st' = update st key (convertUniqueIDToHex value) ∧
      ∀ outValue, getUniqueIDInto st' key outValue = (.ok (), value)) ∧
    (∀ value, serializeNumber value = formatNumber value ∧ (formatNumber value).length ≤ maxStringLength) ∧
    (∀ value, convertUniqueIDToHex value = value.toList.flatMap formatByte ∧
      (convertUniqueIDToHex value).length = maxStringLength) ∧
    Function.Injective convertUniqueIDToHex := by
  refine ⟨fun value => ⟨_, setAndGetBackNumber_kept st key value, rfl, fun outValue => ?_⟩,
    fun value => ⟨_, setAndGetBackUniqueIDInto_kept st key value, rfl, fun outValue => ?_⟩,
    fun value => ⟨serializeNumber_eq value, ?_⟩,
    fun value => ⟨convertUniqueIDToHex_eq value, (convertUniqueIDToHex_wellFormed value).1⟩,
    convertUniqueIDToHex_injective⟩
  · rw [getNumber, get_set (update_self ..)]
    rfl
  · rw [getUniqueIDInto, getUniqueID_set (update_self ..)]
    rfl
  · exact Nat.le_trans (formatNumber_wellFormed value).1 (by decide)

end StorageMarshaller

end Uavcan
