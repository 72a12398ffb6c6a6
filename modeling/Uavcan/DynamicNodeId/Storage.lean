import Mathlib.Data.List.TakeWhile
import Mathlib.Logic.Function.Basic
import Uavcan.Transport.Transfer

/-!
# The key-value storage of a dynamic node ID server

`IStorageBackend` maps text keys to text values, and `StorageMarshaller` puts numbers and unique IDs into it.
The texts are strings of at most 32 characters; nothing is cut off where a value is written. Every setter writes
and at once reads back, since a write may fail without notice: a write carries a flag that says whether it takes
effect, and a read returns what is stored. A value that was stored is read back unchanged
(`StorageMarshaller.get_set`), so a setter that reports the wanted value has stored it, or it was stored before.
-/

namespace Uavcan

/-- The 128-bit unique ID of a node. -/
abbrev UniqueID := Vector UInt8 16

open UInt8 List

/-- The keys the servers use; `makeEntryKey` forms those of a log entry.  The last two are those of the
centralized server, which stores a node ID under the hexadecimal text of a unique ID. -/
inductive Key
  | logLastIndex
  | logTerm (index : ℕ)
  | logUniqueId (index : ℕ)
  | logNodeId (index : ℕ)
  | currentTerm
  | votedFor
  | clusterSize
  | occupationMask
  | nodeIdOf (uniqueId : UniqueID)
  deriving DecidableEq

/-- The texts of a storage backend; a missing key reads as the empty text. -/
abbrev Storage := Key → List Char

namespace Storage

def empty : Storage := fun _ => []

/-- `IStorageBackend::set`; a write that does not take effect leaves the old text. -/
def set (st : Storage) (key : Key) (value : List Char) (effective : Bool) : Storage :=
  if effective then Function.update st key value else st

theorem set_of_ne {st : Storage} {key other : Key} (value : List Char) (effective : Bool)
    (different : other ≠ key) : st.set key value effective other = st other := by
  unfold set
  split
  · exact Function.update_of_ne different value st
  · rfl

@[simp] theorem set_kept (st : Storage) (key : Key) (value : List Char) :
    st.set key value true = Function.update st key value := rfl

end Storage

namespace StorageMarshaller

/-- `IStorageBackend::MaxStringLength`. -/
def maxStringLength : ℕ := 32

/-- `appendFormatted`: a string takes what it has room for. -/
def appendFormatted (serialized text : List Char) : List Char :=
  serialized ++ text.take (maxStringLength - serialized.length)

theorem appendFormatted_eq {serialized text : List Char} (room : serialized.length + text.length ≤ maxStringLength) :
    appendFormatted serialized text = serialized ++ text := by
  rw [appendFormatted, take_of_length_le (by omega)]

/-! ## Numbers -/

/-- The `"%llu"` text of a number. -/
def formatNumber (value : UInt32) : List Char := Nat.toDigits 10 value.toNat

/-- The string that `setAndGetBack` fills for a number. -/
def serializeNumber (value : UInt32) : List Char := appendFormatted [] (formatNumber value)

/-- `strtoull` of a text that begins with digits: the value, and whether `errno` is set. -/
def strtoull (val : List Char) : ℕ × Bool :=
  let x := Nat.ofDigitChars 10 (val.takeWhile Char.isDigit) 0
  if x < 2 ^ 64 then (x, false) else (2 ^ 64 - 1, true)

/-- `get` of a number: decimal digits only, ten at most, converted to 64 bits and then narrowed to 32. -/
def get (st : Storage) (key : Key) : Except Err UInt32 :=
  let val := st key
  if val.isEmpty then .error .failure
  else if val.any (fun ch => ch < '0' || ch > '9') then .error .failure
  else if val.length > 10 then .error .failure
  else
    let (x, errno) := strtoull val
    if errno then .error .failure else .ok (UInt32.ofNat x)

/-- `setAndGetBack` of a number: what is read back, and the storage after the write. -/
def setAndGetBack (st : Storage) (key : Key) (value : UInt32) (effective : Bool) :
    Except Err UInt32 × Storage :=
  let st := st.set key (serializeNumber value) effective
  (get st key, st)

theorem isDigit_iff (ch : Char) : ch.isDigit = true ↔ '0' ≤ ch ∧ ch ≤ '9' := by
  simp only [Char.isDigit, Bool.and_eq_true, decide_eq_true_eq]
  rfl

/-- The conversion of a text of digits is exact as long as its value fits into 64 bits. -/
theorem strtoull_eq {val : List Char} (digits : ∀ ch ∈ val, '0' ≤ ch ∧ ch ≤ '9')
    (small : Nat.ofDigitChars 10 val 0 < 2 ^ 64) : strtoull val = (Nat.ofDigitChars 10 val 0, false) := by
  have whole : val.takeWhile Char.isDigit = val := by
    rw [takeWhile_eq_self_iff]
    exact fun ch member => (isDigit_iff ch).mpr (digits ch member)
  unfold strtoull
  rw [whole]
  exact if_pos small

/-- The text of a number has at most ten characters, all of them decimal digits. -/
theorem formatNumber_wellFormed (value : UInt32) :
    (formatNumber value).length ≤ 10 ∧ ∀ ch ∈ formatNumber value, '0' ≤ ch ∧ ch ≤ '9' := by
  constructor
  · rw [formatNumber, Nat.length_toDigits_le_iff (by decide) (by decide)]
    exact Nat.lt_trans value.toNat_lt (by decide)
  · intro ch mem
    exact (isDigit_iff ch).mp (Nat.isDigit_of_mem_toDigits (by decide) (Nat.le_refl 10) mem)

theorem serializeNumber_eq (value : UInt32) : serializeNumber value = formatNumber value := by
  have short := (formatNumber_wellFormed value).1
  refine appendFormatted_eq ?_
  rw [length_nil, maxStringLength]
  omega

variable {st st' : Storage} {key : Key} {value : UInt32} {effective : Bool}

theorem get_set (stored : st key = formatNumber value) :
    get st key = .ok value := by
  obtain ⟨short, inRange⟩ := formatNumber_wellFormed value
  have digits : ((formatNumber value).any fun ch => ch < '0' || ch > '9') = false := by
    rw [any_eq_false]
    intro ch mem
    simp only [Bool.or_eq_true, decide_eq_true_eq, not_or]
    exact ⟨Char.not_lt.mpr (inRange ch mem).1, Char.not_lt.mpr (inRange ch mem).2⟩
  have nonempty : (formatNumber value).isEmpty = false := by
    simp [formatNumber]
  have parsed : Nat.ofDigitChars 10 (formatNumber value) 0 = value.toNat :=
    Nat.ofDigitChars_ten_toDigits
  have small := value.toNat_lt
  have converted := strtoull_eq inRange (by omega)
  simp [get, stored, digits, nonempty, converted, parsed, Nat.not_lt.mpr short]

theorem get_congr (same : st' key = st key) :
    get st' key = get st key := by
  simp only [get, same]

theorem get_of_missing (missing : st key = []) : get st key = .error .failure := by
  simp [get, missing]

theorem present_of_get (found : get st key = .ok value) : (st key).isEmpty = false := by
  cases missing : (st key).isEmpty with
  | false => rfl
  | true =>
    rw [get_of_missing (isEmpty_iff.mp missing)] at found
    cases found

/-- What one write does: it touches its own key only, it returns what a later `get` finds, and a
write that takes effect is read back while a lost one changes nothing. -/
theorem setAndGetBack_cases {result : Except Err UInt32} (run : setAndGetBack st key value effective = (result, st')) :
    (∀ other, other ≠ key → st' other = st other) ∧ get st' key = result ∧
      ((effective = true ∧ result = .ok value) ∨ (effective = false ∧ st' = st)) := by
  obtain ⟨rfl, rfl⟩ := Prod.ext_iff.mp run
  refine ⟨fun other different => Storage.set_of_ne _ _ different, rfl, ?_⟩
  cases effective with
  | true => exact .inl ⟨rfl, get_set (by simp [serializeNumber_eq])⟩
  | false => exact .inr ⟨rfl, rfl⟩

/-- A setter that does not read its value back has changed nothing. -/
theorem setAndGetBack_refused {result : Except Err UInt32} (run : setAndGetBack st key value effective = (result, st'))
    (other : result ≠ .ok value) : st' = st := by
  obtain ⟨-, -, effect⟩ := setAndGetBack_cases run
  exact (effect.resolve_left fun kept => other kept.2).2

/-! ## Unique IDs -/

def nibbleToHexChar (nibble : UInt8) : Char :=
  if nibble < 10 then Char.ofNat ('0'.toNat + nibble.toNat)
  else Char.ofNat ('a'.toNat + (nibble.toNat - 10))

/-- The `"%02x"` text of a byte. -/
def formatByte (byte : UInt8) : List Char := [nibbleToHexChar (byte >>> 4), nibbleToHexChar (byte &&& 15)]

def convertUniqueIDToHex (key : UniqueID) : List Char :=
  key.toList.foldl (fun serialized byte => appendFormatted serialized (formatByte byte)) []

def convertLowerCaseHexCharToNibble (ch : Char) : UInt8 :=
  if ch > '9' then UInt8.ofNat (ch.toNat - 'a'.toNat + 10) else UInt8.ofNat (ch.toNat - '0'.toNat)

/-- One step of `convertToLowerCaseASCII`. -/
def toLowerCaseASCII (ch : Char) : Char :=
  if 'A' ≤ ch ∧ ch ≤ 'Z' then Char.ofNat (ch.toNat + ('z'.toNat - 'Z'.toNat)) else ch

/-- The byte at `byteIndex` of a hexadecimal text. -/
def parseByte (val : List Char) (byteIndex : ℕ) : UInt8 :=
  convertLowerCaseHexCharToNibble (val.getD (2 * byteIndex + 1) '0') |||
    (convertLowerCaseHexCharToNibble (val.getD (2 * byteIndex) '0') <<< 4)

/-- `get` of a unique ID. -/
def getUniqueID (st : Storage) (key : Key) : Except Err UniqueID :=
  let val := st key
  if val.length ≠ 16 * 2 then .error .failure
  else
    let val := val.map toLowerCaseASCII
    if val.any (fun ch => (ch < '0' || ch > '9') && (ch < 'a' || ch > 'f')) then .error .failure
    else .ok (Vector.ofFn fun byteIndex => parseByte val byteIndex)

/-- `setAndGetBack` of a unique ID. -/
def setAndGetBackUniqueID (st : Storage) (key : Key) (value : UniqueID) (effective : Bool) :
    Except Err UniqueID × Storage :=
  let st := st.set key (convertUniqueIDToHex value) effective
  (getUniqueID st key, st)

/-- A hexadecimal digit passes the check of `get` and is read back as its nibble. -/
theorem nibble_roundtrip : ∀ n < 16,
    toLowerCaseASCII (nibbleToHexChar (ofNat n)) = nibbleToHexChar (ofNat n) ∧
      ((nibbleToHexChar (ofNat n) < '0' || nibbleToHexChar (ofNat n) > '9') &&
        (nibbleToHexChar (ofNat n) < 'a' || nibbleToHexChar (ofNat n) > 'f')) = false ∧
      convertLowerCaseHexCharToNibble (nibbleToHexChar (ofNat n)) = ofNat n := by
  decide

theorem byte_nibbles : ∀ n < 256,
    ofNat n >>> 4 = ofNat (n / 16) ∧ ofNat n &&& 15 = ofNat (n % 16) ∧
      ofNat (n % 16) ||| ofNat (n / 16) <<< 4 = ofNat n := by
  decide +kernel

/-- Both digits of a byte's text, as nibbles below sixteen. -/
theorem formatByte_eq (byte : UInt8) : formatByte byte =
    [nibbleToHexChar (ofNat (byte.toNat / 16)),
      nibbleToHexChar (ofNat (byte.toNat % 16))] := by
  obtain ⟨high, low, -⟩ := byte_nibbles byte.toNat byte.toNat_lt
  rw [UInt8.ofNat_toNat] at high low
  rw [formatByte, high, low]

theorem getD_flatMap_formatByte (bytes : List UInt8) (i : ℕ) (inside : i < bytes.length) :
    (bytes.flatMap formatByte).getD (2 * i) '0' =
        nibbleToHexChar (ofNat (bytes[i].toNat / 16)) ∧
      (bytes.flatMap formatByte).getD (2 * i + 1) '0' =
        nibbleToHexChar (ofNat (bytes[i].toNat % 16)) := by
  induction bytes generalizing i with
  | nil => simp at inside
  | cons byte rest ih =>
    rw [flatMap_cons, formatByte_eq]
    cases i with
    | zero => simp
    | succ i => simpa [Nat.mul_succ] using ih i (by simpa using inside)

/-- While there is room for two characters a byte, nothing is cut off. -/
theorem foldl_appendFormatted (bytes : List UInt8) {serialized : List Char}
    (room : serialized.length + 2 * bytes.length ≤ maxStringLength) :
    bytes.foldl (fun serialized byte => appendFormatted serialized (formatByte byte)) serialized =
      serialized ++ bytes.flatMap formatByte := by
  induction bytes generalizing serialized with
  | nil => simp
  | cons byte rest ih =>
    have two : (formatByte byte).length = 2 := rfl
    rw [length_cons] at room
    rw [foldl_cons, appendFormatted_eq (by omega), ih (by rw [length_append]; omega), flatMap_cons,
      append_assoc]

theorem convertUniqueIDToHex_eq (key : UniqueID) : convertUniqueIDToHex key = key.toList.flatMap formatByte := by
  rw [convertUniqueIDToHex, foldl_appendFormatted _ (by rw [Vector.length_toList]; decide), nil_append]

/-- The text of a unique ID has 32 characters, all of them lower-case hexadecimal digits. -/
theorem convertUniqueIDToHex_wellFormed (key : UniqueID) :
    (convertUniqueIDToHex key).length = 32 ∧
      ∀ ch ∈ convertUniqueIDToHex key, toLowerCaseASCII ch = ch ∧
        ((ch < '0' || ch > '9') && (ch < 'a' || ch > 'f')) = false := by
  rw [convertUniqueIDToHex_eq]
  constructor
  · simp [formatByte, map_const']
  · intro ch mem
    obtain ⟨byte, -, mem⟩ := mem_flatMap.mp mem
    rw [formatByte_eq] at mem
    have below : byte.toNat < 256 := byte.toNat_lt
    rcases mem_cons.mp mem with rfl | mem
    · have digit := nibble_roundtrip (byte.toNat / 16) (by omega)
      exact ⟨digit.1, digit.2.1⟩
    · rw [mem_singleton.mp mem]
      have digit := nibble_roundtrip (byte.toNat % 16) (by omega)
      exact ⟨digit.1, digit.2.1⟩

theorem getUniqueID_set {value : UniqueID} (stored : st key = convertUniqueIDToHex value) :
    getUniqueID st key = .ok value := by
  obtain ⟨length, digits⟩ := convertUniqueIDToHex_wellFormed value
  have lower : (convertUniqueIDToHex value).map toLowerCaseASCII = convertUniqueIDToHex value := by
    rw [map_congr_left fun ch mem => (digits ch mem).1]
    exact map_id _
  have accepted : ((convertUniqueIDToHex value).any fun ch =>
      (ch < '0' || ch > '9') && (ch < 'a' || ch > 'f')) = false := by
    rw [any_eq_false]
    intro ch mem
    rw [(digits ch mem).2]
    decide
  have bytes : Vector.ofFn (fun i : Fin 16 => parseByte (convertUniqueIDToHex value) i) = value := by
    ext i inside
    obtain ⟨high, low⟩ := getD_flatMap_formatByte value.toList i (by simpa using inside)
    have below : value[i].toNat < 256 := value[i].toNat_lt
    rw [Vector.getElem_toList] at high low
    rw [Vector.getElem_ofFn, parseByte, convertUniqueIDToHex_eq, high, low,
      (nibble_roundtrip _ (by omega)).2.2, (nibble_roundtrip _ (by omega)).2.2,
      (byte_nibbles _ below).2.2, UInt8.ofNat_toNat]
  simp only [getUniqueID, stored, length, lower, accepted, bytes]
  rfl

theorem getUniqueID_congr (same : st' key = st key) :
    getUniqueID st' key = getUniqueID st key := by
  simp only [getUniqueID, same]

theorem setAndGetBackUniqueID_cases {value : UniqueID} {result : Except Err UniqueID}
    (run : setAndGetBackUniqueID st key value effective = (result, st')) :
    (∀ other, other ≠ key → st' other = st other) ∧ getUniqueID st' key = result ∧
      ((effective = true ∧ result = .ok value) ∨ (effective = false ∧ st' = st)) := by
  obtain ⟨rfl, rfl⟩ := Prod.ext_iff.mp run
  refine ⟨fun other different => Storage.set_of_ne _ _ different, rfl, ?_⟩
  cases effective with
  | true => exact .inl ⟨rfl, getUniqueID_set (by simp)⟩
  | false => exact .inr ⟨rfl, rfl⟩

end StorageMarshaller

end Uavcan
