import Uavcan.Buffers.CStrings
import Uavcan.Marshal.Array

/-!
# String-like arrays

A dynamic array of characters has one more character of memory than its capacity, for the NUL character after its
contents.  Its size is a number of the smallest unsigned type that holds the capacity.
-/

namespace Uavcan

open Buffers List

/-- The width of `SizeType`. -/
def ArraySize.sizeBits (maxSize : ArraySize) : ℕ :=
  (IntegerSpec.upTo (max maxSize.val 2) .saturate (by omega)
    (by have := maxSize.lt; omega)).storageBits

theorem ArraySize.sizeBits_eq {maxSize : ArraySize} (range : maxSize.val ≤ 65535) :
    maxSize.sizeBits = if maxSize.val ≤ 255 then 8 else 16 := by
  have some : max maxSize.val 2 ≠ 0 := by omega
  have two : 1 ≤ (max maxSize.val 2).log2 := (Nat.le_log2 some).mpr (by omega)
  have byte : (max maxSize.val 2).log2 < 8 ↔ max maxSize.val 2 < 2 ^ 8 := Nat.log2_lt some
  have word : (max maxSize.val 2).log2 < 16 ↔ max maxSize.val 2 < 2 ^ 16 := Nat.log2_lt some
  simp only [sizeBits, IntegerSpec.upTo, IntegerSpec.storageBits, integerBitLen]
  split_ifs <;> omega

structure CString where
  chars : List UInt8
  clean : 0 ∉ chars

/-- A text that `snprintf` makes: its length is an `int`. -/
structure FormattedText extends CString where
  length_lt : chars.length < 2 ^ 31

structure StringArray (maxSize : ArraySize) where
  data : List UInt8
  size : ℕ
  memory : data.length = maxSize.val + 1
  size_le : size ≤ maxSize.val

/-- `snprintf` into `n` bytes at `pos`: what fits, and a NUL character.  The result is the length of the whole text. -/
def snprintf (data : List UInt8) (pos n : ℕ) (text : FormattedText) : ℕ × List UInt8 :=
  (text.chars.length, if n = 0 then data else overwrite data pos (text.chars.take (n - 1) ++ [0]))

namespace StringArray

variable {maxSize : ArraySize} (a : StringArray maxSize)

def contents : List UInt8 := a.data.take a.size

/-- `grow`; an array that is full cannot grow. -/
def grow : Option (StringArray maxSize) :=
  if room : a.size ≥ maxSize.val then none
  else some { a with size := a.size + 1, size_le := Nat.succ_le_of_lt (Nat.not_le.mp room) }

def growMany : ℕ → StringArray maxSize → Option (StringArray maxSize)
  | 0, a => some a
  | n + 1, a => a.grow.bind (growMany n)

def pushBack (value : UInt8) : Option (StringArray maxSize) :=
  a.grow.map fun a => { a with data := a.data.set (a.size - 1) value, memory := by rw [length_set, a.memory] }

/-- `operator+=`. -/
def append : List UInt8 → StringArray maxSize → Option (StringArray maxSize)
  | [], a => some a
  | c :: rest, a => (a.pushBack c).bind (append rest)

/-- `operator=`. -/
def assign (s : CString) : Option (StringArray maxSize) := append s.chars { a with size := 0, size_le := Nat.zero_le _ }

/-- `c_str` -/
def cStr : List UInt8 := a.data.set a.size 0

/-- `operator==` with a C string. -/
def equals (s : CString) : Option Bool :=
  (strncmp maxSize.val a.cStr (s.chars ++ [0])).map fun difference => difference == 0

/-- The memory after `snprintf`. -/
def format (n : ℕ) (text : FormattedText) : StringArray maxSize where
  data := (snprintf a.data a.size n text).2
  size := a.size
  memory := by
    unfold snprintf
    split
    · exact a.memory
    · rw [length_overwrite, a.memory]
  size_le := a.size_le

def appendFormatted (text : FormattedText) : Option (StringArray maxSize) :=
  let maxSize' := (maxSize.val - a.size) % 2 ^ maxSize.sizeBits
  let n := (maxSize' + 1) % 2 ^ maxSize.sizeBits
  growMany (min (snprintf a.data a.size n text).1 maxSize') (a.format n text)

variable {a}

/-! ## Appending -/

theorem growMany_of_le {n : ℕ} (room : a.size + n ≤ maxSize.val) :
    growMany n a = some { a with size := a.size + n, size_le := room } := by
  induction n generalizing a with
  | zero => rfl
  | succ n ih =>
    rw [growMany, grow, dif_neg (by omega), Option.bind_some, ih (by dsimp only; omega)]
    simp only [Nat.add_assoc, Nat.add_comm n 1]

/-- Exactly the text is appended, unless the number of bytes that is given to `snprintf` wraps around to zero: then the
array grows over whatever its memory holds. -/
theorem append_formatted_iff (range : maxSize.val ≤ 65535) (a : StringArray maxSize) (text : FormattedText) :
    let count := min text.chars.length (maxSize.val - a.size)
    ∃ a', a.appendFormatted text = some a' ∧
      (a'.contents = a.contents ++ text.chars.take count ↔
        (a.size = 0 → maxSize.val = 255 ∨ maxSize.val = 65535 → a.data.take count = text.chars.take count)) := by
  intro count
  have bits := ArraySize.sizeBits_eq range
  have memory := a.memory
  have size_le := a.size_le
  have fits : (maxSize.val - a.size) % 2 ^ maxSize.sizeBits = maxSize.val - a.size := by
    rw [bits]
    split <;> omega
  have grown : a.size + min (snprintf a.data a.size ((maxSize.val - a.size + 1) % 2 ^ maxSize.sizeBits) text).1
      (maxSize.val - a.size) ≤ maxSize.val := by omega
  refine ⟨_, by rw [appendFormatted, fits]; exact growMany_of_le (a := a.format _ text) grown, ?_⟩
  change (format _ _ _).data.take (a.size + count) = a.data.take a.size ++ _ ↔ _
  by_cases wraps : a.size = 0 ∧ (maxSize.val = 255 ∨ maxSize.val = 65535)
  · have zero : (maxSize.val - a.size + 1) % 2 ^ maxSize.sizeBits = 0 := by
      rw [bits]
      rcases wraps.2 with small | large <;> split <;> simp [*] at *
    simp only [format, snprintf, zero]
    simp [wraps]
  · have whole : (maxSize.val - a.size + 1) % 2 ^ maxSize.sizeBits = maxSize.val - a.size + 1 := by
      rw [bits]
      split <;> omega
    have inside : a.size + (text.chars.take (maxSize.val - a.size) ++ [0]).length ≤ a.data.length := by
      rw [length_append, length_take, length_singleton]
      omega
    refine iff_of_true ?_ fun zero limit => absurd ⟨zero, limit⟩ wraps
    simp only [format, snprintf, whole, Nat.succ_ne_zero, if_false, Nat.add_sub_cancel, overwrite_eq inside]
    have kept : (a.data.take a.size).length = a.size := by
      rw [length_take]
      omega
    have written : (text.chars.take (maxSize.val - a.size)).length = count := by rw [length_take, Nat.min_comm]
    have all : text.chars.take (maxSize.val - a.size) = text.chars.take count := by rw [take_eq_take_min, Nat.min_comm]
    nth_rw 1 [← kept]
    rw [append_assoc, take_length_add_append, append_assoc, ← all, ← written, take_left]

def short : StringArray ⟨8, Nat.succ_pos _, by decide⟩ := ⟨replicate 9 0, 0, length_replicate, by decide⟩

def long : StringArray ⟨255, by decide, by decide⟩ := ⟨replicate 256 0, 0, length_replicate, by decide⟩

def letters : FormattedText := ⟨⟨[97, 98, 99, 100], by decide⟩, by decide⟩

theorem append_formatted_sample : ∃ a', short.appendFormatted letters = some a' ∧ a'.contents = letters.chars :=
  (append_formatted_iff (by decide) short letters).imp fun _ appended => ⟨appended.1, appended.2.mpr (by decide)⟩

/-- Four characters are to be appended to an empty array with room for 255. -/
theorem formatted_text_lost : (long.appendFormatted letters).map contents ≠
    some (long.contents ++ letters.chars.take (min letters.chars.length (255 - long.size))) := by
  decide +kernel

/-! ## Comparing -/

theorem pushBack_of_lt (room : a.size < maxSize.val) (value : UInt8) :
    ∃ a', a.pushBack value = some a' ∧ a'.size = a.size + 1 ∧ a'.contents = a.contents ++ [value] := by
  refine ⟨_, by rw [pushBack, grow, dif_neg (by omega)]; rfl, rfl, ?_⟩
  have inside : a.size < (a.data.set a.size value).length := by
    rw [length_set, a.memory]
    omega
  change (a.data.set a.size value).take (a.size + 1) = a.data.take a.size ++ [value]
  rw [take_succ_eq_append_getElem inside, getElem_set_self, take_set_of_le (Nat.le_refl _)]

theorem append_of_le {chars : List UInt8} (room : a.size + chars.length ≤ maxSize.val) :
    ∃ a', append chars a = some a' ∧ a'.contents = a.contents ++ chars := by
  induction chars generalizing a with
  | nil => exact ⟨a, rfl, (append_nil _).symm⟩
  | cons c rest ih =>
    rw [length_cons] at room
    obtain ⟨a₁, pushed, size, contents⟩ := pushBack_of_lt (a := a) (by omega) c
    obtain ⟨a', appended, all⟩ := ih (a := a₁) (by omega)
    refine ⟨a', by rw [append, pushed, Option.bind_some, appended], ?_⟩
    rw [all, contents, append_assoc, singleton_append]

/-- The comparison sees as many characters as the capacity. -/
theorem equals_iff (clean : 0 ∉ a.contents) (s : CString) :
    a.equals s = some true ↔ a.contents = s.chars.take maxSize.val := by
  have size_le := a.size_le
  have terminated : a.cStr = a.contents ++ 0 :: a.data.drop (a.size + 1) := by
    rw [cStr, set_eq_take_append_cons_drop, if_pos (by rw [a.memory]; omega)]
    rfl
  have short : a.contents.take maxSize.val = a.contents := by
    rw [contents, take_take, Nat.min_eq_right size_le]
  have compared : strncmp maxSize.val (a.contents ++ 0 :: a.data.drop (a.size + 1)) (s.chars ++ [0]) = some 0 ↔
      a.contents.take maxSize.val = s.chars.take maxSize.val := strncmp_eq_zero_iff clean s.clean
  rw [short, ← terminated] at compared
  rw [← compared, equals, Option.map_eq_some_iff]
  constructor
  · rintro ⟨_, result, zero⟩
    rw [result, eq_of_beq zero]
  · exact fun result => ⟨0, result, rfl⟩

/-- The comparison is that of the contents, unless the string is longer than the capacity and the array is full of its
first characters.  After an assignment that fits, it holds. -/
theorem equals_contents_iff (clean : 0 ∉ a.contents) (s : CString) :
    ((a.equals s = some true ↔ a.contents = s.chars) ↔
        s.chars.length ≤ maxSize.val ∨ a.contents ≠ s.chars.take maxSize.val) ∧
      (s.chars.length ≤ maxSize.val → ∃ a', a.assign s = some a' ∧ a'.equals s = some true) := by
  rw [equals_iff clean]
  constructor
  · rcases Nat.lt_or_ge maxSize.val s.chars.length with long | short
    · have differ : a.contents ≠ s.chars := by
        intro same
        rw [← same, contents, length_take] at long
        have := a.size_le
        omega
      simp [differ, Nat.not_le.mpr long]
    · simp [short, take_of_length_le short]
  · intro fits
    obtain ⟨a', assigned, contents⟩ := append_of_le (a := { a with size := 0, size_le := Nat.zero_le _ })
      ((Nat.zero_add _).trans_le fits)
    replace contents : a'.contents = s.chars := contents
    refine ⟨a', assigned, (equals_iff ?_ s).mpr ?_⟩
    · rw [contents]
      exact s.clean
    · rw [contents, take_of_length_le fits]

def full : StringArray ⟨3, Nat.le_add_left 1 2, (by decide : 3 < 0x100000000)⟩ := ⟨[97, 98, 99, 0], 3, by decide, by decide⟩

theorem equals_contents_sample : short.equals letters.toCString = some true ↔ short.contents = letters.chars :=
  (equals_contents_iff (by decide) letters.toCString).1.mpr (.inl (by decide))

theorem longer_string_equal : full.equals letters.toCString = some true ∧ full.contents ≠ letters.chars := by decide

end StringArray

end Uavcan
