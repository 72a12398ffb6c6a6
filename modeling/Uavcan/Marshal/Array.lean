import Uavcan.Marshal.TypeSpec

/-!
# Arrays

A static array is encoded as its items.  A dynamic array is preceded by its size, unless tail array
optimization applies: then the items simply go on to the end of the stream, and the decoder reads items
until the stream ends.
-/

namespace Uavcan

open List

inductive ArrayMode where
  | static
  | dynamic
  deriving DecidableEq

/-- The maximum size of an array type; it is not zero and fits the template parameter. -/
structure ArraySize where
  val : ℕ
  positive : 0 < val
  lt : val < 2 ^ 32

/-- `IntegerBitLen`: the number of binary digits. -/
def integerBitLen (num : ℕ) : ℕ := if num = 0 then 0 else num.log2 + 1

variable {num : ℕ}

theorem lt_integerBitLen (num : ℕ) : num < 2 ^ integerBitLen num := by
  unfold integerBitLen
  split
  · next zero => rw [zero]; decide
  · exact Nat.lt_log2_self

theorem integerBitLen_pos (some : 0 < num) : 0 < integerBitLen num := by
  rw [integerBitLen, if_neg (by omega)]
  exact Nat.succ_pos _

theorem integerBitLen_le (small : num < 2 ^ 32) : integerBitLen num ≤ 64 := by
  unfold integerBitLen
  split
  · exact Nat.zero_le _
  · next some =>
    have log := (Nat.log2_lt some).mpr small
    omega

/-- The unsigned field that holds the numbers up to `num`. -/
def IntegerSpec.upTo (num : ℕ) (castMode : CastMode) (some : 0 < num) (small : num < 2 ^ 32) : IntegerSpec where
  bitLen := integerBitLen num
  signedness := .unsigned
  castMode := castMode
  positive := integerBitLen_pos some
  bitLen_le := integerBitLen_le small
  signed_lt := nofun

theorem IntegerSpec.toNat_upTo {castMode : CastMode} {some : 0 < num} {small : num < 2 ^ 32} {n : ℕ} (le : n ≤ num) :
    (BitVec.ofNat (upTo num castMode some small).storageBits n).toNat = n := by
  have digits := lt_integerBitLen num
  have width : 2 ^ integerBitLen num ≤ 2 ^ (upTo num castMode some small).storageBits :=
    Nat.pow_le_pow_right (by decide) (upTo num castMode some small).bitLen_le_storageBits
  exact Nat.mod_eq_of_lt (by omega)

/-- `RawEncodedSizeType`. -/
def ArraySize.rawEncodedSizeType (maxSize : ArraySize) : IntegerSpec :=
  .upTo maxSize.val .saturate maxSize.positive maxSize.lt

namespace ArraySpec

variable {V : Type}

/-! ## The container -/

/-- Assignment to `at(pos)`, which checks the range. -/
def setAt (items : List V) (pos : ℕ) (value : V) : Option (List V) :=
  if pos < items.length then some (items.set pos value) else none

/-- `push_back`; an array that is full cannot grow. -/
def pushBack (maxSize : ArraySize) (items : List V) (value : V) : Option (List V) :=
  if items.length ≥ maxSize.val then none else some (items ++ [value])

def pushBackMany (maxSize : ArraySize) (filler : V) : ℕ → List V → Option (List V)
  | 0, items => some items
  | count + 1, items => (pushBack maxSize items filler).bind (pushBackMany maxSize filler count)

def resize (maxSize : ArraySize) (items : List V) (newSize : ℕ) (filler : V) : Option (List V) :=
  if newSize > items.length then pushBackMany maxSize filler (newSize - items.length) items
  else some (items.take newSize)

variable {maxSize : ArraySize}

theorem pushBack_of_lt {items : List V} (room : items.length < maxSize.val) (value : V) :
    pushBack maxSize items value = some (items ++ [value]) := if_neg (by omega)

theorem pushBackMany_of_le {count : ℕ} {items : List V} (room : items.length + count ≤ maxSize.val) (filler : V) :
    pushBackMany maxSize filler count items = some (items ++ replicate count filler) := by
  induction count generalizing items with
  | zero => rw [pushBackMany, replicate_zero, append_nil]
  | succ count ih =>
    rw [pushBackMany, pushBack_of_lt (by omega), Option.bind_some,
      ih (by rw [length_append, length_singleton]; omega), append_assoc]
    rfl

theorem resize_nil {newSize : ℕ} (room : newSize ≤ maxSize.val) (filler : V) :
    resize maxSize [] newSize filler = some (replicate newSize filler) := by
  unfold resize
  split
  · rw [length_nil, Nat.sub_zero, pushBackMany_of_le (by rwa [length_nil, Nat.zero_add]),
      nil_append]
  · next none =>
    obtain rfl : newSize = 0 := by rw [length_nil] at none; omega
    rfl

/-! ## Encoding and decoding -/

variable (item : TypeSpec V)

def isOptimizedTailArray (mode : TailArrayOptimizationMode) : Bool :=
  decide (item.minBitLen ≥ 8) && decide (mode = .enabled)

/-- `encodeImpl` of static arrays. -/
def encodeStatic : List V → BitStream → TailArrayOptimizationMode → ℤ × BitStream
  | [], stream, _ => (1, stream)
  | value :: rest, stream, mode =>
    let (res, stream) := item.encode value stream (if rest.isEmpty then mode else .disabled)
    if res ≤ 0 then (res, stream) else encodeStatic rest stream mode

/-- The size of a dynamic array, which an optimized array does not have. -/
def encodeSize (maxSize : ArraySize) (size : ℕ) (stream : BitStream) (mode : TailArrayOptimizationMode) :
    ℤ × BitStream :=
  if isOptimizedTailArray item mode then (1, stream)
  else maxSize.rawEncodedSizeType.encode (BitVec.ofNat _ size) stream .disabled

/-- `encodeImpl` of dynamic arrays. -/
def encodeDynamic (maxSize : ArraySize) (items : List V) (stream : BitStream)
    (mode : TailArrayOptimizationMode) : ℤ × BitStream :=
  let selfTaoEnabled := isOptimizedTailArray item mode
  let (resSz, stream) := encodeSize item maxSize items.length stream mode
  if resSz ≤ 0 then (resSz, stream)
  else if items.length = 0 then (1, stream)
  else encodeStatic item items stream (if selfTaoEnabled then .disabled else mode)

/-- `decodeImpl` of static arrays, with `left` items to go from position `i` on. -/
def decodeStatic : ℕ → ℕ → List V → BitStream → TailArrayOptimizationMode →
    Option (ℤ × List V × BitStream)
  | 0, _, items, stream, _ => some (1, items, stream)
  | left + 1, i, items, stream, mode =>
    (item.decode item.init stream (if left = 0 then mode else .disabled)).bind fun (res, value, stream) =>
      if res ≤ 0 then some (res, items, stream)
      else (setAt items i value).bind fun items => decodeStatic left (i + 1) items stream mode

/-- The loop of `decodeImpl` over an optimized array, for a number of rounds. -/
def decodeTail (maxSize : ArraySize) : ℕ → List V → BitStream → Option (ℤ × List V × BitStream)
  | 0, _, _ => none
  | rounds + 1, items, stream =>
    (item.decode item.init stream .disabled).bind fun (res, value, stream) =>
      if res < 0 then some (res, items, stream)
      else if res = 0 then some (1, items, stream)
      else if items.length = maxSize.val then some (-errInvalidMarshalData, items, stream)
      else (pushBack maxSize items value).bind fun items => decodeTail maxSize rounds items stream

/-- `decodeImpl` of dynamic arrays. -/
def decodeDynamic (maxSize : ArraySize) (stream : BitStream) (mode : TailArrayOptimizationMode) :
    Option (ℤ × List V × BitStream) :=
  if isOptimizedTailArray item mode then decodeTail item maxSize (maxSize.val + 1) [] stream
  else
    let (resSz, sz, stream) := maxSize.rawEncodedSizeType.decode 0#_ stream .disabled
    if resSz ≤ 0 then some (resSz, [], stream)
    else if sz.toNat > maxSize.val then some (-errInvalidMarshalData, [], stream)
    else
      (resize maxSize [] sz.toNat item.init).bind fun items =>
        if sz.toNat = 0 then some (1, items, stream)
        else decodeStatic item items.length 0 items stream mode

/-- `operator==`. -/
def equalItems : List V → List V → Bool
  | [], [] => true
  | a :: as, b :: bs => item.equals a b && equalItems as bs
  | _, _ => false

def sizedStatic (maxSize : ArraySize) (items : List V) : Bool :=
  decide (items.length = maxSize.val) && items.all item.sized

def sizedDynamic (maxSize : ArraySize) (items : List V) : Bool :=
  decide (items.length ≤ maxSize.val) && items.all item.sized

variable {item}

theorem sizedStatic_iff {items : List V} : sizedStatic item maxSize items = true ↔
    items.length = maxSize.val ∧ ∀ value ∈ items, item.sized value = true := by
  rw [sizedStatic, Bool.and_eq_true_iff, decide_eq_true_iff, all_eq_true]

theorem sizedDynamic_iff {items : List V} : sizedDynamic item maxSize items = true ↔
    items.length ≤ maxSize.val ∧ ∀ value ∈ items, item.sized value = true := by
  rw [sizedDynamic, Bool.and_eq_true_iff, decide_eq_true_iff, all_eq_true]

end ArraySpec

open ArraySpec in
def TypeSpec.array {V : Type} (item : TypeSpec V) (mode : ArrayMode) (maxSize : ArraySize) :
    TypeSpec (List V) where
  minBitLen :=
    match mode with
    | .static => item.minBitLen * .ofNat maxSize.val
    | .dynamic => 0
  maxBitLen :=
    match mode with
    | .static => item.maxBitLen * .ofNat maxSize.val
    | .dynamic => .ofNat maxSize.rawEncodedSizeType.bitLen + item.maxBitLen * .ofNat maxSize.val
  longest :=
    match mode with
    | .static => item.longest * maxSize.val
    | .dynamic => maxSize.rawEncodedSizeType.bitLen + item.longest * maxSize.val
  init :=
    match mode with
    | .static => List.replicate maxSize.val item.init
    | .dynamic => []
  equals := equalItems item
  sized :=
    match mode with
    | .static => sizedStatic item maxSize
    | .dynamic => sizedDynamic item maxSize
  inRange items := items.all item.inRange
  encode items stream tao :=
    match mode with
    | .static => encodeStatic item items stream tao
    | .dynamic => encodeDynamic item maxSize items stream tao
  decode items stream tao :=
    match mode with
    | .static => decodeStatic item items.length 0 items stream tao
    | .dynamic => decodeDynamic item maxSize stream tao

end Uavcan
