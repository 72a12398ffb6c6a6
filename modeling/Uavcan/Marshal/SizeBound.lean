import Uavcan.Marshal.DataType

/-!
# The encoded length and safe decoding

A decoder accepts any input: it always returns, and it leaves an object that its type allows. The longest encoding
has `longest` bits. The generated constants `MaxBitLen` are this number, so that a buffer of `BitLenToByteLen`
bytes is never too small, as long as their computation in 32 bits does not wrap around. These are laws of a
`TypeSpec`, kept by every construction of types (`Bounded`).
-/

namespace Uavcan

open List

/-! ## Encoding in steps -/

/-- An encoder that started at `stream` wrote at most `bits` bits, and did not run out of space if there was
room for them. -/
structure Within (stream : BitStream) (bits : ℕ) (result : ℤ × BitStream) : Prop where
  offset : result.2.bitOffset ≤ stream.bitOffset + bits
  size : result.2.buf.getSize = stream.buf.getSize
  room : stream.bitOffset + bits ≤ 8 * stream.buf.getSize → result.1 ≠ resultOutOfBuffer

namespace Within

variable {stream : BitStream} {bits more : ℕ} {result next : ℤ × BitStream}

theorem stay (stream : BitStream) {res : ℤ} (other : res ≠ resultOutOfBuffer) : Within stream 0 (res, stream) where
  offset := Nat.le_refl _
  size := rfl
  room _ := other

theorem le (within : Within stream bits result) (less : bits ≤ more) : Within stream more result where
  offset := within.offset.trans (by omega)
  size := within.size
  room enough := within.room (by omega)

theorem andThen (within : Within stream bits result) (step : Within result.2 more next) :
    Within stream (bits + more) (if result.1 ≤ 0 then (result.1, result.2) else next) := by
  split
  · exact within.le (Nat.le_add_right _ _)
  · have offset := within.offset
    exact
      { offset := step.offset.trans (by omega)
        size := step.size.trans within.size
        room := fun enough => step.room (by rw [within.size]; omega) }

end Within

theorem IntegerSpec.within_encode (spec : IntegerSpec) (value : spec.StorageType) (stream : BitStream)
    (mode : TailArrayOptimizationMode) : Within stream spec.bitLen (spec.encode value stream mode) := by
  obtain ⟨size, ⟨-, ok, offset⟩ | ⟨full, -, offset⟩⟩ :=
    ScalarCodec.encode_cases spec.positive stream (spec.cast value)
  · exact ⟨offset.le, size, fun _ => by rw [encode, ok]; decide⟩
  · exact ⟨by rw [encode]; omega, size, fun enough => by omega⟩

/-- An encoder that started at `stream` wrote `bits` bits, or ran out of space. -/
def Fills (stream : BitStream) (bits : ℕ) (result : ℤ × BitStream) : Prop :=
  result.1 = resultOutOfBuffer ∨ result.1 = resultOk ∧ result.2.bitOffset = stream.bitOffset + bits

theorem Fills.andThen {stream : BitStream} {bits more : ℕ} {result next : ℤ × BitStream}
    (fills : Fills stream bits result) (step : Fills result.2 more next) :
    Fills stream (bits + more) (if result.1 ≤ 0 then (result.1, result.2) else next) := by
  rcases fills with out | ⟨ok, offset⟩
  · rw [out]
    exact .inl rfl
  · rw [ok, if_neg (by decide)]
    exact step.imp id fun ⟨ok', offset'⟩ => ⟨ok', by omega⟩

theorem IntegerSpec.fills_encode (spec : IntegerSpec) (value : spec.StorageType) (stream : BitStream)
    (mode : TailArrayOptimizationMode) : Fills stream spec.bitLen (spec.encode value stream mode) := by
  obtain ⟨-, ⟨-, ok, offset⟩ | ⟨-, out, -⟩⟩ := ScalarCodec.encode_cases spec.positive stream (spec.cast value)
  · exact .inr ⟨ok, offset⟩
  · exact .inl out

theorem IntegerSpec.toNat_bitLen (spec : IntegerSpec) : (UInt32.ofNat spec.bitLen).toNat = spec.bitLen := by
  have small := spec.bitLen_le
  exact UInt32.toNat_ofNat_of_lt' (by rw [UInt32.size]; omega)

/-! ## The laws -/

/-- What a decoder leaves behind: an object that can exist, and a result that is success or an error. -/
def Returns {V : Type} (sized : V → Bool) (outcome : Option (ℤ × V × BitStream)) : Prop :=
  ∃ res object stream, outcome = some (res, object, stream) ∧ sized object = true ∧
    (res = resultOk ∨ res ≤ 0)

namespace TypeSpec

variable {V W : Type}

/-- No encoding is longer than `longest`, which some object reaches if no array is optimized, and which is `MaxBitLen`
unless its computation wraps around; decoding returns. -/
structure Bounded (spec : TypeSpec V) : Prop where
  init : spec.sized spec.init = true
  encode : ∀ {value}, spec.sized value = true → ∀ stream mode,
    Within stream spec.longest (spec.encode value stream mode)
  decode : ∀ {object}, spec.sized object = true → ∀ stream mode,
    Returns spec.sized (spec.decode object stream mode)
  maxBitLen : spec.longest < 2 ^ 32 → spec.maxBitLen.toNat = spec.longest
  reached : ∃ value, spec.sized value = true ∧ ∀ stream,
    Fills stream spec.longest (spec.encode value stream .disabled)

theorem bounded_integer (spec : IntegerSpec) : Bounded spec.toTypeSpec where
  init := rfl
  encode _ stream mode := spec.within_encode _ stream mode
  decode {object} _ stream mode :=
    ⟨_, _, _, rfl, rfl, (spec.decode_cases stream object mode).imp id Int.le_of_eq⟩
  maxBitLen _ := spec.toNat_bitLen
  reached := ⟨0#_, rfl, fun stream => spec.fills_encode _ stream .disabled⟩

theorem bounded_void (spec : IntegerSpec) : Bounded spec.toVoidSpec where
  init := rfl
  encode _ stream mode := spec.within_encode _ stream mode
  decode _ stream mode :=
    ⟨_, _, _, rfl, rfl, (spec.decode_cases stream 0#_ mode).imp id Int.le_of_eq⟩
  maxBitLen _ := spec.toNat_bitLen
  reached := ⟨(), rfl, fun stream => spec.fills_encode _ stream .disabled⟩

theorem bounded_empty : Bounded empty where
  init := rfl
  encode _ stream _ := .stay stream (by decide)
  decode _ stream _ := ⟨1, (), stream, rfl, rfl, .inl rfl⟩
  maxBitLen _ := rfl
  reached := ⟨(), rfl, fun _ => .inr ⟨rfl, rfl⟩⟩

theorem bounded_field {first : TypeSpec V} {rest : TypeSpec W} (head : Bounded first) (tail : Bounded rest) :
    Bounded (first.field rest) where
  init := Bool.and_eq_true_iff.mpr ⟨head.init, tail.init⟩
  encode {value} sized stream mode := by
    obtain ⟨left, right⟩ := Bool.and_eq_true_iff.mp sized
    exact (head.encode left stream .disabled).andThen (tail.encode right _ mode)
  decode {object} sized stream mode := by
    obtain ⟨left, right⟩ := Bool.and_eq_true_iff.mp sized
    obtain ⟨res, v, stream', run, sized', code⟩ := head.decode left stream .disabled
    simp only [field, run, Option.bind_some]
    split
    · next failed => exact ⟨res, (v, object.2), stream', rfl, Bool.and_eq_true_iff.mpr ⟨sized', right⟩, .inr failed⟩
    · obtain ⟨res', w, stream'', run', sized'', code'⟩ := tail.decode right stream' mode
      exact ⟨res', (v, w), stream'', by rw [run']; rfl, Bool.and_eq_true_iff.mpr ⟨sized', sized''⟩, code'⟩
  maxBitLen small := by
    simp only [field] at small ⊢
    rw [UInt32.toNat_add, head.maxBitLen (by omega), tail.maxBitLen (by omega), Nat.mod_eq_of_lt small]
  reached := by
    obtain ⟨v, left, fillsHead⟩ := head.reached
    obtain ⟨w, right, fillsTail⟩ := tail.reached
    exact ⟨(v, w), Bool.and_eq_true_iff.mpr ⟨left, right⟩, fun stream => (fillsHead stream).andThen (fillsTail _)⟩

end TypeSpec

namespace AlternativesSpec

variable {V W : Type}

/-- The same for `n` alternatives, one of which is the longest. -/
structure Bounded (spec : AlternativesSpec V) (n : ℕ) : Prop where
  init : spec.sized spec.init = true
  encode : ∀ {value}, spec.sized value = true → ∀ idx tag stream mode,
    Within stream spec.longest (spec.encode idx tag value stream mode)
  decode : ∀ {object}, spec.sized object = true → ∀ idx tag stream mode,
    Returns spec.sized (spec.decode idx tag object stream mode)
  maxBitLen : spec.longest < 2 ^ 32 → spec.maxBitLen.toNat = spec.longest
  reached : ∀ idx, ∃ tag value, idx ≤ tag ∧ tag < idx + n ∧ spec.sized value = true ∧ ∀ stream,
    Fills stream spec.longest (spec.encode idx tag value stream .disabled)

theorem bounded_last {spec : TypeSpec V} (bounded : spec.Bounded) : Bounded (last spec) 1 where
  init := bounded.init
  encode sized idx tag stream mode := by
    simp only [last]
    split
    · exact bounded.encode sized stream mode
    · exact (Within.stay stream (by decide)).le (Nat.zero_le _)
  decode {object} sized idx tag stream mode := by
    simp only [last]
    split
    · exact bounded.decode sized stream mode
    · exact ⟨-1, object, stream, rfl, sized, .inr (by decide)⟩
  maxBitLen := bounded.maxBitLen
  reached idx := by
    obtain ⟨value, sized, fills⟩ := bounded.reached
    refine ⟨idx, value, Nat.le_refl _, Nat.lt_succ_self _, sized, fun stream => ?_⟩
    simpa [last] using fills stream

theorem bounded_cons {first : TypeSpec V} {rest : AlternativesSpec W} {n : ℕ} (head : first.Bounded)
    (tail : rest.Bounded n) : Bounded (cons first rest) (n + 1) where
  init := Bool.and_eq_true_iff.mpr ⟨head.init, tail.init⟩
  encode {value} sized idx tag stream mode := by
    obtain ⟨left, right⟩ := Bool.and_eq_true_iff.mp sized
    simp only [cons]
    split
    · exact (head.encode left stream mode).le (Nat.le_max_left _ _)
    · exact (tail.encode right (idx + 1) tag stream mode).le (Nat.le_max_right _ _)
  decode {object} sized idx tag stream mode := by
    obtain ⟨left, right⟩ := Bool.and_eq_true_iff.mp sized
    simp only [cons]
    split
    · obtain ⟨res, v, stream', run, sized', code⟩ := head.decode left stream mode
      exact ⟨res, (v, object.2), stream', by rw [run]; rfl, Bool.and_eq_true_iff.mpr ⟨sized', right⟩, code⟩
    · obtain ⟨res, w, stream', run, sized', code⟩ := tail.decode right (idx + 1) tag stream mode
      exact ⟨res, (object.1, w), stream', by rw [run]; rfl, Bool.and_eq_true_iff.mpr ⟨left, sized'⟩, code⟩
  maxBitLen small := by
    obtain ⟨left, right⟩ := Nat.max_lt.mp small
    simp only [cons, enumMax, ← head.maxBitLen left, ← tail.maxBitLen right]
    split
    · next more => exact (Nat.max_eq_left (Nat.le_of_lt (UInt32.lt_iff_toNat_lt.mp more))).symm
    · next less => exact (Nat.max_eq_right (UInt32.le_iff_toNat_le.mp (UInt32.not_lt.mp less))).symm
  reached idx := by
    obtain ⟨v, left, fillsHead⟩ := head.reached
    obtain ⟨tag, w, later, inside, right, fillsTail⟩ := tail.reached (idx + 1)
    have sized : (cons first rest).sized (v, w) = true := Bool.and_eq_true_iff.mpr ⟨left, right⟩
    rcases Nat.le_total rest.longest first.longest with shorter | longer
    · refine ⟨idx, (v, w), Nat.le_refl _, by omega, sized, fun stream => ?_⟩
      simpa [cons, Nat.max_eq_left shorter] using fillsHead stream
    · refine ⟨tag, (v, w), by omega, by omega, sized, fun stream => ?_⟩
      simpa [cons, Nat.max_eq_right longer, show tag ≠ idx by omega] using fillsTail stream

end AlternativesSpec

namespace TypeSpec

theorem bounded_union {V : Type} {n : ℕ} {some : 0 < n} {few : n < 2 ^ 32} {alternatives : AlternativesSpec V}
    (bounded : alternatives.Bounded n) : Bounded (union (.upTo n .truncate some few) alternatives) where
  init := bounded.init
  encode {value} sized stream mode :=
    (IntegerSpec.within_encode _ value.1 stream .disabled).andThen (bounded.encode sized 0 value.1.toNat _ mode)
  decode {object} sized stream mode := by
    simp only [union]
    split
    · next failed => exact ⟨_, _, _, rfl, sized, .inr failed⟩
    · obtain ⟨res, v, stream', run, sized', code⟩ := bounded.decode sized 0 _ _ mode
      exact ⟨res, _, stream', by rw [run]; rfl, sized', code⟩
  maxBitLen small := by
    simp only [union] at small ⊢
    rw [UInt32.toNat_add, IntegerSpec.toNat_bitLen, bounded.maxBitLen (by omega), Nat.mod_eq_of_lt small]
  reached := by
    obtain ⟨tag, v, -, inside, sized, fills⟩ := bounded.reached 0
    refine ⟨(BitVec.ofNat _ tag, v), sized, fun stream => ?_⟩
    refine (IntegerSpec.fills_encode _ _ stream .disabled).andThen ?_
    rw [IntegerSpec.toNat_upTo (by omega)]
    exact fills _

end TypeSpec

/-! ## Arrays -/

namespace ArraySpec

variable {V : Type} {item : TypeSpec V}

variable {items : List V}

theorem within_encodeSize (maxSize : ArraySize) (size : ℕ) (stream : BitStream)
    (mode : TailArrayOptimizationMode) :
    Within stream maxSize.rawEncodedSizeType.bitLen (encodeSize item maxSize size stream mode) := by
  unfold encodeSize
  split
  · exact (Within.stay stream (by decide)).le (Nat.zero_le _)
  · exact maxSize.rawEncodedSizeType.within_encode _ _ _

theorem sized_replicate {value : V} (sized : item.sized value = true) {count : ℕ} :
    ∀ v ∈ replicate count value, item.sized v = true := by
  intro v member
  rw [eq_of_mem_replicate member]
  exact sized

theorem sizedDynamic_nil (item : TypeSpec V) (maxSize : ArraySize) : sizedDynamic item maxSize [] = true :=
  sizedDynamic_iff.mpr ⟨Nat.zero_le _, fun _ member => absurd member not_mem_nil⟩

theorem fills_encodeStatic {value : V}
    (fills : ∀ stream, Fills stream item.longest (item.encode value stream .disabled)) (count : ℕ)
    (stream : BitStream) :
    Fills stream (item.longest * count) (encodeStatic item (replicate count value) stream .disabled) := by
  induction count generalizing stream with
  | zero => exact .inr ⟨rfl, rfl⟩
  | succ count ih =>
    rw [replicate_succ, Nat.mul_succ, Nat.add_comm, encodeStatic, ite_self]
    exact (fills stream).andThen (ih _)

section

variable (bounded : item.Bounded)

include bounded

theorem within_encodeStatic (sized : ∀ value ∈ items, item.sized value = true)
    (stream : BitStream) (mode : TailArrayOptimizationMode) :
    Within stream (item.longest * items.length) (encodeStatic item items stream mode) := by
  induction items generalizing stream with
  | nil => exact .stay stream (by decide)
  | cons value rest ih =>
    rw [length_cons, Nat.mul_succ, Nat.add_comm]
    exact (bounded.encode (sized value mem_cons_self) stream _).andThen
      (ih (fun v member => sized v (mem_cons_of_mem _ member)) _)

theorem within_encodeDynamic {maxSize : ArraySize}
    (sized : sizedDynamic item maxSize items = true) (stream : BitStream) (mode : TailArrayOptimizationMode) :
    Within stream (maxSize.rawEncodedSizeType.bitLen + item.longest * maxSize.val)
      (encodeDynamic item maxSize items stream mode) := by
  obtain ⟨length, all⟩ := sizedDynamic_iff.mp sized
  refine (within_encodeSize maxSize items.length stream mode).andThen ?_
  split
  · exact (Within.stay _ (show (1 : ℤ) ≠ resultOutOfBuffer by decide)).le (Nat.zero_le _)
  · exact (within_encodeStatic bounded all _ _).le (Nat.mul_le_mul_left _ length)

theorem returns_decodeStatic {left i : ℕ} (length : items.length = i + left)
    (sized : ∀ value ∈ items, item.sized value = true) (stream : BitStream) (mode : TailArrayOptimizationMode) :
    ∃ res result stream', decodeStatic item left i items stream mode = some (res, result, stream') ∧
      result.length = items.length ∧ (∀ value ∈ result, item.sized value = true) ∧
      (res = resultOk ∨ res ≤ 0) := by
  induction left generalizing i items stream with
  | zero => exact ⟨1, items, stream, rfl, rfl, sized, .inl rfl⟩
  | succ left ih =>
    obtain ⟨res, value, stream', run, new, -⟩ :=
      bounded.decode bounded.init stream (if left = 0 then mode else .disabled)
    have inside : i < items.length := by omega
    have length' : (items.set i value).length = i + 1 + left := by
      rw [length_set]
      omega
    have sized' : ∀ v ∈ items.set i value, item.sized v = true := by
      intro v member
      rcases mem_or_eq_of_mem_set member with old | rfl
      · exact sized v old
      · exact new
    simp only [decodeStatic, run, Option.bind_some, setAt]
    split
    · next failed => exact ⟨res, items, stream', rfl, rfl, sized, .inr failed⟩
    · obtain ⟨res', result, stream'', run', length'', rest⟩ := ih length' sized' stream'
      exact ⟨res', result, stream'', run', by rw [length'', length_set], rest⟩

/-- Every round that goes on adds an item, so there are at most as many as the array has room, and one. -/
theorem returns_decodeTail {maxSize : ArraySize} {rounds : ℕ}
    (sized : sizedDynamic item maxSize items = true) (enough : maxSize.val < items.length + rounds)
    (stream : BitStream) :
    Returns (sizedDynamic item maxSize) (decodeTail item maxSize rounds items stream) := by
  induction rounds generalizing items stream with
  | zero =>
    have length := (sizedDynamic_iff.mp sized).1
    omega
  | succ rounds ih =>
    obtain ⟨length, all⟩ := sizedDynamic_iff.mp sized
    obtain ⟨res, value, stream', run, new, -⟩ := bounded.decode bounded.init stream .disabled
    simp only [decodeTail, run, Option.bind_some]
    split
    · next failed => exact ⟨res, items, stream', rfl, sized, .inr failed.le⟩
    · split
      · exact ⟨1, items, stream', rfl, sized, .inl rfl⟩
      · split
        · exact ⟨-errInvalidMarshalData, items, stream', rfl, sized, .inr (by decide)⟩
        · have grown : (items ++ [value]).length = items.length + 1 := length_append
          rw [pushBack_of_lt (by omega)]
          refine ih (sizedDynamic_iff.mpr ⟨by omega, fun v member => ?_⟩) (by omega) stream'
          rcases mem_append.mp member with old | last
          · exact all v old
          · rw [mem_singleton.mp last]
            exact new

theorem returns_decodeDynamic (maxSize : ArraySize) (stream : BitStream)
    (mode : TailArrayOptimizationMode) :
    Returns (sizedDynamic item maxSize) (decodeDynamic item maxSize stream mode) := by
  have none : sizedDynamic item maxSize [] = true := sizedDynamic_nil item maxSize
  unfold decodeDynamic
  split
  · exact returns_decodeTail bounded none (by omega) stream
  · rcases maxSize.rawEncodedSizeType.decode 0#_ stream .disabled with ⟨resSz, sz, stream'⟩
    simp only
    split
    · next failed => exact ⟨_, [], _, rfl, none, .inr failed⟩
    · split
      · exact ⟨-errInvalidMarshalData, [], _, rfl, none, .inr (by decide)⟩
      · rw [resize_nil (by omega)]
        split
        · exact ⟨1, _, _, rfl,
            sizedDynamic_iff.mpr ⟨by rw [length_replicate]; omega, sized_replicate bounded.init⟩, .inl rfl⟩
        · obtain ⟨res, items, stream'', run, length, sized, code⟩ := returns_decodeStatic bounded
            (Nat.zero_add _).symm (sized_replicate bounded.init) stream' mode
          rw [length_replicate] at length
          exact ⟨res, items, stream'', run, sizedDynamic_iff.mpr ⟨by omega, sized⟩, code⟩

end

end ArraySpec

namespace TypeSpec

open ArraySpec in
theorem bounded_array {V : Type} {item : TypeSpec V} (bounded : item.Bounded) (mode : ArrayMode)
    (maxSize : ArraySize) : Bounded (item.array mode maxSize) := by
  obtain ⟨value, sizedValue, fills⟩ := bounded.reached
  have size : (UInt32.ofNat maxSize.val).toNat = maxSize.val := UInt32.toNat_ofNat_of_lt' maxSize.lt
  -- one item is not longer than all of them
  have one : item.longest ≤ item.longest * maxSize.val := Nat.le_mul_of_pos_right _ maxSize.positive
  cases mode with
  | static =>
    refine ⟨sizedStatic_iff.mpr ⟨length_replicate, sized_replicate bounded.init⟩,
      fun {items} sized stream tao => ?_, fun {items} sized stream tao => ?_, fun small => ?_,
      replicate maxSize.val value, ?_, fills_encodeStatic fills _⟩
    · obtain ⟨length, all⟩ := sizedStatic_iff.mp sized
      have within := within_encodeStatic bounded all stream tao
      rwa [length] at within
    · obtain ⟨length, all⟩ := sizedStatic_iff.mp sized
      obtain ⟨res, result, stream', run, length', all', code⟩ :=
        returns_decodeStatic bounded (Nat.zero_add _).symm all stream tao
      exact ⟨res, result, stream', run, sizedStatic_iff.mpr ⟨length'.trans length, all'⟩, code⟩
    · simp only [array] at small ⊢
      rw [UInt32.toNat_mul, bounded.maxBitLen (by omega), size, Nat.mod_eq_of_lt small]
    · exact sizedStatic_iff.mpr ⟨length_replicate, sized_replicate sizedValue⟩
  | dynamic =>
    refine ⟨sizedDynamic_nil item maxSize,
      fun sized stream tao => within_encodeDynamic bounded sized stream tao,
      fun _ stream tao => returns_decodeDynamic bounded maxSize stream tao, fun small => ?_,
      replicate maxSize.val value, ?_, fun stream => ?_⟩
    · simp only [array] at small ⊢
      rw [UInt32.toNat_add, UInt32.toNat_mul, bounded.maxBitLen (by omega), size, IntegerSpec.toNat_bitLen,
        Nat.mod_eq_of_lt (show item.longest * maxSize.val < 2 ^ 32 by omega), Nat.mod_eq_of_lt small]
    · exact sizedDynamic_iff.mpr ⟨length_replicate.le, sized_replicate sizedValue⟩
    · have counted : isOptimizedTailArray item .disabled = false := by simp [isOptimizedTailArray]
      have some : ¬(replicate maxSize.val value).length = 0 := by
        rw [length_replicate]
        exact Nat.ne_of_gt maxSize.positive
      have items := fills_encodeStatic fills maxSize.val
      simp only [array, encodeDynamic, encodeSize, counted, if_neg some]
      exact (IntegerSpec.fills_encode _ _ stream .disabled).andThen (items _)

end TypeSpec

/-! ## All data types -/

mutual

theorem DataType.bounded : (t : DataType) → t.spec.Bounded
  | .integer spec => TypeSpec.bounded_integer spec
  | .void bitLen positive bitLen_le => TypeSpec.bounded_void (.void bitLen positive bitLen_le)
  | .array item mode maxSize => TypeSpec.bounded_array item.bounded mode maxSize
  | .empty => TypeSpec.bounded_empty
  | .struct fields => fields.bounded
  | .union alternatives _ => TypeSpec.bounded_union alternatives.bounded

theorem Fields.bounded : (fields : Fields) → fields.spec.Bounded
  | .last t => t.bounded
  | .cons t rest => TypeSpec.bounded_field t.bounded rest.bounded

theorem Alternatives.bounded : {n : ℕ} → (alternatives : Alternatives n) → alternatives.spec.Bounded n
  | _, .last t => AlternativesSpec.bounded_last t.bounded
  | _, .cons t rest => AlternativesSpec.bounded_cons t.bounded rest.bounded

end

namespace DataType

variable (t : DataType)

/-- Every object is encoded in at most `MaxBitLen` bits, and a buffer of that length suffices. -/
def EncodesWithin : Prop :=
  ∀ value, t.spec.sized value = true → ∀ (buf : StaticTransferBuffer) (mode : TailArrayOptimizationMode),
    (t.spec.encode value (BitStream.init buf) mode).2.bitOffset ≤ t.spec.maxBitLen.toNat ∧
      (bitLenToByteLen t.spec.maxBitLen.toNat ≤ buf.getSize →
        (t.spec.encode value (BitStream.init buf) mode).1 ≠ resultOutOfBuffer)

/-- Any contents of a buffer can be decoded, into an object that the type allows. -/
def DecodesSafely : Prop :=
  ∀ object, t.spec.sized object = true → ∀ (buf : StaticTransferBuffer) (mode : TailArrayOptimizationMode),
    ∃ res object' stream, t.spec.decode object (BitStream.init buf) mode = some (res, object', stream) ∧
      t.spec.sized object' = true ∧ (res = resultOk ∨ res ≤ 0)

/-- The encoded length is bounded and decoding is safe, exactly if the length of the longest encoding has 32 bits;
decoding is safe in any case. -/
theorem encode_bounded_decode_returns_iff :
    (t.EncodesWithin ∧ t.DecodesSafely ↔ t.spec.longest < 2 ^ 32) ∧ t.DecodesSafely := by
  have safe : t.DecodesSafely := fun object sized buf mode => t.bounded.decode sized _ mode
  refine ⟨⟨fun ⟨within, _⟩ => ?_, fun small => ⟨fun value sized buf mode => ?_, safe⟩⟩, safe⟩
  · -- the longest encoding shows whether the announced length is enough
    obtain ⟨value, sized, fills⟩ := t.bounded.reached
    obtain ⟨offset, room⟩ := within value sized (.blank (bitLenToByteLen t.spec.maxBitLen.toNat)) .disabled
    rcases fills (BitStream.init (.blank (bitLenToByteLen t.spec.maxBitLen.toNat))) with out | ⟨-, written⟩
    · exact absurd out (room (by rw [StaticTransferBuffer.getSize, StaticTransferBuffer.blank, length_replicate]))
    · have start : (BitStream.init (.blank (bitLenToByteLen t.spec.maxBitLen.toNat))).bitOffset = 0 := rfl
      have limit := t.spec.maxBitLen.toNat_lt
      omega
  · have within := t.bounded.encode sized (BitStream.init buf) mode
    have start : (BitStream.init buf).bitOffset = 0 := rfl
    have offset := within.offset
    rw [start, Nat.zero_add, ← t.bounded.maxBitLen small] at offset
    refine ⟨offset, fun enough => within.room ?_⟩
    rw [bitLenToByteLen, t.bounded.maxBitLen small] at enough
    rw [show (BitStream.init buf).buf = buf from rfl]
    omega

/-- A dynamic array of up to 2²⁶ integers of 64 bits. -/
def wideArray : DataType :=
  .array (.integer ⟨64, .unsigned, .saturate, by decide, by decide, nofun⟩) .dynamic ⟨2 ^ 26, by decide, by decide⟩

/-- Its `MaxBitLen` is 27, the length of its size field, so that a single item does not fit into a buffer of that
length. -/
theorem maxBitLen_wraps : wideArray.spec.maxBitLen = 27 ∧ ¬wideArray.EncodesWithin := by
  refine ⟨by decide +kernel, fun within => ?_⟩
  exact (within [(5 : BitVec 64)] (by decide +kernel) (.blank 4) .enabled).2 (by decide +kernel) (by decide +kernel)

end DataType

end Uavcan
