import Uavcan.Marshal.SizeBound

/-!
# Decoding what was encoded

A value is written as a sequence of bits (`Coded`), and the decoder finds the value again in front of whatever
follows. With tail array optimization nothing may follow: the end of the stream stands for the length of the
array, up to the zeros that fill the last byte. These zeros are never taken for an item (`zeros`): a type that
reads at least a byte cannot be decoded from less.
-/

namespace Uavcan

open ScalarCodec IntegerSpec List Option

/-! ## Encoders that append bits, and decoders that find them -/

/-- Less than a byte of zeros. -/
def AtEnd (rest : List Bool) : Prop := ∃ k < 8, rest = replicate k false

def Appends (encode : BitStream → ℤ × BitStream) (bits : List Bool) : Prop :=
  ∀ ⦃stream written⦄, stream.Holds written → written.length + bits.length ≤ 8 * stream.buf.getSize →
    ∃ stream', encode stream = (resultOk, stream') ∧ stream'.Holds (written ++ bits) ∧
      stream'.buf.getSize = stream.buf.getSize

/-- The decoder returns an object that is the `same`; an optimized array takes what follows as its end. -/
def Recovers {V : Type} (decode : BitStream → Option (ℤ × V × BitStream)) (mode : TailArrayOptimizationMode)
    (bits : List Bool) (same : V → Bool) : Prop :=
  ∀ ⦃stream rest⦄, stream.ahead = bits ++ rest → (mode = .enabled → AtEnd rest) →
    ∃ object stream', decode stream = some (resultOk, object, stream') ∧ same object = true ∧
      (mode = .disabled → stream'.ahead = rest)

/-- What a decoder makes of zeros: it reaches the end, or it succeeds and has read `least` bits. -/
def Ends {V : Type} (outcome : Option (ℤ × V × BitStream)) (least k : ℕ) : Prop :=
  ∃ res object stream, outcome = some (res, object, stream) ∧
    (res = resultOutOfBuffer ∨
      res = resultOk ∧ ∃ j, j + least ≤ k ∧ stream.ahead = replicate j false)

theorem Ends.le {V : Type} {outcome : Option (ℤ × V × BitStream)} {least less k : ℕ} (ends : Ends outcome least k)
    (le : less ≤ least) : Ends outcome less k := by
  obtain ⟨res, object, stream, run, out | ⟨ok, j, enough, left⟩⟩ := ends
  · exact ⟨res, object, stream, run, .inl out⟩
  · exact ⟨res, object, stream, run, .inr ⟨ok, j, by omega, left⟩⟩

theorem Appends.nil : Appends (fun stream => (resultOk, stream)) [] := by
  intro stream written holds _
  exact ⟨stream, rfl, by rwa [append_nil], rfl⟩

theorem Appends.andThen {encode next : BitStream → ℤ × BitStream} {bits more : List Bool}
    (first : Appends encode bits) (second : Appends next more) :
    Appends (fun stream => if (encode stream).1 ≤ 0 then ((encode stream).1, (encode stream).2)
      else next (encode stream).2) (bits ++ more) := by
  intro stream written holds room
  rw [length_append] at room
  obtain ⟨stream', run, holds', size⟩ := first holds (by omega)
  obtain ⟨stream'', run', holds'', size'⟩ := second holds' (by rw [length_append]; omega)
  refine ⟨stream'', ?_, by rwa [← append_assoc], size'.trans size⟩
  simp only [run]
  exact run'

namespace IntegerSpec

variable {spec : IntegerSpec} {value : spec.StorageType}

theorem appends_encode (inRange : spec.inRange value = true) (mode : TailArrayOptimizationMode) :
    Appends (fun stream => spec.encode value stream mode) (fieldBits spec.bitLen value) := by
  intro stream written holds room
  rw [length_fieldBits] at room
  exact encode_holds inRange holds room mode

theorem inRange_upTo {num : ℕ} {castMode : CastMode} {some : 0 < num} {small : num < 2 ^ 32}
    {value : (upTo num castMode some small).StorageType} (le : value.toNat ≤ num) :
    (upTo num castMode some small).inRange value = true :=
  (inRange_iff rfl).mpr (le.trans_lt (lt_integerBitLen num))

end IntegerSpec

/-! ## The laws -/

namespace TypeSpec

variable {V W : Type}

/-- The value is written as `bits`, and the decoder finds it in them. -/
structure Coded (spec : TypeSpec V) (value : V) (mode : TailArrayOptimizationMode) (bits : List Bool) : Prop where
  encode : Appends (fun stream => spec.encode value stream mode) bits
  decode : ∀ {object}, spec.sized object = true →
    Recovers (fun stream => spec.decode object stream mode) mode bits (spec.equals value)

/-- With room for all bits, they are what was written. -/
theorem Coded.length_le {spec : TypeSpec V} {value : V} {mode : TailArrayOptimizationMode} {bits : List Bool}
    (coded : spec.Coded value mode bits)
    (within : ∀ stream mode, Within stream spec.longest (spec.encode value stream mode)) :
    bits.length ≤ spec.longest := by
  obtain ⟨stream, run, holds, -⟩ := coded.encode (BitStream.holds_init (replicate bits.length 0))
    (by simp [StaticTransferBuffer.getSize, BitStream.init]; omega)
  have offset : stream.bitOffset ≤ 0 + spec.longest := by
    have whole := (within (BitStream.init ⟨replicate bits.length 0, 0, Nat.zero_le _⟩) mode).offset
    rwa [show spec.encode value _ mode = (resultOk, stream) from run] at whole
  rwa [holds.offset, nil_append, Nat.zero_add] at offset

structure Recoverable (spec : TypeSpec V) : Prop where
  coded : ∀ {value}, spec.sized value = true → spec.inRange value = true → ∀ mode,
    ∃ bits, spec.Coded value mode bits
  zeros : ∀ {object}, spec.sized object = true → ∀ {stream k}, stream.ahead = replicate k false →
    Ends (spec.decode object stream .disabled) spec.minBitLen.toNat k

theorem recoverable_integer (spec : IntegerSpec) : Recoverable spec.toTypeSpec where
  coded {value} _ inRange mode := by
    refine ⟨fieldBits spec.bitLen value, spec.appends_encode inRange mode, ?_⟩
    intro object _ stream rest ahead _
    obtain ⟨stream', run, left⟩ := spec.decode_field inRange ahead object mode
    exact ⟨value, stream', congrArg some run, beq_self_eq_true value, fun _ => left⟩
  zeros {object} _ stream k ahead := by
    refine Ends.le ?_ spec.toNat_bitLen.le
    rcases spec.decode_zeros ahead object .disabled with run | ⟨stream', run, enough, left⟩
    · exact ⟨_, _, _, congrArg some run, .inl rfl⟩
    · exact ⟨_, _, _, congrArg some run, .inr ⟨rfl, k - spec.bitLen, (Nat.sub_add_cancel enough).le, left⟩⟩

theorem recoverable_void (spec : IntegerSpec) : Recoverable spec.toVoidSpec where
  coded _ _ mode := by
    refine ⟨fieldBits spec.bitLen (BitVec.ofNat spec.storageBits 0),
      spec.appends_encode spec.inRange_zero mode, ?_⟩
    intro object _ stream rest ahead _
    obtain ⟨stream', run, left⟩ := spec.decode_field spec.inRange_zero ahead 0#_ mode
    exact ⟨(), stream', by simp only [toVoidSpec, run], rfl, fun _ => left⟩
  zeros _ stream k ahead := by
    refine Ends.le ?_ spec.toNat_bitLen.le
    rcases spec.decode_zeros ahead 0#_ .disabled with run | ⟨stream', run, enough, left⟩
    · exact ⟨_, (), stream, by simp only [toVoidSpec, run], .inl rfl⟩
    · exact ⟨_, (), stream', by simp only [toVoidSpec, run],
        .inr ⟨rfl, k - spec.bitLen, (Nat.sub_add_cancel enough).le, left⟩⟩

theorem recoverable_empty : Recoverable empty where
  coded _ _ _ :=
    ⟨[], Appends.nil, fun _ stream _ ahead _ => ⟨(), stream, rfl, rfl, fun _ => ahead⟩⟩
  zeros _ stream k ahead := ⟨1, (), stream, rfl, .inr ⟨rfl, k, Nat.le_refl _, ahead⟩⟩

theorem recoverable_field {first : TypeSpec V} {rest : TypeSpec W} (head : Recoverable first)
    (tail : Recoverable rest) : Recoverable (first.field rest) where
  coded {value} sized inRange mode := by
    obtain ⟨sizedHead, sizedTail⟩ := Bool.and_eq_true_iff.mp sized
    obtain ⟨inHead, inTail⟩ := Bool.and_eq_true_iff.mp inRange
    obtain ⟨bits, codedHead⟩ := head.coded sizedHead inHead .disabled
    obtain ⟨more, codedTail⟩ := tail.coded sizedTail inTail mode
    refine ⟨bits ++ more, codedHead.encode.andThen codedTail.encode, ?_⟩
    intro object sizedObject stream after ahead last
    obtain ⟨left, right⟩ := Bool.and_eq_true_iff.mp sizedObject
    rw [append_assoc] at ahead
    obtain ⟨v, stream', run, same, next⟩ := codedHead.decode left ahead nofun
    obtain ⟨w, stream'', run', same', done⟩ := codedTail.decode right (next rfl) last
    refine ⟨(v, w), stream'', ?_, Bool.and_eq_true_iff.mpr ⟨same, same'⟩, done⟩
    simp only [field, run, run', bind_some]
    rfl
  zeros {object} sized stream k ahead := by
    obtain ⟨left, right⟩ := Bool.and_eq_true_iff.mp sized
    obtain ⟨res, v, stream', run, rfl | ⟨rfl, j, enough, next⟩⟩ := head.zeros left ahead
    · exact ⟨_, (v, object.2), stream', by simp only [field, run]; rfl, .inl rfl⟩
    · obtain ⟨res', w, stream'', run', code⟩ := tail.zeros right next
      refine ⟨res', (v, w), stream'', by simp only [field, run, run', bind_some]; rfl, ?_⟩
      rcases code with out | ⟨ok, j', enough', left'⟩
      · exact .inl out
      · exact .inr ⟨ok, j', by simp only [field, UInt32.toNat_add]; omega, left'⟩

end TypeSpec

/-! ## Unions -/

theorem enumMin_le (a b : UInt32) : (enumMin a b).toNat ≤ a.toNat := by
  unfold enumMin
  split
  · exact Nat.le_refl _
  · next more => exact UInt32.le_iff_toNat_le.mp (UInt32.not_lt.mp more)

namespace AlternativesSpec

variable {V W : Type}

structure Coded (spec : AlternativesSpec V) (idx tag : ℕ) (value : V) (mode : TailArrayOptimizationMode)
    (bits : List Bool) : Prop where
  encode : Appends (fun stream => spec.encode idx tag value stream mode) bits
  decode : ∀ {object}, spec.sized object = true →
    Recovers (fun stream => spec.decode idx tag object stream mode) mode bits (spec.equals idx tag value)

/-- The laws of `n` alternatives; zeros are the tag of the first one. -/
structure Recoverable (spec : AlternativesSpec V) (n : ℕ) : Prop where
  tag_lt : ∀ {idx tag value}, spec.inRange idx tag value = true → tag < idx + n
  coded : ∀ {idx tag value}, spec.sized value = true → spec.inRange idx tag value = true → ∀ mode,
    ∃ bits, spec.Coded idx tag value mode bits
  zeros : ∀ {object}, spec.sized object = true → ∀ {stream k}, stream.ahead = replicate k false →
    ∀ idx, Ends (spec.decode idx idx object stream .disabled) spec.minBitLen.toNat k

theorem recoverable_last {spec : TypeSpec V} (laws : spec.Recoverable) : Recoverable (last spec) 1 where
  tag_lt {idx tag value} inRange := by
    by_contra beyond
    simp [last, show tag ≠ idx by omega] at inRange
  coded {idx tag value} sized inRange mode := by
    by_cases here : tag = idx
    · simp only [last, if_pos here] at inRange
      obtain ⟨bits, coded⟩ := laws.coded sized inRange mode
      refine ⟨bits, ?_, fun {object} sizedObject => ?_⟩
      · simpa only [last, if_pos here] using coded.encode
      · simpa only [last, if_pos here] using coded.decode sizedObject
    · simp [last, here] at inRange
  zeros sized stream k ahead idx := by
    simpa [last] using laws.zeros sized ahead

theorem recoverable_cons {first : TypeSpec V} {rest : AlternativesSpec W} {n : ℕ} (head : first.Recoverable)
    (tail : rest.Recoverable n) : Recoverable (cons first rest) (n + 1) where
  tag_lt {idx tag value} inRange := by
    by_cases here : tag = idx
    · omega
    · simp only [cons, if_neg here] at inRange
      have later := tail.tag_lt inRange
      omega
  coded {idx tag value} sized inRange mode := by
    obtain ⟨sizedHead, sizedTail⟩ := Bool.and_eq_true_iff.mp sized
    by_cases here : tag = idx
    · simp only [cons, if_pos here] at inRange
      obtain ⟨bits, coded⟩ := head.coded sizedHead inRange mode
      refine ⟨bits, ?_, fun {object} sizedObject => ?_⟩
      · simpa only [cons, if_pos here] using coded.encode
      · intro stream after ahead last
        obtain ⟨left, -⟩ := Bool.and_eq_true_iff.mp sizedObject
        obtain ⟨v, stream', run, same, done⟩ := coded.decode left ahead last
        exact ⟨(v, object.2), stream', by simp [cons, if_pos here, run],
          by simpa only [cons, if_pos here] using same, done⟩
    · simp only [cons, if_neg here] at inRange
      obtain ⟨bits, coded⟩ := tail.coded sizedTail inRange mode
      refine ⟨bits, ?_, fun {object} sizedObject => ?_⟩
      · simpa only [cons, if_neg here] using coded.encode
      · intro stream after ahead last
        obtain ⟨-, right⟩ := Bool.and_eq_true_iff.mp sizedObject
        obtain ⟨w, stream', run, same, done⟩ := coded.decode right ahead last
        exact ⟨(object.1, w), stream', by simp [cons, if_neg here, run],
          by simpa only [cons, if_neg here] using same, done⟩
  zeros {object} sized stream k ahead idx := by
    obtain ⟨left, -⟩ := Bool.and_eq_true_iff.mp sized
    obtain ⟨res, v, stream', run, code⟩ := head.zeros left ahead
    refine ⟨res, (v, object.2), stream', by simp [cons, run], ?_⟩
    rcases code with out | ⟨ok, j, enough, next⟩
    · exact .inl out
    · have least := enumMin_le first.minBitLen rest.minBitLen
      exact .inr ⟨ok, j, by simp only [cons]; omega, next⟩

end AlternativesSpec

namespace TypeSpec

theorem recoverable_union {V : Type} {n : ℕ} {some : 0 < n} {few : n < 2 ^ 32} {alternatives : AlternativesSpec V}
    (laws : alternatives.Recoverable n) :
    Recoverable (union (upTo n .truncate some few) alternatives) where
  coded {value} sized inRange mode := by
    have tag_lt := laws.tag_lt inRange
    have inTag := inRange_upTo (show value.1.toNat ≤ n by omega)
    obtain ⟨bits, coded⟩ := laws.coded sized inRange mode
    refine ⟨fieldBits _ value.1 ++ bits, (appends_encode inTag .disabled).andThen coded.encode, ?_⟩
    intro object sizedObject stream after ahead last
    rw [append_assoc] at ahead
    obtain ⟨stream', run, next⟩ := decode_field inTag ahead object.1 .disabled
    obtain ⟨v, stream'', run', same, done⟩ := coded.decode sizedObject next last
    refine ⟨(value.1, v), stream'', ?_, ?_, done⟩
    · simp only [union, run, run']
      rfl
    · simpa [union] using same
  zeros {object} sized stream k ahead := by
    rcases decode_zeros ahead object.1 .disabled with run | ⟨stream', run, enough, next⟩
    · exact ⟨_, (object.1, object.2), stream, by simp only [union, run]; rfl, .inl rfl⟩
    · obtain ⟨res, v, stream'', run', code⟩ := laws.zeros sized next 0
      refine ⟨res, (0#_, v), stream'', ?_, ?_⟩
      · simp only [union, run, BitVec.toNat_ofNat, Nat.zero_mod, run']
        rfl
      · rcases code with out | ⟨ok, j, enough', left⟩
        · exact .inl out
        · exact .inr ⟨ok, j, by simp only [union, UInt32.toNat_add, toNat_bitLen]; omega, left⟩

end TypeSpec

/-! ## Arrays -/

namespace ArraySpec

variable {V : Type} {item : TypeSpec V}

/-- The bits of items one after the other; only the last one gets the mode of the array. -/
inductive ItemBits (item : TypeSpec V) (mode : TailArrayOptimizationMode) : List V → List Bool → Prop
  | nil : ItemBits item mode [] []
  | cons {value : V} {rest : List V} {bits more : List Bool}
      (first : item.Coded value (if rest.isEmpty then mode else .disabled) bits)
      (others : ItemBits item mode rest more) : ItemBits item mode (value :: rest) (bits ++ more)

theorem exists_itemBits (laws : item.Recoverable) {items : List V}
    (sized : ∀ value ∈ items, item.sized value = true) (inRange : ∀ value ∈ items, item.inRange value = true)
    (mode : TailArrayOptimizationMode) : ∃ bits, ItemBits item mode items bits := by
  induction items with
  | nil => exact ⟨[], .nil⟩
  | cons value rest ih =>
    obtain ⟨bits, first⟩ := laws.coded (sized value mem_cons_self) (inRange value mem_cons_self)
      (if rest.isEmpty then mode else .disabled)
    obtain ⟨more, others⟩ := ih (fun v member => sized v (mem_cons_of_mem _ member))
      (fun v member => inRange v (mem_cons_of_mem _ member))
    exact ⟨bits ++ more, .cons first others⟩

namespace ItemBits

variable {mode : TailArrayOptimizationMode} {items : List V} {bits : List Bool}

theorem appends (coded : ItemBits item mode items bits) :
    Appends (fun stream => encodeStatic item items stream mode) bits := by
  induction coded with
  | nil => exact Appends.nil
  | cons first others ih => exact first.encode.andThen ih

/-- The items are stored from position `i` on; those before are kept. -/
theorem recovers_static (bounded : item.Bounded) (coded : ItemBits item mode items bits) {i : ℕ} {object : List V}
    (length : object.length = i + items.length) {stream : BitStream} {after : List Bool}
    (ahead : stream.ahead = bits ++ after) (last : mode = .enabled → AtEnd after) :
    ∃ result stream', decodeStatic item items.length i object stream mode =
        some (resultOk, object.take i ++ result, stream') ∧
      equalItems item items result = true ∧ (mode = .disabled → stream'.ahead = after) := by
  induction coded generalizing i object stream with
  | nil =>
    refine ⟨[], stream, ?_, rfl, fun _ => ahead⟩
    rw [append_nil, take_of_length_le (show object.length ≤ i from length.le)]
    rfl
  | @cons value rest bits more first others ih =>
    rw [append_assoc] at ahead
    have inside : i < object.length := by rw [length, length_cons]; omega
    have modes : (if rest.length = 0 then mode else TailArrayOptimizationMode.disabled) =
        if rest.isEmpty then mode else .disabled := by
      cases rest <;> rfl
    have end' : (if rest.isEmpty then mode else TailArrayOptimizationMode.disabled) = .enabled →
        AtEnd (more ++ after) := by
      cases others with
      | nil => exact last
      | cons => exact nofun
    obtain ⟨v, stream', run, same, next⟩ := first.decode bounded.init ahead end'
    have stored : (object.set i v).take (i + 1) = object.take i ++ [v] := by
      rw [take_add_one, take_set_of_le (Nat.le_refl i), getElem?_set_self inside]
      rfl
    have length' : (object.set i v).length = i + 1 + rest.length := by
      rw [length_set, length, length_cons]
      omega
    simp only [length_cons, decodeStatic, modes, run, setAt, if_pos inside]
    cases others with
    | nil =>
      refine ⟨[v], stream', ?_, by rw [equalItems, same]; rfl, next⟩
      rw [← stored, take_of_length_le (by rw [length_set, length, length_singleton])]
      rfl
    | cons second others' =>
      obtain ⟨result, stream'', run', same', done⟩ := ih length' (next rfl)
      refine ⟨v :: result, stream'', ?_, by rw [equalItems, same, same']; rfl, done⟩
      rw [stored, append_assoc] at run'
      exact run'

/-- An optimized array: the decoder stops because what is left is shorter than any item. -/
theorem recovers_tail (bounded : item.Bounded) (laws : item.Recoverable) (long : 8 ≤ item.minBitLen.toNat)
    (coded : ItemBits item .disabled items bits) {maxSize : ArraySize} {rounds : ℕ} {before : List V}
    (fits : before.length + items.length ≤ maxSize.val) (enough : items.length < rounds)
    {stream : BitStream} {after : List Bool} (ahead : stream.ahead = bits ++ after) (last : AtEnd after) :
    ∃ result stream', decodeTail item maxSize rounds before stream =
        some (resultOk, before ++ result, stream') ∧ equalItems item items result = true := by
  induction coded generalizing rounds before stream with
  | nil =>
    obtain ⟨rounds, rfl⟩ : ∃ left, rounds = left + 1 := ⟨rounds - 1, by omega⟩
    obtain ⟨k, short, rfl⟩ := last
    obtain ⟨res, value, stream', run, rfl | ⟨-, j, read, -⟩⟩ := laws.zeros bounded.init ahead
    · refine ⟨[], stream', ?_, rfl⟩
      rw [decodeTail, run, append_nil]
      rfl
    · omega
  | @cons value rest bits more first others ih =>
    rw [length_cons] at fits enough
    obtain ⟨rounds, rfl⟩ : ∃ left, rounds = left + 1 := ⟨rounds - 1, by omega⟩
    rw [ite_self] at first
    rw [append_assoc] at ahead
    obtain ⟨v, stream', run, same, next⟩ := first.decode bounded.init ahead (by simp)
    have grown : (before ++ [v]).length = before.length + 1 := length_append
    obtain ⟨result, stream'', run', same'⟩ := ih (show (before ++ [v]).length + rest.length ≤ maxSize.val by omega)
      (show rest.length < rounds by omega) (next rfl)
    refine ⟨v :: result, stream'', ?_, by rw [equalItems, same, same']; rfl⟩
    have room : before.length ≠ maxSize.val := by omega
    simp only at run
    rw [decodeTail, run]
    simp only [if_neg room, pushBack_of_lt (show before.length < maxSize.val by omega)]
    rw [append_assoc] at run'
    exact run'

end ItemBits

/-- Zeros, read as the items of a static array. -/
theorem ends_decodeStatic (bounded : item.Bounded) (laws : item.Recoverable) {left i : ℕ} {object : List V}
    (length : object.length = i + left) {stream : BitStream} {k : ℕ}
    (ahead : stream.ahead = replicate k false) :
    Ends (decodeStatic item left i object stream .disabled) (item.minBitLen.toNat * left) k := by
  induction left generalizing i object stream k with
  | zero => exact ⟨1, object, stream, rfl, .inr ⟨rfl, k, Nat.le_refl _, ahead⟩⟩
  | succ left ih =>
    have inside : i < object.length := by omega
    obtain ⟨res, value, stream', run, rfl | ⟨rfl, j, enough, next⟩⟩ := laws.zeros bounded.init ahead
    · refine ⟨_, object, stream', ?_, .inl rfl⟩
      rw [decodeStatic, ite_self, run]
      rfl
    · have length' : (object.set i value).length = i + 1 + left := by
        rw [length_set]
        omega
      obtain ⟨res', result, stream'', run', code⟩ := ih length' next
      refine ⟨res', result, stream'', ?_, ?_⟩
      · rw [decodeStatic, ite_self, run]
        simp only [setAt, if_pos inside]
        exact run'
      · rcases code with out | ⟨ok, j', enough', left'⟩
        · exact .inl out
        · exact .inr ⟨ok, j', by rw [Nat.mul_succ]; omega, left'⟩

/-- The size of an array that its type allows. -/
theorem size_inRange {maxSize : ArraySize} {size : ℕ} (fits : size ≤ maxSize.val) :
    (BitVec.ofNat maxSize.rawEncodedSizeType.storageBits size).toNat = size ∧
      maxSize.rawEncodedSizeType.inRange (BitVec.ofNat _ size) = true := by
  have exact : (BitVec.ofNat maxSize.rawEncodedSizeType.storageBits size).toNat = size := toNat_upTo fits
  exact ⟨exact, inRange_upTo (exact.le.trans fits)⟩

section Dynamic

variable {maxSize : ArraySize} {items : List V} {mode : TailArrayOptimizationMode}

/-- No items are written as nothing, so that the case needs no care. -/
theorem encodeDynamic_eq (stream : BitStream) :
    encodeDynamic item maxSize items stream mode =
      if (encodeSize item maxSize items.length stream mode).1 ≤ 0 then
        ((encodeSize item maxSize items.length stream mode).1,
          (encodeSize item maxSize items.length stream mode).2)
      else encodeStatic item items (encodeSize item maxSize items.length stream mode).2
        (if isOptimizedTailArray item mode then .disabled else mode) := by
  cases items with
  | nil => rfl
  | cons value rest => rfl

theorem optimized_iff :
    isOptimizedTailArray item mode = true ↔ 8 ≤ item.minBitLen.toNat ∧ mode = .enabled := by
  rw [isOptimizedTailArray, Bool.and_eq_true_iff, decide_eq_true_iff, decide_eq_true_iff, ge_iff_le,
    UInt32.le_iff_toNat_le]
  rfl

theorem coded_optimized (bounded : item.Bounded) (laws : item.Recoverable)
    (sized : sizedDynamic item maxSize items = true) (inRange : ∀ value ∈ items, item.inRange value = true)
    (optimized : isOptimizedTailArray item mode = true) :
    ∃ bits, (item.array .dynamic maxSize).Coded items mode bits := by
  obtain ⟨length, all⟩ := sizedDynamic_iff.mp sized
  obtain ⟨long, rfl⟩ := optimized_iff.mp optimized
  obtain ⟨bits, coded⟩ := exists_itemBits laws all inRange .disabled
  refine ⟨bits, ?_, fun {object} _ => ?_⟩
  · intro stream written holds room
    obtain ⟨stream', run, rest⟩ := coded.appends holds room
    refine ⟨stream', ?_, rest⟩
    change encodeDynamic item maxSize items stream .enabled = _
    rw [encodeDynamic_eq, encodeSize, if_pos optimized, if_pos optimized]
    exact run
  · intro stream after ahead last
    obtain ⟨result, stream', run, same⟩ := coded.recovers_tail bounded laws long
      (show ([] : List V).length + items.length ≤ maxSize.val by rwa [length_nil, Nat.zero_add])
      (show items.length < maxSize.val + 1 by omega) ahead (last rfl)
    refine ⟨result, stream', ?_, same, by simp⟩
    change decodeDynamic item maxSize stream .enabled = _
    rw [decodeDynamic, if_pos optimized, run, nil_append]

theorem coded_with_size (bounded : item.Bounded) (laws : item.Recoverable)
    (sized : sizedDynamic item maxSize items = true) (inRange : ∀ value ∈ items, item.inRange value = true)
    (counted : ¬isOptimizedTailArray item mode = true) :
    ∃ bits, (item.array .dynamic maxSize).Coded items mode bits := by
  obtain ⟨length, all⟩ := sizedDynamic_iff.mp sized
  obtain ⟨number, inSize⟩ := size_inRange length
  obtain ⟨bits, coded⟩ := exists_itemBits laws all inRange mode
  refine ⟨fieldBits maxSize.rawEncodedSizeType.bitLen
    (BitVec.ofNat maxSize.rawEncodedSizeType.storageBits items.length) ++ bits, ?_, fun {object} _ => ?_⟩
  · intro stream written holds room
    obtain ⟨stream', run, rest⟩ := ((appends_encode inSize .disabled).andThen coded.appends) holds room
    refine ⟨stream', ?_, rest⟩
    change encodeDynamic item maxSize items stream mode = _
    rw [encodeDynamic_eq, encodeSize, if_neg counted, if_neg counted]
    exact run
  · intro stream after ahead last
    rw [append_assoc] at ahead
    obtain ⟨stream', run, next⟩ := decode_field inSize ahead 0#_ .disabled
    obtain ⟨result, stream'', run', same, done⟩ := coded.recovers_static bounded
      (show (replicate items.length item.init).length = 0 + items.length by
        rw [length_replicate, Nat.zero_add]) next last
    refine ⟨result, stream'', ?_, same, done⟩
    change decodeDynamic item maxSize stream mode = _
    rw [decodeDynamic, if_neg counted, run]
    simp only [number, if_neg (show ¬items.length > maxSize.val by omega), resize_nil length, bind_some,
      length_replicate]
    -- without items the decoder returns at once, which is what it does with none left
    cases items with
    | nil => exact run'
    | cons value rest => exact run'

end Dynamic

end ArraySpec

namespace TypeSpec

open ArraySpec in
theorem recoverable_array {V : Type} {item : TypeSpec V} (bounded : item.Bounded) (laws : item.Recoverable)
    (mode : ArrayMode) (maxSize : ArraySize) : Recoverable (item.array mode maxSize) := by
  cases mode with
  | static =>
    refine ⟨fun {items} sized inRange tao => ?_, fun {object} sized {stream k} ahead => ?_⟩
    · obtain ⟨length, all⟩ := sizedStatic_iff.mp sized
      obtain ⟨bits, coded⟩ := exists_itemBits laws all (all_eq_true.mp inRange) tao
      refine ⟨bits, coded.appends, fun {object} sizedObject => ?_⟩
      intro stream after ahead last
      have length' := (sizedStatic_iff.mp sizedObject).1
      obtain ⟨result, stream', run, same, done⟩ := coded.recovers_static bounded
        (show object.length = 0 + items.length by omega) ahead last
      refine ⟨result, stream', ?_, same, done⟩
      change decodeStatic item object.length 0 object stream tao = _
      rw [length', ← length, run, take_zero, nil_append]
    · obtain ⟨length, -⟩ := sizedStatic_iff.mp sized
      refine (ends_decodeStatic bounded laws (Nat.zero_add object.length).symm ahead).le ?_
      rw [array, UInt32.toNat_mul, UInt32.toNat_ofNat_of_lt' maxSize.lt, length]
      exact Nat.mod_le _ _
  | dynamic =>
    refine ⟨fun {items} sized inRange tao => ?_, fun {object} _ {stream k} ahead => ?_⟩
    · by_cases optimized : isOptimizedTailArray item tao = true
      · exact coded_optimized bounded laws sized (all_eq_true.mp inRange) optimized
      · exact coded_with_size bounded laws sized (all_eq_true.mp inRange) optimized
    · have counted : ¬isOptimizedTailArray item .disabled = true := fun optimized =>
        absurd (optimized_iff.mp optimized).2 (by simp)
      change Ends (decodeDynamic item maxSize stream .disabled) 0 k
      rw [decodeDynamic, if_neg counted]
      rcases decode_zeros ahead (BitVec.ofNat maxSize.rawEncodedSizeType.storageBits 0) .disabled with
        run | ⟨stream', run, enough, next⟩
      · rw [run]
        exact ⟨_, [], stream, rfl, .inl rfl⟩
      · -- zeros are the size of an empty array
        rw [run]
        simp only [BitVec.toNat_ofNat, Nat.zero_mod, if_neg (Nat.not_lt_zero _)]
        exact ⟨1, [], stream', rfl, .inr ⟨rfl, _, Nat.sub_le _ _, next⟩⟩

end TypeSpec

/-! ## All data types -/

mutual

theorem DataType.recoverable : (t : DataType) → t.spec.Recoverable
  | .integer spec => TypeSpec.recoverable_integer spec
  | .void bitLen positive bitLen_le => TypeSpec.recoverable_void (.void bitLen positive bitLen_le)
  | .array item mode maxSize => TypeSpec.recoverable_array item.bounded item.recoverable mode maxSize
  | .empty => TypeSpec.recoverable_empty
  | .struct fields => fields.recoverable
  | .union alternatives _ => TypeSpec.recoverable_union alternatives.recoverable

theorem Fields.recoverable : (fields : Fields) → fields.spec.Recoverable
  | .last t => t.recoverable
  | .cons t rest => TypeSpec.recoverable_field t.recoverable rest.recoverable

theorem Alternatives.recoverable : {n : ℕ} → (alternatives : Alternatives n) → alternatives.spec.Recoverable n
  | _, .last t => AlternativesSpec.recoverable_last t.recoverable
  | _, .cons t rest => AlternativesSpec.recoverable_cons t.recoverable rest.recoverable

end

namespace DataType

/-- What an encoder writes for a value in range is decoded to the same value, whatever the decoder writes
over. -/
theorem decode_encode (t : DataType) {value : t.Value} (sized : t.spec.sized value = true)
    (inRange : t.spec.inRange value = true) {memory : List UInt8}
    (enough : bitLenToByteLen t.spec.longest ≤ memory.length) {object : t.Value}
    (sizedObject : t.spec.sized object = true) {received : StaticTransferBuffer}
    (same : received.bytes = (t.encode value ⟨memory, 0, Nat.zero_le _⟩).2.buf.bytes) :
    (t.encode value ⟨memory, 0, Nat.zero_le _⟩).1 = resultOk ∧
      ∃ object' stream, t.decode object received = some (resultOk, object', stream) ∧
        t.spec.equals value object' = true := by
  obtain ⟨bits, coded⟩ := t.recoverable.coded sized inRange .enabled
  have room : ([] : List Bool).length + bits.length ≤ 8 * memory.length := by
    have length := coded.length_le (t.bounded.encode sized)
    rw [bitLenToByteLen] at enough
    rw [length_nil]
    omega
  obtain ⟨stream, run, holds, -⟩ := coded.encode (BitStream.holds_init memory) room
  have written : t.encode value ⟨memory, 0, Nat.zero_le _⟩ = (resultOk, stream) := run
  rw [written] at same ⊢
  obtain ⟨k, short, ahead⟩ := holds.ahead_init same
  obtain ⟨object', stream', run', equal, -⟩ := coded.decode sizedObject ahead fun _ => ⟨k, short, rfl⟩
  exact ⟨rfl, object', stream', run', equal⟩

/-- A value of every construction, written into memory that is not clean. -/
theorem decode_encode_sample :
    (sampleType.encode sampleValue ⟨replicate 11 0xFF, 0, Nat.zero_le _⟩).1 = resultOk ∧
      ∃ object stream, sampleType.decode sampleType.spec.init
          (sampleType.encode sampleValue ⟨replicate 11 0xFF, 0, Nat.zero_le _⟩).2.buf =
            some (resultOk, object, stream) ∧
        sampleType.spec.equals sampleValue object = true :=
  decode_encode sampleType (by decide +kernel) (by decide +kernel) (by decide +kernel) (by decide +kernel) rfl

end DataType

end Uavcan
