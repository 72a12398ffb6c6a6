import Uavcan.Transport.Frame

/-!
# The frame codec

`Frame.compile` and `Frame.parse` are inverse to each other on frames with a unicast source.  In the CAN ID
of an anonymous frame, a discriminator made from the data bytes lies over the upper 14 bits of the data type
ID.
-/

namespace Uavcan

open CanFrame DataTypeID

namespace Frame

/-! ## What is parsed is compiled back -/

variable {f : Frame} {can : CanFrame}

theorem tail_eq {byte : UInt8} (tid : f.transferId = .ofByte (byte &&& 31))
    (start : f.startOfTransfer = decide (byte &&& 0x80 ≠ 0)) (stop : f.endOfTransfer = decide (byte &&& 0x40 ≠ 0))
    (toggle : f.toggle = decide (byte &&& 0x20 ≠ 0)) : f.tail = byte := by
  have bytes : ∀ n : Fin 256, (TransferID.ofByte (UInt8.ofFin n &&& 31)).get |||
      (if UInt8.ofFin n &&& 0x80 ≠ 0 then 0x80 else 0) ||| (if UInt8.ofFin n &&& 0x40 ≠ 0 then 0x40 else 0) |||
      (if UInt8.ofFin n &&& 0x20 ≠ 0 then 0x20 else 0) = UInt8.ofFin n := by
    decide +kernel
  rw [tail, tid, start, stop, toggle]
  simpa using bytes byte.toFin

theorem parses_of_parse (parsed : parse can = some f) : Parses can.id.toNat can.data f := by
  have valid := isValid_of_parse parsed
  simp only [parse] at parsed
  split at parsed
  · cases parsed
  case isFalse regular =>
    split at parsed
    · cases parsed
    split at parsed
    · cases parsed
    case isFalse nonempty =>
      split at parsed
      case isFalse => cases parsed
      case isTrue =>
        obtain ⟨⟨correct, noRequest⟩, extended⟩ : (¬ (can.id &&& flagERR ≠ 0) ∧
            ¬ (can.id &&& flagRTR ≠ 0)) ∧ can.id &&& flagEFF ≠ 0 := by
          simpa [isErrorFrame, isRemoteTransmissionRequest, isExtended]
            using regular
        rw [and_flag_ne_zero (k := 29) (by decide)] at correct
        rw [and_flag_ne_zero (k := 30) (by decide)] at noRequest
        rw [and_flag_ne_zero (k := 31) (by decide)] at extended
        have masked := toNat_and_maskExtID can.id
        have range := can.id.toNat_lt
        have present : can.data ≠ [] := fun none_there => nonempty (by simp [dlc, none_there])
        cases parsed
        refine ⟨by omega, ?_, valid, readsID_parseID masked, ?_, ?_⟩
        · rw [tail_eq rfl rfl rfl rfl, List.getLastD_eq_getLast?, List.getLast?_eq_some_getLast present]
          exact (List.dropLast_concat_getLast present).symm
        · exact (toNat_toUInt8_bitunpack 24 5 _ (by decide) (by decide)).trans (by omega)
        · exact (toNat_toUInt8_bitunpack 0 7 _ (by decide) (by decide)).trans (by omega)

theorem Parses.canID_eq (parses : Parses can.id.toNat can.data f) (unicast : f.srcNodeId.isUnicast) :
    f.canID = can.id := by
  obtain ⟨-, srcValid, dstValid, -, -, -, -, -, -, priorityValid⟩ := isValid_iff.mp parses.valid
  obtain ⟨flags, -, -, fields, priority, src⟩ := parses
  have get : f.dataTypeId.get.toNat = f.dataTypeId.value.toNat % 2 ^ 16 := UInt32.toNat_toUInt16 _
  have positive := NodeID.toNat_ne_zero unicast
  rw [← UInt32.toNat_inj]
  rcases fields with ⟨kind, type, -, dataType⟩ | ⟨kind, type, node, dataType⟩
  · rw [if_neg (by omega)] at dataType
    rw [toNat_canID_message type srcValid priorityValid]
    omega
  · have service : f.transferType ≠ .messageBroadcast := by
      rw [type]
      split <;> decide
    rw [toNat_canID_service service srcValid dstValid priorityValid (by omega), type]
    by_cases bit : can.id.toNat / 2 ^ 15 % 2 = 1
    · rw [if_pos bit, if_pos rfl]
      omega
    · rw [if_neg bit, if_neg (by decide)]
      omega

theorem compile_of_parse (parsed : parse can = some f) (unicast : f.srcNodeId.isUnicast) : f.compile = some can := by
  have parses := parses_of_parse parsed
  simp [compile, parses.valid, NodeID.isBroadcast_eq_false unicast, parses.canID_eq unicast, ← parses.data]

/-- On frames with a unicast source the two directions of the codec are inverse to each other. -/
theorem codec_inverse :
    (∀ f : Frame, f.isValid → f.srcNodeId.isUnicast → ∃ can, f.compile = some can ∧ parse can = some f) ∧
      ∀ (can : CanFrame) (f : Frame), parse can = some f → f.srcNodeId.isUnicast → f.compile = some can :=
  ⟨fun _ valid unicast => parse_compile valid unicast,
    fun _ _ parsed unicast => compile_of_parse parsed unicast⟩

theorem codec_inverse_sample : ∃ (f : Frame) (can : CanFrame), f.isValid ∧ f.srcNodeId.isUnicast ∧
    f.compile = some can ∧ parse can = some f := by
  let f : Frame := ⟨[1, 2, 3], ⟨16⟩, .serviceRequest, ⟨5⟩, ⟨1⟩, ⟨2⟩, ⟨31⟩, true, true, false⟩
  obtain ⟨can, compiled, parsed⟩ := codec_inverse.1 f (by decide) (by decide)
  exact ⟨f, can, by decide, by decide, codec_inverse.2 can f parsed (by decide), parsed⟩

/-! ## Anonymous frames -/

/-- The discriminator changes neither the bits below nor the bits above it. -/
theorem or_discriminator (id field : UInt32) :
    (id ||| bitpack 10 14 field).toNat % 2 ^ 10 = id.toNat % 2 ^ 10 ∧
      (id ||| bitpack 10 14 field).toNat / 2 ^ 24 = id.toNat / 2 ^ 24 := by
  have below : field.toNat % 2 ^ 14 * 2 ^ 10 % 2 ^ 10 = 0 := Nat.mul_mod_left ..
  have above : field.toNat % 2 ^ 14 * 2 ^ 10 / 2 ^ 24 = 0 := by omega
  rw [UInt32.toNat_or, toNat_bitpack field (by decide)]
  refine ⟨?_, ?_⟩
  · rw [Nat.or_mod_two_pow, below, Nat.or_zero]
  · rw [← Nat.shiftRight_eq_div_pow, Nat.shiftRight_or_distrib, Nat.shiftRight_eq_div_pow,
      Nat.shiftRight_eq_div_pow, above, Nat.or_zero]

/-- What is left of a frame without the upper bits of its data type ID. -/
def truncated (f : Frame) : Frame := { f with dataTypeId := .ofUInt16 (f.dataTypeId.get &&& 3) }

theorem isValid_truncated (valid : f.isValid) (message : f.transferType = .messageBroadcast) :
    f.truncated.isValid := by
  obtain ⟨toggle, src, dst, other, proper, kind, whole, length, -, priority⟩ := isValid_iff.mp valid
  refine isValid_iff.mpr ⟨toggle, src, dst, other, proper, kind, whole, length, ?_, priority⟩
  have small := (f.dataTypeId.get &&& 3).toNat_lt
  rw [show f.truncated.transferType = .messageBroadcast from message]
  refine decide_eq_true (UInt32.le_iff_toNat_le.mpr ?_)
  exact Nat.le_of_lt_succ small

theorem ofUInt16_eq_iff (x : UInt16) (id : DataTypeID) :
    ofUInt16 x = id ↔ x.toNat = id.value.toNat := by
  rw [← UInt16.toNat_toUInt32, UInt32.toNat_inj]
  exact ⟨congrArg value, congrArg DataTypeID.mk⟩

theorem parse_anonymous (valid : f.isValid) (anonymous : f.srcNodeId.isBroadcast) (field : UInt32) :
    parse ⟨f.canID ||| bitpack 10 14 field, f.payload ++ [f.tail]⟩ = some f.truncated := by
  obtain ⟨-, srcValid, -, -, -, kind, whole, -, -, priorityValid⟩ := isValid_iff.mp valid
  obtain ⟨-, -, message⟩ := whole anonymous
  have source : f.srcNodeId.value.toNat = 0 := congrArg UInt8.toNat (of_decide_eq_true anonymous)
  have broadcast : f.dstNodeId = .broadcast := congrArg NodeID.mk (of_decide_eq_true (kind.mp message))
  have priorityBound := TransferPriority.toNat_lt priorityValid
  have typeBound := f.dataTypeId.get.toNat_lt
  have canID := toNat_canID_message message srcValid priorityValid
  have dataType : f.truncated.dataTypeId.value.toNat = f.dataTypeId.get.toNat % 2 ^ 2 :=
    (UInt16.toNat_toUInt32 _).trans (toNat_and_three _)
  obtain ⟨low, high⟩ := or_discriminator f.canID field
  generalize f.canID ||| bitpack 10 14 field = id at low high ⊢
  have parses : Parses id.toNat (f.payload ++ [f.tail]) f.truncated := by
    refine ⟨by omega, rfl, isValid_truncated valid message, .inl ⟨by omega, message, broadcast, ?_⟩, ?_, ?_⟩
    · rw [if_pos (by omega), dataType]
      omega
    · show f.priority.value.toNat = _
      omega
    · show f.srcNodeId.value.toNat = _
      omega
  exact parse_of_parses parses

/-- An anonymous frame is compiled; it is parsed back to what it was exactly if its data type ID has no more
than two bits. -/
theorem parse_compile_anonymous_iff {f : Frame} (valid : f.isValid)
    (anonymous : f.srcNodeId.isBroadcast) :
    ∃ can, f.compile = some can ∧ (parse can = some f ↔ f.dataTypeId.value ≤ 3) := by
  refine ⟨⟨f.canID ||| bitpack 10 14
    ((TransferCRC.init.add (f.payload ++ [f.tail])).value &&& 0x3FFF).toUInt32,
    f.payload ++ [f.tail]⟩, ?_, ?_⟩
  · simp [compile, valid, anonymous]
  · have same : f.truncated = f ↔ ofUInt16 (f.dataTypeId.get &&& 3) = f.dataTypeId := by
      refine ⟨fun same => congrArg dataTypeId same, fun same => ?_⟩
      rw [truncated, same]
    have value := toNat_and_three f.dataTypeId.get
    rw [DataTypeID.get, UInt32.toNat_toUInt16] at value
    rw [parse_anonymous valid anonymous, Option.some.injEq, same, ofUInt16_eq_iff,
      DataTypeID.get, UInt32.le_iff_toNat_le]
    show _ ↔ _ ≤ 3
    omega

/-- An anonymous frame with data type ID 3 survives. -/
theorem parse_compile_anonymous_iff_sample : ∃ (f : Frame) (can : CanFrame), f.isValid ∧
    f.srcNodeId.isBroadcast ∧ f.compile = some can ∧ parse can = some f := by
  let f : Frame := ⟨[1, 2, 3], ⟨16⟩, .messageBroadcast, ⟨3⟩, ⟨0⟩, ⟨0⟩, ⟨31⟩, true, true, false⟩
  obtain ⟨can, compiled, same⟩ := parse_compile_anonymous_iff (f := f) (by decide) (by decide)
  exact ⟨f, can, by decide, by decide, compiled, same.mpr (by decide)⟩

/-- A valid anonymous frame with data type ID 123 arrives with data type ID 3. -/
theorem anonymous_data_type_lost : ∃ (f received : Frame) (can : CanFrame), f.isValid ∧
    f.srcNodeId.isBroadcast ∧ f.dataTypeId.value = 123 ∧ f.compile = some can ∧
    parse can = some received ∧ received.dataTypeId.value = 3 :=
  ⟨⟨[1, 2, 3, 4, 5], ⟨16⟩, .messageBroadcast, ⟨123⟩, ⟨0⟩, ⟨0⟩, ⟨0⟩, true, true, false⟩, _, _, by decide,
    by decide, rfl, rfl, parse_anonymous (by decide) (by decide) _, by decide⟩

end Frame

end Uavcan
