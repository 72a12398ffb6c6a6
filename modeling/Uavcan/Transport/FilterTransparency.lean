import Uavcan.Transport.CanAcceptanceFilterConfigurator
import Uavcan.Transport.Codec
import Uavcan.Transport.Dispatcher

/-!
# The hardware filters are transparent

The filters that `computeConfiguration` finds let pass whatever the dispatcher would give to a message listener, all
services for this node and, if they are wanted, all anonymous messages.  Every filter wants extended frames, so that
any two of them have something in common and can be merged.
-/

namespace Uavcan

open Containers (ChunkedMultiset)
open List

namespace CanAcceptanceFilterConfigurator

/-! ## Filters and frames -/

variable {x : UInt32} {c : CanFilterConfig} {can : CanFrame} {f : Frame}
  {s : ChunkedMultiset CanFilterConfig}

theorem getLsbD_eq_of_field {y : UInt32} {o w k : ℕ} (same : x.toNat / 2 ^ o % 2 ^ w = y.toNat / 2 ^ o % 2 ^ w)
    (low : o ≤ k) (high : k < o + w) : x.toBitVec.getLsbD k = y.toBitVec.getLsbD k := by
  have bit (z : UInt32) : z.toBitVec.getLsbD k = (z.toNat / 2 ^ o % 2 ^ w).testBit (k - o) := by
    rw [Nat.testBit_mod_two_pow, Nat.testBit_div_two_pow, Nat.sub_add_cancel low]
    simp only [show k - o < w by omega]
    rfl
  rw [bit, bit, same]

/-- A filter accepts an identifier that agrees with its own in the flags and in the field that the mask has. -/
theorem accepts_of_flags_and_field (o w : ℕ)
    (covered : ∀ k < 32, c.mask.toBitVec.getLsbD k = true → o ≤ k ∧ k < o + w ∨ 29 ≤ k)
    (flags : x.toNat / 2 ^ 29 = c.id.toNat / 2 ^ 29) (same : x.toNat / 2 ^ o % 2 ^ w = c.id.toNat / 2 ^ o % 2 ^ w) :
    c.accepts x := by
  rw [CanFilterConfig.accepts_iff]
  intro k masked
  have small : k < 32 := by
    by_contra large
    rw [BitVec.getLsbD_of_ge _ k (Nat.not_lt.mp large)] at masked
    cases masked
  rcases covered k small masked with ⟨low, high⟩ | flag
  · exact getLsbD_eq_of_field same low high
  · exact getLsbD_eq_of_field (o := 29) (w := 3) (by rw [flags]) flag small

theorem toNat_or_flagEFF (small : x.toNat < 2 ^ 31) :
    (x ||| CanFrame.flagEFF).toNat = x.toNat + 2 ^ 31 := by
  rw [UInt32.toNat_or, show CanFrame.flagEFF.toNat = 2 ^ 31 * 1 by decide, Nat.or_comm,
    ← Nat.two_pow_add_eq_or_of_lt small]
  omega

theorem toNat_shiftLeft_eight (small : x.toNat < 2 ^ 16) : (x <<< 8).toNat = x.toNat * 2 ^ 8 := by
  rw [UInt32.toNat_shiftLeft, Nat.shiftLeft_eq]
  exact Nat.mod_eq_of_lt (by show x.toNat * 2 ^ 8 < 2 ^ 32; omega)

section

variable (parsed : Frame.parse can = some f)

include parsed

theorem accepts_messageCfg (unicast : f.srcNodeId.isUnicast)
    (message : f.transferType = .messageBroadcast) :
    (messageCfg f.dataTypeId).accepts can.id := by
  obtain ⟨flags, -, -, fields, -, src⟩ := Frame.parses_of_parse parsed
  have kind := fields.message_iff.mp message
  have get : f.dataTypeId.get.toNat = f.dataTypeId.value.toNat % 2 ^ 16 := UInt32.toNat_toUInt16 _
  have positive := NodeID.toNat_ne_zero unicast
  have dataType : f.dataTypeId.get.toNat = can.id.toNat / 2 ^ 8 % 2 ^ 16 := by
    rcases fields with ⟨-, -, -, dataType⟩ | ⟨service, -⟩
    · rw [if_neg (by omega)] at dataType
      omega
    · omega
  have wanted : (messageCfg f.dataTypeId).id.toNat = f.dataTypeId.get.toNat * 2 ^ 8 + 2 ^ 31 := by
    have small := f.dataTypeId.get.toNat_lt
    have shifted := toNat_shiftLeft_eight (x := f.dataTypeId.get.toUInt32) (by rwa [UInt16.toNat_toUInt32])
    rw [UInt16.toNat_toUInt32] at shifted
    rw [messageCfg, toNat_or_flagEFF (by omega), shifted]
  refine accepts_of_flags_and_field 7 17 ?_ (by omega) (by omega)
  change ∀ k < 32, (defaultFilterMsgMask ||| flagsMask).toBitVec.getLsbD k = true → _
  decide

theorem accepts_serviceCfg (service : f.transferType ≠ .messageBroadcast) :
    (serviceCfg f.dstNodeId).accepts can.id := by
  obtain ⟨flags, -, -, fields, -⟩ := Frame.parses_of_parse parsed
  have kind := mt fields.message_iff.mpr service
  have dst : f.dstNodeId.value.toNat = can.id.toNat / 2 ^ 8 % 2 ^ 7 := by
    rcases fields with ⟨message, -⟩ | ⟨-, -, node, -⟩ <;> omega
  have wanted : (serviceCfg f.dstNodeId).id.toNat = 2 ^ 7 + f.dstNodeId.value.toNat * 2 ^ 8 + 2 ^ 31 := by
    have shifted := toNat_shiftLeft_eight (x := f.dstNodeId.value.toUInt32) (by rw [UInt8.toNat_toUInt32]; omega)
    rw [UInt8.toNat_toUInt32] at shifted
    have upper := toNat_or_flagEFF (x := f.dstNodeId.value.toUInt32 <<< 8) (by omega)
    rw [shifted, show f.dstNodeId.value.toNat * 2 ^ 8 + 2 ^ 31 = 2 ^ 8 * (f.dstNodeId.value.toNat + 2 ^ 23) by omega]
      at upper
    rw [serviceCfg, UInt32.toNat_or, upper, Nat.or_comm,
      ← Nat.two_pow_add_eq_or_of_lt (show defaultFilterServiceID.toNat < 2 ^ 8 by decide),
      show defaultFilterServiceID.toNat = 2 ^ 7 by decide]
    omega
  refine accepts_of_flags_and_field 7 8 ?_ (by omega) (by omega)
  change ∀ k < 32, (defaultFilterServiceMask ||| flagsMask).toBitVec.getLsbD k = true → _
  decide

theorem accepts_anonFrameCfg (anonymous : f.srcNodeId.isBroadcast)
    (message : f.transferType = .messageBroadcast) :
    anonFrameCfg.accepts can.id := by
  obtain ⟨flags, -, -, fields, -, src⟩ := Frame.parses_of_parse parsed
  have kind := fields.message_iff.mp message
  have zero : f.srcNodeId.value.toNat = 0 := congrArg UInt8.toNat (of_decide_eq_true anonymous)
  have wanted : anonFrameCfg.id.toNat = 2 ^ 31 := by decide
  exact accepts_of_flags_and_field 0 8 (by decide) (by omega) (by omega)

end

/-! ## All filters can be merged -/

/-- The filters are for extended frames only. -/
theorem shares_of_mem_inputConfiguration {nodeId : NodeID} {listeners : List DataTypeID} {mode : AnonymousMessages}
    (member : c ∈ inputConfiguration nodeId listeners mode) : Shares 31 true c := by
  have flag (x : UInt32) : (x ||| CanFrame.flagEFF).toBitVec.getLsbD 31 = true := by
    rw [UInt32.toBitVec_or, BitVec.getLsbD_or, show CanFrame.flagEFF.toBitVec.getLsbD 31 = true by decide, Bool.or_true]
  rcases mem_append.mp member with anonymous | rest
  · split at anonymous
    · cases mem_singleton.mp anonymous
      exact ⟨by decide, by decide⟩
    · cases anonymous
  · rcases mem_cons.mp rest with rfl | message
    · refine ⟨show (defaultFilterServiceMask ||| flagsMask).toBitVec.getLsbD 31 = true by decide, ?_⟩
      rw [serviceCfg, UInt32.toBitVec_or, BitVec.getLsbD_or, flag, Bool.or_true]
    · obtain ⟨dataTypeId, -, rfl⟩ := mem_map.mp message
      exact ⟨show (defaultFilterMsgMask ||| flagsMask).toBitVec.getLsbD 31 = true by decide, flag _⟩

/-! ## Computing the configuration -/

theorem items_emplaceAll {numItems : ℕ} {l : List CanFilterConfig} {alloc : List Bool}
    {s' : ChunkedMultiset CanFilterConfig} (loaded : emplaceAll numItems l alloc s = (.ok (), s')) :
    s'.items.length = s.items.length + l.length ∧ ∀ c, c ∈ s'.items ↔ c ∈ s.items ∨ c ∈ l := by
  induction l generalizing alloc s with
  | nil =>
    cases loaded
    exact ⟨rfl, by simp⟩
  | cons cfg rest ih =>
    unfold emplaceAll at loaded
    split at loaded
    · cases loaded
    case h_2 next emplaced =>
      have perm := ChunkedMultiset.perm_emplace emplaced
      obtain ⟨length, members⟩ := ih loaded
      refine ⟨?_, fun c => ?_⟩
      · rw [length, perm.length_eq, length_cons, length_cons]
        omega
      · rw [members, perm.mem_iff, mem_cons, mem_cons]
        tauto

section

variable (c : CanAcceptanceFilterConfigurator) (numItems : ℕ) (alloc : List Bool) (nodeId : NodeID)
  (listeners : List DataTypeID) (mode : AnonymousMessages)

theorem loadInputConfiguration_cases :
    (∃ e c', c.loadInputConfiguration numItems alloc nodeId listeners mode = (.error e, c')) ∨
      ∃ s, c.loadInputConfiguration numItems alloc nodeId listeners mode = (.ok (), { c with multisetConfigs := s }) ∧
        s.items.length = (inputConfiguration nodeId listeners mode).length ∧
        ∀ cfg, cfg ∈ s.items ↔ cfg ∈ inputConfiguration nodeId listeners mode := by
  rcases loaded : emplaceAll numItems (inputConfiguration nodeId listeners mode) alloc c.multisetConfigs.clear with
    ⟨_ | _, s⟩
  · exact .inl ⟨_, _, by rw [loadInputConfiguration, loaded]⟩
  · obtain ⟨length, members⟩ := items_emplaceAll loaded
    rw [ChunkedMultiset.items_clear] at length members
    by_cases empty : s.getSize = 0
    · exact .inl ⟨.logic, { c with multisetConfigs := s }, by simp [loadInputConfiguration, loaded, empty]⟩
    · refine .inr ⟨s, by simp [loadInputConfiguration, loaded, empty], ?_, fun cfg => ?_⟩
      · simpa using length
      · simpa using members cfg

/-- How `computeConfiguration` ends: with an error, or with filters that accept whatever one of the input accepts. -/
theorem computeConfiguration_cases (few : (inputConfiguration nodeId listeners mode).length ≤ 2 ^ 8) {rounds : ℕ}
    (enough : 2 ^ 8 < rounds) :
    ∃ res c', c.computeConfiguration rounds numItems alloc nodeId listeners mode = some (res, c') ∧
      (res = .ok () → Covers (inputConfiguration nodeId listeners mode) c'.multisetConfigs.items) := by
  unfold computeConfiguration
  by_cases available : c.getNumFilters = 0
  · exact ⟨_, _, if_pos available, nofun⟩
  rw [if_neg available]
  rcases c.loadInputConfiguration_cases numItems alloc nodeId listeners mode with
    ⟨e, c', failed⟩ | ⟨s, loaded, length, members⟩
  · exact ⟨.error e, c', by rw [failed], nofun⟩
  · rw [loaded]
    rw [← ChunkedMultiset.getSize_eq] at length
    have shares (cfg : CanFilterConfig) (member : cfg ∈ s.items) : Shares 31 true cfg :=
      shares_of_mem_inputConfiguration ((members cfg).mp member)
    obtain ⟨s', merged, -, merges⟩ :=
      merges_mergeConfigurations { c with multisetConfigs := s } available (show s.getSize < rounds by omega)
    refine ⟨_, _, merged, fun _ => ?_⟩
    have positive : 0 < c.getNumFilters.toNat :=
      Nat.pos_of_ne_zero fun zero => available (UInt16.toNat_inj.mp zero)
    have covers : Covers s.items s'.items := merges.covers fun _ before =>
      before.mergeable (show s.getSize ≤ _ by omega) shares positive
    intro x ⟨cfg, member, accepted⟩
    exact covers x ⟨cfg, (members cfg).mpr member, accepted⟩

end

theorem mem_inputConfiguration_service (nodeId : NodeID) (listeners : List DataTypeID) (mode : AnonymousMessages) :
    serviceCfg nodeId ∈ inputConfiguration nodeId listeners mode :=
  mem_append_right _ mem_cons_self

theorem mem_inputConfiguration_message (nodeId : NodeID) {listeners : List DataTypeID} (mode : AnonymousMessages)
    {dataTypeId : DataTypeID} (listens : dataTypeId ∈ listeners) :
    messageCfg dataTypeId ∈ inputConfiguration nodeId listeners mode :=
  mem_append_right _ (mem_cons_of_mem _ (mem_map_of_mem listens))

theorem mem_inputConfiguration_anonymous (nodeId : NodeID) (listeners : List DataTypeID) :
    anonFrameCfg ∈ inputConfiguration nodeId listeners .acceptAnonymousMessages :=
  mem_append_left _ mem_cons_self

/-- If `computeConfiguration` succeeds for a node with at most 256 filters, one of the filters accepts each message
frame that the dispatcher gives to a listener, each service frame for this node, and each anonymous message if these
are wanted. -/
theorem filters_transparent (c : CanAcceptanceFilterConfigurator) (d : Dispatcher) (numItems : ℕ) (alloc : List Bool)
    (mode : AnonymousMessages)
    (few : (inputConfiguration d.nodeId (d.lmsg.list.map Listener.dataTypeId) mode).length ≤ 2 ^ 8) {rounds : ℕ}
    (enough : 2 ^ 8 < rounds) :
    ∃ res c', c.computeConfiguration rounds numItems alloc d.nodeId (d.lmsg.list.map Listener.dataTypeId) mode =
        some (res, c') ∧
      (res = .ok () → ∀ can : CanRxFrame,
        (∀ f given p, d.handleFrame can = some (f, given) → f.transferType = .messageBroadcast →
            f.srcNodeId.isUnicast → p ∈ given → ∃ cfg ∈ c'.multisetConfigs.items, cfg.accepts can.id) ∧
          (∀ f, Frame.parse can.toCanFrame = some f → f.transferType ≠ .messageBroadcast → f.dstNodeId = d.nodeId →
            ∃ cfg ∈ c'.multisetConfigs.items, cfg.accepts can.id) ∧
          (mode = .acceptAnonymousMessages → ∀ f, Frame.parse can.toCanFrame = some f → f.srcNodeId.isBroadcast →
            f.transferType = .messageBroadcast → ∃ cfg ∈ c'.multisetConfigs.items, cfg.accepts can.id)) := by
  obtain ⟨res, c', computed, covers⟩ :=
    c.computeConfiguration_cases numItems alloc d.nodeId (d.lmsg.list.map Listener.dataTypeId) mode few enough
  refine ⟨res, c', computed, fun success can => ⟨?_, ?_, ?_⟩⟩
  · intro f given p handled message unicast member
    obtain ⟨parsed, listens⟩ := d.of_handleFrame_message handled message member
    exact covers success can.id ⟨_, mem_inputConfiguration_message _ _ (mem_map.mpr ⟨p, listens⟩),
      accepts_messageCfg parsed unicast message⟩
  · rintro f parsed service own
    exact covers success can.id
      ⟨_, mem_inputConfiguration_service .., own ▸ accepts_serviceCfg parsed service⟩
  · rintro rfl f parsed anonymous message
    exact covers success can.id
      ⟨_, mem_inputConfiguration_anonymous .., accepts_anonFrameCfg parsed anonymous message⟩

/-- A node that listens to three data types, with two hardware filters. -/
def Sample.node : Dispatcher :=
  ⟨⟨42⟩, ⟨[⟨⟨20000⟩, 0⟩, ⟨⟨341⟩, 1⟩, ⟨⟨340⟩, 2⟩]⟩, ⟨[]⟩, ⟨[]⟩⟩

/-- Five filters are merged to two, which accept a message of node 7 and a service request of node 9. -/
theorem filters_transparent_sample : ∃ c',
    (⟨2, [], .empty⟩ : CanAcceptanceFilterConfigurator).computeConfiguration 257 2 [true, true, true, true, true]
        Sample.node.nodeId (Sample.node.lmsg.list.map Listener.dataTypeId) .acceptAnonymousMessages
          = some (.ok (), c') ∧
      c'.multisetConfigs.items.length = 2 ∧
      (∃ cfg ∈ c'.multisetConfigs.items, cfg.accepts (CanFrame.flagEFF ||| 0x10015507)) ∧
      ∃ cfg ∈ c'.multisetConfigs.items, cfg.accepts (CanFrame.flagEFF ||| 0x1001AA89) := by
  obtain ⟨c', success, length⟩ : ∃ c',
      (⟨2, [], .empty⟩ : CanAcceptanceFilterConfigurator).computeConfiguration 257 2 [true, true, true, true, true]
        Sample.node.nodeId (Sample.node.lmsg.list.map Listener.dataTypeId) .acceptAnonymousMessages
          = some (.ok (), c') ∧
      c'.multisetConfigs.items.length = 2 := ⟨_, rfl, by decide +kernel⟩
  obtain ⟨res, _, computed, transparent⟩ := filters_transparent ⟨2, [], .empty⟩ Sample.node 2
    [true, true, true, true, true] .acceptAnonymousMessages (by decide) (show 2 ^ 8 < 257 by decide)
  cases success.symm.trans computed
  obtain ⟨message, -, -⟩ := transparent rfl ⟨⟨CanFrame.flagEFF ||| 0x10015507, [0xC0]⟩, 1, 0, 0⟩
  obtain ⟨-, service, -⟩ := transparent rfl ⟨⟨CanFrame.flagEFF ||| 0x1001AA89, [0xC0]⟩, 1, 0, 0⟩
  refine ⟨c', success, length, message _ [⟨⟨341⟩, 1⟩] _ rfl rfl rfl mem_cons_self, service _ rfl ?_ rfl⟩
  decide

end CanAcceptanceFilterConfigurator

end Uavcan
