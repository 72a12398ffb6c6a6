import Mathlib.Data.List.Forall2
import Uavcan.Transport.Delivery
import Uavcan.Transport.TransferSender

/-!
# From a sender to a listener

The frames of a transfer are compiled to CAN frames, cross the bus, and are parsed and given to a listener.
-/

namespace Uavcan

open List

/-- The first two bytes of a transfer are its CRC. -/
theorem littleEndian_eq (crc : UInt16) :
    ((crc &&& 0xFF).toUInt8.toUInt16 ||| (((crc >>> 8) &&& 0xFF).toUInt8.toUInt16 <<< 8)) = crc := by
  apply UInt16.toNat_inj.mp
  have bound := crc.toNat_lt
  have low : ((crc &&& 0xFF).toUInt8.toUInt16).toNat = crc.toNat % 2 ^ 8 := by
    simp only [UInt8.toNat_toUInt16, UInt16.toNat_toUInt8, UInt16.toNat_and]
    rw [show (0xFF : UInt16).toNat = 2 ^ 8 - 1 from rfl, Nat.and_two_pow_sub_one_eq_mod]
    omega
  have high : ((((crc >>> 8) &&& 0xFF).toUInt8.toUInt16) <<< 8 : UInt16).toNat =
      (crc.toNat / 2 ^ 8) <<< 8 := by
    simp only [UInt16.toNat_shiftLeft, UInt8.toNat_toUInt16, UInt16.toNat_toUInt8, UInt16.toNat_and,
      UInt16.toNat_shiftRight]
    rw [show (0xFF : UInt16).toNat = 2 ^ 8 - 1 from rfl, Nat.and_two_pow_sub_one_eq_mod]
    simp only [show (8 : UInt16).toNat = 8 from rfl, Nat.reduceMod]
    omega
  rw [UInt16.toNat_or, low, high, Nat.or_comm,
    ← Nat.shiftLeft_add_eq_or_of_lt (Nat.mod_lt _ (by decide)), Nat.shiftLeft_eq, Nat.div_add_mod']

section Frames

variable {header : Frame} {crcBase : TransferCRC} {payload bytes : List UInt8} {frames : List Frame}
  {received : List RxFrame} {toggle : Bool}

theorem Chunks.srcNodeId (chunks : Chunks header toggle bytes frames) :
    ∀ frame ∈ frames, frame.srcNodeId = header.srcNodeId := by
  induction chunks with
  | last => simp [Frame.part]
  | more _ ih => exact forall_mem_cons.mpr ⟨rfl, ih⟩

theorem Fragments.srcNodeId (fragments : Fragments crcBase header payload frames) :
    ∀ frame ∈ frames, frame.srcNodeId = header.srcNodeId := by
  cases fragments with
  | single => simp [Frame.part]
  | multi chunks => exact forall_mem_cons.mpr ⟨rfl, chunks.srcNodeId⟩

theorem Frame.isValid_of_compile {f : Frame} {can : CanFrame} (compiled : f.compile = some can) :
    f.isValid := by
  unfold compile at compiled
  split at compiled
  case isTrue => cases compiled
  case isFalse valid => simpa using valid

/-- The frame that is received when a frame arrives. -/
def Frame.receivedAs (f : Frame) (can : CanRxFrame) : RxFrame :=
  { f with tsMono := can.tsMono, tsUtc := can.tsUtc, ifaceIndex := can.ifaceIndex }

variable {rx : List CanRxFrame}

theorem mapM_parse {sent : List CanFrame}
    (compiles : List.Forall₂ (fun frame can => Frame.compile frame = some can) frames sent)
    (unicast : ∀ frame ∈ frames, frame.srcNodeId.isUnicast) (arrived : rx.map (·.toCanFrame) = sent)
    (timed : ∀ can ∈ rx, can.tsMono ≠ 0) :
    rx.mapM RxFrame.parse = some (zipWith Frame.receivedAs frames rx) := by
  induction compiles generalizing rx with
  | nil =>
    cases map_eq_nil_iff.mp arrived
    rfl
  | @cons frame can frames cans compiled _ ih =>
    obtain ⟨first, rest, rfl, rfl, others⟩ := map_eq_cons_iff.mp arrived
    obtain ⟨_, compiled', parsed⟩ := RxFrame.parse_compile (Frame.isValid_of_compile compiled)
      (unicast frame (mem_cons_self ..)) (timed first (mem_cons_self ..)) first.tsUtc
      first.ifaceIndex
    cases compiled.symm.trans compiled'
    have later := ih (fun f member => unicast f (mem_cons_of_mem _ member)) others
      (fun c member => timed c (mem_cons_of_mem _ member))
    rw [mapM_cons, parsed, later]
    rfl

theorem map_tsMono (length : rx.length = frames.length) :
    (zipWith Frame.receivedAs frames rx).map (·.tsMono) = rx.map (·.tsMono) := by
  induction frames generalizing rx with
  | nil =>
    cases length_eq_zero_iff.mp length
    rfl
  | cons frame frames ih =>
    obtain ⟨can, rest, rfl⟩ := exists_cons_of_length_eq_add_one length
    have later : rest.length = frames.length := by simpa using length
    simp [ih later, Frame.receivedAs]

theorem extends_part {start : RxFrame} {can : CanRxFrame}
    (key : start.key = ⟨header.srcNodeId, header.transferType⟩) (tid : start.transferId = header.transferId)
    (iface : can.ifaceIndex = start.ifaceIndex) (inTime : start.tsMono ≤ can.tsMono)
    (chunk : List UInt8) (stop toggle : Bool) :
    start.Extends toggle ((header.part chunk false stop toggle).receivedAs can) :=
  ⟨key.symm, tid.symm, iface, rfl, rfl, inTime⟩

theorem begins_part {can : CanRxFrame} (timed : can.tsMono ≠ 0) (iface : can.ifaceIndex < 3)
    {chunk : List UInt8} {stop : Bool} (long : stop = false → TransferCRC.numBytes ≤ chunk.length) :
    ((header.part chunk true stop false).receivedAs can).Begins :=
  ⟨rfl, rfl, timed, iface, long⟩

/-- The received frames after the first one continue the transfer. -/
theorem Chunks.continuation {start : RxFrame} (chunks : Chunks header toggle bytes frames)
    (length : rx.length = frames.length) (key : start.key = ⟨header.srcNodeId, header.transferType⟩)
    (tid : start.transferId = header.transferId) (iface : ∀ can ∈ rx, can.ifaceIndex = start.ifaceIndex)
    (inTime : ∀ can ∈ rx, start.tsMono ≤ can.tsMono) :
    Continuation start toggle bytes (zipWith Frame.receivedAs frames rx) := by
  induction chunks generalizing rx with
  | @last toggle chunk =>
    obtain ⟨can, rfl⟩ := length_eq_one_iff.mp length
    have extends' := extends_part key tid (iface can (by simp)) (inTime can (by simp)) chunk true toggle
    exact .last extends' rfl
  | @more toggle chunk bytes frames _ ih =>
    obtain ⟨can, rest, rfl⟩ := exists_cons_of_length_eq_add_one length
    have extends' := extends_part key tid (iface can (by simp)) (inTime can (by simp)) chunk false toggle
    exact .more extends' rfl (ih (by simpa using length)
      (fun c member => iface c (mem_cons_of_mem _ member))
      (fun c member => inTime c (mem_cons_of_mem _ member)))

theorem Fragments.length_pos (fragments : Fragments crcBase header payload frames) :
    ∃ first rest, frames = first :: rest := by
  cases fragments with
  | single => exact ⟨_, _, rfl⟩
  | multi => exact ⟨_, _, rfl⟩

theorem Fragments.carries {first : CanRxFrame} (fragments : Fragments crcBase header payload frames)
    (length : (first :: rx).length = frames.length) (timed : first.tsMono ≠ 0) (iface : first.ifaceIndex < 3)
    (sameIface : ∀ can ∈ rx, can.ifaceIndex = first.ifaceIndex) (inTime : ∀ can ∈ rx, first.tsMono ≤ can.tsMono) :
    ∃ start rest, zipWith Frame.receivedAs frames (first :: rx) = start :: rest ∧
      Carries crcBase payload start rest ∧ start.tsMono = first.tsMono ∧
      start.ifaceIndex = first.ifaceIndex ∧ start.key = ⟨header.srcNodeId, header.transferType⟩ ∧
      start.transferId = header.transferId ∧ start.srcNodeId = header.srcNodeId := by
  cases fragments with
  | single =>
    have begins : ((header.part payload true true false).receivedAs first).Begins :=
      begins_part timed iface nofun
    exact ⟨_, [], rfl, .single begins rfl, rfl, rfl, rfl, rfl, rfl⟩
  | @multi chunk bytes rest chunks =>
    generalize head : header.part ((crcBase.add (chunk ++ bytes)).bytes ++ chunk) true false false = frame
    have begins : (frame.receivedAs first).Begins := by
      subst head
      exact begins_part timed iface fun _ => by simp [TransferCRC.bytes, TransferCRC.numBytes]
    have bytesOf : TransferReceiver.frameBytes (frame.receivedAs first) = chunk := by
      subst head
      rfl
    have crcOf : TransferReceiver.frameCrc (frame.receivedAs first) =
        (crcBase.add (chunk ++ bytes)).value := by
      subst head
      exact littleEndian_eq _
    have key : (frame.receivedAs first).key = ⟨header.srcNodeId, header.transferType⟩ := by
      subst head
      rfl
    have tid : (frame.receivedAs first).transferId = header.transferId := by
      subst head
      rfl
    have more : (frame.receivedAs first).endOfTransfer = false := by
      subst head
      rfl
    have continuation := chunks.continuation (by simpa using length) key tid sameIface inTime
    have carries := Carries.multi begins more ((bytesOf ▸ crcOf)) continuation
    rw [bytesOf] at carries
    exact ⟨_, _, rfl, carries, rfl, rfl, key, tid, congrArg (·.nodeId) key⟩

end Frames

/-- CAN frames as an interface receives them, in order and without loss. -/
structure Received (sent : List CanFrame) (iface : ℕ) (rx : List CanRxFrame) : Prop where
  frames : rx.map (·.toCanFrame) = sent
  iface : ∀ can ∈ rx, can.ifaceIndex = iface
  timed : ∀ can ∈ rx, can.tsMono ≠ 0
  inOrder : rx.Pairwise fun earlier later => earlier.tsMono ≤ later.tsMono

variable {rx : List CanRxFrame}

/-- What the frames of a transfer are when they have been received and parsed. -/
theorem Fragments.received {crcBase : TransferCRC} {header : Frame} {payload : List UInt8} {frames : List Frame}
    {sent : List CanFrame} {iface : ℕ} (fragments : Fragments crcBase header payload frames)
    (compiles : List.Forall₂ (fun frame can => Frame.compile frame = some can) frames sent)
    (unicast : header.srcNodeId.isUnicast) (received : Received sent iface rx) (small : iface < 3) :
    ∃ start rest, rx.mapM RxFrame.parse = some (start :: rest) ∧ Carries crcBase payload start rest ∧
      (start :: rest).map (·.tsMono) = rx.map (·.tsMono) ∧ start.ifaceIndex = iface ∧
      start.key = ⟨header.srcNodeId, header.transferType⟩ ∧ start.transferId = header.transferId ∧
      start.srcNodeId = header.srcNodeId := by
  have parsed := mapM_parse compiles (fun frame member => (fragments.srcNodeId frame member).symm ▸ unicast)
    received.frames received.timed
  have length : rx.length = frames.length := by
    rw [compiles.length_eq, ← received.frames, length_map]
  obtain ⟨_, _, nonempty⟩ := fragments.length_pos
  cases rx with
  | nil => simp [nonempty] at length
  | cons first rx =>
    obtain ⟨sameIface, otherIface⟩ := forall_mem_cons.mp received.iface
    obtain ⟨timed, -⟩ := forall_mem_cons.mp received.timed
    obtain ⟨start, rest, split, carries, -, iface', key, tid, node⟩ := fragments.carries length timed
      (sameIface ▸ small) (fun can member => (otherIface can member).trans sameIface.symm)
      (pairwise_cons.mp received.inOrder).1
    refine ⟨start, rest, split ▸ parsed, carries, ?_, iface'.trans sameIface, key, tid, node⟩
    rw [← split]
    exact map_tsMono length

namespace TransferListener

variable {size : ℕ} {arrivals : List (Memory size × RxFrame)} {start : RxFrame} {rest : List RxFrame}

/-- The frames of one transfer only. -/
theorem framesOf_eq {crcBase : TransferCRC} {payload : List UInt8}
    (carries : Carries crcBase payload start rest) (arrived : arrivals.map Prod.snd = start :: rest) :
    framesOf start.key arrivals = start :: rest := by
  rw [framesOf, arrived, filter_eq_self]
  exact fun frame member => decide_eq_true (carries.same frame member).1

end TransferListener

/-- Within a second of the first frame, no frame comes too late. -/
theorem not_tooLate {start frame : RxFrame} (inTime : start.tsMono ≤ frame.tsMono)
    (soon : frame.tsMono ≤ start.tsMono + 1000000) : ¬ start.TooLate frame := by
  have elapsed := timeDiff_le inTime
  unfold RxFrame.TooLate
  omega

/-- The times at which the frames were received are those of the CAN frames. -/
theorem Received.inTime {sent : List CanFrame} {iface : ℕ} {start : RxFrame} {rest : List RxFrame}
    (received : Received sent iface rx) (times : (start :: rest).map (·.tsMono) = rx.map (·.tsMono)) :
    ∀ frame ∈ rest, start.tsMono ≤ frame.tsMono := by
  have ordered : ((start :: rest).map (·.tsMono)).Pairwise (· ≤ ·) := by
    rw [times, pairwise_map]
    exact received.inOrder
  exact (pairwise_cons.mp (pairwise_map.mp ordered)).1

theorem exists_tsMono_eq {frames : List RxFrame} {frame : RxFrame} (times : frames.map (·.tsMono) = rx.map (·.tsMono))
    (member : frame ∈ frames) :
    ∃ can ∈ rx, can.tsMono = frame.tsMono :=
  mem_map.mp (times ▸ mem_map.mpr ⟨frame, member, rfl⟩)

/-- A transfer that is sent, received on one interface within a second and given to a new listener is
delivered after its last frame, and has the payload that was sent. -/
theorem TransferSender.round_trip {size : ℕ} (positive : 0 < size) {s : TransferSender}
    {io : ℕ → Except Err ℕ} (perf listenerPerf : TransferPerfCounter) (signature : UInt64)
    (maxBufferSize : UInt16) (payload : List UInt8) (transferType : TransferType) (dstNodeId : NodeID)
    (tid : TransferID) (addressed : (s.header transferType dstNodeId tid).Addressed)
    (crcBase : s.crcBase = DataTypeSignature.toTransferCRC signature)
    (accepted : ∀ k, ∃ res, io k = .ok res) (fits : payload.length ≤ maxBufferSize.toNat) :
    ∃ n sent perf', s.send io perf payload transferType dstNodeId tid = (.ok n, sent, perf') ∧
      ∀ iface < 3, ∀ rx, Received sent iface rx →
        (∀ a ∈ rx, ∀ b ∈ rx, b.tsMono ≤ a.tsMono + 1000000) →
        ∃ frames, rx.mapM RxFrame.parse = some frames ∧
          ∀ arrivals : List (Memory size × RxFrame), arrivals.map Prod.snd = frames →
            (∀ arrival ∈ arrivals, arrival.1.Enough) →
            ∃ it, ((TransferListener.construct listenerPerf signature maxBufferSize).handleFrames
                arrivals).1.map Prod.snd = List.replicate (frames.length - 1) none ++ [some it] ∧
              ∀ offset len, it.read offset len = (payload.drop offset).take len := by
  obtain ⟨n, frames, sent, perf', run, compiles, fragments⟩ := send_fragments addressed accepted perf payload
  refine ⟨n, sent, perf', run, fun iface small rx received within => ?_⟩
  have unicast : (s.header transferType dstNodeId tid).srcNodeId.isUnicast := addressed.unicast
  obtain ⟨start, rest, parsed, carries, times, -, -, -, node⟩ :=
    fragments.received compiles unicast received small
  refine ⟨start :: rest, parsed, fun arrivals arrived enough => ?_⟩
  have own := TransferListener.framesOf_eq carries arrived
  have timely : ∀ frame ∈ rest, ¬ start.TooLate frame := by
    intro frame member
    obtain ⟨first, member₁, ts₁⟩ := exists_tsMono_eq times (mem_cons_self ..)
    obtain ⟨can, member₂, ts₂⟩ := exists_tsMono_eq times (mem_cons_of_mem _ member)
    refine not_tooLate (received.inTime times frame member) ?_
    rw [← ts₁, ← ts₂]
    exact within first member₁ can member₂
  have ready : (TransferListener.construct listenerPerf signature maxBufferSize :
      TransferListener size).Ready start (start.isEmpty_key (node ▸ unicast)) [] :=
    .of_none (TransferListener.sound_construct ..) rfl carries.begins
  rw [crcBase] at carries
  obtain ⟨it, results, data, -⟩ := ready.deliver positive (node ▸ unicast) carries own timely enough fits
    (Nat.zero_le _)
  refine ⟨it, ?_, fun offset len => ?_⟩
  · rw [← TransferListener.resultsFor_eq_map, results]
    · rfl
    · intro arrival member
      exact (carries.same _ (arrived ▸ mem_map.mpr ⟨arrival, member, rfl⟩)).1
  · rw [IncomingTransfer.read_eq, data]

/-- A sender of messages of node 1. -/
def Sample.sender : TransferSender where
  maxTransferInterval := 0
  nodeId := ⟨1⟩
  priority := ⟨16⟩
  crcBase := DataTypeSignature.toTransferCRC 0
  dataTypeId := ⟨20⟩
  allowAnonymousTransfers := false

theorem Sample.addressed (tid : TransferID) :
    (Sample.sender.header .messageBroadcast .broadcast tid).Addressed :=
  ⟨rfl, rfl, show (⟨1⟩ : NodeID) ≠ .broadcast by decide, nofun, iff_of_true rfl rfl, rfl, rfl⟩

/-- A driver that takes every frame. -/
def Sample.driver (_ : ℕ) : Except Err ℕ := .ok 1

theorem TransferSender.round_trip_sample : ∃ n sent perf', Sample.sender.send Sample.driver ⟨0, 0, 0⟩
      [1, 2, 3, 4, 5, 6, 7, 8, 9] .messageBroadcast .broadcast ⟨31⟩ = (.ok n, sent, perf') ∧
    ∀ iface < 3, ∀ rx, Received sent iface rx →
      (∀ a ∈ rx, ∀ b ∈ rx, b.tsMono ≤ a.tsMono + 1000000) →
      ∃ frames, rx.mapM RxFrame.parse = some frames ∧
        ∀ arrivals : List (Memory 32 × RxFrame), arrivals.map Prod.snd = frames →
          (∀ arrival ∈ arrivals, arrival.1.Enough) →
          ∃ it, ((TransferListener.construct ⟨0, 0, 0⟩ 0 256).handleFrames arrivals).1.map Prod.snd =
              List.replicate (frames.length - 1) none ++ [some it] ∧
            ∀ offset len, it.read offset len = (([1, 2, 3, 4, 5, 6, 7, 8, 9] : List UInt8).drop offset).take len :=
  TransferSender.round_trip (by decide) ⟨0, 0, 0⟩ ⟨0, 0, 0⟩ 0 256 _ _ _ _ (Sample.addressed ⟨31⟩) rfl
    (fun _ => ⟨1, rfl⟩) (by decide)

end Uavcan
