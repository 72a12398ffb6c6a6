import Uavcan.Transport.Agreement
import Uavcan.Transport.Corruption
import Uavcan.Transport.CRCRemainder

/-!
# What the CRC of a transfer detects

The CRC is the state of a shift register of 16 bits to which the payload is fed. A listener does not hand over a
transfer with a burst of errors of at most 16 bits, and one of another data type only if the CRC of that type
starts with the same value.
-/

namespace Uavcan

open List
open Buffers ShiftRegister
open TransferReceiver (frameBytes frameCrc)

namespace TransferCRC

theorem shiftBits_eq_shifts (n : ℕ) (v : BitVec 16) : shiftBits n v = shifts 0x1021 n v := by
  induction n generalizing v with
  | zero => rfl
  | succ n ih => exact ih _

theorem addByte_eq_feed (crc : TransferCRC) (byte : UInt8) :
    (crc.addByte byte).value.toBitVec = feed 0x1021 crc.value.toBitVec (byteBits byte) := by
  rw [addByte_eq_tiny, addByteTiny, shiftBits_eq_shifts, feed_byteBits _ _ (by decide)]

/-- The payload is fed to the register, bit by bit. -/
theorem add_eq_feed (crc : TransferCRC) (bytes : List UInt8) :
    (crc.add bytes).value.toBitVec = feed 0x1021 crc.value.toBitVec (messageBits bytes) :=
  foldl_eq_feed (fun crc => crc.value.toBitVec) addByte_eq_feed crc bytes

theorem feedback_odd : (0x1021 : BitVec 16).getLsbD 0 = true := rfl

theorem add_ne_of_burst (crc : TransferCRC) {sent received : List UInt8} (burst : Burst 16 sent received) :
    (crc.add received).value ≠ (crc.add sent).value := by
  intro same
  refine burst.feed_ne (v := crc.value.toBitVec) feedback_odd ?_
  rw [← add_eq_feed, ← add_eq_feed, same]

/-- No payload makes up for a different start. -/
theorem add_value_inj (crc other : TransferCRC) (bytes : List UInt8) :
    (crc.add bytes).value = (other.add bytes).value ↔ crc = other := by
  refine ⟨fun same => ?_, fun same => same ▸ rfl⟩
  have states := congrArg UInt16.toBitVec same
  rw [add_eq_feed, add_eq_feed] at states
  cases crc
  cases other
  exact congrArg mk (UInt16.toBitVec_inj.mp (feed_injective_state feedback_odd _ states))

end TransferCRC

namespace TransferListener

variable {size : ℕ} {l : TransferListener size} {start : RxFrame} {valid : start.key.isEmpty = false}
  {base payload : List UInt8} {rest : List RxFrame} {arrivals : List (Memory size × RxFrame)}

/-- The frames of a transfer of several frames come in completely, and fit in the buffer. -/
structure Arrives (l : TransferListener size) (start : RxFrame) (rest : List RxFrame) (received : List UInt8)
    (arrivals : List (Memory size × RxFrame)) : Prop where
  unicast : start.srcNodeId.isUnicast
  begins : start.Begins
  more : start.endOfTransfer = false
  carried : ∃ bytes, received = frameBytes start ++ bytes ∧ Continuation start true bytes rest
  own : framesOf start.key arrivals = start :: rest
  enough : ∀ arrival ∈ arrivals, arrival.1.Enough
  room : received.length ≤ l.bufmgr.maxBufSize.toNat

variable {received : List UInt8}

/-- Unless a frame is late, the listener compares the CRC of what it has received with that of the first frame. -/
theorem Arrives.outcome (arrives : l.Arrives start rest received arrivals) (positive : 0 < size)
    (ready : l.Ready start valid base) (covers : base.length ≤ received.length) :
    ((∀ frame ∈ rest, ¬ start.TooLate frame) →
      ∃ it, resultsFor start.key (l.handleFrames arrivals).1 = replicate rest.length none ++ [it] ∧
        Finishes l.crcBase start valid received it (l.handleFrames arrivals).2) ∧
      ((∃ frame ∈ rest, start.TooLate frame) →
        ∀ it ∈ resultsFor start.key (l.handleFrames arrivals).1, it = none) := by
  obtain ⟨bytes, rfl, continuation⟩ := arrives.carried
  have outcome := ready.outcome positive arrives.unicast arrives.begins arrives.more continuation arrives.own
    arrives.enough arrives.room
  rwa [(splice_eq_iff (Nat.zero_le base.length) _).mpr ⟨rfl, covers⟩] at outcome

/-- Nothing is handed over of a transfer that was received with a burst of errors of at most 16 bits. -/
theorem burst_rejected (positive : 0 < size) (sent : List UInt8) (ready : l.Ready start valid base)
    (arrives : l.Arrives start rest received arrivals) (covers : base.length ≤ received.length)
    (crc : frameCrc start = (l.crcBase.add sent).value) (burst : Burst 16 sent received) :
    ∀ it ∈ resultsFor start.key (l.handleFrames arrivals).1, it = none := by
  obtain ⟨complete, late⟩ := arrives.outcome positive ready covers
  by_cases timely : ∀ frame ∈ rest, ¬ start.TooLate frame
  · obtain ⟨it, results, finishes⟩ := complete timely
    have differ : (l.crcBase.add received).value ≠ frameCrc start := crc ▸ TransferCRC.add_ne_of_burst l.crcBase burst
    rw [Finishes, if_neg differ] at finishes
    obtain ⟨-, rfl⟩ := finishes
    intro it member
    rw [results, mem_append, mem_singleton] at member
    exact member.elim eq_of_mem_replicate id
  · exact late (by simpa using timely)

/-- A transfer that was sent for another data type is delivered exactly if the CRC of that type starts with the
same value, whatever its payload is. -/
theorem delivers_iff_crcBase (positive : 0 < size) {s : TransferSender} (ready : l.Ready start valid base)
    (arrives : l.Arrives start rest payload arrivals) (covers : base.length ≤ payload.length)
    (timely : ∀ frame ∈ rest, ¬ start.TooLate frame) (crc : frameCrc start = (s.crcBase.add payload).value) :
    Delivers payload (resultsFor start.key (l.handleFrames arrivals).1) ↔ s.crcBase = l.crcBase := by
  obtain ⟨it, results, finishes⟩ := (arrives.outcome positive ready covers).1 timely
  rw [results]
  constructor
  · rintro ⟨n, it', same, -⟩
    obtain ⟨-, last⟩ := append_inj' same rfl
    cases last
    unfold Finishes at finishes
    split at finishes
    case isTrue equal => exact ((TransferCRC.add_value_inj _ _ payload).mp (equal.trans crc)).symm
    case isFalse => cases finishes.2
  · intro same
    rw [same] at crc
    exact (finishes.delivers_iff crc _).mpr rfl

end TransferListener

namespace Sample

/-- A transfer of six bytes, with a CRC and with its last byte. -/
def firstFrame (crc : UInt16) : RxFrame := frame 0 true false false 1 [crc.toUInt8, (crc >>> 8).toUInt8, 1, 2, 3, 4, 5]

def secondFrame (byte : UInt8) : RxFrame := frame 0 false true true 2 [byte]

theorem begins (crc : UInt16) : (firstFrame crc).Begins :=
  ⟨rfl, rfl, Nat.one_ne_zero, Nat.zero_lt_succ 2, fun _ => Nat.le_add_left 2 5⟩

theorem ready (crc : UInt16) : newListener.Ready (firstFrame crc) rfl [] :=
  .of_none (TransferListener.sound_construct ..) rfl (begins crc)

theorem arrives (crc : UInt16) (byte : UInt8) :
    newListener.Arrives (firstFrame crc) [secondFrame byte] [1, 2, 3, 4, 5, byte]
      [(memory, firstFrame crc), (memory, secondFrame byte)] where
  unicast := rfl
  begins := begins crc
  more := rfl
  carried := ⟨[byte], rfl, @Continuation.last _ _ (secondFrame byte) ⟨rfl, rfl, rfl, rfl, rfl, Nat.le_succ 1⟩ rfl⟩
  own := rfl
  enough := forall_mem_cons.mpr ⟨memory_enough, forall_mem_singleton.mpr memory_enough⟩
  room := Nat.le_add_left 6 250

end Sample

/-- The last bit of a transfer is received wrong. -/
theorem Sample.burst : Burst 16 [1, 2, 3, 4, 5, 6] [1, 2, 3, 4, 5, 7] :=
  ⟨messageBits [1, 2, 3, 4, 5] ++ [false, false, false, false, false, true, true], [false], [true], [],
    by decide, rfl, by decide, by decide, by decide⟩

theorem TransferListener.burst_rejected_sample : Burst 16 [1, 2, 3, 4, 5, 6] [1, 2, 3, 4, 5, 7] ∧
    ∀ it ∈ TransferListener.resultsFor (Sample.firstFrame 28774).key (Sample.newListener.handleFrames
      [(Sample.memory, Sample.firstFrame 28774), (Sample.memory, Sample.secondFrame 7)]).1, it = none :=
  ⟨Sample.burst, TransferListener.burst_rejected (by decide) [1, 2, 3, 4, 5, 6] (Sample.ready 28774)
    (Sample.arrives 28774 7) (by decide) (by decide +kernel) Sample.burst⟩

theorem TransferListener.delivers_iff_crcBase_sample :
    TransferListener.Delivers [1, 2, 3, 4, 5, 6] (TransferListener.resultsFor (Sample.firstFrame 28774).key
        (Sample.newListener.handleFrames
          [(Sample.memory, Sample.firstFrame 28774), (Sample.memory, Sample.secondFrame 6)]).1) ↔
      Sample.sender.crcBase = Sample.newListener.crcBase :=
  TransferListener.delivers_iff_crcBase (by decide) (Sample.ready 28774) (Sample.arrives 28774 6) (by decide)
    (forall_mem_singleton.mpr (by unfold RxFrame.TooLate; decide)) (by decide +kernel)

end Uavcan
