import Uavcan.Transport.RoundTrip

/-!
# After a corrupted transfer

When the CRC of a complete transfer is wrong, the listener does not hand the transfer over, and does not
give its buffer back either.  The next transfer of the same node is then written over what is left.
-/

namespace Uavcan

open Buffers (splice)
open TransferReceiver List

variable {crcBase : TransferCRC} {rest : List RxFrame}

theorem Carries.endOfTransfer_eq_false {payload : List UInt8} {start : RxFrame}
    (carries : Carries crcBase payload start rest) {rx : List CanRxFrame}
    (parsed : rx.mapM RxFrame.parse = some (start :: rest))
    (several : Frame.payloadCapacity < payload.length) : start.endOfTransfer = false := by
  cases carries with
  | multi _ more => exact more
  | single =>
    cases rx with
    | nil => cases parsed
    | cons can rx =>
      simp only [mapM_cons, Option.bind_eq_bind, Option.bind_eq_some_iff] at parsed
      obtain ⟨_, first, _, _, rfl, -⟩ := parsed
      have valid := Frame.isValid_iff.mp (RxFrame.isValid_of_parse first)
      exact absurd valid.2.2.2.2.2.2.2.1 (Nat.not_le.mpr several)

namespace TransferListener

variable {size : ℕ} {l : TransferListener size} {mem : Memory size} {frame : RxFrame}

/-- What a receiver has returned: a multi-frame transfer is complete, and its CRC is wrong. -/
def WrongCrc (l : TransferListener size)
    (added : ResultCode × TransferReceiver × TransferBufferAccessor size) : Prop :=
  added.1 = .complete ∧
    ∃ tbb ∈ added.2.2.access, l.checkPayloadCrc added.2.1.getLastTransferCrc tbb = false

instance (l : TransferListener size)
    (added : ResultCode × TransferReceiver × TransferBufferAccessor size) : Decidable (l.WrongCrc added) :=
  inferInstanceAs (Decidable (_ ∧ _))

/-- A frame completes a multi-frame transfer with a wrong CRC. -/
structure RejectsCrc (l : TransferListener size) (mem : Memory size) (frame : RxFrame) : Prop where
  unicast : frame.srcNodeId.isUnicast
  rejects : ∃ r ∈ l.receiverOf mem frame,
    l.WrongCrc (r.addFrame mem frame (l.accessor frame.key (frame.isEmpty_key unicast)))

/-- After that the receiver waits for the next transfer on the same interface. -/
theorem RejectsCrc.waiting (positive : 0 < size) (sound : l.Sound) (rejects : l.RejectsCrc mem frame) :
    ∃ r, (l.handleFrame mem frame).2.receivers frame.key = some r ∧
      r.Waiting frame.transferId.increment frame.ifaceIndex frame.tsMono := by
  obtain ⟨r, found, wrong⟩ := rejects.rejects
  rcases added : r.addFrame mem frame (l.accessor frame.key (frame.isEmpty_key rejects.unicast)) with
    ⟨result, r', tba⟩
  rw [added] at wrong
  obtain ⟨rfl, -⟩ := wrong
  have fit := sound.fit_receiverOf found (frame.isEmpty_key rejects.unicast)
  obtain ⟨elsewhere, outcome⟩ := addFrame_cases positive fit added
  rcases run : l.handleFrame mem frame with ⟨it, l'⟩
  rw [handleFrame_eq rejects.unicast, found] at run
  obtain ⟨-, ⟨n, receivers⟩, -⟩ :=
    handleReception_cases added (fun _ => outcome.buffer_of_complete) run
  refine ⟨{ r' with errorCnt := n }, ?_, ?_⟩
  · rw [receivers, elsewhere.key]
    exact Function.update_self ..
  · generalize r.verdict mem frame _ = verdict at outcome
    cases outcome with
    | completed m _ accepts later =>
      obtain ⟨iface, -, tid, -⟩ := accepts.matched
      have current := accepts.current
      simp only [isOutdated, Bool.or_eq_false_iff] at current
      rw [accepts.refresh_eq later] at iface tid ⊢
      refine ⟨?_, iface, rfl, rfl, ?_, ?_⟩
      · exact congrArg TransferID.increment tid.symm
      · simpa [updateTransferTimings, prepareForNextTransfer,
          advance, stamp, later] using current.2
      · simpa [updateTransferTimings, prepareForNextTransfer,
          advance, stamp, later] using current.2

/-- The first frame of a transfer starts over: its receiver restarts, or the buffer holds no more than the
`length` bytes of the transfer. -/
def StartsOver (l : TransferListener size) (start : RxFrame) (valid : start.key.isEmpty = false)
    (length : ℕ) : Prop :=
  ∀ r, l.receivers start.key = some r →
    r.needRestart start = true ∨ (l.accessor start.key valid).content.length ≤ length

/-- A transfer is delivered: it is handed over after its last frame, with its payload and nothing else. -/
def Delivers (payload : List UInt8) (results : List (Option (IncomingTransfer size))) : Prop :=
  ∃ n it, results = replicate n none ++ [some it] ∧
    ∀ offset len, it.read offset len = (payload.drop offset).take len

variable {start : RxFrame} {payload : List UInt8}

variable {r : TransferReceiver} {valid : start.key.isEmpty = false}

/-- What is left in the buffer when the first frame of a transfer is written. -/
theorem content_refreshBuffer_le_iff
    (found : l.receivers start.key = some r) (length : ℕ) :
    (r.refreshBuffer start (l.accessor start.key valid)).content.length ≤ length ↔
      l.StartsOver start valid length := by
  have only : l.StartsOver start valid length ↔ (r.needRestart start = true ∨
      (l.accessor start.key valid).content.length ≤ length) := by
    refine ⟨fun starts => starts r found, fun starts r' found' => ?_⟩
    cases found.symm.trans found'
    exact starts
  rw [only, refreshBuffer]
  split
  case isTrue restarts =>
    rw [TransferBufferAccessor.content_of_none (TransferBufferAccessor.access_remove _)]
    simp [restarts]
  case isFalse continues => simp [continues]

theorem not_delivers_of_silent {results : List (Option (IncomingTransfer size))} (silent : ∀ it ∈ results, it = none) :
    ¬ Delivers payload results := by
  rintro ⟨n, it, rfl, -⟩
  cases silent (some it) (by simp)

/-- Of a transfer that has been completed, just the payload is handed over if the buffer held just that. -/
theorem Finishes.delivers_iff {l' : TransferListener size}
    {content : List UInt8} {it : Option (IncomingTransfer size)}
    (finishes : Finishes crcBase start valid content it l')
    (crc : frameCrc start = (crcBase.add payload).value) (n : ℕ) :
    Delivers payload (replicate n none ++ [it]) ↔ content = payload := by
  constructor
  · rintro ⟨m, it', same, data⟩
    obtain ⟨-, last⟩ := append_inj' same rfl
    cases last
    unfold Finishes at finishes
    split at finishes
    · obtain ⟨-, _, handed, rfl, -⟩ := finishes
      cases handed
      -- a read of everything gives the longer of the two, so both are the same
      have whole := data 0 (it'.data.length + payload.length)
      simp only [IncomingTransfer.read_eq, drop_zero] at whole
      rwa [take_of_length_le (by omega), take_of_length_le (by omega)] at whole
    · cases finishes.2
  · rintro rfl
    rw [Finishes, if_pos crc.symm] at finishes
    obtain ⟨-, it', rfl, data, -⟩ := finishes
    exact ⟨n, it', rfl, fun offset len => by rw [IncomingTransfer.read_eq, data]⟩

/-- A receiver that waits for a transfer of several frames delivers it exactly if no frame comes too late and
the buffer holds no more bytes than the transfer has, or is thrown away. -/
theorem delivers_iff_of_waiting (positive : 0 < size) (sound : l.Sound)
    {time : ℕ} (unicast : start.srcNodeId.isUnicast) (found : l.receivers start.key = some r)
    (waiting : r.Waiting start.transferId start.ifaceIndex time) (inTime : time ≤ start.tsMono)
    (carries : Carries l.crcBase payload start rest) (several : start.endOfTransfer = false)
    {arrivals : List (Memory size × RxFrame)} (own : framesOf start.key arrivals = start :: rest)
    (enough : ∀ arrival ∈ arrivals, arrival.1.Enough) (room : payload.length ≤ l.bufmgr.maxBufSize.toNat) :
    Delivers payload (resultsFor start.key (l.handleFrames arrivals).1) ↔
      (∀ frame ∈ rest, ¬ start.TooLate frame) ∧
        l.StartsOver start (start.isEmpty_key unicast) payload.length := by
  have ready : l.Ready start (start.isEmpty_key unicast)
      (r.refreshBuffer start (l.accessor start.key (start.isEmpty_key unicast))).content :=
    .of_waiting sound found waiting inTime carries.begins
  rw [← content_refreshBuffer_le_iff found]
  cases carries with
  | single _ stop => cases several.symm.trans stop
  | multi begins more crc continuation =>
    have outcome := ready.outcome positive unicast begins more continuation own enough room
    by_cases timely : ∀ frame ∈ rest, ¬ start.TooLate frame
    · obtain ⟨it, results, finishes⟩ := outcome.1 timely
      rw [results, finishes.delivers_iff crc, Buffers.splice_eq_iff (Nat.zero_le _)]
      exact and_congr_left' (iff_of_true rfl timely)
    · have silent := outcome.2 (by simpa using timely)
      exact iff_of_false (not_delivers_of_silent silent) fun ⟨inTime, _⟩ => timely inTime

end TransferListener

/-- In any run of a listener that ends with a transfer of a wrong CRC, the next transfer of the same node is
delivered exactly if it is in time and, unless the receiver restarts, no shorter than what is left in the
buffer. -/
theorem ListenerRun.delivers_next_iff {size : ℕ} (positive : 0 < size) {l : TransferListener size}
    (run : ListenerRun l) {mem : Memory size} {last : RxFrame} (rejects : l.RejectsCrc mem last)
    (small : last.ifaceIndex < 3) {s : TransferSender} {io : ℕ → Except Err ℕ} (perf : TransferPerfCounter)
    (payload : List UInt8) (dstNodeId : NodeID)
    (addressed : (s.header last.transferType dstNodeId last.transferId.increment).Addressed)
    (node : s.nodeId = last.srcNodeId) (crcBase : s.crcBase = l.crcBase)
    (accepted : ∀ k, ∃ res, io k = .ok res) (several : Frame.payloadCapacity < payload.length)
    (fits : payload.length ≤ l.bufmgr.maxBufSize.toNat) :
    ∃ n sent perf', s.send io perf payload last.transferType dstNodeId last.transferId.increment =
        (.ok n, sent, perf') ∧
      ∀ rx, Received sent last.ifaceIndex rx → (∀ can ∈ rx, last.tsMono ≤ can.tsMono) →
        ∃ start rest, rx.mapM RxFrame.parse = some (start :: rest) ∧ start.key = last.key ∧
          ∃ valid, ∀ arrivals : List (Memory size × RxFrame),
            TransferListener.framesOf start.key arrivals = start :: rest →
            (∀ arrival ∈ arrivals, arrival.1.Enough) →
            (TransferListener.Delivers payload (TransferListener.resultsFor start.key
                ((l.handleFrame mem last).2.handleFrames arrivals).1) ↔
              (∀ frame ∈ rest, ¬ start.TooLate frame) ∧
                (l.handleFrame mem last).2.StartsOver start valid payload.length) := by
  obtain ⟨n, frames, sent, perf', sends, compiles, fragments⟩ :=
    TransferSender.send_fragments addressed accepted perf payload
  refine ⟨n, sent, perf', sends, fun rx received inTime => ?_⟩
  have unicast : (s.header last.transferType dstNodeId last.transferId.increment).srcNodeId.isUnicast :=
    addressed.unicast
  obtain ⟨start, rest, parsed, carries, times, iface, key, tid, source⟩ :=
    fragments.received compiles unicast received small
  have sameKey : start.key = last.key := key.trans (congrArg (TransferBufferManagerKey.mk · _) node)
  have unicast : start.srcNodeId.isUnicast := source ▸ unicast
  refine ⟨start, rest, parsed, sameKey, start.isEmpty_key unicast, fun arrivals own enough => ?_⟩
  have sound := run.sound positive
  obtain ⟨maxBufSize, crcBase'⟩ := TransferListener.handleFrame_config positive sound mem last
  obtain ⟨r, found, waiting⟩ := rejects.waiting positive sound
  have first : last.tsMono ≤ start.tsMono := by
    obtain ⟨can, member, ts⟩ := exists_tsMono_eq times (mem_cons_self ..)
    exact ts ▸ inTime can member
  have more : start.endOfTransfer = false := carries.endOfTransfer_eq_false parsed several
  refine TransferListener.delivers_iff_of_waiting positive
    (TransferListener.handleFrame_sound positive sound mem last) unicast (sameKey ▸ found) ?_ first ?_ more
    own enough (maxBufSize ▸ fits)
  · rw [iface, tid]
    exact waiting
  · rw [crcBase', ← crcBase]
    exact carries

namespace Sample

/-- The listener has got the first frame of a transfer of 12 bytes. -/
def listener : TransferListener 32 :=
  ((TransferListener.construct ⟨0, 0, 0⟩ 0 256).handleFrame memory
    (frame 0 true false false 1 [0, 0, 1, 2, 3, 4, 5])).2

theorem listenerRun : ListenerRun listener := .handleFrame _ _ (.construct ..)

/-- The last frame of that transfer, whose CRC is not zero. -/
def lastFrame : RxFrame := frame 0 false true true 2 [6, 7, 8, 9, 10, 11, 12]

theorem rejectsCrc : listener.RejectsCrc memory lastFrame := ⟨rfl, by decide +kernel⟩

/-- CAN frames as they come in on the first interface, one every microsecond. -/
def arrive (sent : List CanFrame) : List CanRxFrame :=
  (sent.zipIdx 3).map fun (can, tsMono) => { can with tsMono, tsUtc := 0, ifaceIndex := 0 }

/-- The frames of a transfer of 8 bytes. -/
def sent : List CanFrame :=
  (sender.send driver ⟨0, 0, 0⟩ [1, 2, 3, 4, 5, 6, 7, 8] .messageBroadcast .broadcast ⟨1⟩).2.1

end Sample

theorem ListenerRun.delivers_next_iff_sample : ∃ n sent perf', Sample.sender.send Sample.driver ⟨0, 0, 0⟩
      [1, 2, 3, 4, 5, 6, 7, 8] .messageBroadcast .broadcast ⟨1⟩ = (.ok n, sent, perf') ∧
    ∀ rx, Received sent 0 rx → (∀ can ∈ rx, 2 ≤ can.tsMono) →
      ∃ start rest, rx.mapM RxFrame.parse = some (start :: rest) ∧ start.key = Sample.lastFrame.key ∧
        ∃ valid, ∀ arrivals : List (Memory 32 × RxFrame),
          TransferListener.framesOf start.key arrivals = start :: rest →
          (∀ arrival ∈ arrivals, arrival.1.Enough) →
          (TransferListener.Delivers [1, 2, 3, 4, 5, 6, 7, 8] (TransferListener.resultsFor start.key
              ((Sample.listener.handleFrame Sample.memory Sample.lastFrame).2.handleFrames arrivals).1) ↔
            (∀ frame ∈ rest, ¬ start.TooLate frame) ∧
              (Sample.listener.handleFrame Sample.memory Sample.lastFrame).2.StartsOver start valid 8) :=
  Sample.listenerRun.delivers_next_iff (by decide) Sample.rejectsCrc (by decide) _ _ _
    (Sample.addressed ⟨1⟩) rfl (by decide +kernel) (fun _ => ⟨1, rfl⟩) (by decide) (by decide +kernel)

/-- After a corrupted transfer of 12 bytes, the frames of a correct transfer of 8 bytes come in one after
another, with the next transfer ID, and nothing is delivered. -/
theorem ListenerRun.next_not_delivered : ∃ (l : TransferListener 32) (last : RxFrame) (n : ℕ)
    (sent : List CanFrame) (perf : TransferPerfCounter) (rx : List CanRxFrame) (frames : List RxFrame),
    ListenerRun l ∧ l.RejectsCrc Sample.memory last ∧
      Sample.sender.send Sample.driver ⟨0, 0, 0⟩ [1, 2, 3, 4, 5, 6, 7, 8] .messageBroadcast .broadcast
        last.transferId.increment = (.ok n, sent, perf) ∧
      Received sent last.ifaceIndex rx ∧ (∀ can ∈ rx, last.tsMono ≤ can.tsMono ∧ can.tsMono ≤ 10) ∧
      rx.mapM RxFrame.parse = some frames ∧
      ∀ handled ∈ ((l.handleFrame Sample.memory last).2.handleFrames
        (frames.map (Sample.memory, ·))).1, handled.2 = none := by
  obtain ⟨frames, parsed, silent⟩ := Option.any_eq_true _ _ |>.mp (show ((Sample.arrive Sample.sent).mapM
    RxFrame.parse).any (fun frames => ((Sample.listener.handleFrame Sample.memory Sample.lastFrame).2.handleFrames
        (frames.map (Sample.memory, ·))).1.all fun handled => handled.2.isNone) = true by decide +kernel)
  exact ⟨Sample.listener, Sample.lastFrame, 2, Sample.sent, ⟨1, 0, 0⟩, Sample.arrive Sample.sent, frames,
    Sample.listenerRun, Sample.rejectsCrc, rfl, ⟨by decide +kernel, by decide +kernel, by decide +kernel,
    by decide +kernel⟩, by decide +kernel, parsed, by simpa using silent⟩

end Uavcan
