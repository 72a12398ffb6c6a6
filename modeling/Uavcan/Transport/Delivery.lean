import Uavcan.Transport.TransferListener

/-!
# The frames of one transfer at a listener

`Continuation` describes the frames that follow the first frame of a multi-frame transfer.  A listener that
has got the first frame is `Midway`; it stays so until the last frame, and then hands over what is in the
buffer if the CRC is right.  Frames of other nodes and other types of transfer may come in between.
-/

namespace Uavcan

open Buffers (splice)
open List
open TransferBufferAccessor TransferReceiver

/-- The first frame of a transfer, as a sender makes it and an interface of a node gets it. -/
structure RxFrame.Begins (start : RxFrame) : Prop where
  first : start.startOfTransfer = true
  toggle : start.toggle = false
  timed : start.tsMono ≠ 0
  iface : start.ifaceIndex < 3
  long : start.endOfTransfer = false → TransferCRC.numBytes ≤ start.payload.length

/-- A frame from the middle or the end of the transfer that `start` has begun. -/
structure RxFrame.Extends (start : RxFrame) (toggle : Bool) (frame : RxFrame) : Prop where
  key : frame.key = start.key
  tid : frame.transferId = start.transferId
  iface : frame.ifaceIndex = start.ifaceIndex
  later : frame.startOfTransfer = false
  toggle : frame.toggle = toggle
  inTime : start.tsMono ≤ frame.tsMono

/-- The frames after the first one, with the toggle bit of the next frame and the bytes they carry. -/
inductive Continuation (start : RxFrame) : Bool → List UInt8 → List RxFrame → Prop
  | last {toggle : Bool} {frame : RxFrame} : start.Extends toggle frame → frame.endOfTransfer = true →
    Continuation start toggle frame.payload [frame]
  | more {toggle : Bool} {bytes : List UInt8} {frame : RxFrame} {rest : List RxFrame} :
    start.Extends toggle frame → frame.endOfTransfer = false → Continuation start (!toggle) bytes rest →
    Continuation start toggle (frame.payload ++ bytes) (frame :: rest)

theorem Continuation.length_eq_succ {start : RxFrame} {toggle : Bool} {bytes : List UInt8}
    {frames : List RxFrame} (continuation : Continuation start toggle bytes frames) :
    ∃ n, frames.length = n + 1 := by
  cases continuation with
  | last => exact ⟨_, rfl⟩
  | more => exact ⟨_, rfl⟩

theorem Continuation.extend {start : RxFrame} {toggle : Bool} {bytes : List UInt8} {frames : List RxFrame}
    (continuation : Continuation start toggle bytes frames) :
    ∀ frame ∈ frames, ∃ toggle, start.Extends toggle frame := by
  induction continuation with
  | last extends' => exact forall_mem_singleton.mpr ⟨_, extends'⟩
  | more extends' _ _ ih => exact forall_mem_cons.mpr ⟨⟨_, extends'⟩, ih⟩

/-- A frame that comes so long after the first one that the receiver has given up the transfer. -/
def RxFrame.TooLate (start frame : RxFrame) : Prop := timeDiff frame.tsMono start.tsMono > 1000000

variable {time : ℕ}

namespace TransferReceiver

/-- The receiver has got the first frame of a transfer and `n` bytes. -/
structure InTransfer (r : TransferReceiver) (start : RxFrame) (toggle : Bool) (n : ℕ) : Prop where
  tid : r.tid = start.transferId
  iface : r.ifaceIndex = start.ifaceIndex
  toggle : r.nextToggle = toggle
  position : r.bufferWritePos = n
  ts : r.thisTransferTs = start.tsMono
  utc : r.firstFrameTs = start.tsUtc
  crc : r.thisTransferCrc = frameCrc start
  prev : r.prevTransferTs ≤ start.tsMono

/-- The receiver is done with a transfer. -/
structure After (r : TransferReceiver) (start : RxFrame) : Prop where
  tid : r.tid = start.transferId.increment
  iface : r.ifaceIndex = start.ifaceIndex
  toggle : r.nextToggle = false
  position : r.bufferWritePos = 0
  ts : r.thisTransferTs = start.tsMono
  prev : r.prevTransferTs = start.tsMono

/-- The receiver waits for a transfer, and has got no frame after `time`. -/
structure Waiting (r : TransferReceiver) (tid : TransferID) (iface time : ℕ) : Prop where
  tid : r.tid = tid
  iface : r.ifaceIndex = iface
  toggle : r.nextToggle = false
  position : r.bufferWritePos = 0
  ts : r.thisTransferTs ≤ time
  prev : r.prevTransferTs ≤ time

variable {r : TransferReceiver} {start frame : RxFrame} {toggle : Bool} {n : ℕ}

theorem InTransfer.errorCnt (midway : r.InTransfer start toggle n) (errors : ℕ) :
    InTransfer { r with errorCnt := errors } start toggle n :=
  ⟨midway.tid, midway.iface, midway.toggle, midway.position, midway.ts, midway.utc, midway.crc, midway.prev⟩

theorem After.waiting (after : r.After start) :
    r.Waiting start.transferId.increment start.ifaceIndex start.tsMono :=
  ⟨after.tid, after.iface, after.toggle, after.position, after.ts.le, after.prev.le⟩

theorem After.errorCnt (after : r.After start) (errors : ℕ) :
    After { r with errorCnt := errors } start :=
  ⟨after.tid, after.iface, after.toggle, after.position, after.ts, after.prev⟩

section

variable (midway : r.InTransfer start toggle n) (begins : start.Begins) (extends' : start.Extends toggle frame)

include midway begins extends'

theorem InTransfer.isOutdated : r.isOutdated frame = false := by
  have timed := begins.timed
  have inTime := extends'.inTime
  have prev := midway.prev
  have ts := midway.ts
  simp only [TransferReceiver.isOutdated, Bool.or_eq_false_iff, decide_eq_false_iff_not]
  omega

theorem InTransfer.needRestart : r.needRestart frame = true ↔ start.TooLate frame := by
  have initialized := isInitialized_of_lt (midway.iface ▸ begins.iface)
  simp only [TransferReceiver.needRestart, initialized, extends'.later, Bool.not_true, Bool.false_or,
    Bool.and_false, Bool.false_and, Bool.or_false, isTimedOut, midway.ts, decide_eq_true_eq]
  exact Iff.rfl

theorem InTransfer.accepts (timely : ¬ start.TooLate frame) : r.Accepts frame := by
  have stays : ¬ r.needRestart frame = true := fun restarts =>
    timely ((midway.needRestart begins extends').mp restarts)
  refine ⟨midway.isOutdated begins extends', fun restarts => absurd restarts stays, ?_⟩
  rw [refresh, if_neg stays]
  refine ⟨midway.iface.trans extends'.iface.symm, extends'.toggle.trans midway.toggle.symm,
    extends'.tid.trans midway.tid.symm, fun start => ?_, fun start => ?_⟩ <;>
  · rw [extends'.later] at start
    cases start

end

/-- After a restart by a first frame the receiver accepts it. -/
theorem accepts_of_restart (begins : start.Begins) (current : r.isOutdated start = false)
    (restarts : r.needRestart start = true) : r.Accepts start := by
  refine ⟨current, fun _ => begins.first, ?_⟩
  rw [refresh, if_pos restarts]
  exact ⟨Nat.mod_eq_of_lt (Nat.lt_of_lt_of_le begins.iface (by decide)), begins.toggle, rfl,
    fun _ => begins.toggle, fun _ => begins.long⟩

theorem accepts_init (begins : start.Begins) : init.Accepts start := by
  refine accepts_of_restart begins ?_ rfl
  simp [isOutdated, init, begins.timed]

variable {tid : TransferID} {iface : ℕ}

theorem Waiting.accepts (waiting : r.Waiting tid iface time)
    (begins : start.Begins) (sameTid : start.transferId = tid) (sameIface : start.ifaceIndex = iface)
    (inTime : time ≤ start.tsMono) : r.Accepts start := by
  have current : r.isOutdated start = false := by
    have timed := begins.timed
    have ts := waiting.ts
    have prev := waiting.prev
    simp only [isOutdated, Bool.or_eq_false_iff, decide_eq_false_iff_not]
    omega
  cases restarts : r.needRestart start with
  | true => exact accepts_of_restart begins current restarts
  | false =>
    refine ⟨current, fun again => absurd (restarts.symm.trans again) (by decide), ?_⟩
    rw [refresh, if_neg (by simp [restarts])]
    exact ⟨waiting.iface.trans sameIface.symm, begins.toggle.trans waiting.toggle.symm,
      sameTid.trans waiting.tid.symm, fun _ => begins.toggle, fun _ => begins.long⟩

theorem Waiting.refresh_position (waiting : r.Waiting tid iface time)
    (start : RxFrame) : (r.refresh start).bufferWritePos = 0 := by
  unfold refresh
  split
  · rfl
  · exact waiting.position

theorem frameBytes_of_later (later : frame.startOfTransfer = false) : frameBytes frame = frame.payload := by
  simp [frameBytes, later]

variable {size : ℕ} {tba tba' : TransferBufferAccessor size} {r' : TransferReceiver} {result : ResultCode}

theorem Accepts.stored (begins : start.Begins) (position : (r.refresh start).bufferWritePos = 0)
    (outcome : r.Outcome start tba .stored result r' tba') :
    result = .notComplete ∧ r'.InTransfer start true (frameBytes start).length ∧
      tba'.content = splice (r.refreshBuffer start tba).content 0 (frameBytes start) := by
  cases outcome with
  | stored errors _ accepts _ _ content =>
    obtain ⟨iface, toggle, tid, -⟩ := accepts.matched
    have current := accepts.current
    have prev : (r.refresh start).prevTransferTs = r.prevTransferTs := by
      unfold refresh
      split <;> rfl
    simp only [isOutdated, Bool.or_eq_false_iff, decide_eq_false_iff_not, Nat.not_lt] at current
    rw [position] at content
    refine ⟨rfl, ⟨tid.symm, iface, ?_, ?_, ?_, ?_, ?_, ?_⟩, content⟩
    · simp [advance, ← toggle, begins.toggle]
    · simp [advance, position]
    · simp [advance, stamp, begins.first]
    · simp [advance, stamp, begins.first]
    · simp [advance, begins.first]
    · exact prev ▸ current.1.2

theorem Accepts.single (begins : start.Begins)
    (outcome : r.Outcome start tba .single result r' tba') :
    result = .singleFrame ∧ r'.After start ∧ tba'.access = none := by
  cases outcome with
  | single errors accepts =>
    obtain ⟨iface, -, tid, -⟩ := accepts.matched
    refine ⟨rfl, ⟨?_, iface, rfl, rfl, ?_, ?_⟩, access_remove _⟩
    · rw [tid]
      rfl
    · simp [updateTransferTimings, prepareForNextTransfer, stamp, begins.first]
    · simp [updateTransferTimings, prepareForNextTransfer, stamp, begins.first]

theorem InTransfer.stored (midway : r.InTransfer start toggle n) (later : frame.startOfTransfer = false)
    (outcome : r.Outcome frame tba .stored result r' tba') :
    result = .notComplete ∧ r'.InTransfer start (!toggle) (n + frame.payload.length) ∧
      tba'.content = splice tba.content n frame.payload := by
  cases outcome with
  | stored errors _ accepts _ _ content =>
    rw [accepts.refresh_eq later, accepts.refreshBuffer_eq later, frameBytes_of_later later,
      midway.position] at content
    rw [accepts.refresh_eq later]
    refine ⟨rfl, ⟨midway.tid, midway.iface, ?_, ?_, ?_, ?_, ?_, midway.prev⟩, content⟩
    · exact congrArg not midway.toggle
    · simp only [advance, midway.position, frameBytes_of_later later]
    · simpa [advance, stamp, later] using midway.ts
    · simpa [advance, stamp, later] using midway.utc
    · simpa [advance, later] using midway.crc

theorem InTransfer.completed (midway : r.InTransfer start toggle n)
    (outcome : r.Outcome frame tba .completed result r' tba') :
    result = .complete ∧ r'.After start ∧ r'.thisTransferCrc = frameCrc start ∧
      tba'.content = splice tba.content n frame.payload := by
  cases outcome with
  | completed errors _ accepts later _ _ _ content =>
    rw [accepts.refresh_eq later, accepts.refreshBuffer_eq later, frameBytes_of_later later,
      midway.position] at content
    rw [accepts.refresh_eq later]
    refine ⟨rfl, ⟨?_, midway.iface, rfl, rfl, ?_, ?_⟩, ?_, content⟩
    · exact congrArg TransferID.increment midway.tid
    · simpa [updateTransferTimings, prepareForNextTransfer, advance, stamp, later] using midway.ts
    · simpa [updateTransferTimings, prepareForNextTransfer, advance, stamp, later] using midway.ts
    · simpa [updateTransferTimings, prepareForNextTransfer, advance, later] using midway.crc

end TransferReceiver

/-- The frames of a transfer of a payload: the first one and the others. -/
inductive Carries (crcBase : TransferCRC) : List UInt8 → RxFrame → List RxFrame → Prop
  | single {start : RxFrame} : start.Begins → start.endOfTransfer = true →
    Carries crcBase start.payload start []
  | multi {start : RxFrame} {bytes : List UInt8} {rest : List RxFrame} : start.Begins →
    start.endOfTransfer = false →
    TransferReceiver.frameCrc start = (crcBase.add (TransferReceiver.frameBytes start ++ bytes)).value →
    Continuation start true bytes rest →
    Carries crcBase (TransferReceiver.frameBytes start ++ bytes) start rest

variable {crcBase : TransferCRC}

theorem Carries.same {payload : List UInt8} {start : RxFrame} {rest : List RxFrame}
    (carries : Carries crcBase payload start rest) :
    ∀ frame ∈ start :: rest, frame.key = start.key ∧ frame.transferId = start.transferId := by
  cases carries with
  | single => simp
  | multi _ _ _ continuation =>
    refine forall_mem_cons.mpr ⟨⟨rfl, rfl⟩, fun frame member => ?_⟩
    obtain ⟨_, extends'⟩ := continuation.extend frame member
    exact ⟨extends'.key, extends'.tid⟩

theorem Carries.begins {payload : List UInt8} {start : RxFrame} {rest : List RxFrame}
    (carries : Carries crcBase payload start rest) : start.Begins := by
  cases carries with
  | single begins => exact begins
  | multi begins => exact begins

namespace TransferListener

variable {size : ℕ} {l l' : TransferListener size} {mem : Memory size} {start frame : RxFrame}
  {valid : start.key.isEmpty = false} {base received : List UInt8} {toggle : Bool}

/-- The listener has got the first frame of a transfer and has written the bytes received so far over what
was in the buffer. -/
structure Midway (l : TransferListener size) (start : RxFrame) (valid : start.key.isEmpty = false)
    (base received : List UInt8) (toggle : Bool) : Prop where
  sound : l.Sound
  receiver : ∃ r, l.receivers start.key = some r ∧ r.InTransfer start toggle received.length
  content : (l.accessor start.key valid).content = splice base 0 received

/-- The listener is done with a transfer, and so much is left in the buffer. -/
structure Done (l : TransferListener size) (start : RxFrame) (valid : start.key.isEmpty = false)
    (content : List UInt8) : Prop where
  sound : l.Sound
  receiver : ∃ r, l.receivers start.key = some r ∧ r.After start
  content : (l.accessor start.key valid).content = content

/-- The listener has given up a transfer. -/
structure Lost (l : TransferListener size) (start : RxFrame) : Prop where
  sound : l.Sound
  receiver : ∃ r, l.receivers start.key = some r ∧ r.tid ≠ start.transferId

theorem Midway.of_sameFor (midway : l.Midway start valid base received toggle) (sound : l'.Sound)
    (same : l.SameFor l' start.key) : l'.Midway start valid base received toggle :=
  ⟨sound, same.receiver ▸ midway.receiver,
    (content_congr (same.access valid)).trans midway.content⟩

variable {content bytes : List UInt8} {it : Option (IncomingTransfer size)} {frames : List RxFrame}

theorem Done.of_sameFor (done : l.Done start valid content) (sound : l'.Sound) (same : l.SameFor l' start.key) :
    l'.Done start valid content :=
  ⟨sound, same.receiver ▸ done.receiver,
    (content_congr (same.access valid)).trans done.content⟩

theorem Lost.of_sameFor (lost : l.Lost start) (sound : l'.Sound) (same : l.SameFor l' start.key) :
    l'.Lost start :=
  ⟨sound, same.receiver ▸ lost.receiver⟩

/-- A complete transfer is handed over if the CRC of the buffer is the one of the first frame. -/
def Finishes (crcBase : TransferCRC) (start : RxFrame) (valid : start.key.isEmpty = false)
    (content : List UInt8) (it : Option (IncomingTransfer size)) (l' : TransferListener size) : Prop :=
  if (crcBase.add content).value = TransferReceiver.frameCrc start then
    l'.Done start valid [] ∧ ∃ it', it = some it' ∧ it'.data = content ∧ it'.tsMono = start.tsMono ∧
      it'.transferId = start.transferId ∧ it'.srcNodeId = start.srcNodeId ∧
      it'.transferType = start.transferType
  else l'.Done start valid content ∧ it = none

theorem Finishes.sound (finishes : Finishes crcBase start valid content it l) : l.Sound := by
  unfold Finishes at finishes
  split at finishes
  · exact finishes.1.sound
  · exact finishes.1.sound

theorem Finishes.of_sameFor (finishes : Finishes crcBase start valid content it l)
    (sound : l'.Sound) (same : l.SameFor l' start.key) : Finishes crcBase start valid content it l' := by
  unfold Finishes at finishes ⊢
  split at finishes
  case isTrue equal =>
    rw [if_pos equal]
    exact ⟨finishes.1.of_sameFor sound same, finishes.2⟩
  case isFalse differ =>
    rw [if_neg differ]
    exact ⟨finishes.1.of_sameFor sound same, finishes.2⟩

/-- What a frame of a known key does to the receiver, the buffer and the listener. -/
structure Own (l : TransferListener size) (mem : Memory size) (frame : RxFrame)
    (key : TransferBufferManagerKey) (valid : key.isEmpty = false) (r : TransferReceiver)
    (it : Option (IncomingTransfer size)) (l' : TransferListener size) (result : ResultCode)
    (r' : TransferReceiver) (tba' : TransferBufferAccessor size) : Prop where
  fit : r.Fit (l.accessor key valid)
  outcome : r.Outcome frame (l.accessor key valid) (r.verdict mem frame (l.accessor key valid)) result r' tba'
  sameKey : tba'.key = key
  reacts : l.Reacts frame r' tba' it l'.bufmgr result
  sound : l'.Sound
  receiver : ∃ n, l'.receivers key = some { r' with errorCnt := n }

theorem receiverOf_eq {key : TransferBufferManagerKey} (same : frame.key = key) {r : TransferReceiver}
    (found : l.receivers key = some r) : l.receiverOf mem frame = some r := by
  simp [receiverOf, same, found]

/-! ## Whole transfers -/

/-- What became of the frames of one key. -/
def resultsFor (key : TransferBufferManagerKey)
    (handled : List (RxFrame × Option (IncomingTransfer size))) : List (Option (IncomingTransfer size)) :=
  (handled.filter fun result => result.1.key = key).map Prod.snd

/-- The frames of one key. -/
def framesOf (key : TransferBufferManagerKey) (arrivals : List (Memory size × RxFrame)) : List RxFrame :=
  (arrivals.map Prod.snd).filter fun frame => frame.key = key

variable {key : TransferBufferManagerKey} {arrivals : List (Memory size × RxFrame)} {payload : List UInt8}
  {rest : List RxFrame}

/-- The next frame of a key meets a listener `l₀` that is still the same for this key. -/
structure Next (l : TransferListener size) (key : TransferBufferManagerKey)
    (arrivals : List (Memory size × RxFrame)) (frame : RxFrame) (rest : List RxFrame)
    (l₀ : TransferListener size) (mem : Memory size) (later : List (Memory size × RxFrame)) : Prop where
  sound : l₀.Sound
  same : l.SameFor l₀ key
  arrived : (mem, frame) ∈ arrivals
  subset : ∀ arrival ∈ later, arrival ∈ arrivals
  rest : framesOf key later = rest
  results : resultsFor key (l.handleFrames arrivals).1 =
    (l₀.handleFrame mem frame).1 :: resultsFor key ((l₀.handleFrame mem frame).2.handleFrames later).1
  final : (l.handleFrames arrivals).2 = ((l₀.handleFrame mem frame).2.handleFrames later).2

theorem resultsFor_eq_map (l : TransferListener size) (own : ∀ arrival ∈ arrivals, arrival.2.key = key) :
    resultsFor key (l.handleFrames arrivals).1 = (l.handleFrames arrivals).1.map Prod.snd := by
  induction arrivals generalizing l with
  | nil => rfl
  | cons arrival arrivals ih =>
    obtain ⟨first, others⟩ := forall_mem_cons.mp own
    have later := ih (l.handleFrame arrival.1 arrival.2).2 others
    simp only [resultsFor] at later
    simp [resultsFor, handleFrames, first, later]

/-- The listener would accept the first frame of a transfer, and would write over `base`. -/
structure Ready (l : TransferListener size) (start : RxFrame) (valid : start.key.isEmpty = false)
    (base : List UInt8) : Prop where
  sound : l.Sound
  receiver : ∃ r, (l.receivers start.key).getD .init = r ∧ r.Accepts start ∧
    (r.refresh start).bufferWritePos = 0 ∧
    (r.refreshBuffer start (l.accessor start.key valid)).content = base

theorem Ready.of_sameFor (ready : l.Ready start valid base) (sound : l'.Sound)
    (same : l.SameFor l' start.key) : l'.Ready start valid base := by
  obtain ⟨r, found, accepts, position, content⟩ := ready.receiver
  refine ⟨sound, r, same.receiver ▸ found, accepts, position, ?_⟩
  rw [← content]
  unfold refreshBuffer
  split
  · rw [content_of_none (access_remove _),
      content_of_none (access_remove _)]
  · exact content_congr (same.access valid)

theorem receiverOf_getD (first : frame.startOfTransfer = true) (enough : mem.Enough) :
    l.receiverOf mem frame = some ((l.receivers frame.key).getD .init) := by
  unfold receiverOf
  cases l.receivers frame.key with
  | none => simp [first, enough.1]
  | some r => rfl

section

variable (positive : 0 < size)

include positive

theorem handleFrame_own (sound : l.Sound) {key : TransferBufferManagerKey}
    (valid : key.isEmpty = false) (same : frame.key = key) (unicast : key.nodeId.isUnicast) {r : TransferReceiver}
    (found : l.receiverOf mem frame = some r) (run : l.handleFrame mem frame = (it, l')) :
    ∃ result r' tba', l.Own mem frame key valid r it l' result r' tba' := by
  subst same
  obtain ⟨result, r', tba', handles⟩ := handleFrame_cases positive sound unicast found run
  have fit := sound.fit_receiverOf found valid
  obtain ⟨n, receivers⟩ := handles.receivers
  exact ⟨result, r', tba', fit, handles.outcome, handles.elsewhere.key, handles.reacts,
    handles.sound fit sound, n, by rw [receivers, Function.update_self]⟩

/-- While no frame of a key comes, nothing changes for it. -/
theorem handleFrames_of_none (sound : l.Sound) (none_own : framesOf key arrivals = []) :
    resultsFor key (l.handleFrames arrivals).1 = [] ∧ (l.handleFrames arrivals).2.Sound ∧
      l.SameFor (l.handleFrames arrivals).2 key := by
  induction arrivals generalizing l with
  | nil => exact ⟨rfl, sound, .refl l key⟩
  | cons arrival arrivals ih =>
    obtain ⟨mem, frame⟩ := arrival
    by_cases own : frame.key = key
    · simp [framesOf, own] at none_own
    · obtain ⟨results, sound', same⟩ :=
        ih (handleFrame_sound positive sound mem frame) (by simpa [framesOf, own] using none_own)
      refine ⟨?_, sound', (handleFrame_sameFor positive sound mem own).trans same⟩
      simpa [resultsFor, handleFrames, own] using results

theorem exists_next (sound : l.Sound)
    (own : framesOf key arrivals = frame :: rest) :
    ∃ l₀ mem later, l.Next key arrivals frame rest l₀ mem later := by
  induction arrivals generalizing l with
  | nil => cases own
  | cons arrival arrivals ih =>
    obtain ⟨mem, first⟩ := arrival
    by_cases mine : first.key = key
    · simp only [framesOf, map_cons, mine, decide_true, filter_cons_of_pos,
        List.cons.injEq] at own
      obtain ⟨rfl, rest⟩ := own
      exact ⟨l, mem, arrivals, sound, .refl l key, mem_cons_self ..,
        fun _ => mem_cons_of_mem _, rest, by simp [resultsFor, handleFrames, mine], rfl⟩
    · obtain ⟨l₀, mem', later, next⟩ :=
        ih (handleFrame_sound positive sound mem first) (by simpa [framesOf, mine] using own)
      refine ⟨l₀, mem', later, next.sound, (handleFrame_sameFor positive sound mem mine).trans next.same,
        mem_cons_of_mem _ next.arrived, fun a member => mem_cons_of_mem _ (next.subset a member),
        next.rest, ?_, next.final⟩
      rw [← next.results]
      simp [resultsFor, handleFrames, mine]

variable (unicast : start.srcNodeId.isUnicast)

include unicast

/-- A further frame of the transfer, in time and with memory for its bytes. -/
theorem Midway.handle (begins : start.Begins) (midway : l.Midway start valid base received toggle)
    (extends' : start.Extends toggle frame) (timely : ¬ start.TooLate frame) (enough : mem.Enough)
    (room : received.length + frame.payload.length ≤ l.bufmgr.maxBufSize.toNat)
    (run : l.handleFrame mem frame = (it, l')) :
    if frame.endOfTransfer then
      Finishes l.crcBase start valid (splice base 0 (received ++ frame.payload)) it l'
    else it = none ∧ l'.Midway start valid base (received ++ frame.payload) (!toggle) := by
  obtain ⟨r, found, inTransfer⟩ := midway.receiver
  obtain ⟨result, r', tba', fit, outcome, key, reacts, sound, n, own⟩ := handleFrame_own positive
    midway.sound valid extends'.key unicast (receiverOf_eq extends'.key found) run
  have accepts := inTransfer.accepts begins extends' timely
  have later := extends'.later
  have writes : (r.refresh frame).writes mem frame
      (r.refreshBuffer frame (l.accessor start.key valid)) = true := by
    refine writes_of_enough (by simp [later]) positive (fit.refresh frame) enough ?_
    rw [accepts.refresh_eq later, accepts.refreshBuffer_eq later,
      frameBytes_of_later later, inTransfer.position]
    exact room
  have content : splice (l.accessor start.key valid).content received.length frame.payload =
      splice base 0 (received ++ frame.payload) := by
    rw [midway.content, ← Buffers.splice_splice (Nat.zero_le _) received, Nat.zero_add]
  rw [verdict_of_accepts accepts, later, writes] at outcome
  cases stop : frame.endOfTransfer with
  | false =>
    rw [stop] at outcome
    obtain ⟨rfl, inTransfer', content'⟩ := inTransfer.stored later outcome
    refine ⟨reacts.1, sound, ⟨_, own, ?_⟩, ?_⟩
    · rw [length_append]
      exact inTransfer'.errorCnt n
    · rw [accessor_eq key reacts.2, content', content]
  | true =>
    rw [stop] at outcome
    obtain ⟨rfl, after, crc, content'⟩ := inTransfer.completed outcome
    rw [content] at content'
    simp only [Reacts, content', getLastTransferCrc, crc] at reacts
    simp only [Finishes]
    split at reacts
    case isTrue equal =>
      obtain ⟨removed, tbb, present, rfl⟩ := reacts
      rw [if_pos equal]
      refine ⟨⟨sound, ⟨_, own, after.errorCnt n⟩, ?_⟩, _, rfl, ?_, after.prev, extends'.tid,
        congrArg (·.nodeId) extends'.key, congrArg (·.transferType) extends'.key⟩
      · rw [accessor_eq (tba'.key_remove.trans key) removed]
        exact content_of_none tba'.access_remove
      · exact (content_eq present).symm.trans content'
    case isFalse differ =>
      rw [if_neg differ]
      refine ⟨⟨sound, ⟨_, own, after.errorCnt n⟩, ?_⟩, reacts.1⟩
      rw [accessor_eq key reacts.2, content']

/-- A frame that comes too late makes the receiver give up the transfer. -/
theorem Midway.lose (begins : start.Begins) (midway : l.Midway start valid base received toggle)
    (extends' : start.Extends toggle frame) (late : start.TooLate frame) (run : l.handleFrame mem frame = (it, l')) :
    it = none ∧ l'.Lost start := by
  obtain ⟨r, found, inTransfer⟩ := midway.receiver
  obtain ⟨result, r', tba', -, outcome, -, reacts, sound, n, own⟩ := handleFrame_own positive
    midway.sound valid extends'.key unicast (receiverOf_eq extends'.key found) run
  have restarts : r.needRestart frame = true := (inTransfer.needRestart begins extends').mpr late
  have verdict (tba : TransferBufferAccessor size) : r.verdict mem frame tba = .restarted := by
    simp [TransferReceiver.verdict, inTransfer.isOutdated begins extends', restarts, extends'.later]
  rw [verdict] at outcome
  cases outcome with
  | restarted m tid _ skips =>
    refine ⟨reacts.1, sound, _, own, ?_⟩
    simp only [skips extends'.later, extends'.tid]
    exact TransferID.increment_ne _

/-- After that, the frames of the transfer have no effect. -/
theorem Lost.handle (lost : l.Lost start) (extends' : start.Extends toggle frame)
    (run : l.handleFrame mem frame = (it, l')) :
    it = none ∧ l'.Lost start := by
  obtain ⟨r, found, other⟩ := lost.receiver
  obtain ⟨result, r', tba', -, outcome, -, reacts, sound, n, own⟩ := handleFrame_own positive
    lost.sound (start.isEmpty_key unicast) extends'.key unicast (receiverOf_eq extends'.key found) run
  have rejected : ¬ r.Accepts frame := by
    intro accepts
    have tid := accepts.matched.2.2.1
    rw [accepts.refresh_eq extends'.later, extends'.tid] at tid
    exact other tid.symm
  generalize r.verdict mem frame _ = verdict at outcome
  cases outcome with
  | ignored m => exact ⟨reacts.1, sound, _, own, other⟩
  | restarted m tid _ skips =>
    refine ⟨reacts.1, sound, _, own, ?_⟩
    simp only [skips extends'.later, extends'.tid]
    exact TransferID.increment_ne _
  | single _ accepts => exact absurd accepts rejected
  | failed _ _ _ accepts => exact absurd accepts rejected
  | stored _ _ accepts => exact absurd accepts rejected
  | completed _ _ accepts => exact absurd accepts rejected

/-- Once a transfer is lost, none of its frames completes anything. -/
theorem Lost.silent (lost : l.Lost start) (extend : ∀ frame ∈ frames, ∃ toggle, start.Extends toggle frame)
    (own : framesOf start.key arrivals = frames) :
    ∀ it ∈ resultsFor start.key (l.handleFrames arrivals).1, it = none := by
  induction frames generalizing l arrivals with
  | nil =>
    rw [(handleFrames_of_none positive lost.sound own).1]
    exact nofun
  | cons frame rest ih =>
    obtain ⟨⟨toggle, extends'⟩, others⟩ := forall_mem_cons.mp extend
    obtain ⟨l₀, mem, later, next⟩ := exists_next positive lost.sound own
    rcases run : l₀.handleFrame mem frame with ⟨it, l'⟩
    obtain ⟨rfl, lost'⟩ := (lost.of_sameFor next.sound next.same).handle positive unicast extends' run
    rw [next.results, run]
    exact forall_mem_cons.mpr ⟨rfl, ih lost' others next.rest⟩

/-- With enough memory, the frames of a transfer after the first one complete it if all of them are in time, and
otherwise none of them completes anything. -/
theorem Midway.outcome (begins : start.Begins) (midway : l.Midway start valid base received toggle)
    (continuation : Continuation start toggle bytes frames) (own : framesOf start.key arrivals = frames)
    (enough : ∀ arrival ∈ arrivals, arrival.1.Enough)
    (room : received.length + bytes.length ≤ l.bufmgr.maxBufSize.toNat) :
    ((∀ frame ∈ frames, ¬ start.TooLate frame) →
      ∃ it, resultsFor start.key (l.handleFrames arrivals).1 = replicate (frames.length - 1) none ++ [it] ∧
        Finishes l.crcBase start valid (splice base 0 (received ++ bytes)) it (l.handleFrames arrivals).2) ∧
      ((∃ frame ∈ frames, start.TooLate frame) →
        ∀ it ∈ resultsFor start.key (l.handleFrames arrivals).1, it = none) := by
  induction continuation generalizing l arrivals received with
  | @last toggle frame extends' stop =>
    obtain ⟨l₀, mem, later, next⟩ := exists_next positive midway.sound own
    have midway₀ := midway.of_sameFor next.sound next.same
    rcases run : l₀.handleFrame mem frame with ⟨it, l'⟩
    refine ⟨fun timely => ?_, fun late => ?_⟩
    · have finishes := midway₀.handle positive unicast begins extends' (timely frame (mem_cons_self ..))
        (enough _ next.arrived) (next.same.maxBufSize ▸ room) run
      rw [if_pos stop, next.same.crcBase] at finishes
      obtain ⟨results, sound, same⟩ := handleFrames_of_none positive finishes.sound next.rest
      refine ⟨it, ?_, ?_⟩
      · rw [next.results, run, results]
        rfl
      · rw [next.final, run]
        exact finishes.of_sameFor sound same
    · obtain ⟨rfl, lost⟩ := midway₀.lose positive unicast begins extends' (by simpa using late) run
      rw [next.results, run]
      exact forall_mem_cons.mpr ⟨rfl, lost.silent positive unicast (forall_mem_nil _) next.rest⟩
  | @more toggle bytes frame rest extends' more continuation ih =>
    obtain ⟨l₀, mem, later, next⟩ := exists_next positive midway.sound own
    have midway₀ := midway.of_sameFor next.sound next.same
    obtain ⟨maxBufSize, crcBase⟩ := handleFrame_config positive next.sound mem frame
    rcases run : l₀.handleFrame mem frame with ⟨it, l'⟩
    rw [run, next.same.maxBufSize] at maxBufSize
    rw [run, next.same.crcBase] at crcBase
    rw [next.results, next.final, run]
    by_cases now : start.TooLate frame
    · obtain ⟨rfl, lost⟩ := midway₀.lose positive unicast begins extends' now run
      refine ⟨fun timely => absurd now (timely frame (mem_cons_self ..)), fun _ => ?_⟩
      exact forall_mem_cons.mpr ⟨rfl, lost.silent positive unicast continuation.extend next.rest⟩
    · rw [length_append, ← Nat.add_assoc] at room
      have step := midway₀.handle positive unicast begins extends' now (enough _ next.arrived)
        (next.same.maxBufSize ▸ Nat.le_of_add_right_le room) run
      rw [if_neg (by simp [more])] at step
      obtain ⟨rfl, midway'⟩ := step
      obtain ⟨finish, silent⟩ := ih midway' next.rest
        (fun arrival member => enough arrival (next.subset arrival member))
        (by rw [length_append, maxBufSize]; exact room)
      refine ⟨fun timely => ?_, fun late => ?_⟩
      · obtain ⟨it, results, finishes⟩ := finish fun frame member => timely frame (mem_cons_of_mem _ member)
        obtain ⟨n, length⟩ := continuation.length_eq_succ
        rw [append_assoc, crcBase] at finishes
        refine ⟨it, ?_, finishes⟩
        rw [results, length_cons, length]
        rfl
      · obtain ⟨other, member, tooLate⟩ := late
        refine forall_mem_cons.mpr ⟨rfl, silent ?_⟩
        rcases mem_cons.mp member with rfl | member
        · exact absurd tooLate now
        · exact ⟨other, member, tooLate⟩

theorem Ready.begin (begins : start.Begins) (ready : l.Ready start valid base)
    (more : start.endOfTransfer = false) (enough : mem.Enough)
    (room : (frameBytes start).length ≤ l.bufmgr.maxBufSize.toNat)
    (run : l.handleFrame mem start = (it, l')) :
    it = none ∧ l'.Midway start valid base (frameBytes start) true := by
  obtain ⟨r, found, accepts, position, content⟩ := ready.receiver
  have receiverOf := (receiverOf_getD begins.first enough).trans (congrArg some found)
  obtain ⟨result, r', tba', fit, outcome, key, reacts, sound, n, own⟩ := handleFrame_own positive
    ready.sound valid rfl unicast receiverOf run
  have writes : (r.refresh start).writes mem start
      (r.refreshBuffer start (l.accessor start.key valid)) = true := by
    refine writes_of_enough (fun _ => begins.long more) positive (fit.refresh start) enough ?_
    rw [position, Nat.zero_add,
      (sameElsewhere_refreshBuffer r (l.accessor start.key valid) start).maxBufSize]
    exact room
  rw [verdict_of_accepts accepts, writes, more, Bool.and_false] at outcome
  obtain ⟨rfl, inTransfer, content'⟩ := TransferReceiver.Accepts.stored begins position outcome
  refine ⟨reacts.1, sound, ⟨_, own, inTransfer.errorCnt n⟩, ?_⟩
  rw [accessor_eq key reacts.2, content', content]

theorem Ready.single (begins : start.Begins) (ready : l.Ready start valid base)
    (stop : start.endOfTransfer = true) (enough : mem.Enough)
    (run : l.handleFrame mem start = (it, l')) :
    it = some (.ofFrame start) ∧ l'.Done start valid [] := by
  obtain ⟨r, found, accepts, -⟩ := ready.receiver
  have receiverOf := (receiverOf_getD begins.first enough).trans (congrArg some found)
  obtain ⟨result, r', tba', fit, outcome, key, reacts, sound, n, own⟩ := handleFrame_own positive
    ready.sound valid rfl unicast receiverOf run
  rw [verdict_of_accepts accepts, begins.first, stop] at outcome
  obtain ⟨rfl, after, absent⟩ := TransferReceiver.Accepts.single begins outcome
  refine ⟨reacts.1, sound, ⟨_, own, after.errorCnt n⟩, ?_⟩
  rw [accessor_eq key reacts.2]
  exact content_of_none absent

/-- A multi-frame transfer is completed if it is in time, and otherwise not. -/
theorem Ready.outcome (ready : l.Ready start valid base) (begins : start.Begins) (more : start.endOfTransfer = false)
    (continuation : Continuation start true bytes rest)
    (own : framesOf start.key arrivals = start :: rest) (enough : ∀ arrival ∈ arrivals, arrival.1.Enough)
    (room : (frameBytes start ++ bytes).length ≤ l.bufmgr.maxBufSize.toNat) :
    ((∀ frame ∈ rest, ¬ start.TooLate frame) →
      ∃ it, resultsFor start.key (l.handleFrames arrivals).1 = replicate rest.length none ++ [it] ∧
        Finishes l.crcBase start valid (splice base 0 (frameBytes start ++ bytes)) it
          (l.handleFrames arrivals).2) ∧
      ((∃ frame ∈ rest, start.TooLate frame) →
        ∀ it ∈ resultsFor start.key (l.handleFrames arrivals).1, it = none) := by
  obtain ⟨l₀, mem, later, next⟩ := exists_next positive ready.sound own
  obtain ⟨maxBufSize, crcBase⟩ := handleFrame_config positive next.sound mem start
  rcases run : l₀.handleFrame mem start with ⟨it, l'⟩
  rw [run, next.same.maxBufSize] at maxBufSize
  rw [run, next.same.crcBase] at crcBase
  rw [length_append] at room
  obtain ⟨rfl, midway⟩ := (ready.of_sameFor next.sound next.same).begin positive unicast begins more
    (enough _ next.arrived) (next.same.maxBufSize ▸ Nat.le_of_add_right_le room) run
  obtain ⟨finish, silent⟩ := midway.outcome positive unicast begins continuation next.rest
    (fun arrival member => enough arrival (next.subset arrival member)) (maxBufSize ▸ room)
  rw [next.results, next.final, run]
  refine ⟨fun timely => ?_, fun late => forall_mem_cons.mpr ⟨rfl, silent late⟩⟩
  obtain ⟨it, results, finishes⟩ := finish timely
  obtain ⟨n, length⟩ := continuation.length_eq_succ
  refine ⟨it, ?_, crcBase ▸ finishes⟩
  rw [results, length]
  rfl

/-- A transfer that is in time and covers what was in the buffer is delivered after its last frame. -/
theorem Ready.deliver (ready : l.Ready start valid base) (carries : Carries l.crcBase payload start rest)
    (own : framesOf start.key arrivals = start :: rest) (timely : ∀ frame ∈ rest, ¬ start.TooLate frame)
    (enough : ∀ arrival ∈ arrivals, arrival.1.Enough)
    (room : payload.length ≤ l.bufmgr.maxBufSize.toNat) (covers : base.length ≤ payload.length) :
    ∃ it, resultsFor start.key (l.handleFrames arrivals).1 =
        replicate rest.length none ++ [some it] ∧
      it.data = payload ∧ it.tsMono = start.tsMono ∧ it.transferId = start.transferId ∧
      it.srcNodeId = start.srcNodeId ∧ it.transferType = start.transferType ∧
      (l.handleFrames arrivals).2.Done start valid [] := by
  cases carries with
  | single begins stop =>
    obtain ⟨l₀, mem, later, next⟩ := exists_next positive ready.sound own
    rcases run : l₀.handleFrame mem start with ⟨it, l'⟩
    obtain ⟨rfl, done⟩ := (ready.of_sameFor next.sound next.same).single positive unicast begins stop
      (enough _ next.arrived) run
    obtain ⟨results, sound, same⟩ := handleFrames_of_none positive done.sound next.rest
    refine ⟨.ofFrame start, ?_, rfl, rfl, rfl, rfl, rfl, ?_⟩
    · rw [next.results, run, results]
      rfl
    · rw [next.final, run]
      exact done.of_sameFor sound same
  | multi begins more crc continuation =>
    obtain ⟨it, results, finishes⟩ := (ready.outcome positive unicast begins more continuation own enough
      room).1 timely
    have content := (Buffers.splice_eq_iff (Nat.zero_le base.length) _).mpr ⟨rfl, covers⟩
    rw [content, Finishes, if_pos crc.symm] at finishes
    obtain ⟨done, it, rfl, data, tsMono, tid, node, type⟩ := finishes
    exact ⟨it, results, data, tsMono, tid, node, type, done⟩

end

/-- A receiver that restarts throws away what is in its buffer. -/
theorem Ready.of_restart (sound : l.Sound) {r : TransferReceiver}
    (found : (l.receivers start.key).getD .init = r) (current : r.isOutdated start = false)
    (restarts : r.needRestart start = true) (begins : start.Begins) : l.Ready start valid [] := by
  refine ⟨sound, r, found, accepts_of_restart begins current restarts, ?_, ?_⟩
  · rw [refresh, if_pos restarts]
    rfl
  · rw [refreshBuffer, if_pos restarts]
    exact content_of_none (access_remove _)

theorem Ready.of_none (sound : l.Sound) (absent : l.receivers start.key = none) (begins : start.Begins) :
    l.Ready start valid [] := by
  refine .of_restart sound (r := .init) (by rw [absent]; rfl) ?_ rfl begins
  exact (accepts_init begins).current

theorem Ready.of_waiting (sound : l.Sound) {r : TransferReceiver} (found : l.receivers start.key = some r)
    (waiting : r.Waiting start.transferId start.ifaceIndex time) (inTime : time ≤ start.tsMono)
    (begins : start.Begins) :
    l.Ready start valid (r.refreshBuffer start (l.accessor start.key valid)).content :=
  ⟨sound, r, by rw [found]; rfl, waiting.accepts begins rfl rfl inTime, waiting.refresh_position start, rfl⟩

end TransferListener

end Uavcan
