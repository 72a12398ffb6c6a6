import Mathlib.Data.List.Chain
import Uavcan.Transport.OutgoingTransferRegistry
import Uavcan.Transport.RoundTrip

/-!
# Transfer IDs of a sender and a listener over time

A node sends transfers of one data type to one destination, over one interface that loses nothing and delivers
at once. The registry entry of the sender and the receiver of the listener expire independently; the entry
lives longer, so the listener accepts the transfer that starts again from zero.
-/

namespace Uavcan

open OutgoingTransferRegistry List

/-- The two ends of a connection: what is sent, from where, and over which interface. -/
structure Link where
  key : OutgoingTransferRegistryKey
  nodeId : NodeID
  crcBase : TransferCRC
  iface : ℕ
  small : iface < 3

namespace Link

/-- The key under which the listener gets the transfers. -/
def listenerKey (link : Link) : TransferBufferManagerKey := ⟨link.nodeId, link.key.transferType⟩

/-- A sender that may send over the link. -/
structure Serves (link : Link) (s : TransferSender) : Prop where
  nodeId : s.nodeId = link.nodeId
  dataTypeId : s.dataTypeId = link.key.dataTypeId
  crcBase : s.crcBase = link.crcBase
  addressed : ∀ tid, (s.header link.key.transferType link.key.destinationNodeId tid).Addressed

end Link

/-- A transfer that was sent: at what time, whether there was an entry for it in the registry, with which
transfer ID, until when the entry lives now, the frames that came in and what became of them. -/
structure Transmission (size : ℕ) where
  time : ℕ
  payload : List UInt8
  alive : Bool
  tid : TransferID
  deadline : ℕ
  frames : List RxFrame
  handed : List (Option (IncomingTransfer size))

/-- Runs of a link from a new connection, the last transfer first; `Clock` says which times there are. -/
inductive LinkRun {size : ℕ} (link : Link) (Clock : ℕ → Prop) :
    List (Transmission size) → OutgoingTransferRegistry → TransferListener size → ℕ → Prop
  | start {reg : OutgoingTransferRegistry} {l : TransferListener size} (clock : ℕ) :
    reg.map link.key = none → ListenerRun l → l.receivers link.listenerKey = none →
    l.crcBase = link.crcBase → LinkRun link Clock [] reg l clock
  | send {log : List (Transmission size)} {reg : OutgoingTransferRegistry} {l : TransferListener size}
    {clock : ℕ} {s : TransferSender} {io : ℕ → Except Err ℕ} {rx : List CanRxFrame}
    {arrivals : List (Memory size × RxFrame)} (time txDeadline : ℕ) (mem : Bool)
    (perf : TransferPerfCounter) (payload : List UInt8) : LinkRun link Clock log reg l clock →
    Clock time → clock ≤ time → link.Serves s → (∀ k, ∃ res, io k = .ok res) →
    (mem = true ∨ (reg.map link.key).isSome) → time ≤ txDeadline → txDeadline < 2 ^ 64 →
    payload.length ≤ l.bufmgr.maxBufSize.toNat →
    Received (s.sendNext reg mem io perf payload txDeadline link.key.transferType
      link.key.destinationNodeId).1.2.1 link.iface rx →
    (∀ can ∈ rx, can.tsMono = time) → arrivals.map Prod.snd = rx.filterMap RxFrame.parse →
    (∀ arrival ∈ arrivals, arrival.1.Enough) →
    LinkRun link Clock
      (⟨time, payload, (reg.map link.key).isSome, reg.nextTid link.key, s.otrDeadline txDeadline,
        arrivals.map Prod.snd, (l.handleFrames arrivals).1.map Prod.snd⟩ :: log)
      (s.sendNext reg mem io perf payload txDeadline link.key.transferType link.key.destinationNodeId).2
      (l.handleFrames arrivals).2 time
  -- no memory for the entry: nothing is sent
  | refuse {log : List (Transmission size)} {reg : OutgoingTransferRegistry} {l : TransferListener size}
    {clock : ℕ} {s : TransferSender} (io : ℕ → Except Err ℕ) (time txDeadline : ℕ)
    (perf : TransferPerfCounter) (payload : List UInt8) : LinkRun link Clock log reg l clock →
    Clock time → clock ≤ time → link.Serves s → reg.map link.key = none →
    LinkRun link Clock log (s.sendNext reg false io perf payload txDeadline link.key.transferType
      link.key.destinationNodeId).2 l time
  | cleanupRegistry {log : List (Transmission size)} {reg : OutgoingTransferRegistry}
    {l : TransferListener size} {clock : ℕ} (time : ℕ) : LinkRun link Clock log reg l clock →
    Clock time → clock ≤ time → LinkRun link Clock log (reg.cleanup time) l time
  | cleanupListener {log : List (Transmission size)} {reg : OutgoingTransferRegistry}
    {l : TransferListener size} {clock : ℕ} (time : ℕ) : LinkRun link Clock log reg l clock →
    Clock time → clock ≤ time → LinkRun link Clock log reg (l.cleanup time) time

/-! ## When a listener is ready -/

namespace TransferListener

variable {size : ℕ} {l : TransferListener size} {start : RxFrame} {valid : start.key.isEmpty = false}
  {key : TransferBufferManagerKey} {r : TransferReceiver}

/-- A receiver that waits for a transfer, with nothing in its buffer. -/
theorem Ready.of_idle (own : start.key = key) (sound : l.Sound) (found : l.receivers key = some r)
    (empty : ∀ valid, (l.accessor key valid).content = []) {time : ℕ}
    (waiting : r.Waiting start.transferId start.ifaceIndex time) (inTime : time ≤ start.tsMono)
    (begins : start.Begins) : l.Ready start valid [] := by
  subst own
  have ready : l.Ready start valid (r.refreshBuffer start (l.accessor start.key valid)).content :=
    .of_waiting sound found waiting inTime begins
  have nothing : (r.refreshBuffer start (l.accessor start.key valid)).content = [] := by
    unfold TransferReceiver.refreshBuffer
    split
    · exact TransferBufferAccessor.content_of_none (TransferBufferAccessor.access_remove _)
    · exact empty valid
  rwa [nothing] at ready

theorem handleFrames_config (positive : 0 < size) (sound : l.Sound)
    (arrivals : List (Memory size × RxFrame)) :
    (l.handleFrames arrivals).2.bufmgr.maxBufSize = l.bufmgr.maxBufSize ∧
      (l.handleFrames arrivals).2.crcBase = l.crcBase := by
  induction arrivals generalizing l with
  | nil => exact ⟨rfl, rfl⟩
  | cons arrival arrivals ih =>
    obtain ⟨mem, frame⟩ := arrival
    obtain ⟨maxBufSize, crcBase⟩ := handleFrame_config positive sound mem frame
    obtain ⟨maxBufSize', crcBase'⟩ := ih (handleFrame_sound positive sound mem frame)
    exact ⟨maxBufSize'.trans maxBufSize, crcBase'.trans crcBase⟩

end TransferListener

theorem filterMap_of_mapM {rx : List CanRxFrame} {frames : List RxFrame}
    (parsed : rx.mapM RxFrame.parse = some frames) : rx.filterMap RxFrame.parse = frames := by
  induction rx generalizing frames with
  | nil =>
    cases parsed
    rfl
  | cons can rx ih =>
    simp only [mapM_cons, Option.bind_eq_bind, Option.bind_eq_some_iff, Option.pure_def,
      Option.some.injEq] at parsed
    obtain ⟨frame, first, rest, others, rfl⟩ := parsed
    rw [filterMap_cons_some first, ih others]

/-! ## Runs -/

/-- The times at which the differences of two times are right. -/
def InRange (time : ℕ) : Prop := 1 ≤ time ∧ time < 2 ^ 63

instance (time : ℕ) : Decidable (InRange time) := inferInstanceAs (Decidable (_ ∧ _))

namespace Transmission

variable {size : ℕ}

/-- The transfer was sent with its transfer ID and delivered once, after its last frame. -/
structure Delivered (sent : Transmission size) : Prop where
  frames : sent.frames ≠ []
  tid : ∀ frame ∈ sent.frames, frame.transferId = sent.tid
  once : ∃ it, sent.handed = replicate (sent.frames.length - 1) none ++ [some it] ∧
    it.transferId = sent.tid ∧ ∀ offset len, it.read offset len = (sent.payload.drop offset).take len

/-- While the entry lives the transfer IDs are consecutive; they start from zero after it has expired. -/
def Follows (newer older : Transmission size) : Prop :=
  if newer.alive then newer.tid = older.tid.increment
  else newer.tid = ⟨0⟩ ∧ older.deadline ≤ newer.time

end Transmission

/-- What the registry and the listener know of the last transfer. -/
structure Synced {size : ℕ} (link : Link) (log : List (Transmission size)) (reg : OutgoingTransferRegistry)
    (l : TransferListener size) (clock : ℕ) : Prop where
  sound : l.Sound
  crcBase : l.crcBase = link.crcBase
  fresh : log = [] → reg.map link.key = none
  time : ∀ last ∈ log.head?, last.time ≤ clock ∧ last.time < 2 ^ 63 ∧
    min (last.time + 2000000) (2 ^ 64 - 1) ≤ last.deadline
  entry : ∀ last ∈ log.head?, reg.map link.key = some ⟨last.deadline, last.tid.increment⟩ ∨
    reg.map link.key = none ∧ last.deadline ≤ clock
  receiver : l.receivers link.listenerKey = none ∨ ∃ last ∈ log.head?, ∃ r,
    l.receivers link.listenerKey = some r ∧ r.Waiting last.tid.increment link.iface last.time ∧
    r.thisTransferTs = last.time ∧ ∀ valid, (l.accessor link.listenerKey valid).content = []

namespace Synced

variable {size : ℕ} {link : Link} {log : List (Transmission size)} {reg : OutgoingTransferRegistry}
  {l : TransferListener size} {clock : ℕ}

variable {time : ℕ}

theorem isTimedOut {r : TransferReceiver} {now : ℕ} (ts : r.thisTransferTs = time) (later : time + 1000000 < now)
    (range : now < 2 ^ 63) : r.isTimedOut now = true := by
  simp only [TransferReceiver.isTimedOut, TransferReceiver.getTidTimeout,
    TransferReceiver.defaultTidTimeoutMSec, timeDiff, toInt64, ts, decide_eq_true_eq]
  omega

section

variable (synced : Synced link log reg l clock)

include synced

/-- The listener is ready for the next transfer of the registry. -/
theorem ready {start : RxFrame}
    {valid : start.key.isEmpty = false} (own : start.key = link.listenerKey)
    (tid : start.transferId = reg.nextTid link.key) (iface : start.ifaceIndex = link.iface)
    (later : clock ≤ start.tsMono) (range : start.tsMono < 2 ^ 63) (begins : start.Begins) :
    l.Ready start valid [] := by
  rcases synced.receiver with absent | ⟨last, isLast, r, found, waiting, ts, empty⟩
  · exact .of_none synced.sound (own ▸ absent) begins
  · obtain ⟨past, lastRange, deadline⟩ := synced.time last isLast
    rcases synced.entry last isLast with alive | ⟨gone, expired⟩
    · -- the entry has the transfer ID that the receiver waits for
      have next : reg.nextTid link.key = last.tid.increment := by
        simp [nextTid, alive]
      rw [← next, ← tid, ← iface] at waiting
      exact .of_idle own synced.sound found empty waiting (past.trans later) begins
    · -- two seconds have passed, so the receiver accepts any transfer ID
      have current : r.isOutdated start = false := by
        have prev := waiting.prev
        simp only [TransferReceiver.isOutdated, Bool.or_eq_false_iff, decide_eq_false_iff_not]
        omega
      have timedOut : r.isTimedOut start.tsMono = true := isTimedOut ts (by omega) range
      refine .of_restart synced.sound (r := r) (by rw [own, found]; rfl) current ?_ begins
      simp [TransferReceiver.needRestart, timedOut]

/-- The next transfer ID goes on from the last one, or starts from zero when the entry has expired. -/
theorem follows {next : Transmission size}
    (alive : next.alive = (reg.map link.key).isSome) (tid : next.tid = reg.nextTid link.key)
    (later : clock ≤ next.time) : ∀ last ∈ log.head?, next.Follows last := by
  intro last isLast
  rw [Transmission.Follows, alive, tid, nextTid]
  rcases synced.entry last isLast with present | ⟨gone, expired⟩
  · simp [present]
  · simpa [gone] using expired.trans later

theorem wait (later : clock ≤ time) :
    Synced link log reg l time := by
  refine ⟨synced.sound, synced.crcBase, synced.fresh, fun last isLast => ?_, fun last isLast => ?_,
    synced.receiver⟩
  · obtain ⟨past, rest⟩ := synced.time last isLast
    exact ⟨past.trans later, rest⟩
  · exact (synced.entry last isLast).imp_right fun ⟨gone, expired⟩ => ⟨gone, expired.trans later⟩

theorem cleanupRegistry (later : clock ≤ time) :
    Synced link log (reg.cleanup time) l time := by
  obtain ⟨sound, crcBase, fresh, times, entry, receiver⟩ := synced.wait later
  refine ⟨sound, crcBase, fun none_sent => ?_, times, fun last isLast => ?_, receiver⟩
  · exact cleanup_of_none time (fresh none_sent)
  · rcases entry last isLast with present | ⟨gone, expired⟩
    · exact cleanup_cases time present
    · exact .inr ⟨cleanup_of_none time gone, expired⟩

theorem cleanupListener (later : clock ≤ time) :
    Synced link log reg (l.cleanup time) time := by
  obtain ⟨-, crcBase, fresh, times, entry, receiver⟩ := synced.wait later
  refine ⟨synced.sound.cleanup time, crcBase, fresh, times, entry, ?_⟩
  rcases l.cleanup_cases time link.listenerKey with ⟨_, -, -, gone, -⟩ | ⟨-, same⟩
  · exact .inl gone
  · rcases receiver with absent | ⟨last, isLast, r, found, waiting, ts, empty⟩
    · exact .inl (same.receiver.trans absent)
    · exact .inr ⟨last, isLast, r, same.receiver.trans found, waiting, ts, fun valid =>
        (TransferBufferAccessor.content_congr (same.access valid)).trans (empty valid)⟩

end

theorem send (positive : 0 < size) (synced : Synced link log reg l clock) {s : TransferSender} {io : ℕ → Except Err ℕ}
    {rx : List CanRxFrame} {arrivals : List (Memory size × RxFrame)} {txDeadline : ℕ} {mem : Bool}
    {perf : TransferPerfCounter} {payload : List UInt8} (range : InRange time) (later : clock ≤ time)
    (serves : link.Serves s) (accepted : ∀ k, ∃ res, io k = .ok res)
    (possible : mem = true ∨ (reg.map link.key).isSome) (inTime : time ≤ txDeadline) (bound : txDeadline < 2 ^ 64)
    (fits : payload.length ≤ l.bufmgr.maxBufSize.toNat)
    (received : Received (s.sendNext reg mem io perf payload txDeadline link.key.transferType
      link.key.destinationNodeId).1.2.1 link.iface rx) (immediate : ∀ can ∈ rx, can.tsMono = time)
    (arrived : arrivals.map Prod.snd = rx.filterMap RxFrame.parse) (enough : ∀ arrival ∈ arrivals, arrival.1.Enough)
    {next : Transmission size} (isNext : next = ⟨time, payload, (reg.map link.key).isSome, reg.nextTid link.key,
      s.otrDeadline txDeadline, arrivals.map Prod.snd, (l.handleFrames arrivals).1.map Prod.snd⟩) :
    next.Delivered ∧ Synced link (next :: log)
      (s.sendNext reg mem io perf payload txDeadline link.key.transferType link.key.destinationNodeId).2
      (l.handleFrames arrivals).2 time := by
  have own : link.key = ⟨s.dataTypeId, link.key.transferType, link.key.destinationNodeId⟩ := by
    rw [serves.dataTypeId]
  obtain ⟨sends, entry⟩ := TransferSender.sendNext_eq own possible io perf payload txDeadline
  have addressed := serves.addressed (reg.nextTid link.key)
  obtain ⟨n, frames, sent, perf', run, compiles, fragments⟩ :=
    TransferSender.send_fragments addressed accepted perf payload
  rw [sends, run] at received
  obtain ⟨start, rest, parsed, carries, times, iface, key, tid, node⟩ :=
    fragments.received compiles addressed.unicast received link.small
  have unicast : start.srcNodeId.isUnicast := node ▸ addressed.unicast
  have listenerKey : start.key = link.listenerKey :=
    key.trans (congrArg (TransferBufferManagerKey.mk · _) serves.nodeId)
  rw [filterMap_of_mapM parsed] at arrived
  have now : ∀ frame ∈ start :: rest, frame.tsMono = time := by
    intro frame member
    obtain ⟨can, isReceived, ts⟩ := exists_tsMono_eq times member
    exact ts.symm.trans (immediate can isReceived)
  obtain ⟨startNow, restNow⟩ := forall_mem_cons.mp now
  have ready : l.Ready start (start.isEmpty_key unicast) [] :=
    synced.ready listenerKey tid iface (startNow ▸ later) (startNow ▸ range.2) carries.begins
  rw [serves.crcBase, ← synced.crcBase] at carries
  have timely : ∀ frame ∈ rest, ¬ start.TooLate frame := fun frame member =>
    not_tooLate (by rw [startNow, restNow frame member]) (by rw [restNow frame member]; omega)
  obtain ⟨it, results, data, -, itTid, -, -, done⟩ := ready.deliver positive unicast carries
    (TransferListener.framesOf_eq carries arrived) timely enough fits (Nat.zero_le _)
  rw [TransferListener.resultsFor_eq_map l fun arrival member =>
    (carries.same _ (arrived ▸ mem_map.mpr ⟨arrival, member, rfl⟩)).1] at results
  have lifetime : min (time + 2000000) (2 ^ 64 - 1) ≤ s.otrDeadline txDeadline :=
    TransferSender.le_otrDeadline inTime bound
  subst isNext
  refine ⟨⟨?_, ?_, it, ?_, itTid.trans tid, ?_⟩, done.sound, ?_, nofun, ?_, ?_, .inr ?_⟩
  · simp [arrived]
  · intro frame member
    exact (carries.same frame (arrived ▸ member)).2.trans tid
  · simp [arrived, results]
  · intro offset len
    rw [IncomingTransfer.read_eq, data]
  · exact (TransferListener.handleFrames_config positive synced.sound arrivals).2.trans synced.crcBase
  · rintro _ ⟨⟩
    exact ⟨le_rfl, range.2, lifetime⟩
  · rintro _ ⟨⟩
    exact .inl entry
  · obtain ⟨r, found, after⟩ := done.receiver
    have waiting := after.waiting
    rw [tid, iface, startNow] at waiting
    refine ⟨_, rfl, r, listenerKey ▸ found, waiting, after.ts.trans startNow, ?_⟩
    rw [← listenerKey]
    exact fun _ => done.content

end Synced

namespace LinkRun

variable {size : ℕ} {link : Link} {log : List (Transmission size)} {reg : OutgoingTransferRegistry}
  {l : TransferListener size} {clock : ℕ}

theorem synced (positive : 0 < size) (run : LinkRun link InRange log reg l clock) :
    Synced link log reg l clock := by
  induction run with
  | start clock unknown listener absent crcBase =>
    exact ⟨listener.sound positive, crcBase, fun _ => unknown, nofun, nofun, .inl absent⟩
  | send time txDeadline mem perf payload _ range later serves accepted possible inTime bound fits received
      immediate arrived enough ih =>
    exact (ih.send positive range later serves accepted possible inTime bound fits received immediate
      arrived enough rfl).2
  | refuse io time txDeadline perf payload _ _ later serves unknown ih =>
    rw [TransferSender.sendNext_of_none (serves.dataTypeId ▸ unknown)]
    exact ih.wait later
  | cleanupRegistry time _ _ later ih => exact ih.cleanupRegistry later
  | cleanupListener time _ _ later ih => exact ih.cleanupListener later

/-- Every transfer is delivered once; the transfer IDs are consecutive while the entry lives, and start from
zero at first and after it has expired. -/
theorem every_transfer_accepted (positive : 0 < size) (run : LinkRun link InRange log reg l clock) :
    (∀ sent ∈ log, sent.Delivered) ∧ log.IsChain Transmission.Follows ∧
      ∀ first ∈ log.getLast?, first.tid = ⟨0⟩ := by
  induction run with
  | start => exact ⟨nofun, .nil, nofun⟩
  | @send log reg _ _ _ _ _ _ time txDeadline mem perf payload before range later serves accepted possible
      inTime bound fits received immediate arrived enough ih =>
    have synced := before.synced positive
    obtain ⟨delivered, chain, first⟩ := ih
    obtain ⟨now, -⟩ := synced.send positive range later serves accepted possible inTime bound fits received
      immediate arrived enough rfl
    refine ⟨forall_mem_cons.mpr ⟨now, delivered⟩,
      isChain_cons.mpr ⟨synced.follows rfl rfl later, chain⟩, ?_⟩
    cases log with
    | nil =>
      simp [nextTid, synced.fresh rfl]
    | cons last older => simpa using first
  | refuse _ _ _ _ _ _ _ _ _ _ ih => exact ih
  | cleanupRegistry _ _ _ _ ih => exact ih
  | cleanupListener _ _ _ _ ih => exact ih

end LinkRun

/-- CAN frames that come in at one time on one interface. -/
def deliverAt (sent : List CanFrame) (iface time : ℕ) : List CanRxFrame :=
  sent.map fun can => { can with tsMono := time, tsUtc := 0, ifaceIndex := iface }

theorem received_deliverAt (sent : List CanFrame) (iface : ℕ) {time : ℕ} (timed : time ≠ 0) :
    Received sent iface (deliverAt sent iface time) := by
  refine ⟨?_, ?_, ?_, ?_⟩
  · simp [deliverAt, Function.comp_def]
  · simp [deliverAt]
  · simp [deliverAt, timed]
  · exact pairwise_map.mpr (pairwise_of_forall fun _ _ => le_rfl)

namespace Sample

theorem memory_enough : memory.Enough := ⟨rfl, rfl, fun _ => rfl⟩

def link : Link := ⟨⟨⟨20⟩, .messageBroadcast, .broadcast⟩, ⟨1⟩, DataTypeSignature.toTransferCRC 0, 0, Nat.succ_pos _⟩

theorem serves : link.Serves sender := ⟨rfl, rfl, rfl, addressed⟩

def emptyRegistry : OutgoingTransferRegistry := ⟨fun _ => none⟩

def newListener : TransferListener 32 := .construct ⟨0, 0, 0⟩ 0 256

theorem linkRun (Clock : ℕ → Prop) : LinkRun link Clock [] emptyRegistry newListener 0 :=
  .start 0 rfl (.construct ..) rfl rfl

/-- What is sent at some time. -/
def sendNow (reg : OutgoingTransferRegistry) (payload : List UInt8) (time : ℕ) :
    (Except Err ℕ × List CanFrame × TransferPerfCounter) × OutgoingTransferRegistry :=
  sender.sendNext reg true driver ⟨0, 0, 0⟩ payload time .messageBroadcast .broadcast

def arrivals (reg : OutgoingTransferRegistry) (payload : List UInt8) (time : ℕ) :
    List (Memory 32 × RxFrame) :=
  ((deliverAt (sendNow reg payload time).1.2.1 0 time).filterMap RxFrame.parse).map (memory, ·)

theorem linkRun_send {Clock : ℕ → Prop} {log : List (Transmission 32)} {reg : OutgoingTransferRegistry}
    {l : TransferListener 32} {clock : ℕ} (run : LinkRun link Clock log reg l clock) (payload : List UInt8)
    (time : ℕ) (there : Clock time) (later : clock ≤ time) (timed : time ≠ 0) (bound : time < 2 ^ 64)
    (fits : payload.length ≤ l.bufmgr.maxBufSize.toNat) :
    LinkRun link Clock
      (⟨time, payload, (reg.map link.key).isSome, reg.nextTid link.key, sender.otrDeadline time,
        (arrivals reg payload time).map Prod.snd,
        (l.handleFrames (arrivals reg payload time)).1.map Prod.snd⟩ :: log)
      (sendNow reg payload time).2 (l.handleFrames (arrivals reg payload time)).2 time := by
  refine .send time time true ⟨0, 0, 0⟩ payload run there later serves (fun _ => ⟨1, rfl⟩) (.inl rfl) le_rfl
    bound fits (received_deliverAt _ _ timed) ?_ ?_ ?_
  · simp [deliverAt]
  · simp [arrivals, sendNow, link]
  · intro arrival member
    obtain ⟨_, -, rfl⟩ := mem_map.mp member
    exact memory_enough

end Sample

theorem LinkRun.every_transfer_accepted_sample : ∃ (log : List (Transmission 32))
    (reg : OutgoingTransferRegistry) (l : TransferListener 32) (clock : ℕ),
    LinkRun Sample.link InRange log reg l clock ∧ log.length = 2 ∧ (∀ sent ∈ log, sent.Delivered) ∧
      log.IsChain Transmission.Follows ∧ ∀ first ∈ log.getLast?, first.tid = ⟨0⟩ := by
  have first := Sample.linkRun_send (Sample.linkRun InRange) [1, 2, 3, 4, 5, 6, 7, 8, 9] 1 (by decide)
    (by decide) (by decide) (by decide) (by decide)
  have second := Sample.linkRun_send first [10] 5 (by decide) (by decide) (by decide) (by decide)
    (by decide +kernel)
  exact ⟨_, _, _, _, second, rfl, LinkRun.every_transfer_accepted (by decide) second⟩

/-- Half of the range of the clock later, the difference of the two times is negative: the entry has expired,
but the receiver has not timed out and takes transfer ID 0 for the transfer it already has. -/
theorem LinkRun.transfer_not_accepted : ∃ (log : List (Transmission 32)) (reg : OutgoingTransferRegistry)
    (l : TransferListener 32) (clock : ℕ) (sent : Transmission 32),
    LinkRun Sample.link (fun time => 1 ≤ time ∧ time < 2 ^ 64) log reg l clock ∧ sent ∈ log ∧
      sent.frames ≠ [] ∧ ∀ it ∈ sent.handed, it = none := by
  have first := Sample.linkRun_send (Sample.linkRun fun time => 1 ≤ time ∧ time < 2 ^ 64) [1] 1 (by decide)
    (by decide) (by decide) (by decide) (by decide)
  have cleaned := LinkRun.cleanupRegistry (2 ^ 63 + 1) first (by decide) (by decide)
  have second := Sample.linkRun_send cleaned [2] (2 ^ 63 + 1) (by decide) (by decide) (by decide)
    (by decide) (by decide +kernel)
  refine ⟨_, _, _, _, _, second, mem_cons_self .., ?_, ?_⟩
  · exact ne_nil_of_length_pos (by decide +kernel)
  · have silent : ∀ {handed : List (Option (IncomingTransfer 32))}, handed.all Option.isNone = true →
        ∀ it ∈ handed, it = none := by simp
    exact silent (by decide +kernel)

end Uavcan
