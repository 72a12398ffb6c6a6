import Uavcan.Containers.ChunkedMap
import Uavcan.Transport.TransferListener

/-!
# The resources of a listener

A listener keeps its receivers in a map and their buffers in a list of its buffer manager. Nothing ties the
two together but the order in which they are changed: a receiver is inserted before its buffer is created, and
the predicate of `cleanup` removes the buffer of each receiver that it has removed from the map.

`TransferListener` has the receivers as a function of the key. `StoredListener` has them in the groups of
pairs of a `Map`, and cleans them up slot by slot as the code does; it takes the same steps
(`StoredListener.toListener_step`).
-/

namespace Uavcan

open Function List

/-! ## Transfer intervals -/

namespace TransferReceiver

variable {size : ℕ} {r : TransferReceiver}

/-- The transfer interval is within its bounds. -/
def Paced (r : TransferReceiver) : Prop :=
  minTransferIntervalMSec ≤ r.transferIntervalMSec ∧ r.transferIntervalMSec ≤ maxTransferIntervalMSec

theorem paced_init : init.Paced := by
  rw [Paced]
  decide

theorem Paced.of_eq {r' : TransferReceiver} (paced : r.Paced)
    (same : r'.transferIntervalMSec = r.transferIntervalMSec) : r'.Paced := by
  rw [Paced, same]
  exact paced

/-- The new interval is an average of the old one and one that is cut to the bounds. -/
theorem Paced.updateTransferTimings (paced : r.Paced) : r.updateTransferTimings.Paced := by
  simp only [Paced, TransferReceiver.updateTransferTimings, minTransferIntervalMSec, maxTransferIntervalMSec] at paced ⊢
  generalize cut : max (min (Int.toNat _) 0xFFFF) 1 = intervalMSec
  split
  · have average : (r.transferIntervalMSec * 7 + intervalMSec) / 8 % 2 ^ 16 =
        (r.transferIntervalMSec * 7 + intervalMSec) / 8 :=
      Nat.mod_eq_of_lt (by omega)
    omega
  · exact paced

theorem Paced.validate (paced : r.Paced) (frame : RxFrame) : (r.validate frame).2.Paced := by
  obtain ⟨n, validated⟩ := r.validate_eq frame
  rw [validated]
  exact paced.of_eq rfl

theorem transferIntervalMSec_writePayload (mem : Memory size) (frame : RxFrame)
    (buf : TransferBufferManagerEntry size) :
    (r.writePayload mem frame buf).2.1.transferIntervalMSec = r.transferIntervalMSec := by
  unfold writePayload
  split
  · split
    · rfl
    · simp only
      split
      · rfl
      · rfl
  · simp only
    split
    · rfl
    · rfl

end TransferReceiver

/-! ## The keys of the buffers -/

namespace TransferBufferAccessor

variable {size : ℕ} {tba tba' tba'' : TransferBufferAccessor size}

/-- No buffer appears but the one of the key of the accessor. -/
structure Within (tba tba' : TransferBufferAccessor size) : Prop where
  key : tba'.key = tba.key
  buffers : ∀ e ∈ tba'.bufmgr.buffers, e.key = tba.key ∨ ∃ e' ∈ tba.bufmgr.buffers, e'.key = e.key

namespace Within

theorem refl (tba : TransferBufferAccessor size) : tba.Within tba := ⟨rfl, fun e mem => .inr ⟨e, mem, rfl⟩⟩

theorem trans (first : tba.Within tba') (second : tba'.Within tba'') : tba.Within tba'' where
  key := second.key.trans first.key
  buffers e mem := by
    rcases second.buffers e mem with own | ⟨e', mem', same⟩
    · exact .inl (own.trans first.key)
    · rw [← same]
      exact first.buffers e' mem'

variable (tba)

theorem remove : tba.Within tba.remove :=
  ⟨rfl, fun e mem => .inr ⟨e, mem_of_mem_eraseP mem, rfl⟩⟩

theorem create (mem : Memory size) : tba.Within (tba.create mem).2 where
  key := rfl
  buffers e member := by
    simp only [TransferBufferAccessor.create, TransferBufferManager.create, tba.valid, Bool.false_eq_true,
      if_false] at member
    split at member
    · exact (remove tba).buffers e member
    · rcases mem_cons.mp member with rfl | old
      · exact .inl rfl
      · exact (remove tba).buffers e old

theorem store (buf : TransferBufferManagerEntry size) :
    tba.Within (tba.store buf) where
  key := rfl
  buffers e member := by
    obtain ⟨e', mem, rfl⟩ := mem_map.mp member
    refine .inr ⟨e', mem, ?_⟩
    split
    · rename_i same
      exact same
    · rfl

variable {tba}

end Within

end TransferBufferAccessor

namespace TransferReceiver

variable {size : ℕ} {r : TransferReceiver}

theorem acquire_within (mem : Memory size) (tba : TransferBufferAccessor size) :
    tba.Within (acquire mem tba).2 := by
  unfold acquire
  split
  · exact .refl tba
  · exact .create tba mem

theorem receive_kept (r : TransferReceiver) (mem : Memory size) (frame : RxFrame)
    (tba : TransferBufferAccessor size) :
    (r.Paced → (r.receive mem frame tba).2.1.Paced) ∧ tba.Within (r.receive mem frame tba).2.2 := by
  have stamped (paced : r.Paced) : (r.stamp frame).Paced := paced.of_eq rfl
  unfold receive
  simp only
  split
  · exact ⟨fun paced => (stamped paced).updateTransferTimings.of_eq rfl, .remove tba⟩
  · have acquired := acquire_within mem tba
    split
    · exact ⟨fun paced => (stamped paced).of_eq rfl, acquired⟩
    · rename_i buf _
      have written (paced : r.Paced) : ((r.stamp frame).writePayload mem frame buf).2.1.Paced :=
        (stamped paced).of_eq (transferIntervalMSec_writePayload mem frame buf)
      have stored := acquired.trans (.store _ ((r.stamp frame).writePayload mem frame buf).2.2)
      split
      · exact ⟨fun paced => (written paced).of_eq rfl, stored.trans (.remove _)⟩
      · split
        · exact ⟨fun paced => (Paced.updateTransferTimings ((written paced).of_eq rfl)).of_eq rfl, stored⟩
        · exact ⟨fun paced => (written paced).of_eq rfl, stored⟩

/-- A frame keeps the interval within its bounds, and no buffer of another key appears. -/
theorem addFrame_kept (r : TransferReceiver) (mem : Memory size) (frame : RxFrame)
    (tba : TransferBufferAccessor size) :
    (r.Paced → (r.addFrame mem frame tba).2.1.Paced) ∧ tba.Within (r.addFrame mem frame tba).2.2 := by
  unfold addFrame
  split
  · exact ⟨id, .refl tba⟩
  · simp only
    generalize start : (if r.needRestart frame then (r.restart frame, tba.remove) else (r, tba)) = restarted
    have kept : (r.Paced → restarted.1.Paced) ∧ tba.Within restarted.2 := by
      rw [← start]
      split
      · exact ⟨fun paced => paced.of_eq rfl, .remove tba⟩
      · exact ⟨id, .refl tba⟩
    split
    · exact ⟨fun paced => (kept.1 paced).of_eq rfl, kept.2⟩
    · split
      · exact ⟨fun paced => (kept.1 paced).validate frame, kept.2⟩
      · obtain ⟨paced', within⟩ := (restarted.1.validate frame).2.receive_kept mem frame restarted.2
        exact ⟨fun paced => paced' ((kept.1 paced).validate frame), kept.2.trans within⟩

end TransferReceiver

/-! ## The receivers and the buffers of a listener -/

namespace TransferListener

variable {size : ℕ} {l : TransferListener size} {mem : Memory size} {frame : RxFrame}

/-- Every buffer belongs to a receiver, and all intervals are within their bounds. -/
structure Accounted (l : TransferListener size) : Prop where
  received : ∀ e ∈ l.bufmgr.buffers, (l.receivers e.key).isSome
  paced : ∀ key r, l.receivers key = some r → r.Paced

theorem accounted_construct (perf : TransferPerfCounter) (signature : UInt64) (maxBufferSize : UInt16) :
    (construct perf signature maxBufferSize : TransferListener size).Accounted := ⟨nofun, nofun⟩

/-- The receiver is put back under its key, and the buffers are those that it has left, or one less. -/
theorem handleReception_kept (l : TransferListener size) {r : TransferReceiver} (paced : r.Paced) (mem : Memory size)
    (frame : RxFrame) (tba : TransferBufferAccessor size) :
    ∃ r' tba', r'.Paced ∧ tba.Within tba' ∧ (l.handleReception mem r frame tba).2.bufmgr = tba'.bufmgr ∧
      (l.handleReception mem r frame tba).2.receivers = update l.receivers tba.key (some r') := by
  rcases added : r.addFrame mem frame tba with ⟨result, r', tba'⟩
  obtain ⟨paced', within⟩ := r.addFrame_kept mem frame tba
  replace paced' := paced' paced
  rw [added] at paced' within
  simp only [handleReception, added]
  rw [← within.key]
  cases result with
  | notComplete => exact ⟨r'.yieldErrorCount.2, tba', paced'.of_eq rfl, within, rfl, rfl⟩
  | singleFrame => exact ⟨r', tba', paced', within, rfl, rfl⟩
  | complete =>
    simp only
    split
    · exact ⟨r', tba', paced', within, rfl, rfl⟩
    · split
      · exact ⟨r', tba', paced', within, rfl, rfl⟩
      · exact ⟨r', tba'.remove, paced', within.trans (.remove tba'), rfl, rfl⟩

theorem Accounted.handleReception (accounted : l.Accounted) {r : TransferReceiver} (paced : r.Paced) (mem : Memory size)
    (frame : RxFrame) {key : TransferBufferManagerKey} (valid : key.isEmpty = false) :
    (l.handleReception mem r frame (l.accessor key valid)).2.Accounted := by
  obtain ⟨r', tba', paced', within, bufmgr, receivers⟩ := l.handleReception_kept paced mem frame (l.accessor key valid)
  rw [show (l.accessor key valid).key = key from rfl] at receivers
  constructor
  case received =>
    rw [bufmgr, receivers]
    intro e member
    by_cases own : e.key = key
    · rw [own]
      exact Option.isSome_iff_exists.mpr ⟨r', update_self ..⟩
    · rw [update_of_ne own]
      rcases within.buffers e member with same | ⟨e', member', same⟩
      · exact absurd same own
      · rw [← same]
        exact accounted.received e' member'
  case paced =>
    rw [receivers]
    intro key' r'' found
    by_cases own : key' = key
    · subst own
      rw [update_self] at found
      cases found
      exact paced'
    · rw [update_of_ne own] at found
      exact accounted.paced key' r'' found

theorem Accounted.handleFrame (accounted : l.Accounted) (mem : Memory size) (frame : RxFrame) :
    (l.handleFrame mem frame).2.Accounted := by
  by_cases unicast : frame.srcNodeId.isUnicast
  · rw [handleFrame_eq unicast]
    split
    · exact accounted
    · rename_i r found
      refine accounted.handleReception ?_ mem frame _
      -- a new receiver has the default interval
      unfold receiverOf at found
      split at found
      · obtain ⟨-, same⟩ := Option.ite_none_right_eq_some.mp found
        cases same
        exact TransferReceiver.paced_init
      · rename_i known
        cases found
        exact accounted.paced _ _ known
  · obtain ⟨perf, same⟩ := handleFrame_of_not_unicast l mem unicast
    rw [same]
    exact ⟨accounted.received, accounted.paced⟩

/-- The buffers that are left belong to receivers that have not timed out. -/
theorem Accounted.cleanup (accounted : l.Accounted) (ts : ℕ) : (l.cleanup ts).Accounted := by
  constructor
  case received =>
    intro e member
    obtain ⟨member, stays⟩ := mem_filter.mp member
    obtain ⟨r, found⟩ := Option.isSome_iff_exists.mp (accounted.received e member)
    simp only [TransferListener.cleanup, found, Option.any_some] at stays ⊢
    rw [Option.filter_some, if_pos stays]
    rfl
  case paced =>
    intro key r found
    exact accounted.paced key r (Option.filter_eq_some_iff.mp found).1

end TransferListener

theorem ListenerRun.accounted {size : ℕ} {l : TransferListener size} (run : ListenerRun l) : l.Accounted := by
  induction run with
  | construct => exact TransferListener.accounted_construct ..
  | handleFrame mem frame _ ih => exact ih.handleFrame mem frame
  | cleanup ts _ ih => exact ih.cleanup ts
  | allowAnonymousTransfers _ ih => exact ⟨ih.received, ih.paced⟩

/-! ## The receivers in a map -/

open Containers (ChunkedMap)

namespace TransferBufferManager

variable {size : ℕ}

variable (mgr : TransferBufferManager size)

def getNumBuffers : ℕ := mgr.buffers.length

def isEmpty : Bool := mgr.getNumBuffers = 0

theorem eq_of_buffers {mgr mgr' : TransferBufferManager size} (maxBufSize : mgr.maxBufSize = mgr'.maxBufSize)
    (buffers : mgr.buffers = mgr'.buffers) : mgr = mgr' := by
  cases mgr
  cases maxBufSize
  cases buffers
  rfl

end TransferBufferManager

/-- A listener with its receivers in a `Map`, whose groups have `numKV` pairs. -/
structure StoredListener (size numKV : ℕ) where
  bufmgr : TransferBufferManager size
  receivers : ChunkedMap TransferBufferManagerKey TransferReceiver
  perf : TransferPerfCounter
  crcBase : TransferCRC
  allowAnonymousTransfers : Bool

namespace StoredListener

variable {size numKV : ℕ}

variable (l : StoredListener size numKV)

/-- The listener with its receivers as a function. -/
def toListener : TransferListener size :=
  ⟨l.bufmgr, l.receivers.access, l.perf, l.crcBase, l.allowAnonymousTransfers⟩

def construct (perf : TransferPerfCounter) (signature : UInt64) (maxBufferSize : UInt16) :
    StoredListener size numKV :=
  ⟨⟨maxBufferSize, [], nodup_nil⟩, .empty, perf, DataTypeSignature.toTransferCRC signature, false⟩

/-- The receiver is changed where it is in the map. -/
def handleReception (mem : Memory size) (receiver : TransferReceiver) (frame : RxFrame)
    (tba : TransferBufferAccessor size) : Option (IncomingTransfer size) × StoredListener size numKV :=
  let (result, receiver, tba) := receiver.addFrame mem frame tba
  match result with
  | .notComplete =>
    let (errors, receiver) := receiver.yieldErrorCount
    (none,
      { l with
        bufmgr := tba.bufmgr
        receivers := l.receivers.set tba.key receiver
        perf := l.perf.addErrors errors })
  | .singleFrame =>
    (some (.ofFrame frame),
      { l with
        bufmgr := tba.bufmgr
        receivers := l.receivers.set tba.key receiver
        perf := l.perf.addRxTransfer })
  | .complete =>
    let l :=
      { l with
        bufmgr := tba.bufmgr
        receivers := l.receivers.set tba.key receiver
        perf := l.perf.addRxTransfer }
    match tba.access with
    | none => (none, l)
    | some tbb =>
      if !l.toListener.checkPayloadCrc receiver.getLastTransferCrc tbb then (none, l)
      else
        (some (.ofBuffer receiver.getLastTransferTimestampMonotonic receiver.getLastTransferTimestampUtc frame tbb),
          { l with bufmgr := tba.remove.bufmgr })

def handleAnonymousTransferReception (frame : RxFrame) :
    Option (IncomingTransfer size) × StoredListener size numKV :=
  if l.allowAnonymousTransfers then (some (.ofFrame frame), { l with perf := l.perf.addRxTransfer })
  else (none, l)

/-- `mem.receiver` says whether the pool has memory for a group of pairs. -/
def handleFrame (mem : Memory size) (frame : RxFrame) :
    Option (IncomingTransfer size) × StoredListener size numKV :=
  if unicast : frame.srcNodeId.isUnicast then
    let tba : TransferBufferAccessor size := ⟨l.bufmgr, frame.key, frame.isEmpty_key unicast⟩
    match l.receivers.access frame.key with
    | none =>
      if !frame.startOfTransfer then (none, l)
      else
        let (inserted, receivers) := l.receivers.insert numKV mem.receiver frame.key .init
        if !inserted then (none, { l with receivers })
        else { l with receivers }.handleReception mem .init frame tba
    | some recv => l.handleReception mem recv frame tba
  else if frame.srcNodeId.isBroadcast && frame.startOfTransfer && frame.endOfTransfer &&
      frame.dstNodeId.isBroadcast then
    l.handleAnonymousTransferReception frame
  else (none, l)

/-- The predicate of `cleanup`; the buffer of a receiver that has timed out is removed on the way. -/
def timedOutReceiverPredicate (ts : ℕ) (parentBufmgr : TransferBufferManager size)
    (kv : TransferBufferManagerKey × TransferReceiver) : Bool × TransferBufferManager size :=
  if kv.2.isTimedOut ts then (true, parentBufmgr.remove kv.1) else (false, parentBufmgr)

def cleanup (ts : ℕ) : StoredListener size numKV :=
  let (receivers, bufmgr) := l.receivers.removeAllWhere (timedOutReceiverPredicate ts) l.bufmgr
  { l with receivers, bufmgr }

/-! ## Refinement -/

/-- The reaction of a listener whose receiver is in the map. -/
theorem toListener_handleReception {l : StoredListener size numKV} {a : TransferListener size}
    {r : TransferReceiver} {tba : TransferBufferAccessor size}
    (same : l.toListener = { a with receivers := update a.receivers tba.key (some r) }) (mem : Memory size)
    (frame : RxFrame) :
    (l.handleReception mem r frame tba).1 = (a.handleReception mem r frame tba).1 ∧
      (l.handleReception mem r frame tba).2.toListener = (a.handleReception mem r frame tba).2 := by
  simp only [toListener, TransferListener.mk.injEq] at same
  obtain ⟨-, receivers, perf, crcBase, anonymous⟩ := same
  have present : l.receivers.access tba.key = some r := by rw [receivers, update_self]
  have put (r' : TransferReceiver) :
      (l.receivers.set tba.key r').access = update a.receivers tba.key (some r') := by
    rw [ChunkedMap.access_set present, receivers, update_idem]
  rcases added : r.addFrame mem frame tba with ⟨result, r', tba'⟩
  have key : tba'.key = tba.key := by
    rw [← (r.addFrame_kept mem frame tba).2.key, added]
  simp only [handleReception, TransferListener.handleReception, added, key]
  cases result with
  | complete =>
    cases tba'.access with
    | none => exact ⟨rfl, by simp only [toListener, put, perf, crcBase, anonymous]⟩
    | some tbb =>
      simp only [TransferListener.checkPayloadCrc, toListener, crcBase]
      -- both compare the same CRC
      by_cases checked : (TransferListener.crcLoop tbb (tbb.maxWritePos + 1) 0 a.crcBase).value = r'.getLastTransferCrc
      · simp [checked, put, perf, anonymous]
      · simp [checked, put, perf, anonymous]
  | _ => exact ⟨rfl, by simp only [toListener, put, perf, crcBase, anonymous]⟩

theorem toListener_handleAnonymousTransferReception (frame : RxFrame) :
    (l.handleAnonymousTransferReception frame).1 = (l.toListener.handleAnonymousTransferReception frame).1 ∧
      (l.handleAnonymousTransferReception frame).2.toListener =
        (l.toListener.handleAnonymousTransferReception frame).2 := by
  have allowed : l.toListener.allowAnonymousTransfers = l.allowAnonymousTransfers := rfl
  simp only [handleAnonymousTransferReception, TransferListener.handleAnonymousTransferReception, allowed]
  cases l.allowAnonymousTransfers with
  | false => exact ⟨rfl, rfl⟩
  | true => exact ⟨rfl, rfl⟩

/-- A frame is handled as by the listener with the receivers as a function, if that has memory for a receiver whenever
there is room for it in the map. -/
theorem toListener_handleFrame (mem : Memory size) (frame : RxFrame) :
    ∃ room, (l.handleFrame mem frame).1 = (l.toListener.handleFrame { mem with receiver := room } frame).1 ∧
      (l.handleFrame mem frame).2.toListener = (l.toListener.handleFrame { mem with receiver := room } frame).2 := by
  unfold handleFrame TransferListener.handleFrame
  split
  case isFalse =>
    refine ⟨true, ?_⟩
    split
    · exact toListener_handleAnonymousTransferReception l frame
    · exact ⟨rfl, rfl⟩
  case isTrue unicast =>
    cases known : l.receivers.access frame.key with
    | some recv =>
      have known' : l.toListener.receivers frame.key = some recv := known
      simp only [known']
      refine ⟨true, toListener_handleReception ?_ mem frame⟩
      rw [show update _ _ _ = l.toListener.receivers from update_eq_self_iff.mpr known'.symm]
    | none =>
      have known' : l.toListener.receivers frame.key = none := known
      simp only [known']
      cases frame.startOfTransfer with
      | false => exact ⟨true, rfl, rfl⟩
      | true =>
        rcases inserting : l.receivers.insert numKV mem.receiver frame.key .init with ⟨inserted, receivers⟩
        have held := ChunkedMap.access_insert inserting
        refine ⟨inserted, ?_⟩
        cases inserted with
        | false =>
          simp only [inserting]
          rw [if_neg Bool.false_ne_true, update_eq_self_iff.mpr known.symm] at held
          simp [toListener, held]
        | true =>
          simp only [inserting]
          refine toListener_handleReception ?_ mem frame
          simp [toListener, held]

/-- The verdict of the predicate does not depend on the buffers. -/
theorem timedOutReceiverPredicate_fst (ts : ℕ) (mgr : TransferBufferManager size)
    (kv : TransferBufferManagerKey × TransferReceiver) :
    (timedOutReceiverPredicate ts mgr kv).1 = kv.2.isTimedOut ts := by
  unfold timedOutReceiverPredicate
  split
  · rename_i timedOut
    exact timedOut.symm
  · rename_i recent
    exact (Bool.eq_false_iff.mpr recent).symm

/-- The buffers that the predicate leaves when it has seen some receivers. -/
theorem foldl_timedOutReceiverPredicate (ts : ℕ) (kvs : List (TransferBufferManagerKey × TransferReceiver))
    (mgr : TransferBufferManager size) :
    (kvs.foldl (fun mgr kv => (timedOutReceiverPredicate ts mgr kv).2) mgr).maxBufSize = mgr.maxBufSize ∧
      (kvs.foldl (fun mgr kv => (timedOutReceiverPredicate ts mgr kv).2) mgr).buffers =
        mgr.buffers.filter fun e => !kvs.any fun kv => kv.1 = e.key && kv.2.isTimedOut ts := by
  induction kvs generalizing mgr with
  | nil => simp
  | cons kv rest ih =>
    obtain ⟨maxBufSize, buffers⟩ := ih (timedOutReceiverPredicate ts mgr kv).2
    rw [foldl_cons, maxBufSize, buffers]
    cases timedOut : kv.2.isTimedOut ts with
    | false => simp [timedOutReceiverPredicate, timedOut]
    | true =>
      simp only [timedOutReceiverPredicate, timedOut, if_true]
      refine ⟨rfl, ?_⟩
      rw [TransferBufferManager.buffers_remove, filter_filter]
      simp [timedOut, Bool.and_comm, eq_comm]

/-- The side effects of the predicate leave the buffers of the receivers that are still in the map. -/
theorem toListener_cleanup (ts : ℕ) :
    (l.cleanup ts).toListener = l.toListener.cleanup ts := by
  have verdict (mgr : TransferBufferManager size) (kv : TransferBufferManagerKey × TransferReceiver) :=
    timedOutReceiverPredicate_fst ts mgr kv
  have receivers : (l.cleanup ts).receivers.access =
      fun key => (l.receivers.access key).filter fun r => !r.isTimedOut ts :=
    funext (ChunkedMap.access_removeAllWhere verdict l.receivers l.bufmgr)
  have swept : (l.cleanup ts).bufmgr = _ := ChunkedMap.removeAllWhere_snd verdict l.receivers l.bufmgr
  obtain ⟨maxBufSize, buffers⟩ := foldl_timedOutReceiverPredicate ts l.receivers.store.items l.bufmgr
  rw [← swept] at maxBufSize buffers
  have bufmgr : (l.cleanup ts).bufmgr = (l.toListener.cleanup ts).bufmgr := by
    refine TransferBufferManager.eq_of_buffers maxBufSize (buffers.trans (filter_congr fun e _ => ?_))
    exact congrArg (!·) (l.receivers.any_access e.key fun r => r.isTimedOut ts).symm
  simp only [toListener, receivers, bufmgr]
  rfl

end StoredListener

/-! ## Runs -/

/-- What happens to a listener. -/
inductive ListenerAction (size : ℕ)
  | handleFrame (mem : Memory size) (frame : RxFrame)
  | cleanup (ts : ℕ)
  | allowAnonymousTransfers

namespace StoredListener

variable {size numKV : ℕ}

def step (l : StoredListener size numKV) : ListenerAction size → StoredListener size numKV
  | .handleFrame mem frame => (l.handleFrame mem frame).2
  | .cleanup ts => l.cleanup ts
  | .allowAnonymousTransfers => { l with allowAnonymousTransfers := true }

def run (l : StoredListener size numKV) (actions : List (ListenerAction size)) : StoredListener size numKV :=
  actions.foldl step l

variable {l : StoredListener size numKV}

/-- A step is one of the listener with the receivers as a function. -/
theorem toListener_step (before : ListenerRun l.toListener) (action : ListenerAction size) :
    ListenerRun (l.step action).toListener := by
  cases action with
  | handleFrame mem frame =>
    obtain ⟨room, -, same⟩ := l.toListener_handleFrame mem frame
    rw [step, same]
    exact before.handleFrame _ frame
  | cleanup ts =>
    rw [step, toListener_cleanup]
    exact before.cleanup ts
  | allowAnonymousTransfers => exact before.allowAnonymousTransfers

theorem toListener_run (before : ListenerRun l.toListener) (actions : List (ListenerAction size)) :
    ListenerRun (l.run actions).toListener := by
  induction actions generalizing l with
  | nil => exact before
  | cons action rest ih => exact ih (toListener_step before action)

theorem listenerRun_construct (perf : TransferPerfCounter) (signature : UInt64) (maxBufferSize : UInt16) :
    ListenerRun (construct perf signature maxBufferSize : StoredListener size numKV).toListener :=
  .construct perf signature maxBufferSize

theorem isEmpty_of_accounted (accounted : l.toListener.Accounted) (none : l.receivers.isEmpty = true) :
    l.bufmgr.isEmpty = true := by
  refine decide_eq_true (length_eq_zero_iff.mpr (eq_nil_iff_forall_not_mem.mpr fun e member => ?_))
  have received : (l.receivers.access e.key).isSome := accounted.received e member
  rw [ChunkedMap.isEmpty_iff.mp none e.key] at received
  cases received

/-- After any frames and cleanups, whatever allocations failed, there is one buffer at most for a key, every buffer
belongs to a receiver, and the intervals are within their bounds.  So the assertion of `cleanup` holds, and no buffer is
left when its receiver is gone. -/
theorem resources_accounted (perf : TransferPerfCounter) (signature : UInt64) (maxBufferSize : UInt16)
    (actions : List (ListenerAction size)) :
    let l := (construct perf signature maxBufferSize : StoredListener size numKV).run actions
    (l.bufmgr.buffers.map fun e => e.key).Nodup ∧
      (∀ e ∈ l.bufmgr.buffers, ∃ r, l.receivers.access e.key = some r) ∧
      (∀ key r, l.receivers.access key = some r → 1 ≤ r.transferIntervalMSec ∧ r.transferIntervalMSec ≤ 65535) ∧
      (∀ ts, (l.cleanup ts).receivers.isEmpty = true → (l.cleanup ts).bufmgr.isEmpty = true) ∧
      (∀ action key, (l.receivers.access key).isSome → (l.step action).receivers.access key = none →
        (l.step action).bufmgr.findFirst key = none) := by
  intro l
  have run : ListenerRun l.toListener := toListener_run (listenerRun_construct perf signature maxBufferSize) actions
  have accounted := run.accounted
  refine ⟨l.bufmgr.nodup, fun e member => ?_, accounted.paced, fun ts => ?_, fun action key _ gone => ?_⟩
  · exact Option.isSome_iff_exists.mp (accounted.received e member)
  · exact isEmpty_of_accounted (toListener_step run (.cleanup ts)).accounted
  · have after := (toListener_step run action).accounted
    refine find?_eq_none.mpr fun e member own => ?_
    have received := after.received e member
    rw [of_decide_eq_true own] at received
    have absent : (l.step action).toListener.receivers key = none := gone
    rw [absent] at received
    cases received

end StoredListener

end Uavcan
