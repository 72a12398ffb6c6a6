import Uavcan.Machines.Guarded
import Uavcan.Transport.TransferReceiver

/-!
# What becomes of the frames of a receiver

Each frame that is given to a receiver gets a verdict. A run is a receiver from its construction on, with all
that can happen to it: frames, memory that is there or not, and an owner that takes complete transfers out of
the buffer. A transfer is open after its start frame was stored, until it is complete, fails, or the receiver
restarts.
-/

namespace Uavcan

open TransferBufferAccessor TransferReceiver

/-- What becomes of a frame: it is ignored, it makes the receiver restart and is not accepted, it is a
transfer of its own, or its payload cannot be stored, is stored, or completes a transfer. -/
inductive Verdict
  | ignored
  | restarted
  | single
  | failed
  | stored
  | completed
  deriving DecidableEq

namespace TransferReceiver

variable {size : ℕ} (r : TransferReceiver) (mem : Memory size) (frame : RxFrame)
  (tba : TransferBufferAccessor size)

/-- The receiver that validates a frame, after the restart if there is one. -/
def refresh : TransferReceiver := if r.needRestart frame then r.restart frame else r

/-- The accessor at the same moment. -/
def refreshBuffer : TransferBufferAccessor size := if r.needRestart frame then tba.remove else tba

def verdict : Verdict :=
  if r.isOutdated frame then .ignored
  else if r.needRestart frame && !frame.startOfTransfer then .restarted
  else if !((r.refresh frame).validate frame).1 then
    if r.needRestart frame then .restarted else .ignored
  else if frame.startOfTransfer && frame.endOfTransfer then .single
  else if !(r.refresh frame).writes mem frame (r.refreshBuffer frame tba) then .failed
  else if frame.endOfTransfer then .completed
  else .stored

/-- A frame is accepted: it is in time, it is not a frame from the middle of a transfer that makes the
receiver restart, and the receiver expects it. -/
structure Accepts : Prop where
  current : r.isOutdated frame = false
  begins : r.needRestart frame = true → frame.startOfTransfer = true
  matched : (r.refresh frame).Matches frame

/-- The effect of a frame on the receiver and its buffer, for each verdict.  The error counter may be
anything. -/
inductive Outcome :
    Verdict → ResultCode → TransferReceiver → TransferBufferAccessor size → Prop
  | ignored (n : ℕ) : Outcome .ignored .notComplete { r with errorCnt := n } tba
  | restarted (n : ℕ) (tid : TransferID) (restarts : r.needRestart frame = true)
      (skips : frame.startOfTransfer = false → tid = frame.transferId.increment) :
    Outcome .restarted .notComplete { r.restart frame with errorCnt := n, tid := tid } tba.remove
  | single (n : ℕ) (accepts : r.Accepts frame) (start : frame.startOfTransfer = true)
      (stop : frame.endOfTransfer = true) :
    Outcome .single .singleFrame
      { ((r.refresh frame).stamp frame).updateTransferTimings.prepareForNextTransfer with
        thisTransferCrc := 0, errorCnt := n }
      (r.refreshBuffer frame tba).remove
  | failed (n : ℕ) (c : UInt16) (tba' : TransferBufferAccessor size) (accepts : r.Accepts frame)
      (absent : tba'.access = none) :
    Outcome .failed .notComplete
      { ((r.refresh frame).stamp frame).prepareForNextTransfer with thisTransferCrc := c, errorCnt := n }
      tba'
  | stored (n : ℕ) (tba' : TransferBufferAccessor size) (accepts : r.Accepts frame)
      (more : frame.endOfTransfer = false) (sound : tba'.Sound)
      (content : tba'.content =
        Buffers.splice (r.refreshBuffer frame tba).content (r.refresh frame).bufferWritePos
          (frameBytes frame)) :
    Outcome .stored .notComplete { (r.refresh frame).advance frame with errorCnt := n } tba'
  | completed (n : ℕ) (tba' : TransferBufferAccessor size) (accepts : r.Accepts frame)
      (later : frame.startOfTransfer = false) (stop : frame.endOfTransfer = true) (sound : tba'.Sound)
      (present : tba'.access.isSome)
      (content : tba'.content =
        Buffers.splice (r.refreshBuffer frame tba).content (r.refresh frame).bufferWritePos
          (frameBytes frame)) :
    Outcome .completed .complete
      { ((r.refresh frame).advance frame).updateTransferTimings.prepareForNextTransfer with errorCnt := n }
      tba'

variable {r mem frame tba}

theorem Fit.refresh (fit : r.Fit tba) (frame : RxFrame) :
    (r.refresh frame).Fit (r.refreshBuffer frame tba) := by
  unfold TransferReceiver.refresh refreshBuffer
  split
  · exact .of_zero (.of_none (access_remove _)) rfl
  · exact fit

variable (r tba) in
theorem sameElsewhere_refreshBuffer (frame : RxFrame) :
    tba.SameElsewhere (r.refreshBuffer frame tba) := by
  unfold refreshBuffer
  split
  · exact .remove tba
  · exact .refl tba

variable {r' : TransferReceiver} {tba' : TransferBufferAccessor size} {v : Verdict}

/-- `addFrame` has the effect of the verdict, and changes no buffer but its own. -/
theorem addFrame_cases (positive : 0 < size) {result : ResultCode} (fit : r.Fit tba)
    (run : r.addFrame mem frame tba = (result, r', tba')) :
    tba.SameElsewhere tba' ∧ r.Outcome frame tba (r.verdict mem frame tba) result r' tba' := by
  unfold addFrame at run
  unfold verdict
  cases outdated : r.isOutdated frame with
  | true =>
    simp only [outdated] at run ⊢
    cases run
    exact ⟨.refl tba, .ignored r.errorCnt⟩
  | false =>
    have refreshed : (if r.needRestart frame then (r.restart frame, tba.remove) else (r, tba)) =
        (r.refresh frame, r.refreshBuffer frame tba) := by
      unfold TransferReceiver.refresh refreshBuffer
      split <;> rfl
    obtain ⟨n, validated⟩ := validate_eq (r.refresh frame) frame
    simp only [outdated, refreshed, validated] at run ⊢
    have elsewhere := sameElsewhere_refreshBuffer r tba frame
    cases interrupts : r.needRestart frame && !frame.startOfTransfer with
    | true =>
      simp only [interrupts] at run ⊢
      have restarts : r.needRestart frame = true := (Bool.and_eq_true_iff.mp interrupts).1
      cases run
      refine ⟨elsewhere, ?_⟩
      simp only [TransferReceiver.refresh, refreshBuffer, restarts]
      exact .restarted _ _ restarts fun _ => rfl
    | false =>
      simp only [interrupts] at run ⊢
      by_cases matched : (r.refresh frame).Matches frame
      case neg =>
        simp only [matched] at run ⊢
        cases run
        refine ⟨elsewhere, ?_⟩
        unfold TransferReceiver.refresh refreshBuffer
        cases restarts : r.needRestart frame with
        | true => exact .restarted n _ restarts fun later => by simp [restarts, later] at interrupts
        | false => exact .ignored n
      case pos =>
        have accepts : r.Accepts frame := ⟨outdated, fun restarts => by simpa [restarts] using interrupts, matched⟩
        simp only [matched] at run ⊢
        cases whole : frame.startOfTransfer && frame.endOfTransfer with
        | true =>
          obtain ⟨start, stop⟩ := Bool.and_eq_true_iff.mp whole
          simp only [receive, whole] at run ⊢
          cases run
          exact ⟨elsewhere.trans (.remove _), .single n accepts start stop⟩
        | false =>
          have long : frame.startOfTransfer = true → TransferCRC.numBytes ≤ frame.payload.length :=
            fun start => matched.2.2.2.2 start (by simpa [start] using whole)
          have fit' : TransferReceiver.Fit { r.refresh frame with errorCnt := n } (r.refreshBuffer frame tba) :=
            ⟨(fit.refresh frame).sound, (fit.refresh frame).position⟩
          have same : TransferReceiver.writes { r.refresh frame with errorCnt := n } mem frame
              (r.refreshBuffer frame tba) =
                (r.refresh frame).writes mem frame (r.refreshBuffer frame tba) := by
            simp only [writes, writePayload_fst long]
          obtain ⟨elsewhere', ⟨written, rfl, rfl, sound, present, content⟩ | ⟨lost, rfl, absent, c, m, rfl⟩⟩ :=
            receive_cases long positive fit' whole run
          · rw [same] at written
            refine ⟨elsewhere.trans elsewhere', ?_⟩
            simp only [written]
            cases stop : frame.endOfTransfer with
            | true => exact .completed n _ accepts (by simpa [stop] using whole) stop sound present content
            | false => exact .stored n _ accepts stop sound content
          · rw [same] at lost
            simp only [lost]
            exact ⟨elsewhere.trans elsewhere', .failed m c _ accepts absent⟩

/-- What becomes of an accepted frame depends on its place in the transfer and on the memory only. -/
theorem verdict_of_accepts (accepts : r.Accepts frame) :
    r.verdict mem frame tba =
      if frame.startOfTransfer && frame.endOfTransfer then .single
      else if !(r.refresh frame).writes mem frame (r.refreshBuffer frame tba) then .failed
      else if frame.endOfTransfer then .completed
      else .stored := by
  obtain ⟨n, validated⟩ := validate_eq (r.refresh frame) frame
  have begins : (r.needRestart frame && !frame.startOfTransfer) = false := by
    cases restarts : r.needRestart frame with
    | false => rfl
    | true => simp [accepts.begins restarts]
  simp [verdict, accepts.current, begins, validated, accepts.matched]

theorem Outcome.fit {result : ResultCode} (outcome : r.Outcome frame tba v result r' tba') (fit : r.Fit tba) :
    r'.Fit tba' := by
  cases outcome with
  | ignored n => exact ⟨fit.sound, fit.position⟩
  | restarted n tid _ _ => exact .of_zero (.of_none (access_remove _)) rfl
  | single n _ _ _ => exact .of_zero (.of_none (access_remove _)) rfl
  | failed n c _ _ absent => exact .of_zero (.of_none absent) rfl
  | stored n _ _ _ sound content =>
    refine ⟨sound, ?_⟩
    rw [content, Buffers.length_splice (fit.refresh frame).position]
    exact Nat.le_max_right _ _
  | completed n _ _ _ _ sound _ _ => exact .of_zero sound rfl

theorem Outcome.buffer_of_complete (outcome : r.Outcome frame tba v .complete r' tba') :
    tba'.Sound ∧ tba'.access.isSome := by
  cases outcome with
  | completed _ _ _ _ _ sound present _ => exact ⟨sound, present⟩

theorem Outcome.bufferWritePos_of_complete (outcome : r.Outcome frame tba v .complete r' tba') :
    r'.bufferWritePos = 0 := by
  cases outcome with
  | completed => rfl

/-- A frame that is accepted and does not begin a transfer meets the receiver as it was. -/
theorem Accepts.needRestart_eq_false (accepts : r.Accepts frame) (later : frame.startOfTransfer = false) :
    r.needRestart frame = false := by
  cases restarts : r.needRestart frame with
  | true => exact absurd (accepts.begins restarts) (by simp [later])
  | false => rfl

theorem Accepts.refresh_eq (accepts : r.Accepts frame) (later : frame.startOfTransfer = false) :
    r.refresh frame = r := by
  simp [TransferReceiver.refresh, accepts.needRestart_eq_false later]

theorem Accepts.refreshBuffer_eq (accepts : r.Accepts frame) (later : frame.startOfTransfer = false)
    (tba : TransferBufferAccessor size) : r.refreshBuffer frame tba = tba := by
  simp [refreshBuffer, accepts.needRestart_eq_false later]

end TransferReceiver

/-! ## Runs of a receiver -/

/-- A call of `addFrame`. -/
structure Call (size : ℕ) where
  receiver : TransferReceiver
  mem : Memory size
  frame : RxFrame
  tba : TransferBufferAccessor size

namespace Call

variable {size : ℕ} (call : Call size)

def result : ResultCode := (call.receiver.addFrame call.mem call.frame call.tba).1

/-- The receiver after the call. -/
def after : TransferReceiver := (call.receiver.addFrame call.mem call.frame call.tba).2.1

/-- The buffer after the call. -/
def afterBuffer : TransferBufferAccessor size :=
  (call.receiver.addFrame call.mem call.frame call.tba).2.2

def verdict : Verdict := call.receiver.verdict call.mem call.frame call.tba

/-- The call has stored the first frame of a multi-frame transfer. -/
def Starts : Prop := call.verdict = .stored ∧ call.frame.startOfTransfer = true

/-- The call leaves an open transfer open. -/
def Quiet : Prop :=
  call.verdict = .ignored ∨ (call.verdict = .stored ∧ call.frame.startOfTransfer = false)

instance : Decidable call.Starts := inferInstanceAs (Decidable (_ ∧ _))

instance : Decidable call.Quiet := inferInstanceAs (Decidable (_ ∨ _))

/-- The call that has begun the transfer which is open after these calls, newest first. -/
def opened : List (Call size) → Option (Call size)
  | [] => none
  | call :: older => if call.Starts then some call else if call.Quiet then opened older else none

variable {call} in
theorem opened_eq_some {calls : List (Call size)} {start : Call size} (found : opened calls = some start) :
    ∃ newer older, calls = newer ++ start :: older ∧ start.Starts ∧ ∀ call ∈ newer, call.Quiet := by
  induction calls with
  | nil => cases found
  | cons call older ih =>
    unfold opened at found
    split at found
    case isTrue starts =>
      cases found
      exact ⟨[], older, rfl, starts, by simp⟩
    case isFalse =>
      split at found
      case isTrue quiet =>
        obtain ⟨newer, oldest, rfl, starts, between⟩ := ih found
        exact ⟨call :: newer, oldest, rfl, starts, List.forall_mem_cons.mpr ⟨quiet, between⟩⟩
      case isFalse => cases found

end Call

/-- A receiver from its construction on, with the calls of `addFrame`, newest first.  A call is made only
where `allowed` holds of the calls so far and the new one.  The owner of the receiver may take a complete
transfer out of its buffer and may read the error counter; other receivers use the same buffer manager. -/
inductive ReceiverRun {size : ℕ} (allowed : List (Call size) → Call size → Prop) :
    List (Call size) → TransferReceiver → TransferBufferAccessor size → Prop
  | start {tba : TransferBufferAccessor size} : tba.access = none → ReceiverRun allowed [] .init tba
  | add {calls : List (Call size)} {r : TransferReceiver} {tba : TransferBufferAccessor size}
      (mem : Memory size) (frame : RxFrame) : ReceiverRun allowed calls r tba →
    allowed calls ⟨r, mem, frame, tba⟩ →
    ReceiverRun allowed (⟨r, mem, frame, tba⟩ :: calls) (Call.mk r mem frame tba).after
      (Call.mk r mem frame tba).afterBuffer
  | release {call : Call size} {calls : List (Call size)} {r : TransferReceiver}
      {tba : TransferBufferAccessor size} : ReceiverRun allowed (call :: calls) r tba →
    call.result = .complete → ReceiverRun allowed (call :: calls) r tba.remove
  | yieldErrorCount {calls : List (Call size)} {r : TransferReceiver} {tba : TransferBufferAccessor size} :
    ReceiverRun allowed calls r tba → ReceiverRun allowed calls r.yieldErrorCount.2 tba
  | others {calls : List (Call size)} {r : TransferReceiver} {tba tba' : TransferBufferAccessor size} :
    ReceiverRun allowed calls r tba → tba'.access = tba.access →
    tba'.bufmgr.maxBufSize = tba.bufmgr.maxBufSize → ReceiverRun allowed calls r tba'

namespace TransferReceiver

/-- The receiver is in the transfer that a call has begun: it takes further frames of this transfer only,
and it has the CRC and the times of its first frame. -/
structure OpenedBy {size : ℕ} (r : TransferReceiver) (start : Call size) : Prop where
  tid : r.tid = start.frame.transferId
  iface : r.ifaceIndex = start.frame.ifaceIndex
  crc : r.thisTransferCrc = frameCrc start.frame
  tsMono : r.thisTransferTs = start.frame.tsMono
  tsUtc : r.firstFrameTs = start.frame.tsUtc

/-- The receiver has written bytes of a transfer, or waits for a frame with the toggle bit set, which no first frame
has. -/
def Begun (r : TransferReceiver) : Prop := r.isMidTransfer = true ∨ r.nextToggle = true

theorem not_begun {r : TransferReceiver} (reset : r.bufferWritePos = 0) (toggle : r.nextToggle = false) :
    ¬r.Begun := by
  simp [Begun, isMidTransfer, reset, toggle]

end TransferReceiver

namespace Call

variable {size : ℕ}

theorem outcome (positive : 0 < size) (call : Call size) (fit : call.receiver.Fit call.tba) :
    call.receiver.Outcome call.frame call.tba call.verdict call.result call.after call.afterBuffer :=
  (addFrame_cases positive fit rfl).2

/-- A call keeps the receiver in the open transfer, or puts it into the one that it begins. -/
theorem openedBy (positive : 0 < size) {call start : Call size} {calls : List (Call size)}
    (fit : call.receiver.Fit call.tba)
    (before : ∀ start, opened calls = some start → call.receiver.OpenedBy start)
    (found : opened (call :: calls) = some start) : call.after.OpenedBy start := by
  have outcome := call.outcome positive fit
  unfold opened at found
  split at found
  case isTrue starts =>
    cases found
    rw [starts.1] at outcome
    generalize call.result = result, call.after = after, call.afterBuffer = afterBuffer at outcome ⊢
    cases outcome with
    | stored n _ accepts =>
      obtain ⟨iface, -, tid, -⟩ := accepts.matched
      exact ⟨tid.symm, iface, by simp [advance, starts.2],
        by simp [advance, stamp, starts.2],
        by simp [advance, stamp, starts.2]⟩
  case isFalse =>
    split at found
    case isFalse => cases found
    case isTrue quiet =>
      obtain ⟨tid, iface, crc, tsMono, tsUtc⟩ := before start found
      rcases quiet with ignored | ⟨stored, later⟩
      · rw [ignored] at outcome
        generalize call.result = result, call.after = after, call.afterBuffer = afterBuffer at outcome ⊢
        cases outcome with
        | ignored n => exact ⟨tid, iface, crc, tsMono, tsUtc⟩
      · rw [stored] at outcome
        generalize call.result = result, call.after = after, call.afterBuffer = afterBuffer at outcome ⊢
        cases outcome with
        | stored n _ accepts =>
          rw [accepts.refresh_eq later]
          exact ⟨tid, iface, by simp [advance, later, crc],
            by simp [advance, stamp, later, tsMono],
            by simp [advance, stamp, later, tsUtc]⟩

/-- The call brings a frame from the middle or the end of a transfer, and the receiver takes it for a part
of the transfer it is in. -/
def Continues (call : Call size) : Prop :=
  call.frame.startOfTransfer = false ∧ call.receiver.isOutdated call.frame = false ∧
    call.receiver.needRestart call.frame = false ∧ (call.receiver.validate call.frame).1 = true

instance (call : Call size) : Decidable call.Continues := inferInstanceAs (Decidable (_ ∧ _))

/-- A frame that is taken for a part of a transfer comes while the receiver is in the middle of one. -/
def FollowsStart (_ : List (Call size)) (call : Call size) : Prop := call.Continues → call.receiver.Begun

instance (calls : List (Call size)) (call : Call size) : Decidable (FollowsStart calls call) :=
  inferInstanceAs (Decidable (_ → _ ∨ _))

/-- The last of the calls that did not leave an open transfer open has stored a first frame with the transfer ID and the
interface of this call, and the transfer has the CRC and the times of that frame. -/
def HasStart (call : Call size) (older : List (Call size)) : Prop :=
  ∃ newer start oldest, older = newer ++ start :: oldest ∧ start.Starts ∧ (∀ other ∈ newer, other.Quiet) ∧
    start.frame.transferId = call.frame.transferId ∧ start.frame.ifaceIndex = call.frame.ifaceIndex ∧
    call.after.getLastTransferCrc = frameCrc start.frame ∧
    call.after.getLastTransferTimestampMonotonic = start.frame.tsMono ∧
    call.after.getLastTransferTimestampUtc = start.frame.tsUtc

theorem continues_of_accepts {call : Call size} (accepts : call.receiver.Accepts call.frame)
    (later : call.frame.startOfTransfer = false) : call.Continues := by
  obtain ⟨n, validated⟩ := validate_eq call.receiver call.frame
  have matched := accepts.matched
  rw [accepts.refresh_eq later] at matched
  exact ⟨later, accepts.current, accepts.needRestart_eq_false later, by simp [validated, matched]⟩

/-- A call leaves the receiver in the middle of a transfer only if it begins this transfer or keeps it open. -/
theorem opened_of_begun (positive : 0 < size) {call : Call size} {calls : List (Call size)}
    (fit : call.receiver.Fit call.tba) (permitted : FollowsStart calls call)
    (before : call.receiver.Begun → (opened calls).isSome) (begun : call.after.Begun) :
    (opened (call :: calls)).isSome := by
  have outcome := call.outcome positive fit
  have kept (quiet : call.Quiet) (earlier : (opened calls).isSome) : (opened (call :: calls)).isSome := by
    unfold opened
    split
    · rfl
    · exact earlier
  generalize verdict : call.verdict = v, call.result = result, call.after = after,
    call.afterBuffer = afterBuffer at outcome begun
  cases outcome with
  | ignored => exact kept (.inl verdict) (before begun)
  | stored n _ accepts =>
    cases start : call.frame.startOfTransfer with
    | true =>
      rw [opened, if_pos ⟨verdict, start⟩]
      rfl
    | false => exact kept (.inr ⟨verdict, start⟩) (before (permitted (continues_of_accepts accepts start)))
  | _ => exact absurd begun (not_begun rfl rfl)

end Call

namespace ReceiverRun

variable {size : ℕ} {allowed : List (Call size) → Call size → Prop} {calls : List (Call size)}
  {r : TransferReceiver} {tba : TransferBufferAccessor size}

/-- In every run the write position stays within the buffer, and is zero after a complete transfer. -/
theorem fit_and_reset (positive : 0 < size) (run : ReceiverRun allowed calls r tba) :
    r.Fit tba ∧ ∀ call ∈ calls.head?, call.result = .complete → r.bufferWritePos = 0 := by
  induction run with
  | start absent => exact ⟨.of_zero (.of_none absent) rfl, by simp⟩
  | @add calls r tba mem frame _ _ ih =>
    have outcome := Call.outcome positive ⟨r, mem, frame, tba⟩ ih.1
    refine ⟨outcome.fit ih.1, fun call newest complete => ?_⟩
    cases newest
    rw [complete] at outcome
    exact outcome.bufferWritePos_of_complete
  | release _ complete ih =>
    have reset := ih.2 _ rfl complete
    exact ⟨.of_zero (.of_none (access_remove _)) reset, fun _ _ _ => reset⟩
  | yieldErrorCount _ ih => exact ⟨⟨ih.1.sound, ih.1.position⟩, ih.2⟩
  | others _ access maxBufSize ih =>
    refine ⟨⟨ih.1.sound.congr access maxBufSize, ?_⟩, ih.2⟩
    rw [content_congr access]
    exact ih.1.position

theorem fit (positive : 0 < size) (run : ReceiverRun allowed calls r tba) : r.Fit tba :=
  (run.fit_and_reset positive).1

theorem openedBy (positive : 0 < size) (run : ReceiverRun allowed calls r tba) {start : Call size}
    (found : Call.opened calls = some start) : r.OpenedBy start := by
  induction run generalizing start with
  | start => cases found
  | add mem frame before _ ih =>
    exact Call.openedBy positive (before.fit positive) (fun _ => ih) found
  | release _ _ ih => exact ih found
  | yieldErrorCount _ ih =>
    obtain ⟨tid, iface, crc, tsMono, tsUtc⟩ := ih found
    exact ⟨tid, iface, crc, tsMono, tsUtc⟩
  | others _ _ _ ih => exact ih found

/-- The calls, the receiver and its buffer after one more frame. -/
def extend (mem : Memory size) (s : List (Call size) × TransferReceiver × TransferBufferAccessor size)
    (frame : RxFrame) : Option (List (Call size) × TransferReceiver × TransferBufferAccessor size) :=
  let call : Call size := ⟨s.2.1, mem, frame, s.2.2⟩
  some (call :: s.1, call.after, call.afterBuffer)

theorem exists_of_feed (allowed : List (Call size) → Call size → Prop)
    [∀ calls call, Decidable (allowed calls call)] (absent : tba.access = none) (mem : Memory size)
    (frames : List RxFrame) (check : List (Call size) → Bool)
    (fed : (Machines.play (extend mem) (fun s frame => allowed s.1 ⟨s.2.1, mem, frame, s.2.2⟩) frames
      ([], .init, tba)).any (fun s => decide (check s.1 = true)) = true) :
    ∃ calls r tba, ReceiverRun allowed calls r tba ∧ check calls = true := by
  obtain ⟨⟨calls, r, tba⟩, run, checked⟩ := Machines.exists_of_play
    (P := fun s => ReceiverRun allowed s.1 s.2.1 s.2.2)
    (fun run permitted taken => Option.some.inj taken ▸ run.add mem _ permitted) (.start absent) frames _ fed
  exact ⟨calls, r, tba, run, checked⟩

/-- Each call of a run was made in a state of the run. -/
theorem of_append {newer older : List (Call size)} {call : Call size}
    (run : ReceiverRun allowed (newer ++ call :: older) r tba) :
    ReceiverRun allowed older call.receiver call.tba ∧ allowed older call := by
  generalize split : newer ++ call :: older = calls at run
  induction run generalizing newer with
  | start => simp at split
  | add mem frame before permitted ih =>
    cases newer with
    | nil =>
      cases split
      exact ⟨before, permitted⟩
    | cons newest newer =>
      cases split
      exact ih rfl
  | release _ _ ih => exact ih split
  | yieldErrorCount _ ih => exact ih split
  | others _ _ _ ih => exact ih split

/-- If frames from the middle of a transfer are taken only while the receiver is in the middle of one, a transfer is
open whenever it is. -/
theorem opened_of_begun (positive : 0 < size) (run : ReceiverRun Call.FollowsStart calls r tba) (begun : r.Begun) :
    (Call.opened calls).isSome := by
  induction run with
  | start => exact absurd begun (not_begun rfl rfl)
  | add mem frame before permitted ih => exact Call.opened_of_begun positive (before.fit positive) permitted ih begun
  | release _ _ ih => exact ih begun
  | yieldErrorCount _ ih => exact ih begun
  | others _ _ _ ih => exact ih begun

/-- In a run where frames from the middle of a transfer are taken only while the receiver is in the middle of one, a
transfer is complete only after its first frame was stored, and it has the CRC and the times of that frame. -/
theorem complete_after_start (positive : 0 < size) (run : ReceiverRun Call.FollowsStart calls r tba)
    {newest older : List (Call size)} {call : Call size} (split : calls = newest ++ call :: older)
    (complete : call.result = .complete) : call.HasStart older := by
  subst split
  unfold Call.HasStart
  obtain ⟨before, permitted⟩ := run.of_append
  have outcome := call.outcome positive (before.fit positive)
  rw [complete] at outcome
  generalize verdict : call.verdict = v, call.after = after, call.afterBuffer = afterBuffer at outcome ⊢
  cases outcome with
  | completed n _ accepts later =>
    have begun := permitted (Call.continues_of_accepts accepts later)
    obtain ⟨start, found⟩ := Option.isSome_iff_exists.mp (before.opened_of_begun positive begun)
    obtain ⟨newer, oldest, split, starts, quiet⟩ := Call.opened_eq_some found
    obtain ⟨tid, iface, crc, tsMono, tsUtc⟩ := before.openedBy positive found
    obtain ⟨iface', -, tid', -⟩ := accepts.matched
    rw [accepts.refresh_eq later] at iface' tid' ⊢
    refine ⟨newer, start, oldest, split, starts, quiet, tid.symm.trans tid'.symm, iface.symm.trans iface',
      ?_, ?_, ?_⟩
    · simpa [getLastTransferCrc, updateTransferTimings,
        prepareForNextTransfer, advance, later] using crc
    · simpa [getLastTransferTimestampMonotonic, updateTransferTimings,
        prepareForNextTransfer, advance, stamp,
        later] using tsMono
    · simpa [getLastTransferTimestampUtc, updateTransferTimings,
        prepareForNextTransfer, advance, stamp,
        later] using tsUtc

end ReceiverRun

namespace Sample

/-- A pool with memory for everything. -/
def memory : Memory 32 := ⟨true, true, fun _ => some ⟨List.replicate 32 0, rfl⟩⟩

/-- The buffer of the messages of node 1; none is there yet. -/
def accessor : TransferBufferAccessor 32 := ⟨⟨256, [], List.nodup_nil⟩, ⟨⟨1⟩, .messageBroadcast⟩, rfl⟩

/-- A frame of node 1 on the first interface. -/
def frame (transferId : Fin 32) (start stop toggle : Bool) (tsMono : ℕ) (payload : List UInt8) : RxFrame where
  payload := payload
  priority := ⟨16⟩
  transferType := .messageBroadcast
  dataTypeId := ⟨20⟩
  srcNodeId := ⟨1⟩
  dstNodeId := ⟨0⟩
  transferId := ⟨transferId⟩
  startOfTransfer := start
  endOfTransfer := stop
  toggle := toggle
  tsMono := tsMono
  tsUtc := 0
  ifaceIndex := 0

end Sample

theorem ReceiverRun.complete_after_start_sample : ∃ (calls older : List (Call 32)) (call : Call 32)
    (r : TransferReceiver) (tba : TransferBufferAccessor 32),
    ReceiverRun Call.FollowsStart calls r tba ∧ calls = call :: older ∧ call.result = .complete ∧
      call.HasStart older := by
  obtain ⟨calls, r, tba, run, complete⟩ := ReceiverRun.exists_of_feed Call.FollowsStart
    (show Sample.accessor.access = none from rfl) Sample.memory
    [Sample.frame 0 true false false 1 [7, 8, 1, 2, 3, 4, 5], Sample.frame 0 false true true 2 [6]]
    (fun calls => calls.head?.any fun call => call.result = .complete) (by decide +kernel)
  cases calls with
  | nil => cases complete
  | cons call older =>
    have complete : call.result = .complete := by simpa using complete
    exact ⟨_, older, call, r, tba, run, rfl, complete,
      ReceiverRun.complete_after_start (by decide) run (List.nil_append _).symm complete⟩

/-- A transfer can be complete though no first frame ever arrived: the first frame below makes the receiver
restart and wait for the next transfer, and the second one, the end of that transfer, is accepted. -/
theorem ReceiverRun.complete_without_start : ∃ (calls : List (Call 32)) (call : Call 32)
    (r : TransferReceiver) (tba : TransferBufferAccessor 32),
    ReceiverRun (fun _ _ => True) calls r tba ∧ calls.head? = some call ∧ call.result = .complete ∧
      ∀ other ∈ calls, other.frame.startOfTransfer = false := by
  obtain ⟨calls, r, tba, run, complete⟩ := ReceiverRun.exists_of_feed (fun _ _ => True)
    (show Sample.accessor.access = none from rfl) Sample.memory
    [Sample.frame 0 false false true 1 [1], Sample.frame 1 false true false 2 [6]]
    (fun calls => (calls.head?.any fun call => call.result = .complete) &&
      calls.all fun call => !call.frame.startOfTransfer) (by decide +kernel)
  cases calls with
  | nil => cases complete
  | cons call older =>
    simp only [List.head?_cons, Option.any_some, Bool.and_eq_true, decide_eq_true_eq, List.all_eq_true,
      Bool.not_eq_true'] at complete
    exact ⟨_, call, r, tba, run, rfl, complete.1, complete.2⟩

end Uavcan
