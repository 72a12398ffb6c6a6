import Uavcan.Transport.Reception

/-!
# What a complete transfer leaves in the buffer

The payload that a receiver accepts from the first frame of a transfer on is written one frame after
another.  Where this begins, and what stays behind it, depends on what the receiver and its buffer held
when the first frame came.
-/

namespace Uavcan

namespace Call

variable {size : ℕ} (call : Call size)

/-- The payload that a call has put into the buffer. -/
def bytes : List UInt8 :=
  if call.verdict = .stored ∨ call.verdict = .completed then TransferReceiver.frameBytes call.frame else []

/-- The payload that calls, newest first, have put into the buffer, in the order of their arrival. -/
def received (calls : List (Call size)) : List UInt8 := (calls.reverse.map bytes).flatten

theorem received_cons (calls : List (Call size)) : received (call :: calls) = received calls ++ call.bytes := by
  simp [received]

/-- The first frame of a transfer starts over: the receiver restarts, or it is at the beginning of a buffer
that holds no more than the `length` bytes of the transfer. -/
def StartsOver (length : ℕ) : Prop :=
  call.receiver.needRestart call.frame = true ∨
    (call.receiver.bufferWritePos = 0 ∧ call.tba.content.length ≤ length)

instance (length : ℕ) : Decidable (call.StartsOver length) := inferInstanceAs (Decidable (_ ∨ _))

/-- The receiver has written the bytes of the transfer that a call has begun where that call found the
write position, over what was in the buffer. -/
structure Collects (bytes : List UInt8) (r : TransferReceiver) (tba : TransferBufferAccessor size) :
    Prop where
  content : tba.content =
    Buffers.splice (call.receiver.refreshBuffer call.frame call.tba).content
      (call.receiver.refresh call.frame).bufferWritePos bytes
  position : r.bufferWritePos = (call.receiver.refresh call.frame).bufferWritePos + bytes.length

variable {call}

theorem collects_start (positive : 0 < size) (fit : call.receiver.Fit call.tba) (starts : call.Starts) :
    call.Collects call.bytes call.after call.afterBuffer := by
  have outcome := call.outcome positive fit
  rw [starts.1] at outcome
  rw [bytes, if_pos (.inl starts.1)]
  generalize call.result = result, call.after = after, call.afterBuffer = afterBuffer at outcome ⊢
  cases outcome with
  | stored n _ _ _ _ content => exact ⟨content, rfl⟩

theorem collects_next (positive : 0 < size) {next : Call size} {bytes : List UInt8}
    (before : call.receiver.Fit call.tba) (fit : next.receiver.Fit next.tba)
    (collects : call.Collects bytes next.receiver next.tba) (quiet : next.Quiet) :
    call.Collects (bytes ++ next.bytes) next.after next.afterBuffer := by
  have outcome := next.outcome positive fit
  rcases quiet with ignored | ⟨stored, later⟩
  · rw [Call.bytes, if_neg (by simp [ignored]), List.append_nil]
    rw [ignored] at outcome
    generalize next.result = result, next.after = after, next.afterBuffer = afterBuffer at outcome ⊢
    cases outcome with
    | ignored n => exact ⟨collects.content, collects.position⟩
  · rw [Call.bytes, if_pos (.inl stored)]
    rw [stored] at outcome
    generalize next.result = result, next.after = after, next.afterBuffer = afterBuffer at outcome ⊢
    cases outcome with
    | stored n _ accepts _ _ content =>
      rw [accepts.refresh_eq later, accepts.refreshBuffer_eq later, collects.content, collects.position,
        Buffers.splice_splice (before.refresh call.frame).position] at content
      refine ⟨content, ?_⟩
      rw [accepts.refresh_eq later, List.length_append, ← Nat.add_assoc, ← collects.position]
      rfl

theorem notComplete_of_stored (positive : 0 < size) (fit : call.receiver.Fit call.tba)
    (stays : call.Starts ∨ call.Quiet) : call.result = .notComplete := by
  have outcome := call.outcome positive fit
  generalize verdict : call.verdict = v, call.after = after, call.afterBuffer = afterBuffer at outcome
  have kept : v = .ignored ∨ v = .stored := by
    rcases stays with starts | ignored | stored
    · exact .inr (verdict.symm.trans starts.1)
    · exact .inl (verdict.symm.trans ignored)
    · exact .inr (verdict.symm.trans stored.1)
  rcases kept with rfl | rfl
  · generalize call.result = result at outcome ⊢
    cases outcome
    rfl
  · generalize call.result = result at outcome ⊢
    cases outcome
    rfl

/-- The buffer holds nothing but the bytes of the transfer exactly if its first frame starts over. -/
theorem splice_refresh_eq_iff (fit : call.receiver.Fit call.tba) (bytes : List UInt8) :
    Buffers.splice (call.receiver.refreshBuffer call.frame call.tba).content
        (call.receiver.refresh call.frame).bufferWritePos bytes = bytes ↔
      call.StartsOver bytes.length := by
  rw [Buffers.splice_eq_iff (fit.refresh call.frame).position]
  unfold TransferReceiver.refresh TransferReceiver.refreshBuffer StartsOver
  cases call.receiver.needRestart call.frame with
  | true => simp [TransferReceiver.restart, TransferBufferAccessor.content_of_none]
  | false => simp

end Call

namespace ReceiverRun

variable {size : ℕ} {allowed : List (Call size) → Call size → Prop} {r : TransferReceiver}
  {tba : TransferBufferAccessor size} {newest newer older : List (Call size)} {start done : Call size}

/-- While a transfer is open, the buffer holds what was received since its first frame, on top of what
that frame found. -/
theorem collects (positive : 0 < size) (run : ReceiverRun allowed (newer ++ start :: older) r tba)
    (starts : start.Starts) (quiet : ∀ call ∈ newer, call.Quiet) :
    start.Collects (Call.received (newer ++ [start])) r tba := by
  have first := (run.of_append.1).fit positive
  generalize split : newer ++ start :: older = calls at run
  induction run generalizing newer with
  | start => simp at split
  | add mem frame before _ ih =>
    cases newer with
    | nil =>
      cases split
      simpa [Call.received] using Call.collects_start positive first starts
    | cons next newer =>
      cases split
      obtain ⟨next, rest⟩ := List.forall_mem_cons.mp quiet
      rw [List.cons_append, Call.received_cons]
      exact Call.collects_next positive first (before.fit positive) (ih rest rfl) next
  | @release call _ _ _ before complete ih =>
    have stays : call.Starts ∨ call.Quiet := by
      cases newer with
      | nil =>
        cases split
        exact .inl starts
      | cons next newer =>
        cases split
        exact .inr (quiet _ (List.mem_cons_self ..))
    rw [← List.nil_append (call :: _)] at before
    have fit := (before.of_append.1).fit positive
    rw [Call.notComplete_of_stored positive fit stays] at complete
    cases complete
  | yieldErrorCount _ ih =>
    obtain ⟨content, position⟩ := ih quiet split
    exact ⟨content, position⟩
  | others _ access _ ih =>
    obtain ⟨content, position⟩ := ih quiet split
    exact ⟨(TransferBufferAccessor.content_congr access).trans content, position⟩

/-- A complete transfer leaves exactly the bytes in the buffer that were accepted from its first frame on,
if and only if that frame starts over. -/
theorem complete_content_iff (positive : 0 < size)
    (run : ReceiverRun allowed (newest ++ done :: (newer ++ start :: older)) r tba)
    (starts : start.Starts) (quiet : ∀ call ∈ newer, call.Quiet) (complete : done.result = .complete) :
    done.afterBuffer.content = Call.received (done :: (newer ++ [start])) ↔
      start.StartsOver (Call.received (done :: (newer ++ [start]))).length := by
  obtain ⟨before, -⟩ := run.of_append
  have first := (before.of_append.1).fit positive
  have collects := before.collects positive starts quiet
  rw [Call.received_cons]
  have outcome := done.outcome positive (before.fit positive)
  rw [complete] at outcome
  generalize verdict : done.verdict = v, done.after = after, done.afterBuffer = afterBuffer at outcome ⊢
  cases outcome with
  | completed n _ accepts later _ _ _ content =>
    have bytes : done.bytes = TransferReceiver.frameBytes done.frame := by simp [Call.bytes, verdict]
    rw [accepts.refresh_eq later, accepts.refreshBuffer_eq later, collects.content, collects.position,
      Buffers.splice_splice (first.refresh start.frame).position, ← bytes] at content
    rw [content]
    exact Call.splice_refresh_eq_iff first _

end ReceiverRun

namespace Sample

/-- A first frame, and one that completes the transfer. -/
def completes : List (Call 32) → Bool
  | [done, first] => decide (first.Starts ∧ done.result = .complete)
  | _ => false

/-- The same after two frames of an earlier transfer, whose bytes are still there. -/
def keepsEarlier : List (Call 32) → Bool
  | [done, first, _, _] => decide (first.Starts ∧ done.result = .complete ∧
      Call.received [done, first] = [11, 12, 13, 14, 15, 16] ∧
      done.afterBuffer.content = [1, 2, 3, 4, 5, 6, 11, 12, 13, 14, 15, 16])
  | _ => false

end Sample

theorem ReceiverRun.complete_content_iff_sample : ∃ (done start : Call 32) (r : TransferReceiver)
    (tba : TransferBufferAccessor 32),
    ReceiverRun (fun _ _ => True) ([] ++ done :: ([] ++ start :: [])) r tba ∧ start.Starts ∧
      done.result = .complete ∧
      (done.afterBuffer.content = Call.received (done :: ([] ++ [start])) ↔
        start.StartsOver (Call.received (done :: ([] ++ [start]))).length) := by
  obtain ⟨calls, r, tba, run, check⟩ := ReceiverRun.exists_of_feed (fun _ _ => True)
    (show Sample.accessor.access = none from rfl) Sample.memory
    [Sample.frame 0 true false false 1 [7, 8, 1, 2, 3, 4, 5], Sample.frame 0 false true true 2 [6]]
    Sample.completes (by decide +kernel)
  unfold Sample.completes at check
  split at check
  case h_1 done start =>
    obtain ⟨starts, complete⟩ := of_decide_eq_true check
    have run : ReceiverRun (fun _ _ => True) ([] ++ done :: ([] ++ start :: [])) r tba := run
    exact ⟨done, start, r, tba, run, starts, complete,
      ReceiverRun.complete_content_iff (by decide) run starts (by simp) complete⟩
  case h_2 => cases check

/-- A first frame that comes in the middle of a transfer with the same transfer ID does not start over: the
two frames before it stay in the buffer in front of its own bytes. -/
theorem ReceiverRun.earlier_frames_kept : ∃ (done start middle earlier : Call 32) (r : TransferReceiver)
    (tba : TransferBufferAccessor 32),
    ReceiverRun (fun _ _ => True) [done, start, middle, earlier] r tba ∧ start.Starts ∧
      done.result = .complete ∧ Call.received [done, start] = [11, 12, 13, 14, 15, 16] ∧
      done.afterBuffer.content = [1, 2, 3, 4, 5, 6, 11, 12, 13, 14, 15, 16] := by
  obtain ⟨calls, r, tba, run, check⟩ := ReceiverRun.exists_of_feed (fun _ _ => True)
    (show Sample.accessor.access = none from rfl) Sample.memory
    [Sample.frame 0 true false false 1 [7, 8, 1, 2, 3, 4, 5], Sample.frame 0 false false true 2 [6],
      Sample.frame 0 true false false 3 [9, 10, 11, 12, 13, 14, 15], Sample.frame 0 false true true 4 [16]]
    Sample.keepsEarlier (by decide +kernel)
  unfold Sample.keepsEarlier at check
  split at check
  case h_1 done start middle earlier =>
    exact ⟨done, start, middle, earlier, r, tba, run, of_decide_eq_true check⟩
  case h_2 => cases check

end Uavcan
