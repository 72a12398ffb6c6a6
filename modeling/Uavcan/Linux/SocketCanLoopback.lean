import Uavcan.Linux.SocketCanTx

/-!
# Loopback of the frames that are sent

The interface remembers only the identifiers of the frames whose copies it has to hand on.  As long as no two of them
in the socket have the same identifier, the copies that are handed on are those that were asked for.
-/

namespace Uavcan

open List

namespace SocketCanIface

/-- A loopback of the item was asked for. -/
def TxItem.flagged (tx : TxItem) : Bool := hasLoopback tx.flags

/-- The received frame is a loopback. -/
def RxItem.looped (rx : RxItem) : Bool := hasLoopback rx.flags

/-- The frames of the received items that are loopbacks. -/
def loopbackFrames (rxs : List RxItem) : List CanFrame := (rxs.filter RxItem.looped).map RxItem.frame

/-- The frames of the items whose loopback was asked for. -/
def requestedFrames (txs : List TxItem) : List CanFrame := (txs.filter TxItem.flagged).map TxItem.frame

theorem loopbackFrames_append (xs ys : List RxItem) :
    loopbackFrames (xs ++ ys) = loopbackFrames xs ++ loopbackFrames ys := by
  simp [loopbackFrames]

theorem requestedFrames_append (xs ys : List TxItem) :
    requestedFrames (xs ++ ys) = requestedFrames xs ++ requestedFrames ys := by
  simp [requestedFrames]

/-- Identifiers are used either with the flag or without it, as `flagged` says, and a frame with the flag is written
only if its identifier is not pending. -/
def Distinct (flagged : UInt32 → Bool) (line : Line) : Step → Prop
  | .push frame _ _ flags => hasLoopback flags = flagged frame.id
  | .write answer => ∀ tx ∈ line.iface.txQueue.head?, answer.now ≤ tx.deadline → answer.written = true →
      tx.flagged = true → tx.frame.id ∉ line.iface.pendingLoopbackIds
  | _ => True

/-- An item whose identifier is used as it should be. -/
def TxItem.Regular (flagged : UInt32 → Bool) (tx : TxItem) : Prop :=
  tx.flagged = flagged tx.frame.id ∧ tx.frame.data.length ≤ CanFrame.maxDataLen

/-- The pending identifiers are those of the flagged frames in the socket, and what was handed on was asked for. -/
structure Tracked (flagged : UInt32 → Bool) (line : Line) : Prop where
  waiting : ∀ tx ∈ line.iface.txQueue, tx.Regular flagged
  inSocket : ∀ tx ∈ line.socket, tx.Regular flagged
  pending : line.iface.pendingLoopbackIds.Perm ((line.socket.filter TxItem.flagged).map fun tx => tx.frame.id)
  distinct : line.iface.pendingLoopbackIds.Nodup
  complete : loopbackFrames (line.returned ++ line.iface.rxQueue) = requestedFrames line.confirmed

namespace Tracked

variable {flagged : UInt32 → Bool} {line line' : Line}

theorem start (flagged : UInt32 → Bool) (maxFrames : ℕ) : Tracked flagged (.start maxFrames) :=
  ⟨nofun, nofun, .nil, .nil, rfl⟩

section

variable (tracked : Tracked flagged line)

include tracked

theorem flagged_of_pending {id : UInt32} (mem : id ∈ line.iface.pendingLoopbackIds) :
    flagged id = true := by
  obtain ⟨tx, listed, rfl⟩ := mem_map.mp (tracked.pending.mem_iff.mp mem)
  obtain ⟨mem, asked⟩ := mem_filter.mp listed
  exact (tracked.inSocket tx mem).1.symm.trans asked

theorem write {answer : WriteAnswer} (distinct : Distinct flagged line (.write answer))
    (turn : line.writeTurn answer = some line') : Tracked flagged line' := by
  obtain ⟨tx, rest, queue, -, outcome⟩ := writeTurn_cases turn
  have waiting := tracked.waiting
  rw [queue, forall_mem_cons] at waiting
  cases outcome with
  | wrote inTime written =>
    have inSocket : ∀ item ∈ line.socket ++ [tx], item.Regular flagged :=
      forall_mem_append.mpr ⟨tracked.inSocket, forall_mem_singleton.mpr waiting.1⟩
    unfold Line.wrote
    split
    · rename_i asked
      have fresh : tx.frame.id ∉ line.iface.pendingLoopbackIds :=
        distinct tx (by rw [queue]; rfl) inTime written asked
      have pending : (tx.frame.id :: line.iface.pendingLoopbackIds).Perm
          (((line.socket ++ [tx]).filter TxItem.flagged).map fun tx => tx.frame.id) := by
        rw [filter_append, filter_cons_of_pos (show TxItem.flagged tx = true from asked), map_append]
        exact (tracked.pending.cons _).trans (perm_append_singleton _ _).symm
      exact ⟨waiting.2, inSocket, pending, nodup_cons.mpr ⟨fresh, tracked.distinct⟩, tracked.complete⟩
    · rename_i unasked
      have pending : line.iface.pendingLoopbackIds.Perm
          (((line.socket ++ [tx]).filter TxItem.flagged).map fun tx => tx.frame.id) := by
        rw [filter_append, filter_cons_of_neg (show ¬TxItem.flagged tx = true from unasked), filter_nil,
          append_nil]
        exact tracked.pending
      exact ⟨waiting.2, inSocket, pending, tracked.distinct, tracked.complete⟩
  | unwritten => exact { tracked with waiting := waiting.2 }
  | timedOut => exact { tracked with waiting := waiting.2 }

/-- The copy of the oldest frame in the socket is handed on exactly if this was asked for. -/
theorem confirm {tx : TxItem} {rest : List TxItem} (oldest : line.socket = tx :: rest)
    (tsMono tsUtc : ℕ) (adjustment : ℤ) (held : Bool) :
    Tracked flagged
      { line with
        iface := line.iface.acceptFrame ⟨makeUavcanFrame (makeSocketCanFrame tx.frame), tsMono, tsUtc, 0⟩
          true adjustment
        socket := rest
        confirmed := line.confirmed ++ [tx]
        assertionsHold := held } := by
  have inSocket := tracked.inSocket
  have pending := tracked.pending
  rw [oldest, forall_mem_cons] at inSocket
  rw [oldest] at pending
  rw [makeUavcanFrame_makeSocketCanFrame inSocket.1.2, acceptFrame_loopback]
  rcases asked : tx.flagged with _ | _
  · -- no pending identifier is one that is used without the flag
    have notPending : tx.frame.id ∉ line.iface.pendingLoopbackIds := fun mem => by
      have used := inSocket.1.1
      rw [asked, tracked.flagged_of_pending mem] at used
      cases used
    rw [if_neg notPending]
    rw [filter_cons_of_neg (by rw [asked]; decide)] at pending
    refine ⟨tracked.waiting, inSocket.2, pending, tracked.distinct, tracked.complete.trans ?_⟩
    simp [requestedFrames, asked]
  · rw [filter_cons_of_pos asked, map_cons] at pending
    have isPending : tx.frame.id ∈ line.iface.pendingLoopbackIds := pending.mem_iff.mpr (mem_cons_self ..)
    rw [if_pos isPending]
    have unique := nodup_cons.mp (pending.nodup_iff.mp tracked.distinct)
    refine ⟨tracked.waiting, inSocket.2, ?_, tracked.distinct.filter _, ?_⟩
    · -- the identifier is pending once, so that nothing else is removed
      have removed := pending.filter (fun id => decide (id ≠ tx.frame.id))
      rw [filter_cons_of_neg (by simp)] at removed
      refine removed.trans (List.Perm.of_eq (filter_eq_self.mpr fun id mem => ?_))
      exact decide_eq_true fun same => unique.1 (same ▸ mem)
    · rw [← append_assoc, loopbackFrames_append, requestedFrames_append, tracked.complete]
      refine congrArg (requestedFrames line.confirmed ++ ·) ?_
      have reported : RxItem.looped
          ⟨tx.frame, tsMono, timeAdd tsUtc adjustment, 0 ||| canIOFlagLoopback⟩ = true :=
        show hasLoopback (0 ||| canIOFlagLoopback) = true by decide
      rw [loopbackFrames, requestedFrames, filter_cons_of_pos asked, filter_cons_of_pos reported]
      rfl

theorem read (outcome : ReadOutcome line line') : Tracked flagged line' := by
  cases outcome with
  | nothing => exact tracked
  | failed => exact { tracked with }
  | confirmed oldest tsMono tsUtc adjustment => exact tracked.confirm oldest tsMono tsUtc adjustment _
  | received rx unflagged =>
    refine { tracked with complete := ?_ }
    have plain : RxItem.looped rx = false := by
      rw [RxItem.looped, unflagged]
      rfl
    rw [← append_assoc, loopbackFrames_append, tracked.complete]
    simp [loopbackFrames, plain]

theorem step {a : Step} (distinct : Distinct flagged line a)
    (taken : exec line a = some line') : Tracked flagged line' := by
  cases a with
  | push frame short txDeadline flags =>
    cases taken
    refine { tracked with waiting := fun tx mem => ?_ }
    rcases Queues.mem_insertBefore.mp mem with rfl | old
    · exact ⟨distinct, short⟩
    · exact tracked.waiting tx old
  | write answer => exact tracked.write distinct taken
  | read answer =>
    simp only [exec, Option.map_eq_some_iff] at taken
    obtain ⟨⟨more, next⟩, turn, rfl⟩ := taken
    exact tracked.read (readTurn_outcome turn)
  | pop =>
    cases taken
    unfold Line.pop
    split
    · exact tracked
    · rename_i rx rest queue
      refine { tracked with complete := ?_ }
      have complete := tracked.complete
      rw [queue] at complete
      rwa [append_assoc]
  | configureFilters configs =>
    cases taken
    exact { tracked with }

end

end Tracked

/-- In a run where a flagged frame is written only while its identifier is not pending, the frames that are received as
loopbacks are those that were sent with the flag and confirmed, one for each and in the same order. -/
theorem loopbacks_complete (flagged : UInt32 → Bool) (maxFrames : ℕ) (line : Line)
    (run : Machines.Reach exec (Distinct flagged) (.start maxFrames) line) :
    line.written = line.confirmed ++ line.socket ∧
      loopbackFrames (line.returned ++ line.iface.rxQueue) = requestedFrames line.confirmed := by
  have conserved : Conserved maxFrames line :=
    run.invariant (Conserved.start maxFrames) fun before _ taken => before.step taken
  have tracked : Tracked flagged line :=
    run.invariant (Tracked.start flagged maxFrames) fun before distinct taken => before.step distinct taken
  exact ⟨conserved.inSocket, tracked.complete⟩

/-- The guard holds for the step, in a form that can be evaluated. -/
instance (flagged : UInt32 → Bool) (line : Line) (a : Step) : Decidable (Distinct flagged line a) :=
  match a with
  | .push frame _ _ flags => inferInstanceAs (Decidable (hasLoopback flags = flagged frame.id))
  | .write answer => inferInstanceAs (Decidable (∀ tx ∈ line.iface.txQueue.head?, answer.now ≤ tx.deadline →
      answer.written = true → tx.flagged = true → tx.frame.id ∉ line.iface.pendingLoopbackIds))
  | .read _ => inferInstanceAs (Decidable True)
  | .pop => inferInstanceAs (Decidable True)
  | .configureFilters _ => inferInstanceAs (Decidable True)

/-- Two frames with the same identifier, one after the other has come back. -/
theorem loopbacks_complete_sample :
    ∃ line : Line, line.confirmed.length = 2 ∧
      loopbackFrames (line.returned ++ line.iface.rxQueue) = requestedFrames line.confirmed := by
  obtain ⟨line, run, confirmed⟩ := Machines.Reach.exists_of_play exec (Distinct fun _ => true) (.start 2)
    [.push (Sample.frame 5) (by decide) 10 1, .write ⟨5, true⟩, .read (.confirmed 7 8 0),
      .push (Sample.frame 5) (by decide) 10 1, .write ⟨5, true⟩, .read (.confirmed 9 10 0)]
    (fun line => line.confirmed.length = 2) (by decide +kernel)
  exact ⟨line, confirmed, (loopbacks_complete (fun _ => true) 2 line run).2⟩

/-- Two frames with the same identifier are in the socket at the same time: the first copy removes both identifiers,
and the second copy is not handed on. -/
theorem loopback_lost :
    ∃ line : Line, Machines.Reach invoke (fun _ _ => True) (.start 2) line ∧ (∀ tx ∈ line.sent, tx.flagged = true) ∧
      line.confirmed.length = 2 ∧ (loopbackFrames (line.returned ++ line.iface.rxQueue)).length = 1 :=
  Machines.Reach.exists_of_play invoke _ (.start 2) [Sample.send 5 1, Sample.send 5 1, Sample.confirm 2] _
    (by decide +kernel)

end SocketCanIface

end Uavcan
