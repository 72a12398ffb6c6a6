import Mathlib.Data.List.Perm.Basic
import Uavcan.Linux.SocketCanIface

/-!
# What becomes of the frames that are sent

Every item that was sent waits in the queue, was written to the socket, or was given up and counted as an error
(`Conserved`).  The queue is sorted by arbitration and, among frames of the same priority, by the order in which they
were sent, so that the item that is taken goes before all that wait.
-/

namespace Uavcan

open List

namespace SocketCanIface

/-! ## The order of the queue -/

/-- The item goes first: it wins on the bus, or it has the same priority and was sent before. -/
def TxItem.Precedes (tx other : TxItem) : Prop :=
  tx.frame.arbitration < other.frame.arbitration ∨
    tx.frame.arbitration = other.frame.arbitration ∧ tx.order < other.order

theorem TxItem.lt_iff {tx other : TxItem} : other.lt tx = true ↔ tx.Precedes other := by
  have higher := CanFrame.priorityHigherThan_iff tx.frame other.frame
  have lower := CanFrame.priorityHigherThan_iff other.frame tx.frame
  unfold TxItem.lt TxItem.Precedes CanFrame.priorityLowerThan
  split
  · rename_i wins
    exact iff_of_true rfl (.inl (higher.mp wins))
  · rename_i wins
    rw [higher] at wins
    split
    · rename_i loses
      rw [lower] at loses
      exact iff_of_false (by decide) (by omega)
    · rename_i loses
      rw [lower] at loses
      rw [decide_eq_true_eq]
      omega

theorem TxItem.Precedes.trans {a b c : TxItem} (first : a.Precedes b) (second : b.Precedes c) : a.Precedes c := by
  unfold TxItem.Precedes at *
  omega

/-- In the words of the driver: nothing that waits wins on the bus, and what has the same priority was sent later. -/
theorem TxItem.Precedes.explicit {tx other : TxItem} (precedes : tx.Precedes other) :
    ¬other.frame.priorityHigherThan tx.frame ∧
      (¬tx.frame.priorityHigherThan other.frame → tx.order < other.order) := by
  rw [CanFrame.priorityHigherThan_iff, CanFrame.priorityHigherThan_iff]
  unfold TxItem.Precedes at precedes
  omega

theorem pairwise_emplace {iface : SocketCanIface} {tx : TxItem} (sorted : iface.txQueue.Pairwise TxItem.Precedes)
    (newest : ∀ other ∈ iface.txQueue, other.order < tx.order) :
    (iface.emplace tx).txQueue.Pairwise TxItem.Precedes := by
  refine Queues.pairwise_insertBefore sorted (fun other mem notLower => ?_)
    (fun other _ lower => TxItem.lt_iff.mp lower)
    fun other later lower precedes => TxItem.lt_iff.mpr ((TxItem.lt_iff.mp lower).trans precedes)
  have notBefore : ¬tx.Precedes other := fun precedes => by
    rw [TxItem.lt_iff.mpr precedes] at notLower
    cases notLower
  have older := newest other mem
  unfold TxItem.Precedes at *
  omega

/-! ## Conservation -/

structure Conserved (maxFrames : ℕ) (line : Line) : Prop where
  maximum : line.iface.maxFramesInSocketTxQueue = maxFrames
  serials : line.sent.map TxItem.order = List.range line.iface.txFrameCounter
  parts : line.sent.Perm (line.iface.txQueue ++ (line.written ++ (line.timedOut ++ line.unwritten)))
  timeouts : line.iface.errors .txTimeout = line.timedOut.length
  failures : line.iface.errors .socketWriteFailure = line.unwritten.length
  inSocket : line.written = line.confirmed ++ line.socket
  frames : line.iface.framesInSocketTxQueue = line.socket.length
  bounded : line.iface.framesInSocketTxQueue ≤ maxFrames
  asserted : line.assertionsHold = true
  sorted : line.iface.txQueue.Pairwise TxItem.Precedes
  ordered : ∀ t ∈ line.taken, ∀ other ∈ t.waiting, t.tx.Precedes other

namespace Conserved

variable {maxFrames : ℕ} {line line' : Line}

theorem start (maxFrames : ℕ) : Conserved maxFrames (.start maxFrames) where
  maximum := rfl
  serials := rfl
  parts := .nil
  timeouts := rfl
  failures := rfl
  inSocket := rfl
  frames := rfl
  bounded := Nat.zero_le _
  asserted := rfl
  sorted := .nil
  ordered := nofun

variable {tx : TxItem}

theorem registerError_other (iface : SocketCanIface) {e other : SocketCanError} (ne : other ≠ e) :
    (iface.registerError e).errors other = iface.errors other :=
  Function.update_of_ne ne _ _

theorem registerError_self (iface : SocketCanIface) (e : SocketCanError) :
    (iface.registerError e).errors e = iface.errors e + 1 :=
  Function.update_self ..

/-- A frame is confirmed; the queues and the counters of errors stay. -/
theorem acceptFrame_frame (iface : SocketCanIface) (rx : RxItem) (adjustment : ℤ) :
    let iface' := iface.acceptFrame rx true adjustment
    iface'.maxFramesInSocketTxQueue = iface.maxFramesInSocketTxQueue ∧
      iface'.framesInSocketTxQueue = iface.framesInSocketTxQueue - 1 ∧
      iface'.txFrameCounter = iface.txFrameCounter ∧ iface'.errors = iface.errors ∧
      iface'.txQueue = iface.txQueue := by
  rw [acceptFrame_loopback]
  split
  · exact ⟨rfl, rfl, rfl, rfl, rfl⟩
  · exact ⟨rfl, rfl, rfl, rfl, rfl⟩

section

variable (conserved : Conserved maxFrames line)

include conserved

theorem order_lt (mem : tx ∈ line.sent) :
    tx.order < line.iface.txFrameCounter := by
  have listed : tx.order ∈ line.sent.map TxItem.order := mem_map_of_mem mem
  rw [conserved.serials] at listed
  exact mem_range.mp listed

theorem push (frame : CanFrame) (txDeadline : ℕ) (flags : CanIOFlags) :
    Conserved maxFrames (line.push frame txDeadline flags) where
  maximum := conserved.maximum
  serials := by
    simp only [Line.push, map_append, conserved.serials, emplace, range_succ, map_cons, map_nil]
  parts := by
    refine (perm_append_comm.trans (List.Perm.cons _ conserved.parts)).trans ?_
    exact (Queues.perm_insertBefore.symm).append_right _
  timeouts := conserved.timeouts
  failures := conserved.failures
  inSocket := conserved.inSocket
  frames := conserved.frames
  bounded := conserved.bounded
  asserted := conserved.asserted
  sorted := pairwise_emplace conserved.sorted fun other mem =>
    conserved.order_lt (conserved.parts.mem_iff.mpr (mem_append_left _ mem))
  ordered := conserved.ordered

/-- The item at the front of the queue is taken, whatever becomes of it. -/
theorem take {rest : List TxItem} (queue : line.iface.txQueue = tx :: rest) :
    (line.take tx rest).assertionsHold = true ∧ rest.Pairwise TxItem.Precedes ∧
      ∀ t ∈ (line.take tx rest).taken, ∀ other ∈ t.waiting, t.tx.Precedes other := by
  have sorted := conserved.sorted
  rw [queue, pairwise_cons] at sorted
  refine ⟨?_, sorted.2, fun t mem => ?_⟩
  · cases rest with
    | nil => simp [Line.take, conserved.asserted]
    | cons next rest =>
      have notLower := ((sorted.1 next (mem_cons_self ..)).explicit).1
      simp only [Line.take, conserved.asserted, CanFrame.priorityLowerThan, Bool.not_eq_true] at notLower ⊢
      rw [notLower]
      rfl
  · rcases mem_append.mp mem with earlier | now
    · exact conserved.ordered t earlier
    · obtain rfl := mem_singleton.mp now
      exact sorted.1

theorem wrote {rest : List TxItem} (queue : line.iface.txQueue = tx :: rest)
    (room : line.iface.framesInSocketTxQueue < line.iface.maxFramesInSocketTxQueue) :
    Conserved maxFrames ((line.take tx rest).wrote tx) := by
  obtain ⟨asserted, sorted, ordered⟩ := conserved.take queue
  have parts := conserved.parts
  rw [queue] at parts
  have moved := parts.trans (Queues.perm_move tx rest line.written (line.timedOut ++ line.unwritten))
  -- the pending identifiers play no role here
  have same : ∀ ids, Conserved maxFrames
      { line.take tx rest with
        iface := { (line.take tx rest).iface.incrementNumFramesInSocketTxQueue with pendingLoopbackIds := ids }
        socket := line.socket ++ [tx]
        written := line.written ++ [tx]
        assertionsHold := (line.take tx rest).assertionsHold && decide
          (line.iface.framesInSocketTxQueue < line.iface.maxFramesInSocketTxQueue) } := fun ids => {
    maximum := conserved.maximum
    serials := conserved.serials
    parts := moved
    timeouts := conserved.timeouts
    failures := conserved.failures
    inSocket := (congrArg (· ++ [tx]) conserved.inSocket).trans (append_assoc ..)
    frames := (congrArg (· + 1) conserved.frames).trans (@length_append _ _ [tx]).symm
    bounded := conserved.maximum ▸ room
    asserted := by
      rw [asserted, decide_eq_true room]
      rfl
    sorted := sorted
    ordered := ordered }
  unfold Line.wrote
  split
  · exact same _
  · exact same _

theorem write {answer : WriteAnswer}
    (turn : line.writeTurn answer = some line') : Conserved maxFrames line' := by
  obtain ⟨tx, rest, queue, room, outcome⟩ := writeTurn_cases turn
  obtain ⟨asserted, sorted, ordered⟩ := conserved.take queue
  have parts := conserved.parts
  rw [queue] at parts
  cases outcome with
  | wrote _ _ => exact conserved.wrote queue room
  | unwritten =>
    refine { conserved with
      parts := ?_, timeouts := ?_, failures := ?_, asserted := asserted, sorted := sorted, ordered := ordered }
    · have moved : (tx :: rest ++ (line.written ++ (line.timedOut ++ line.unwritten))).Perm
          (rest ++ (line.written ++ (line.timedOut ++ (line.unwritten ++ [tx])))) := by
        simpa using
          Queues.perm_move tx rest (line.written ++ (line.timedOut ++ line.unwritten)) []
      exact parts.trans moved
    · exact (registerError_other _ (show SocketCanError.txTimeout ≠ .socketWriteFailure from nofun)).trans
        conserved.timeouts
    · exact (registerError_self ..).trans ((congrArg (· + 1) conserved.failures).trans (@length_append _ _ [tx]).symm)
  | timedOut =>
    refine { conserved with
      parts := ?_, timeouts := ?_, failures := ?_, asserted := asserted, sorted := sorted, ordered := ordered }
    · have moved : (tx :: rest ++ (line.written ++ (line.timedOut ++ line.unwritten))).Perm
          (rest ++ (line.written ++ (line.timedOut ++ [tx] ++ line.unwritten))) := by
        simpa using Queues.perm_move tx rest (line.written ++ line.timedOut) line.unwritten
      exact parts.trans moved
    · exact (registerError_self ..).trans ((congrArg (· + 1) conserved.timeouts).trans (@length_append _ _ [tx]).symm)
    · exact (registerError_other _ (show SocketCanError.socketWriteFailure ≠ .txTimeout from nofun)).trans
        conserved.failures

theorem read (outcome : ReadOutcome line line') :
    Conserved maxFrames line' := by
  cases outcome with
  | nothing => exact conserved
  | failed =>
    refine { conserved with timeouts := ?_, failures := ?_ }
    · exact (registerError_other _ (show SocketCanError.txTimeout ≠ .socketReadFailure from nofun)).trans
        conserved.timeouts
    · exact (registerError_other _ (show SocketCanError.socketWriteFailure ≠ .socketReadFailure from nofun)).trans
        conserved.failures
  | @confirmed tx rest oldest tsMono tsUtc adjustment =>
    have frames := conserved.frames
    have inSocket := conserved.inSocket
    rw [oldest] at frames inSocket
    obtain ⟨maximum, fewer, counter, errors, queue⟩ := acceptFrame_frame line.iface
      ⟨makeUavcanFrame (makeSocketCanFrame tx.frame), tsMono, tsUtc, 0⟩ adjustment
    constructor
    · exact maximum.trans conserved.maximum
    · rw [counter]
      exact conserved.serials
    · rw [queue]
      exact conserved.parts
    · rw [errors]
      exact conserved.timeouts
    · rw [errors]
      exact conserved.failures
    · rw [inSocket, append_assoc]
      rfl
    · rw [fewer, frames]
      rfl
    · rw [fewer]
      exact Nat.le_trans (Nat.sub_le _ _) conserved.bounded
    · -- there was a frame in the socket
      rw [conserved.asserted, frames]
      rfl
    · rw [queue]
      exact conserved.sorted
    · exact conserved.ordered
  | received rx unflagged => exact { conserved with }

theorem step {a : Step} (taken : exec line a = some line') :
    Conserved maxFrames line' := by
  cases a with
  | push frame short txDeadline flags =>
    cases taken
    exact conserved.push frame txDeadline flags
  | write answer => exact conserved.write taken
  | read answer =>
    simp only [exec, Option.map_eq_some_iff] at taken
    obtain ⟨⟨more, next⟩, turn, rfl⟩ := taken
    exact conserved.read (readTurn_outcome turn)
  | pop =>
    cases taken
    unfold Line.pop
    split
    · exact conserved
    · exact { conserved with }
  | configureFilters configs =>
    cases taken
    exact { conserved with }

theorem nodup :
    (line.iface.txQueue ++ (line.written ++ (line.timedOut ++ line.unwritten))).Nodup := by
  refine conserved.parts.nodup_iff.mp (List.Nodup.of_map TxItem.order ?_)
  rw [conserved.serials]
  exact nodup_range

end

end Conserved

/-- In every state that calls of the methods lead to, with one confirmation for each written frame: every item that was
sent is in the queue, or was written, or was counted as an error, once; the counter of frames in the socket is right
and within its bound, and no assertion has failed; and an item that was taken went before all that waited. -/
theorem tx_items_conserved (maxFrames : ℕ) (line : Line)
    (run : Machines.Reach invoke (fun _ _ => True) (.start maxFrames) line) :
    (line.sent.Perm (line.iface.txQueue ++ (line.written ++ (line.timedOut ++ line.unwritten))) ∧
      (line.iface.txQueue ++ (line.written ++ (line.timedOut ++ line.unwritten))).Nodup ∧
      line.iface.errors .txTimeout = line.timedOut.length ∧
      line.iface.errors .socketWriteFailure = line.unwritten.length) ∧
    (line.written = line.confirmed ++ line.socket ∧ line.iface.framesInSocketTxQueue = line.socket.length ∧
      line.iface.framesInSocketTxQueue ≤ maxFrames ∧ line.assertionsHold = true) ∧
    line.sent.map TxItem.order = List.range line.sent.length ∧
    ∀ t ∈ line.taken, ∀ other ∈ t.waiting, ¬other.frame.priorityHigherThan t.tx.frame ∧
      (¬t.tx.frame.priorityHigherThan other.frame → t.tx.order < other.order) := by
  have conserved : Conserved maxFrames line := by
    refine run.invariant (Conserved.start maxFrames) fun before _ done => ?_
    exact (invoke_reach done).invariant before fun before _ taken => before.step taken
  have serials := conserved.serials
  have count : line.sent.length = line.iface.txFrameCounter := by
    rw [← length_map TxItem.order, serials, length_range]
  refine ⟨⟨conserved.parts, conserved.nodup, conserved.timeouts, conserved.failures⟩,
    ⟨conserved.inSocket, conserved.frames, conserved.bounded, conserved.asserted⟩, ?_, fun t mem other waiting => ?_⟩
  · rw [count]
    exact serials
  · exact (conserved.ordered t mem other waiting).explicit

/-- Of the two frames that have to wait, the one that is sent last goes first. -/
theorem tx_items_conserved_sample :
    ∃ line : Line, (line.written.map fun tx => tx.order) = [0, 2] ∧
      line.iface.framesInSocketTxQueue = line.socket.length ∧
      line.iface.framesInSocketTxQueue ≤ 1 ∧ line.assertionsHold = true := by
  obtain ⟨line, run, written⟩ := Machines.Reach.exists_of_play invoke (fun _ _ => True) (.start 1)
    [Sample.send 5 0, Sample.send 6 0, Sample.send 4 0, Sample.confirm 1]
    (fun line => (line.written.map fun tx => tx.order) = [0, 2]) (by decide +kernel)
  obtain ⟨-, ⟨-, frames, bounded, asserted⟩, -⟩ := tx_items_conserved 1 line run
  exact ⟨line, written, frames, bounded, asserted⟩

end SocketCanIface

end Uavcan
