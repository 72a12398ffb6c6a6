import Uavcan.Linux.SocketCanLoopback

/-!
# Reading until the socket is empty

`pollRead` goes on until `read` returns zero. That is so if nothing can be read, but also if a frame was read that the
filters do not let through: what is in the socket behind such a frame is left there.
-/

namespace Uavcan

open List

namespace SocketCanIface

/-- What may be in the receive buffer of the socket: a confirmation, or a frame with its time stamp. -/
def ReadAnswer.isBuffered : ReadAnswer → Bool
  | .confirmed .. | .received _ (some _) .. => true
  | _ => false

def ReadAnswer.isConfirmation : ReadAnswer → Bool
  | .confirmed .. => true
  | _ => false

/-- The filters do not stop it. -/
def passes (iface : SocketCanIface) : ReadAnswer → Bool
  | .received frame .. => iface.checkHWFilters frame
  | _ => true

/-- The item that a frame is received as, if it passes the filters. -/
def received (iface : SocketCanIface) : ReadAnswer → List RxItem
  | .received frame (some tsUtc) tsMono adjustment =>
    if iface.checkHWFilters frame then [⟨makeUavcanFrame frame, tsMono, timeAdd tsUtc adjustment, 0⟩] else []
  | _ => []

/-- `pollRead`, with what is left in the receive buffer. -/
def Line.drain : List ReadAnswer → Line → Option (List ReadAnswer × Line)
  | [], line => some ([], line)
  | answer :: buffer, line =>
    (line.readTurn answer).bind fun (more, line) => if more then drain buffer line else some (buffer, line)

/-- The received items that are not loopbacks. -/
def Line.frames (line : Line) : List RxItem := line.iface.rxQueue.filter fun rx => !rx.looped

/-- Nothing is left of the buffer, the frames that pass the filters are in the queue, in order, and the confirmations
have been counted. -/
structure Drained (line : Line) (buffer left : List ReadAnswer) (line' : Line) : Prop where
  empty : left = []
  received : line'.frames = line.frames ++ buffer.flatMap line.iface.received
  confirmed : line'.iface.framesInSocketTxQueue =
    line.iface.framesInSocketTxQueue - buffer.countP ReadAnswer.isConfirmation

variable {line line' : Line}

theorem pollRead_eq (buffer : List ReadAnswer) (line : Line) :
    Line.pollRead buffer line = (Line.drain buffer line).map Prod.snd := by
  induction buffer generalizing line with
  | nil => rfl
  | cons answer buffer ih =>
    rw [Line.pollRead, Line.drain]
    rcases line.readTurn answer with _ | ⟨more, next⟩
    · rfl
    · cases more with
      | false => rfl
      | true => exact ih next

/-- The turn for something that passes the filters. -/
theorem readTurn_of_passes {answer : ReadAnswer} (buffered : answer.isBuffered) (passes : line.iface.passes answer)
    (sent : answer.isConfirmation.toNat ≤ line.socket.length) :
    ∃ next, line.readTurn answer = some (true, next) ∧
      next.iface.hwFiltersContainer = line.iface.hwFiltersContainer ∧
      next.frames = line.frames ++ line.iface.received answer ∧
      next.iface.framesInSocketTxQueue = line.iface.framesInSocketTxQueue - answer.isConfirmation.toNat ∧
      next.socket.length = line.socket.length - answer.isConfirmation.toNat := by
  cases answer with
  | wouldBlock => cases buffered
  | failed => cases buffered
  | confirmed tsMono tsUtc adjustment =>
    rcases socket : line.socket with _ | ⟨tx, rest⟩
    · rw [socket] at sent
      cases sent
    · simp only [Line.readTurn, socket, acceptFrame_loopback]
      refine ⟨_, rfl, ?_⟩
      split
      · -- the copy is a loopback, not a frame from the bus
        refine ⟨rfl, ?_, rfl, rfl⟩
        rw [Line.frames, filter_append, filter_cons_of_neg (by
          rw [RxItem.looped, show hasLoopback (0 ||| canIOFlagLoopback) = true by decide]
          decide)]
        rfl
      · exact ⟨rfl, (append_nil _).symm, rfl, rfl⟩
  | received frame tsUtc tsMono adjustment =>
    cases tsUtc with
    | none => cases buffered
    | some tsUtc =>
      have passed : line.iface.checkHWFilters frame = true := passes
      refine ⟨_, if_pos passed, rfl, ?_, rfl, rfl⟩
      rw [received, if_pos passed]
      simp only [Line.frames, acceptFrame, Bool.false_eq_true, if_false, if_true, filter_append]
      rw [filter_cons_of_pos (by simp [RxItem.looped, hasLoopback]), filter_nil]

/-- Nothing is left in the socket exactly if the filters stop nothing but what was last in it. -/
theorem drained_iff (line : Line) (buffer : List ReadAnswer) (buffered : ∀ answer ∈ buffer, answer.isBuffered)
    (sent : buffer.countP ReadAnswer.isConfirmation ≤ line.socket.length) :
    ∃ left line', line.drain buffer = some (left, line') ∧ line.pollRead buffer = some line' ∧
      (Drained line buffer left line' ↔ ∀ answer ∈ buffer.dropLast, line.iface.passes answer) := by
  suffices drained : ∃ left line', line.drain buffer = some (left, line') ∧
      (Drained line buffer left line' ↔ ∀ answer ∈ buffer.dropLast, line.iface.passes answer) by
    obtain ⟨left, line', done, iff⟩ := drained
    exact ⟨left, line', done, by rw [pollRead_eq, done]; rfl, iff⟩
  induction buffer generalizing line with
  | nil => exact ⟨[], line, rfl, iff_of_true ⟨rfl, (append_nil _).symm, rfl⟩ nofun⟩
  | cons answer buffer ih =>
    obtain ⟨here, later⟩ := forall_mem_cons.mp buffered
    have count : (answer :: buffer).countP ReadAnswer.isConfirmation =
        answer.isConfirmation.toNat + buffer.countP ReadAnswer.isConfirmation := by
      rw [countP_cons, Nat.add_comm]
      cases answer.isConfirmation with
      | false => rfl
      | true => rfl
    rw [count] at sent
    cases passes : line.iface.passes answer with
    | true =>
      obtain ⟨next, turn, filters, frames, counter, socket⟩ := readTurn_of_passes here passes (by omega)
      obtain ⟨left, line', done, iff⟩ := ih next later (by omega)
      have accepted : next.iface.passes = line.iface.passes ∧ next.iface.received = line.iface.received := by
        unfold SocketCanIface.passes SocketCanIface.received checkHWFilters
        rw [filters]
        exact ⟨rfl, rfl⟩
      rw [accepted.1] at iff
      refine ⟨left, line', by rw [Line.drain, turn]; exact done, Iff.trans ?_ (iff.trans ?_)⟩
      · constructor <;> intro drained
        all_goals
          refine ⟨drained.empty, ?_, ?_⟩
          · rw [drained.received, frames, accepted.2, flatMap_cons, append_assoc]
          · rw [drained.confirmed, counter, count, Nat.sub_sub]
      · cases buffer with
        | nil => exact Iff.rfl
        | cons second buffer => rw [dropLast_cons_cons, forall_mem_cons, passes, eq_self, true_and]
    | false =>
      cases answer with
      | received frame tsUtc tsMono adjustment =>
        have blocked : ¬line.iface.checkHWFilters frame = true := Bool.eq_false_iff.mp passes
        have stop : line.readTurn (.received frame tsUtc tsMono adjustment) = some (false, line) := if_neg blocked
        refine ⟨buffer, line, by rw [Line.drain, stop]; rfl, ?_⟩
        cases buffer with
        | nil =>
          refine iff_of_true ⟨rfl, ?_, rfl⟩ nofun
          cases tsUtc with
          | none => exact (append_nil _).symm
          | some tsUtc => simp [SocketCanIface.received, blocked]
        | cons second buffer =>
          refine iff_of_false (fun drained => by cases drained.empty) fun all => ?_
          cases passes.symm.trans (all _ (by simp))
      | _ => cases passes

/-- A frame is in the socket to be sent, and the one filter lets the identifiers through that end in the bits of 6. -/
def Sample.filtering : Line :=
  { Line.start 2 with
    iface := { construct 2 with hwFiltersContainer := [⟨6, 7⟩], framesInSocketTxQueue := 1 }
    socket := [⟨⟨1, []⟩, 9, 0, 0⟩] }

/-- Two frames that pass the filter and a confirmation, before one that does not pass. -/
def Sample.buffer : List ReadAnswer :=
  [.received ⟨6, [1]⟩ (some 8) 7 0, .confirmed 7 8 0, .received ⟨14, [2]⟩ (some 8) 7 0, .received ⟨5, [3]⟩ (some 8) 7 0]

theorem drained_sample : ∃ left line', Sample.filtering.pollRead Sample.buffer = some line' ∧
    Drained Sample.filtering Sample.buffer left line' := by
  obtain ⟨left, line', -, read, iff⟩ := drained_iff Sample.filtering Sample.buffer (by decide) (by decide)
  exact ⟨left, line', read, iff.mpr (by decide)⟩

/-- The filter lets the second frame through but not the first one: the second one is left in the socket. -/
theorem filtered_frame_stops :
    ∃ left line', Sample.filtering.drain [.received ⟨5, [1]⟩ (some 8) 7 0, .received ⟨6, [1]⟩ (some 8) 7 0] =
      some (left, line') ∧
        ¬Drained Sample.filtering [.received ⟨5, [1]⟩ (some 8) 7 0, .received ⟨6, [1]⟩ (some 8) 7 0] left line' :=
  ⟨_, _, rfl, fun drained => by cases drained.empty⟩

end SocketCanIface

end Uavcan
