import Uavcan.Driver.Arbitration
import Uavcan.Machines.Guarded
import Uavcan.Queues.Insertion
import Uavcan.Transport.CanAcceptanceFilterConfigurator
import Uavcan.Transport.OutgoingTransferRegistry

/-!
# An interface of the SocketCAN driver

`SocketCanIface` has a queue of frames to send, ordered by priority, and hands a few of them at a time to the
socket. The kernel confirms every frame that it has sent with a copy of it, and the interface puts the copy
into its queue of received frames if a loopback was asked for.

A `Line` is an interface with its socket and the record of a run: the items that were sent, that were taken
from the queue, and what became of them. The loops of the source are taken apart into their turns (`exec`),
and the methods are put together from them (`send`, `receive`, `poll`).
-/

namespace Uavcan

open CanFrame Option

namespace SocketCanIface

/-! ## Frames of the socket -/

/-- A `can_frame` of the kernel. -/
structure SocketCanFrame where
  canId : UInt32
  data : List UInt8
  deriving DecidableEq

def canEffFlag : UInt32 := 0x80000000

def canRtrFlag : UInt32 := 0x40000000

def canErrFlag : UInt32 := 0x20000000

def canEffMask : UInt32 := 0x1FFFFFFF

def makeSocketCanFrame (frame : CanFrame) : SocketCanFrame :=
  let canId := frame.id &&& CanFrame.maskExtID
  let canId := if frame.isExtended then canId ||| canEffFlag else canId
  let canId := if frame.isErrorFrame then canId ||| canErrFlag else canId
  let canId := if frame.isRemoteTransmissionRequest then canId ||| canRtrFlag else canId
  ⟨canId, frame.data⟩

def makeUavcanFrame (frame : SocketCanFrame) : CanFrame :=
  let id := frame.canId &&& canEffMask
  let id := if frame.canId &&& canEffFlag ≠ 0 then id ||| CanFrame.flagEFF else id
  let id := if frame.canId &&& canErrFlag ≠ 0 then id ||| CanFrame.flagERR else id
  let id := if frame.canId &&& canRtrFlag ≠ 0 then id ||| CanFrame.flagRTR else id
  ⟨id, frame.data.take CanFrame.maxDataLen⟩

/-- A bit of a word that is set is the bit. -/
theorem or_bit (x y : UInt32) (k : ℕ) (flag : UInt32) (bit : flag.toBitVec = BitVec.twoPow 32 k) :
    (if x &&& flag ≠ 0 then y ||| flag else y) = y ||| (x &&& flag) := by
  have value : (x &&& flag).toBitVec = if x.toBitVec.getLsbD k then BitVec.twoPow 32 k else 0#32 := by
    rw [UInt32.toBitVec_and, bit, BitVec.and_twoPow]
  split
  · rename_i set
    rw [← UInt32.toBitVec_inj, UInt32.toBitVec_or, UInt32.toBitVec_or, value, bit]
    split
    · rfl
    · rename_i clear
      rw [if_neg clear] at value
      exact absurd (UInt32.toBitVec_inj.mp value) set
  · rename_i clear
    rw [not_not.mp clear, UInt32.or_zero]

/-- The identifier and the three flags make up the word. -/
theorem join_bits (x : UInt32) :
    (x &&& maskExtID) ||| (x &&& flagEFF) ||| (x &&& flagERR) |||
      (x &&& flagRTR) = x := by
  rw [← UInt32.toBitVec_inj]
  simp only [UInt32.toBitVec_or, UInt32.toBitVec_and]
  rw [← BitVec.and_or_distrib_left, ← BitVec.and_or_distrib_left, ← BitVec.and_or_distrib_left]
  exact BitVec.and_allOnes

theorem makeSocketCanFrame_eq (frame : CanFrame) : makeSocketCanFrame frame = ⟨frame.id, frame.data⟩ := by
  have bits := join_bits frame.id
  simp only [makeSocketCanFrame, isExtended, isErrorFrame, isRemoteTransmissionRequest,
    decide_eq_true_eq]
  rw [show canEffFlag = flagEFF from rfl, show canErrFlag = flagERR from rfl,
    show canRtrFlag = flagRTR from rfl, or_bit frame.id _ 31 flagEFF rfl,
    or_bit frame.id _ 29 flagERR rfl, or_bit frame.id _ 30 flagRTR rfl]
  exact congrArg (SocketCanFrame.mk · frame.data) bits

theorem makeUavcanFrame_makeSocketCanFrame {frame : CanFrame} (short : frame.data.length ≤ maxDataLen) :
    makeUavcanFrame (makeSocketCanFrame frame) = frame := by
  have bits := join_bits frame.id
  rw [makeSocketCanFrame_eq, makeUavcanFrame, List.take_of_length_le short]
  rw [show canEffFlag = flagEFF from rfl, show canErrFlag = flagERR from rfl,
    show canRtrFlag = flagRTR from rfl, or_bit frame.id _ 31 flagEFF rfl, or_bit frame.id _ 29 flagERR rfl,
    or_bit frame.id _ 30 flagRTR rfl]
  exact congrArg (CanFrame.mk · frame.data) bits

/-! ## Items -/

abbrev CanIOFlags := UInt16

def canIOFlagLoopback : CanIOFlags := 1

/-- The flags ask for, or report, a loopback. -/
def hasLoopback (flags : CanIOFlags) : Bool := flags &&& canIOFlagLoopback ≠ 0

/-- `order` breaks ties of priority. -/
structure TxItem where
  frame : CanFrame
  deadline : ℕ
  flags : CanIOFlags
  order : ℕ
  deriving DecidableEq

/-- `TxItem::operator<`. -/
def TxItem.lt (tx rhs : TxItem) : Bool :=
  if tx.frame.priorityLowerThan rhs.frame then true
  else if tx.frame.priorityHigherThan rhs.frame then false
  else tx.order > rhs.order

structure RxItem where
  frame : CanFrame
  tsMono : ℕ
  tsUtc : ℕ
  flags : CanIOFlags
  deriving DecidableEq

inductive SocketCanError
  | socketReadFailure
  | socketWriteFailure
  | txTimeout
  deriving DecidableEq

/-- A `can_filter` of the kernel. -/
structure CanFilter where
  canId : UInt32
  canMask : UInt32
  deriving DecidableEq

end SocketCanIface

open SocketCanIface in
/-- The priority queue is the list of its items, the greatest one first. -/
structure SocketCanIface where
  maxFramesInSocketTxQueue : ℕ
  framesInSocketTxQueue : ℕ
  /-- Like the counters of errors, a `uint64_t` that no run brings near its limit. -/
  txFrameCounter : ℕ
  errors : SocketCanError → ℕ
  txQueue : List TxItem
  rxQueue : List RxItem
  pendingLoopbackIds : List UInt32
  hwFiltersContainer : List CanFilter

namespace SocketCanIface

def construct (maxFramesInSocketTxQueue : ℕ) : SocketCanIface :=
  ⟨maxFramesInSocketTxQueue, 0, 0, fun _ => 0, [], [], [], []⟩

variable (iface : SocketCanIface)

def registerError (e : SocketCanError) : SocketCanIface :=
  { iface with errors := Function.update iface.errors e (iface.errors e + 1) }

/-- `std::priority_queue::emplace`. -/
def emplace (tx : TxItem) : SocketCanIface :=
  { iface with txQueue := Queues.insertBefore (fun other => other.lt tx) tx iface.txQueue }

def incrementNumFramesInSocketTxQueue : SocketCanIface :=
  { iface with framesInSocketTxQueue := iface.framesInSocketTxQueue + 1 }

/-- The counter does not go below zero. -/
def confirmSentFrame : SocketCanIface :=
  if iface.framesInSocketTxQueue > 0 then { iface with framesInSocketTxQueue := iface.framesInSocketTxQueue - 1 }
  else iface

/-- `erase` with a key removes all elements that are equal to it. -/
def wasInPendingLoopbackSet (frame : CanFrame) : Bool × SocketCanIface :=
  if iface.pendingLoopbackIds.count frame.id > 0 then
    (true, { iface with pendingLoopbackIds := iface.pendingLoopbackIds.filter (· ≠ frame.id) })
  else (false, iface)

/-- Without filters every frame passes. -/
def checkHWFilters (frame : SocketCanFrame) : Bool :=
  if iface.hwFiltersContainer = [] then true
  else iface.hwFiltersContainer.any fun f => (frame.canId &&& f.canMask) ^^^ f.canId = 0

/-- The flags of a filter become those of the kernel. -/
def configureFilters (configs : List CanFilterConfig) : SocketCanIface :=
  { iface with
    hwFiltersContainer := configs.map fun fc =>
      let canId := fc.id &&& CanFrame.maskExtID
      let canMask := fc.mask &&& CanFrame.maskExtID
      let canId := if fc.id &&& CanFrame.flagEFF ≠ 0 then canId ||| canEffFlag else canId
      let canId := if fc.id &&& CanFrame.flagRTR ≠ 0 then canId ||| canRtrFlag else canId
      let canMask := if fc.mask &&& CanFrame.flagEFF ≠ 0 then canMask ||| canEffFlag else canMask
      let canMask := if fc.mask &&& CanFrame.flagRTR ≠ 0 then canMask ||| canRtrFlag else canMask
      ⟨canId, canMask⟩ }

/-- A frame that is read goes into the queue of received frames; a loopback only if it was asked for. -/
def acceptFrame (rx : RxItem) (loopback : Bool) (adjustment : ℤ) : SocketCanIface :=
  let (accept, rx, iface) :=
    if loopback then
      let iface := iface.confirmSentFrame
      let rx := { rx with flags := rx.flags ||| canIOFlagLoopback }
      let (accept, iface) := iface.wasInPendingLoopbackSet rx.frame
      (accept, rx, iface)
    else (true, rx, iface)
  if accept then { iface with rxQueue := iface.rxQueue ++ [{ rx with tsUtc := timeAdd rx.tsUtc adjustment }] }
  else iface

/-! ## An interface and its socket -/

/-- What the system says in one turn of `pollWrite`: the time, and whether the frame was written. -/
structure WriteAnswer where
  now : ℕ
  written : Bool

/-- What the system says in one turn of `pollRead`.  The copy of a frame that was sent and a frame from the bus come
with the time of the clock and the adjustment; a frame from the bus may have no time stamp. -/
inductive ReadAnswer
  | wouldBlock
  | failed
  | confirmed (tsMono tsUtc : ℕ) (adjustment : ℤ)
  | received (frame : SocketCanFrame) (tsUtc : Option ℕ) (tsMono : ℕ) (adjustment : ℤ)

/-- An item that was taken from the queue, and those that went on waiting. -/
structure Taken where
  tx : TxItem
  waiting : List TxItem

/-- An interface, the frames that are in its socket, and the record of what has happened, oldest first: the items
that were sent, taken, written, confirmed, given up for their deadline, and not written, and the frames that `receive`
has returned.  `assertionsHold` says that no assertion has failed. -/
structure Line where
  iface : SocketCanIface
  socket : List TxItem
  sent : List TxItem
  taken : List Taken
  written : List TxItem
  confirmed : List TxItem
  timedOut : List TxItem
  unwritten : List TxItem
  returned : List RxItem
  assertionsHold : Bool

namespace Line

def start (maxFramesInSocketTxQueue : ℕ) : Line :=
  ⟨construct maxFramesInSocketTxQueue, [], [], [], [], [], [], [], [], true⟩

variable (line : Line)

/-- The first lines of `send`. -/
def push (frame : CanFrame) (txDeadline : ℕ) (flags : CanIOFlags) : Line :=
  let tx : TxItem := ⟨frame, txDeadline, flags, line.iface.txFrameCounter⟩
  let iface := line.iface.emplace tx
  { line with
    iface := { iface with txFrameCounter := iface.txFrameCounter + 1 }
    sent := line.sent ++ [tx] }

/-- An item leaves the queue. -/
def take (tx : TxItem) (rest : List TxItem) : Line :=
  let ordered := match rest with
    | [] => true
    | next :: _ => !tx.frame.priorityLowerThan next.frame
  { line with
    iface := { line.iface with txQueue := rest }
    taken := line.taken ++ [⟨tx, rest⟩]
    assertionsHold := line.assertionsHold && ordered }

/-- The frame of an item is in the socket. -/
def wrote (tx : TxItem) : Line :=
  let room : Bool := line.iface.framesInSocketTxQueue < line.iface.maxFramesInSocketTxQueue
  let iface := line.iface.incrementNumFramesInSocketTxQueue
  { line with
    iface :=
      if hasLoopback tx.flags then { iface with pendingLoopbackIds := tx.frame.id :: iface.pendingLoopbackIds }
      else iface
    socket := line.socket ++ [tx]
    written := line.written ++ [tx]
    assertionsHold := line.assertionsHold && room }

/-- One turn of `pollWrite`, if there is another one. -/
def writeTurn (answer : WriteAnswer) : Option Line :=
  match line.iface.txQueue with
  | [] => none
  | tx :: rest =>
    if line.iface.framesInSocketTxQueue < line.iface.maxFramesInSocketTxQueue then
      let line := line.take tx rest
      some <|
        if tx.deadline ≥ answer.now then
          if answer.written then line.wrote tx
          else
            { line with
              iface := line.iface.registerError .socketWriteFailure
              unwritten := line.unwritten ++ [tx] }
        else
          { line with
            iface := line.iface.registerError .txTimeout
            timedOut := line.timedOut ++ [tx] }
    else none

/-- One turn of `pollRead`, and whether there is another one.  The kernel confirms the frames in the order in which
they were written. -/
def readTurn : ReadAnswer → Option (Bool × Line)
  | .wouldBlock => some (false, line)
  | .failed => some (true, { line with iface := line.iface.registerError .socketReadFailure })
  | .confirmed tsMono tsUtc adjustment =>
    match line.socket with
    | [] => none
    | tx :: rest =>
      let rx : RxItem := ⟨makeUavcanFrame (makeSocketCanFrame tx.frame), tsMono, tsUtc, 0⟩
      some (true,
        { line with
          iface := line.iface.acceptFrame rx true adjustment
          socket := rest
          confirmed := line.confirmed ++ [tx]
          assertionsHold := line.assertionsHold && decide (line.iface.framesInSocketTxQueue > 0) })
  | .received frame tsUtc tsMono adjustment =>
    if line.iface.checkHWFilters frame then
      match tsUtc with
      | none => some (true, { line with iface := line.iface.registerError .socketReadFailure })
      | some tsUtc =>
        let rx : RxItem := ⟨makeUavcanFrame frame, tsMono, tsUtc, 0⟩
        some (true, { line with iface := line.iface.acceptFrame rx false adjustment })
    else some (false, line)

/-- The last lines of `receive`. -/
def pop : Line :=
  match line.iface.rxQueue with
  | [] => line
  | rx :: rest => { line with iface := { line.iface with rxQueue := rest }, returned := line.returned ++ [rx] }

/-! ## The methods -/

/-- `n` bounds the number of turns; every turn takes an item from the queue. -/
def pollWriteLoop : ℕ → (ℕ → WriteAnswer) → Line → Line
  | 0, _, line => line
  | n + 1, answers, line =>
    match line.writeTurn (answers 0) with
    | none => line
    | some line => pollWriteLoop n (fun i => answers (i + 1)) line

def pollWrite (answers : ℕ → WriteAnswer) : Line := pollWriteLoop line.iface.txQueue.length answers line

/-- When the answers end, the socket has nothing more to read. -/
def pollRead : List ReadAnswer → Line → Option Line
  | [], line => some line
  | answer :: answers, line =>
    (line.readTurn answer).bind fun (more, line) => if more then pollRead answers line else some line

/-- The frame is queued; then the socket is read and written. -/
def send (frame : CanFrame) (txDeadline : ℕ) (flags : CanIOFlags) (reads : List ReadAnswer)
    (writes : ℕ → WriteAnswer) : Option Line :=
  (pollRead reads (line.push frame txDeadline flags)).map fun line => line.pollWrite writes

/-- The socket is read only if no frame is waiting. -/
def receive (reads : List ReadAnswer) : Option Line :=
  if line.iface.rxQueue = [] then (pollRead reads line).map pop else some line.pop

def poll (read write : Bool) (reads : List ReadAnswer) (writes : ℕ → WriteAnswer) : Option Line :=
  (if read then pollRead reads line else some line).map fun line => if write then line.pollWrite writes else line

end Line

/-- The calls of the methods.  A frame has eight bytes at most. -/
inductive Call
  | send (frame : CanFrame) (short : frame.data.length ≤ CanFrame.maxDataLen) (txDeadline : ℕ) (flags : CanIOFlags)
      (reads : List ReadAnswer) (writes : ℕ → WriteAnswer)
  | receive (reads : List ReadAnswer)
  | poll (read write : Bool) (reads : List ReadAnswer) (writes : ℕ → WriteAnswer)
  | configureFilters (configs : List CanFilterConfig)

/-- A call, unless the kernel is said to confirm what is not in the socket. -/
def invoke (line : Line) : Call → Option Line
  | .send frame _ txDeadline flags reads writes => line.send frame txDeadline flags reads writes
  | .receive reads => line.receive reads
  | .poll read write reads writes => line.poll read write reads writes
  | .configureFilters configs => some { line with iface := line.iface.configureFilters configs }

/-- The steps that the calls are made of. -/
inductive Step
  | push (frame : CanFrame) (short : frame.data.length ≤ CanFrame.maxDataLen) (txDeadline : ℕ) (flags : CanIOFlags)
  | write (answer : WriteAnswer)
  | read (answer : ReadAnswer)
  | pop
  | configureFilters (configs : List CanFilterConfig)

def exec (line : Line) : Step → Option Line
  | .push frame _ txDeadline flags => some (line.push frame txDeadline flags)
  | .write answer => line.writeTurn answer
  | .read answer => (line.readTurn answer).map Prod.snd
  | .pop => some line.pop
  | .configureFilters configs => some { line with iface := line.iface.configureFilters configs }

/-! ## What a step does -/

variable {line line' : Line}

/-- What becomes of the item at the front of the queue. -/
inductive WriteOutcome (line : Line) (answer : WriteAnswer) (tx : TxItem) (rest : List TxItem) : Line → Prop
  | wrote (inTime : answer.now ≤ tx.deadline) (written : answer.written = true) :
      WriteOutcome line answer tx rest ((line.take tx rest).wrote tx)
  | unwritten :
      WriteOutcome line answer tx rest
        { line.take tx rest with
          iface := (line.take tx rest).iface.registerError .socketWriteFailure
          unwritten := line.unwritten ++ [tx] }
  | timedOut :
      WriteOutcome line answer tx rest
        { line.take tx rest with
          iface := (line.take tx rest).iface.registerError .txTimeout
          timedOut := line.timedOut ++ [tx] }

theorem writeTurn_cases {answer : WriteAnswer} (turn : line.writeTurn answer = some line') :
    ∃ tx rest, line.iface.txQueue = tx :: rest ∧
      line.iface.framesInSocketTxQueue < line.iface.maxFramesInSocketTxQueue ∧
        WriteOutcome line answer tx rest line' := by
  unfold Line.writeTurn at turn
  rcases queue : line.iface.txQueue with _ | ⟨tx, rest⟩
  · rw [queue] at turn
    cases turn
  · simp only [queue, ite_none_right_eq_some, some.injEq] at turn
    obtain ⟨room, rfl⟩ := turn
    refine ⟨tx, rest, rfl, room, ?_⟩
    split
    · rename_i inTime
      split
      · rename_i written
        exact .wrote inTime written
      · exact .unwritten
    · exact .timedOut

/-- What a read does: nothing, it fails, the oldest frame in the socket is confirmed, or a frame from the bus is
put into the queue. -/
inductive ReadOutcome (line : Line) : Line → Prop
  | nothing : ReadOutcome line line
  | failed : ReadOutcome line { line with iface := line.iface.registerError .socketReadFailure }
  | confirmed {tx : TxItem} {rest : List TxItem} (oldest : line.socket = tx :: rest) (tsMono tsUtc : ℕ)
      (adjustment : ℤ) :
      ReadOutcome line
        { line with
          iface := line.iface.acceptFrame ⟨makeUavcanFrame (makeSocketCanFrame tx.frame), tsMono, tsUtc, 0⟩ true
            adjustment
          socket := rest
          confirmed := line.confirmed ++ [tx]
          assertionsHold := line.assertionsHold && decide (line.iface.framesInSocketTxQueue > 0) }
  | received (rx : RxItem) (unflagged : rx.flags = 0) :
      ReadOutcome line { line with iface := { line.iface with rxQueue := line.iface.rxQueue ++ [rx] } }

theorem readTurn_outcome {answer : ReadAnswer} {more : Bool} (turn : line.readTurn answer = some (more, line')) :
    ReadOutcome line line' := by
  cases answer with
  | wouldBlock =>
    cases turn
    exact .nothing
  | failed =>
    cases turn
    exact .failed
  | confirmed tsMono tsUtc adjustment =>
    unfold Line.readTurn at turn
    rcases socket : line.socket with _ | ⟨tx, rest⟩
    · simp only [socket] at turn
      cases turn
    · simp only [socket] at turn
      obtain ⟨-, rfl⟩ := turn
      exact .confirmed socket tsMono tsUtc adjustment
  | received frame tsUtc tsMono adjustment =>
    simp only [Line.readTurn] at turn
    split at turn
    · rcases tsUtc with _ | tsUtc
      · cases turn
        exact .failed
      · cases turn
        exact .received ⟨makeUavcanFrame frame, tsMono, timeAdd tsUtc adjustment, 0⟩ rfl
    · cases turn
      exact .nothing

theorem confirmSentFrame_eq :
    iface.confirmSentFrame = { iface with framesInSocketTxQueue := iface.framesInSocketTxQueue - 1 } := by
  unfold confirmSentFrame
  split
  · rfl
  · have zero : iface.framesInSocketTxQueue - 1 = iface.framesInSocketTxQueue := by omega
    rw [zero]

/-- The copy of a frame is put into the queue if its identifier is among the pending ones, which it then is no
longer. -/
theorem acceptFrame_loopback (rx : RxItem) (adjustment : ℤ) :
    iface.acceptFrame rx true adjustment =
      if rx.frame.id ∈ iface.pendingLoopbackIds then
        { iface with
          framesInSocketTxQueue := iface.framesInSocketTxQueue - 1
          pendingLoopbackIds := iface.pendingLoopbackIds.filter (· ≠ rx.frame.id)
          rxQueue := iface.rxQueue ++
            [⟨rx.frame, rx.tsMono, timeAdd rx.tsUtc adjustment, rx.flags ||| canIOFlagLoopback⟩] }
      else { iface with framesInSocketTxQueue := iface.framesInSocketTxQueue - 1 } := by
  simp only [acceptFrame, wasInPendingLoopbackSet, if_true, confirmSentFrame_eq, List.count_pos_iff]
  split
  · simp
  · rfl

/-! ## The methods are made of steps -/

theorem pollRead_reach {answers : List ReadAnswer} (done : Line.pollRead answers line = some line') :
    Machines.Reach exec (fun _ _ => True) line line' := by
  induction answers generalizing line with
  | nil =>
    cases done
    exact .start
  | cons answer answers ih =>
    simp only [Line.pollRead, bind_eq_some_iff] at done
    obtain ⟨⟨more, next⟩, turn, rest⟩ := done
    have first : Machines.Reach exec (fun _ _ => True) line next :=
      Machines.Reach.start.step (a := .read answer) trivial (by rw [exec, turn]; rfl)
    cases more with
    | false =>
      cases rest
      exact first
    | true => exact first.trans (ih rest)

theorem pollWriteLoop_reach (n : ℕ) (answers : ℕ → WriteAnswer) (line : Line) :
    Machines.Reach exec (fun _ _ => True) line (Line.pollWriteLoop n answers line) := by
  induction n generalizing answers line with
  | zero => exact .start
  | succ n ih =>
    rw [Line.pollWriteLoop]
    rcases turn : line.writeTurn (answers 0) with _ | next
    · exact .start
    · exact (Machines.Reach.start.step (a := .write (answers 0)) trivial turn).trans (ih _ next)

theorem invoke_reach {call : Call} (done : invoke line call = some line') :
    Machines.Reach exec (fun _ _ => True) line line' := by
  cases call with
  | send frame short txDeadline flags reads writes =>
    simp only [invoke, Line.send, map_eq_some_iff] at done
    obtain ⟨next, read, rfl⟩ := done
    have pushed : Machines.Reach exec (fun _ _ => True) line (line.push frame txDeadline flags) :=
      Machines.Reach.start.step (a := .push frame short txDeadline flags) trivial rfl
    exact (pushed.trans (pollRead_reach read)).trans (pollWriteLoop_reach ..)
  | receive reads =>
    simp only [invoke, Line.receive] at done
    split at done
    · simp only [map_eq_some_iff] at done
      obtain ⟨next, read, rfl⟩ := done
      exact (pollRead_reach read).step (a := .pop) trivial rfl
    · cases done
      exact Machines.Reach.start.step (a := .pop) trivial rfl
  | poll read write reads writes =>
    simp only [invoke, Line.poll, map_eq_some_iff] at done
    obtain ⟨next, read, rfl⟩ := done
    have first : Machines.Reach exec (fun _ _ => True) line next := by
      split at read
      · exact pollRead_reach read
      · cases read
        exact .start
    split
    · exact first.trans (pollWriteLoop_reach ..)
    · exact first
  | configureFilters configs =>
    cases done
    exact Machines.Reach.start.step (a := .configureFilters configs) trivial rfl

/-! ## Calls for examples -/

namespace Sample

def frame (id : UInt32) : CanFrame := ⟨id, [1, 2]⟩

def send (id : UInt32) (flags : CanIOFlags) : Call :=
  .send (frame id) (show 2 ≤ 8 by decide) 10 flags [] fun _ => ⟨5, true⟩

/-- The socket confirms `n` frames. -/
def confirm (n : ℕ) : Call := .poll true true (List.replicate n (.confirmed 7 8 0)) fun _ => ⟨5, true⟩

end Sample

end SocketCanIface

end Uavcan
