import Uavcan.Transport.CanTxQueue

/-!
# Input and output of CAN frames

`CanIOManager` sends a frame to several interfaces and receives frames from all of them. It asks the driver
which interfaces are ready, and gives each of them either the new frame or a frame from its queue. What is not
sent before a deadline goes to the queues. Driver, clock and memory pool may answer anything (`Environment`).
The `log` records, the last one first, what was asked of the driver, with what was in the queue then.
-/

namespace Uavcan

open List Function

/-- Whether a mask has an interface. -/
def hasIface (mask : UInt8) (i : ℕ) : Bool := mask &&& (1 <<< UInt8.ofNat i) ≠ 0

structure SelectAnswer where
  res : ℤ
  read : UInt8
  write : UInt8

structure ReceiveAnswer where
  res : ℤ
  frame : CanFrame
  tsMono : ℕ
  tsUtc : ℕ
  flags : UInt16

/-- The answers of driver, clock and memory pool; `allocate n` are those during the `n`th `push`. -/
structure Environment where
  getIface : ℕ → Bool
  select : ℕ → SelectAnswer
  send : ℕ → ℤ
  receive : ℕ → ReceiveAnswer
  getMonotonic : ℕ → ℕ
  allocate : ℕ → ℕ → Bool

/-- A frame that the driver was asked to send: whether it was in the queue, from which call of `send` it
comes, what the driver answered, and what was waiting in the queue. -/
structure Offer where
  iface : ℕ
  queued : Bool
  serial : ℕ
  frame : CanFrame
  deadline : ℕ
  flags : UInt16
  res : ℤ
  waiting : List CanTxQueue.Entry

/-- `push` has the entry that it was called for, and the queue after it. -/
inductive IoEvent
  | select (read write : UInt8) (pendingTx : List (Option CanFrame)) (blockingDeadline : ℕ)
  | offer (o : Offer)
  | push (iface : ℕ) (entry : CanTxQueue.Entry) (queue : CanTxQueue)

/-- The manager, how often it has asked each part of its environment, and the number of calls of `send`. -/
structure CanIOManager where
  numIfaces : ℕ
  txQueues : ℕ → CanTxQueue
  framesTx : ℕ → UInt64
  framesRx : ℕ → UInt64
  selects : ℕ
  sends : ℕ
  receives : ℕ
  readings : ℕ
  pushes : ℕ
  calls : ℕ
  log : List IoEvent

namespace CanIOManager

def maxCanIfaces : ℕ := 3

def flagLoopback : UInt16 := 1

/-- The constructor, for a driver with a valid number of interfaces. -/
def init (numIfaces : ℕ) : CanIOManager where
  numIfaces := numIfaces
  txQueues _ := .empty
  framesTx _ := 0
  framesRx _ := 0
  selects := 0
  sends := 0
  receives := 0
  readings := 0
  pushes := 0
  calls := 0
  log := []

variable (env : Environment) (m : CanIOManager)

def getMonotonic : ℕ × CanIOManager := (env.getMonotonic m.readings, { m with readings := m.readings + 1 })

def setQueue (i : ℕ) (q : CanTxQueue) : CanIOManager :=
  { m with txQueues := update m.txQueues i q }

/-- The driver is asked to send a frame. -/
def sendToIface (i : ℕ) (queued : Bool) (serial : ℕ) (frame : CanFrame) (txDeadline : ℕ) (flags : UInt16) :
    ℤ × CanIOManager :=
  -- a nonexistent interface: `-ErrLogic`
  if !env.getIface i then (-10, m)
  else
    let res := env.send m.sends
    (res,
      { m with
        sends := m.sends + 1
        framesTx := if res > 0 then
            update m.framesTx i (m.framesTx i + UInt64.ofNat res.toNat)
          else m.framesTx
        log := .offer ⟨i, queued, serial, frame, txDeadline, flags, res, (m.txQueues i).queue⟩ :: m.log })

/-- An entry of the queue is given to the driver, and removed if the driver has taken it. -/
def sendEntry (i : ℕ) (entry : CanTxQueue.Entry) : ℤ × CanIOManager :=
  let (res, m) := m.sendToIface env i true entry.serial entry.frame entry.deadline entry.flags
  if res > 0 then (res, m.setQueue i ((m.txQueues i).remove entry)) else (res, m)

def sendFromTxQueue (i : ℕ) : ℤ × CanIOManager :=
  let (timestamp, m) := m.getMonotonic env
  match (m.txQueues i).peek timestamp with
  | (none, q) => (0, m.setQueue i q)
  | (some entry, q) => (m.setQueue i q).sendEntry env i entry

/-- The driver tells which interfaces are ready, of those that were asked for: to read and to write. -/
def callSelect (read write : UInt8) (pendingTx : List (Option CanFrame)) (blockingDeadline : ℕ) :
    Option (UInt8 × UInt8) × CanIOManager :=
  let answer := env.select m.selects
  let m :=
    { m with
      selects := m.selects + 1
      log := .select read write pendingTx blockingDeadline :: m.log }
  if answer.res < 0 then (none, m) else (some (answer.read &&& read, answer.write &&& write), m)

def makePendingTxMask : UInt8 :=
  (range m.numIfaces).foldl
    (fun mask i => if !(m.txQueues i).isEmpty then mask ||| (1 <<< UInt8.ofNat i) else mask) 0

/-- `push` of the queue of an interface. -/
def pushTo (i : ℕ) (frame : CanFrame) (txDeadline : ℕ) (qos : Qos) (flags : UInt16) (serial : ℕ) :
    CanIOManager :=
  let (timestamp, m) := m.getMonotonic env
  let q := (m.txQueues i).push timestamp (env.allocate m.pushes) frame txDeadline qos flags serial
  { m.setQueue i q with
    pushes := m.pushes + 1
    log := .push i ⟨txDeadline, frame, qos, flags, serial⟩ q :: m.log }

end CanIOManager

/-! ## Sending -/

/-- What `send` sends. -/
structure Request where
  frame : CanFrame
  txDeadline : ℕ
  qos : Qos
  flags : UInt16
  serial : ℕ

def Request.entry (request : Request) : CanTxQueue.Entry :=
  ⟨request.txDeadline, request.frame, request.qos, request.flags, request.serial⟩

/-- The driver was asked to send what was requested. -/
structure Request.Matches (request : Request) (o : Offer) : Prop where
  frame : o.frame = request.frame
  deadline : o.deadline = request.txDeadline
  flags : o.flags = request.flags
  serial : o.serial = request.serial

/-- The variables of the loop of `send`. -/
structure Sending where
  m : CanIOManager
  ifaceMask : UInt8
  retval : ℕ

namespace CanIOManager

variable (env : Environment) (request : Request)

/-- The frames that are likely to be sent next. -/
def pendingTx (m : CanIOManager) (ifaceMask : UInt8) : List (Option CanFrame) :=
  (range m.numIfaces).map fun i =>
    let q := m.txQueues i
    if hasIface ifaceMask i then
      if q.topPriorityHigherOrEqual request.frame then q.getTopPriorityPendingFrame else some request.frame
    else q.getTopPriorityPendingFrame

/-- The new frame is given to an interface, which is then done with if the driver has taken it. -/
def sendNew (s : Sending) (i : ℕ) : Sending :=
  let (res, m) :=
    s.m.sendToIface env i false request.serial request.frame request.txDeadline request.flags
  if res > 0 then ⟨m, s.ifaceMask &&& ~~~(1 <<< UInt8.ofNat i), s.retval + 1⟩ else { s with m := m }

/-- A frame from the queue is given to an interface. -/
def sendQueued (s : Sending) (i : ℕ) : ℤ × Sending :=
  let (res, m) := s.m.sendFromTxQueue env i
  (res, { s with m := m, retval := if res > 0 then s.retval + 1 else s.retval })

/-- One interface that is ready. -/
def transmit (s : Sending) (i : ℕ) : Sending :=
  if hasIface s.ifaceMask i then
    if (s.m.txQueues i).topPriorityHigherOrEqual request.frame then
      -- zero if there is nothing to send, for instance because it has expired
      let (res, s) := sendQueued env s i
      if res ≤ 0 then sendNew env request s i else s
    else sendNew env request s i
  else (sendQueued env s i).2

/-- The new frame goes to the queues of the interfaces that are left. -/
def pushAll (m : CanIOManager) (ifaceMask : UInt8) : CanIOManager :=
  (range m.numIfaces).foldl
    (fun m i =>
      if hasIface ifaceMask i then
        m.pushTo env i request.frame request.txDeadline request.qos request.flags request.serial
      else m) m

/-- All interfaces that are ready. -/
def transmitAll (s : Sending) (write : UInt8) : Sending :=
  ((range s.m.numIfaces).filter fun i => hasIface write i).foldl (transmit env request) s

/-- A round of the loop of `send`: how it ends, or with what it goes on. -/
def sendRound (blockingDeadline : ℕ) (s : Sending) : (Except Err ℕ × CanIOManager) ⊕ Sending :=
  if s.ifaceMask = 0 then .inl (.ok s.retval, s.m)
  else
    match s.m.callSelect env 0 (s.ifaceMask ||| s.m.makePendingTxMask) (pendingTx request s.m s.ifaceMask)
      blockingDeadline with
    | (none, m) => .inl (.error .driver, m)
    | (some (_, write), m) =>
      let s := transmitAll env request { s with m := m } write
      let (now, m) := s.m.getMonotonic env
      let timedOut : Bool := now ≥ blockingDeadline
      if write = 0 || timedOut then
        -- a premature timeout of the driver: try again
        if !timedOut then .inr { s with m := m }
        else .inl (.ok s.retval, pushAll env request m s.ifaceMask)
      else .inr { s with m := m }

/-- The loop of `send`; without a result if it takes more rounds. -/
def sendLoop (blockingDeadline : ℕ) : (rounds : ℕ) → Sending → Option (Except Err ℕ × CanIOManager)
  | 0, _ => none
  | rounds + 1, s =>
    match sendRound env request blockingDeadline s with
    | .inl result => some result
    | .inr s => sendLoop blockingDeadline rounds s

/-- `send` in at most so many rounds. -/
def send (m : CanIOManager) (rounds : ℕ) (frame : CanFrame) (txDeadline blockingDeadline : ℕ)
    (ifaceMask : UInt8) (qos : Qos) (flags : UInt16) : Option (Except Err ℕ × CanIOManager) :=
  let allIfacesMask : UInt8 := (1 <<< UInt8.ofNat m.numIfaces) - 1
  sendLoop env ⟨frame, txDeadline, qos, flags, m.calls⟩
    (if blockingDeadline > txDeadline then txDeadline else blockingDeadline) rounds
    ⟨{ m with calls := m.calls + 1 }, ifaceMask &&& allIfacesMask, 0⟩

/-! ## Receiving -/

/-- The read loop of `receive`: the result and the frame of the first interface that has one. -/
def readLoop (read : UInt8) : List ℕ → CanIOManager → Option (Except Err ℤ × CanRxFrame × UInt16) × CanIOManager
  | [], m => (none, m)
  | i :: rest, m =>
    if !hasIface read i || !env.getIface i then readLoop read rest m
    else
      let answer := env.receive m.receives
      let m := { m with receives := m.receives + 1 }
      if answer.res = 0 then readLoop read rest m
      else
        let frame : CanRxFrame :=
          { answer.frame with tsMono := answer.tsMono, tsUtc := answer.tsUtc, ifaceIndex := i }
        let m :=
          if answer.res > 0 && answer.flags &&& flagLoopback = 0 then
            { m with framesRx := update m.framesRx i (m.framesRx i + 1) }
          else m
        (some (if answer.res < 0 then .error .driver else .ok answer.res, frame, answer.flags), m)

/-- The loop of `receive`; a result zero without a frame after the deadline. -/
def receive (blockingDeadline : ℕ) : (rounds : ℕ) → CanIOManager →
    Option ((Except Err ℤ × Option (CanRxFrame × UInt16)) × CanIOManager)
  | 0, _ => none
  | rounds + 1, m =>
    match m.callSelect env ((1 <<< UInt8.ofNat m.numIfaces) - 1) m.makePendingTxMask
      ((range m.numIfaces).map fun i => (m.txQueues i).getTopPriorityPendingFrame) blockingDeadline with
    | (none, m) => some ((.error .driver, none), m)
    | (some (read, write), m) =>
      -- it may fail; the requested operation was receive, not send
      let m := ((range m.numIfaces).filter fun i => hasIface write i).foldl
        (fun m i => (m.sendFromTxQueue env i).2) m
      match readLoop env read (range m.numIfaces) m with
      | (some (res, frame), m) => some ((res, some frame), m)
      | (none, m) =>
        let (now, m) := m.getMonotonic env
        if now ≥ blockingDeadline then some ((.ok 0, none), m) else receive blockingDeadline rounds m

end CanIOManager

/-! ## Masks -/

variable {i : ℕ}

theorem hasIface_eq (mask : UInt8) (small : i < 8) : hasIface mask i = mask.toBitVec.getLsbD i := by
  have all : ∀ (mask : Fin 256) (i : Fin 8),
      hasIface (UInt8.ofFin mask) i = (UInt8.ofFin mask).toBitVec.getLsbD i := by
    decide +kernel
  exact all mask.toFin ⟨i, small⟩

theorem hasIface_clear (mask : UInt8) {j : ℕ} (small : i < 8) (other : j < 8) :
    hasIface (mask &&& ~~~(1 <<< UInt8.ofNat j)) i = (hasIface mask i && i ≠ j) := by
  have bit : ∀ i j : Fin 8, ((1 : UInt8) <<< UInt8.ofNat j).toBitVec.getLsbD i = decide ((i : ℕ) = j) := by
    decide +kernel
  rw [hasIface_eq _ small, hasIface_eq _ small, UInt8.toBitVec_and, UInt8.toBitVec_not, BitVec.getLsbD_and,
    BitVec.getLsbD_not, bit ⟨i, small⟩ ⟨j, other⟩]
  simp [small]

theorem hasIface_all (mask : UInt8) {n : ℕ} (valid : n ≤ 3) (small : i < 8) :
    hasIface (mask &&& ((1 <<< UInt8.ofNat n) - 1)) i = (hasIface mask i && i < n) := by
  have bits : ∀ (n : Fin 4) (i : Fin 8),
      ((1 <<< UInt8.ofNat n) - 1 : UInt8).toBitVec.getLsbD i = decide ((i : ℕ) < n) := by
    decide +kernel
  rw [hasIface_eq _ small, hasIface_eq _ small, UInt8.toBitVec_and, BitVec.getLsbD_and,
    bits ⟨n, Nat.lt_succ_of_le valid⟩ ⟨i, small⟩]

theorem hasIface_taken (mask : UInt8) (res : ℤ) {j : ℕ} (small : i < 8) (other : j < 8) :
    hasIface (if res > 0 then mask &&& ~~~(1 <<< UInt8.ofNat j) else mask) i =
      (hasIface mask i && !decide (j = i ∧ res > 0)) := by
  split
  case isTrue taken =>
    rw [hasIface_clear mask small other]
    simp [taken, eq_comm]
  case isFalse refused => simp [refused]

/-! ## What the functions do -/

namespace CanIOManager

variable {env : Environment} {request : Request} {m m' : CanIOManager} {i : ℕ}

/-- The number of interfaces and of calls stay, and the clock has been read not less often. -/
structure Later (m m' : CanIOManager) : Prop where
  numIfaces : m'.numIfaces = m.numIfaces
  calls : m'.calls = m.calls
  readings : m.readings ≤ m'.readings

theorem Later.refl (m : CanIOManager) : m.Later m := ⟨rfl, rfl, Nat.le_refl _⟩

theorem Later.trans {m'' : CanIOManager} (first : m.Later m') (second : m'.Later m'') : m.Later m'' :=
  ⟨second.numIfaces.trans first.numIfaces, second.calls.trans first.calls,
    first.readings.trans second.readings⟩

theorem later_getMonotonic (m : CanIOManager) (env : Environment) : m.Later (m.getMonotonic env).2 :=
  ⟨rfl, rfl, Nat.le_succ _⟩

/-- What a call of the driver does, if the interface exists. -/
structure Offers (m : CanIOManager) (o : Offer) (m' : CanIOManager) : Prop where
  later : m.Later m'
  txQueues : m'.txQueues = m.txQueues
  waiting : o.waiting = (m.txQueues o.iface).queue
  log : m'.log = .offer o :: m.log

theorem sendToIface_cases (m : CanIOManager) (env : Environment) (i : ℕ) (queued : Bool) (serial : ℕ)
    (frame : CanFrame) (txDeadline : ℕ) (flags : UInt16) :
    env.getIface i = false ∧ m.sendToIface env i queued serial frame txDeadline flags = (-10, m) ∨
      env.getIface i = true ∧ ∃ res m', m.sendToIface env i queued serial frame txDeadline flags = (res, m') ∧
        m.Offers ⟨i, queued, serial, frame, txDeadline, flags, res, (m.txQueues i).queue⟩ m' := by
  unfold sendToIface
  cases env.getIface i with
  | false => exact .inl ⟨rfl, rfl⟩
  | true => exact .inr ⟨rfl, _, _, rfl, ⟨rfl, rfl, Nat.le_refl _⟩, rfl, rfl, rfl⟩

/-- What `sendFromTxQueue` can do: expired frames are removed, and the first frame that is left is given to
the driver, which takes it or not. -/
inductive Flushes (env : Environment) (m : CanIOManager) (i : ℕ) : ℤ → CanIOManager → Prop
  | idle {timestamp : ℕ} {entry : Option CanTxQueue.Entry} {q : CanTxQueue} {res : ℤ} {m' : CanIOManager} :
    (m.txQueues i).peek timestamp = (entry, q) → m.Later m' →
    m'.txQueues = update m.txQueues i q → m'.log = m.log → res ≤ 0 →
    (entry = none ∨ env.getIface i = false) → Flushes env m i res m'
  | refused {timestamp : ℕ} {e : CanTxQueue.Entry} {q : CanTxQueue} {res : ℤ} {m' : CanIOManager} :
    (m.txQueues i).peek timestamp = (some e, q) → m.Later m' →
    m'.txQueues = update m.txQueues i q →
    m'.log = .offer ⟨i, true, e.serial, e.frame, e.deadline, e.flags, res, q.queue⟩ :: m.log → res ≤ 0 →
    Flushes env m i res m'
  | taken {timestamp : ℕ} {e : CanTxQueue.Entry} {q : CanTxQueue} {res : ℤ} {m' : CanIOManager} :
    (m.txQueues i).peek timestamp = (some e, q) → m.Later m' →
    m'.txQueues = update m.txQueues i (q.remove e) →
    m'.log = .offer ⟨i, true, e.serial, e.frame, e.deadline, e.flags, res, q.queue⟩ :: m.log → res > 0 →
    Flushes env m i res m'

theorem sendEntry_cases (env : Environment) (m : CanIOManager) (i : ℕ) (e : CanTxQueue.Entry) :
    env.getIface i = false ∧ m.sendEntry env i e = (-10, m) ∨
      ∃ res m', m.sendEntry env i e = (res, m') ∧ m.Later m' ∧
        m'.txQueues =
          (if res > 0 then update m.txQueues i ((m.txQueues i).remove e) else m.txQueues) ∧
        m'.log = .offer ⟨i, true, e.serial, e.frame, e.deadline, e.flags, res, (m.txQueues i).queue⟩ ::
          m.log := by
  rcases m.sendToIface_cases env i true e.serial e.frame e.deadline e.flags with
    ⟨absent, sends⟩ | ⟨-, res, m', sends, later, txQueues, -, log⟩
  · refine .inl ⟨absent, ?_⟩
    rw [sendEntry, sends]
    rfl
  · refine .inr ?_
    by_cases taken : res > 0
    · refine ⟨res, m'.setQueue i ((m'.txQueues i).remove e), ?_, ⟨later.numIfaces, later.calls, later.readings⟩,
        ?_, log⟩
      · simp [sendEntry, sends, taken]
      · rw [if_pos taken, setQueue, txQueues]
    · refine ⟨res, m', ?_, later, ?_, log⟩
      · simp [sendEntry, sends, taken]
      · rw [if_neg taken, txQueues]

theorem flushes_sendFromTxQueue (env : Environment) (m : CanIOManager) (i : ℕ) :
    m.Flushes env i (m.sendFromTxQueue env i).1 (m.sendFromTxQueue env i).2 := by
  rcases peeked : (m.txQueues i).peek (env.getMonotonic m.readings) with ⟨entry, q⟩
  have read : m.Later (setQueue { m with readings := m.readings + 1 } i q) := ⟨rfl, rfl, Nat.le_succ _⟩
  have queue : (setQueue { m with readings := m.readings + 1 } i q).txQueues i = q := update_self ..
  cases entry with
  | none =>
    simp only [sendFromTxQueue, getMonotonic, peeked]
    exact .idle peeked read rfl rfl (Int.le_refl 0) (.inl rfl)
  | some e =>
    simp only [sendFromTxQueue, getMonotonic, peeked]
    rcases sendEntry_cases env (setQueue { m with readings := m.readings + 1 } i q) i e with
      ⟨absent, sends⟩ | ⟨res, m', sends, later, txQueues, log⟩
    · rw [sends]
      exact .idle peeked read rfl rfl (show (-10 : ℤ) ≤ 0 by decide) (.inr absent)
    · rw [queue] at txQueues log
      rw [sends]
      by_cases taken : res > 0
      · rw [if_pos taken] at txQueues
        refine .taken peeked (read.trans later) ?_ log taken
        rw [txQueues, setQueue, update_idem]
      · rw [if_neg taken] at txQueues
        exact .refused peeked (read.trans later) txQueues log (Int.not_lt.mp taken)

theorem Flushes.later {res : ℤ} (flushes : m.Flushes env i res m') : m.Later m' := by
  cases flushes with
  | idle _ later => exact later
  | refused _ later => exact later
  | taken _ later => exact later

variable (env)

/-- What `sendNew` can do: nothing, if there is no such interface, or one call of the driver. -/
theorem sendNew_cases (request : Request) (s : Sending) (i : ℕ) :
    env.getIface i = false ∧ sendNew env request s i = s ∨
      env.getIface i = true ∧ ∃ o, o.iface = i ∧ o.queued = false ∧ request.Matches o ∧
        s.m.Offers o (sendNew env request s i).m ∧ (sendNew env request s i).ifaceMask =
          if o.res > 0 then s.ifaceMask &&& ~~~(1 <<< UInt8.ofNat i) else s.ifaceMask := by
  rcases s.m.sendToIface_cases env i false request.serial request.frame request.txDeadline request.flags with
    ⟨absent, sends⟩ | ⟨present, res, m', sends, offers⟩
  · refine .inl ⟨absent, ?_⟩
    rw [sendNew, sends]
    rfl
  · refine .inr ⟨present, ⟨i, false, request.serial, request.frame, request.txDeadline, request.flags, res,
      (s.m.txQueues i).queue⟩, rfl, rfl, ⟨rfl, rfl, rfl, rfl⟩, ?_⟩
    by_cases taken : res > 0
    · simp only [sendNew, sends, taken, if_true, and_true]
      exact offers
    · simp only [sendNew, sends, taken, if_false, and_true]
      exact offers

theorem flushes_sendQueued (s : Sending) (i : ℕ) :
    s.m.Flushes env i (sendQueued env s i).1 (sendQueued env s i).2.m :=
  s.m.flushes_sendFromTxQueue env i

/-- What one interface can do: a frame from its queue, the new frame, or one after the other. -/
theorem transmit_cases (request : Request) (s : Sending) (i : ℕ) :
    (hasIface s.ifaceMask i = false ∧ transmit env request s i = (sendQueued env s i).2) ∨
      (hasIface s.ifaceMask i = true ∧ (s.m.txQueues i).topPriorityHigherOrEqual request.frame = false ∧
        transmit env request s i = sendNew env request s i) ∨
      (hasIface s.ifaceMask i = true ∧ (sendQueued env s i).1 > 0 ∧
        transmit env request s i = (sendQueued env s i).2) ∨
      (hasIface s.ifaceMask i = true ∧ (sendQueued env s i).1 ≤ 0 ∧
        transmit env request s i = sendNew env request (sendQueued env s i).2 i) := by
  unfold transmit
  cases hasIface s.ifaceMask i with
  | false => exact .inl ⟨rfl, rfl⟩
  | true =>
    cases (s.m.txQueues i).topPriorityHigherOrEqual request.frame with
    | false => exact .inr (.inl ⟨rfl, rfl, rfl⟩)
    | true =>
      refine .inr (.inr ?_)
      by_cases refused : (sendQueued env s i).1 ≤ 0
      · exact .inr ⟨rfl, refused, by simp [refused]⟩
      · exact .inl ⟨rfl, Int.not_le.mp refused, by simp [refused]⟩

theorem later_sendNew (request : Request) (s : Sending) (i : ℕ) :
    s.m.Later (sendNew env request s i).m := by
  rcases sendNew_cases env request s i with ⟨-, same⟩ | ⟨-, _, -, -, -, offers, -⟩
  · rw [same]
    exact .refl s.m
  · exact offers.later

theorem later_transmit (request : Request) (s : Sending) (i : ℕ) :
    s.m.Later (transmit env request s i).m := by
  have queued := (flushes_sendQueued env s i).later
  rcases transmit_cases env request s i with ⟨-, same⟩ | ⟨-, -, same⟩ | ⟨-, -, same⟩ | ⟨-, -, same⟩
  · exact same ▸ queued
  · exact same ▸ later_sendNew env request s i
  · exact same ▸ queued
  · exact same ▸ queued.trans (later_sendNew env request _ i)

variable {env}

/-! ## The loop -/

/-- What holds in every round of the loop of `send`. -/
structure Invariant (env : Environment) (request : Request) (n : ℕ) (P : Sending → Prop) : Prop where
  numIfaces : ∀ s, P s → s.m.numIfaces = n
  select : ∀ s read write pendingTx deadline, P s →
    P { s with m := (s.m.callSelect env read write pendingTx deadline).2 }
  transmit : ∀ s i, P s → i < n → P (transmit env request s i)
  getMonotonic : ∀ s, P s → P { s with m := (s.m.getMonotonic env).2 }

/-- The ways in which a round can go. -/
theorem sendRound_cases (env : Environment) (request : Request) (deadline : ℕ) (s : Sending) :
    (s.ifaceMask = 0 ∧ sendRound env request deadline s = .inl (.ok s.retval, s.m)) ∨
      ∃ read write pendingTx m, (s.m.callSelect env read write pendingTx deadline).2 = m ∧
        (sendRound env request deadline s = .inl (.error .driver, m) ∨
          ∃ ready s', transmitAll env request { s with m := m } ready = s' ∧
            (env.getMonotonic s'.m.readings ≥ deadline ∧ sendRound env request deadline s =
                .inl (.ok s'.retval, pushAll env request (s'.m.getMonotonic env).2 s'.ifaceMask) ∨
              env.getMonotonic s'.m.readings < deadline ∧ sendRound env request deadline s =
                .inr { s' with m := (s'.m.getMonotonic env).2 })) := by
  by_cases none_left : s.ifaceMask = 0
  · exact .inl ⟨none_left, by simp [sendRound, none_left]⟩
  · refine .inr ⟨0, s.ifaceMask ||| s.m.makePendingTxMask, pendingTx request s.m s.ifaceMask, ?_⟩
    rcases select : s.m.callSelect env 0 (s.ifaceMask ||| s.m.makePendingTxMask)
      (pendingTx request s.m s.ifaceMask) deadline with ⟨_ | ⟨read, write⟩, m⟩
    · exact ⟨m, rfl, .inl (by simp [sendRound, none_left, select])⟩
    · refine ⟨m, rfl, .inr ⟨write, _, rfl, ?_⟩⟩
      simp only [sendRound, none_left, select]
      generalize transmitAll env request { s with m := m } write = s'
      by_cases timedOut : env.getMonotonic s'.m.readings ≥ deadline
      · exact .inl ⟨timedOut, by simp [getMonotonic, timedOut]⟩
      · exact .inr ⟨Nat.not_le.mp timedOut, by simp [getMonotonic, timedOut]⟩

theorem later_callSelect (m : CanIOManager) (env : Environment) (read write : UInt8)
    (pendingTx : List (Option CanFrame)) (deadline : ℕ) :
    m.Later (m.callSelect env read write pendingTx deadline).2 ∧
      (m.callSelect env read write pendingTx deadline).2.txQueues = m.txQueues ∧
      (m.callSelect env read write pendingTx deadline).2.log =
        .select read write pendingTx deadline :: m.log := by
  simp only [callSelect]
  split
  · exact ⟨⟨rfl, rfl, Nat.le_refl _⟩, rfl, rfl⟩
  · exact ⟨⟨rfl, rfl, Nat.le_refl _⟩, rfl, rfl⟩

theorem later_transmitAll (env : Environment) (request : Request) (s : Sending) (write : UInt8) :
    s.m.Later (transmitAll env request s write).m := by
  refine foldlRecOn (motive := fun s' : Sending => s.m.Later s'.m) _ _ (.refl s.m) fun s' now i _ => ?_
  exact now.trans (later_transmit env request s' i)

variable {n : ℕ} {P : Sending → Prop}

variable {s : Sending}

theorem Invariant.transmitAll (invariant : Invariant env request n P) (holds : P s) (write : UInt8) :
    P (CanIOManager.transmitAll env request s write) := by
  refine foldlRecOn _ _ holds fun s' now i member => ?_
  rw [invariant.numIfaces s holds] at member
  exact invariant.transmit s' i now (mem_range.mp (mem_filter.mp member).1)

/-- How the loop ends: with an error of the driver, when all interfaces have taken the frame, or when the
frame is put into the queues of the others. -/
theorem Invariant.sendLoop (invariant : Invariant env request n P) (holds : P s) {deadline rounds : ℕ}
    {res : Except Err ℕ} (run : sendLoop env request deadline rounds s = some (res, m')) :
    ∃ s', P s' ∧ (res = .error .driver ∧ m' = s'.m ∨ res = .ok s'.retval ∧
      (s'.ifaceMask = 0 ∧ m' = s'.m ∨ m' = pushAll env request s'.m s'.ifaceMask)) := by
  induction rounds generalizing s with
  | zero => cases run
  | succ rounds ih =>
    unfold CanIOManager.sendLoop at run
    rcases sendRound_cases env request deadline s with ⟨none_left, round⟩ |
      ⟨read, write, pendingTx, m, rfl, round | ⟨ready, s', rfl, ⟨-, round⟩ | ⟨-, round⟩⟩⟩
    · rw [round] at run
      cases run
      exact ⟨s, holds, .inr ⟨rfl, .inl ⟨none_left, rfl⟩⟩⟩
    · rw [round] at run
      cases run
      exact ⟨_, invariant.select s read write pendingTx deadline holds, .inl ⟨rfl, rfl⟩⟩
    · rw [round] at run
      cases run
      have selected := invariant.select s read write pendingTx deadline holds
      exact ⟨_, invariant.getMonotonic _ (invariant.transmitAll selected ready), .inr ⟨rfl, .inr rfl⟩⟩
    · rw [round] at run
      have selected := invariant.select s read write pendingTx deadline holds
      exact ih (invariant.getMonotonic _ (invariant.transmitAll selected ready)) run

/-- The loop ends if the clock gets past the deadline. -/
theorem isSome_sendLoop {deadline N rounds : ℕ} (passes : ∀ k ≥ N, deadline ≤ env.getMonotonic k)
    (some_rounds : 0 < rounds) (enough : N < s.m.readings + rounds) :
    (sendLoop env request deadline rounds s).isSome := by
  induction rounds generalizing s with
  | zero => cases some_rounds
  | succ rounds ih =>
    unfold sendLoop
    rcases sendRound_cases env request deadline s with ⟨-, round⟩ |
      ⟨read, write, pendingTx, m, rfl, round | ⟨ready, s', rfl, ⟨-, round⟩ | ⟨early, round⟩⟩⟩
    · rw [round]
      rfl
    · rw [round]
      rfl
    · rw [round]
      rfl
    · rw [round]
      -- the clock was read once more, but not often enough yet
      have sent := ((s.m.later_callSelect env read write pendingTx deadline).1.trans
        (later_transmitAll env request
          { s with m := (s.m.callSelect env read write pendingTx deadline).2 } ready)).readings
      generalize transmitAll env request _ ready = s' at sent early
      have before : s'.m.readings < N := by
        by_contra late
        exact Nat.not_lt.mpr (passes _ (Nat.not_lt.mp late)) early
      refine ih (by omega) ?_
      show N < s'.m.readings + 1 + rounds
      omega

end CanIOManager

end Uavcan
