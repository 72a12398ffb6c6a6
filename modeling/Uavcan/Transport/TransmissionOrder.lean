import Mathlib.Data.List.Chain
import Uavcan.Transport.CanIOManager

/-!
# The order of transmission

Frames of one priority are meant to leave an interface in the order in which they were given to `send`,
whether the driver takes them at once or they wait in the queue. This holds as long as the driver, having
refused the frame at the head of the queue, does not take the new frame in the same round.
-/

namespace Uavcan

open Function List

/-! ## Order in the log -/

namespace IoEvent

/-- The driver takes the new frame right after it has refused a frame of the queue that comes first. -/
def overtakes : (later earlier : IoEvent) → Bool
  | .offer new, .offer refused =>
    new.iface = refused.iface && refused.queued && refused.res ≤ 0 && !new.queued && new.res > 0 &&
      !new.frame.priorityHigherThan refused.frame
  | _, _ => false

/-- Frames of one priority are taken in the order of the calls of `send`. -/
def InOrder : (later earlier : IoEvent) → Prop
  | .offer o, .offer earlier =>
    o.iface = earlier.iface → o.res > 0 → earlier.res > 0 →
      o.frame.arbitration = earlier.frame.arbitration → earlier.serial < o.serial
  | _, _ => True

instance (later earlier : IoEvent) : Decidable (later.InOrder earlier) :=
  match later, earlier with
  | .offer o, .offer earlier =>
    inferInstanceAs (Decidable (o.iface = earlier.iface → o.res > 0 → earlier.res > 0 →
      o.frame.arbitration = earlier.frame.arbitration → earlier.serial < o.serial))
  | .select .., _ => isTrue trivial
  | .push .., _ => isTrue trivial
  | .offer _, .select .. => isTrue trivial
  | .offer _, .push .. => isTrue trivial

end IoEvent

/-- In no round does the driver take the new frame after it has refused one that comes first. -/
def Steady (log : List IoEvent) : Prop := log.IsChain fun later earlier => later.overtakes earlier = false

instance (log : List IoEvent) : Decidable (Steady log) :=
  inferInstanceAs (Decidable (log.IsChain fun later earlier => later.overtakes earlier = false))

/-- No frame that was queued before this one and that is not of a lower priority is waiting. -/
def Offer.FirstInLine (o : Offer) : Prop :=
  ∀ e ∈ o.waiting, e.serial < o.serial → o.frame.priorityHigherThan e.frame

theorem Steady.of_cons {event : IoEvent} {log : List IoEvent} (steady : Steady (event :: log)) : Steady log :=
  List.IsChain.tail steady

/-! ## The invariant -/

namespace CanIOManager

/-- During call `c` of `send`, which is still to be given to the interfaces that are `left`: the queues are
sorted, and what the driver has taken comes before what is waiting. -/
structure Orderly (m : CanIOManager) (c : ℕ) (left : ℕ → Bool) : Prop where
  ordered : ∀ i, (m.txQueues i).Ordered (if left i then c else c + 1)
  serial : ∀ o, .offer o ∈ m.log → o.res > 0 → o.serial < c ∨ o.serial = c ∧ left o.iface = false
  behind : ∀ o, .offer o ∈ m.log → o.res > 0 → ∀ e ∈ (m.txQueues o.iface).queue,
    o.frame.arbitration = e.frame.arbitration → o.serial < e.serial
  first : ∀ o, .offer o ∈ m.log → o.res > 0 → o.FirstInLine
  inOrder : m.log.Pairwise IoEvent.InOrder

/-- A frame that the driver takes is in line with what it has taken and what is waiting. -/
structure InLine (m : CanIOManager) (c : ℕ) (left : ℕ → Bool) (o : Offer) (m' : CanIOManager) : Prop where
  serial : o.serial < c ∨ o.serial = c ∧ left o.iface = false
  behind : ∀ e ∈ (m'.txQueues o.iface).queue, o.frame.arbitration = e.frame.arbitration → o.serial < e.serial
  first : o.FirstInLine
  after : ∀ earlier, .offer earlier ∈ m.log → earlier.res > 0 → o.iface = earlier.iface →
    o.frame.arbitration = earlier.frame.arbitration → earlier.serial < o.serial

namespace Orderly

variable {env : Environment} {m m' : CanIOManager} {c : ℕ} {left left' : ℕ → Bool}

section

variable (orderly : m.Orderly c left)

include orderly

theorem ordered_succ (i : ℕ) : (m.txQueues i).Ordered (c + 1) := by
  refine (orderly.ordered i).mono ?_
  split <;> omega

theorem mono (less : ∀ i, left' i = true → left i = true) :
    m.Orderly c left' := by
  refine ⟨fun i => ?_, fun o member taken => ?_, orderly.behind, orderly.first, orderly.inOrder⟩
  · cases here : left' i with
    | true => simpa [less i here] using orderly.ordered i
    | false => exact orderly.ordered_succ i
  · rcases orderly.serial o member taken with before | ⟨now, done⟩
    · exact .inl before
    · refine .inr ⟨now, ?_⟩
      cases here : left' o.iface with
      | true => exact (less _ here).symm.trans done
      | false => rfl

theorem finish : m.Orderly (c + 1) fun _ => true := by
  refine ⟨orderly.ordered_succ, fun o member taken => .inl ?_, orderly.behind, orderly.first, orderly.inOrder⟩
  rcases orderly.serial o member taken with before | ⟨now, -⟩ <;> omega

/-- Frames leave the queues, and something happens; if the driver takes a frame, it is in line. -/
theorem event {event : IoEvent} (logged : m'.log = event :: m.log)
    (less : ∀ i, (m'.txQueues i).queue.Sublist (m.txQueues i).queue)
    (inLine : ∀ o, event = .offer o → o.res > 0 → m.InLine c left o m') : m'.Orderly c left := by
  have cases (o : Offer) (member : .offer o ∈ m'.log) (taken : o.res > 0) :
      m.InLine c left o m' ∨ .offer o ∈ m.log := by
    rw [logged] at member
    rcases mem_cons.mp member with new | old
    · exact .inl (inLine o new.symm taken)
    · exact .inr old
  refine ⟨fun i => (orderly.ordered i).sublist (less i), fun o member taken => ?_, fun o member taken => ?_,
    fun o member taken => ?_, ?_⟩
  · rcases cases o member taken with new | old
    · exact new.serial
    · exact orderly.serial o old taken
  · rcases cases o member taken with new | old
    · exact new.behind
    · exact fun e waiting => orderly.behind o old taken e ((less _).subset waiting)
  · rcases cases o member taken with new | old
    · exact new.first
    · exact orderly.first o old taken
  · rw [logged, pairwise_cons]
    refine ⟨fun earlier member => ?_, orderly.inOrder⟩
    cases event with
    | select => trivial
    | push => trivial
    | offer o =>
      cases earlier with
      | select => trivial
      | push => trivial
      | offer earlier =>
        intro same taken takenEarlier equal
        exact (inLine o rfl taken).after earlier member takenEarlier same equal

theorem sublist (logged : m'.log = m.log)
    (less : ∀ i, (m'.txQueues i).queue.Sublist (m.txQueues i).queue) : m'.Orderly c left :=
  ⟨fun i => (orderly.ordered i).sublist (less i), logged ▸ orderly.serial,
    fun o member taken e waiting => orderly.behind o (logged ▸ member) taken e ((less _).subset waiting),
    logged ▸ orderly.first, logged ▸ orderly.inOrder⟩

end

variable {i : ℕ}

theorem inLine (orderly : m.Orderly c left) {q : CanTxQueue} {e : CanTxQueue.Entry} {rest : List CanTxQueue.Entry}
    (less : q.queue.Sublist (m.txQueues i).queue) (head : q.queue = e :: rest)
    (queues : m'.txQueues = update m.txQueues i (q.remove e)) (res : ℤ) :
    m.InLine c left ⟨i, true, e.serial, e.frame, e.deadline, e.flags, res, q.queue⟩ m' := by
  have ordered := (orderly.ordered i).sublist less
  have sorted := ordered.sorted
  rw [head, pairwise_cons] at sorted
  have member : e ∈ q.queue := head ▸ mem_cons_self
  refine ⟨?_, fun later waiting equal => ?_, fun other waiting older => ?_,
    fun earlier old taken same equal => ?_⟩
  · have bound := ordered.serial e member
    split at bound
    case isTrue => exact .inl bound
    case isFalse done =>
      rcases Nat.lt_succ_iff_lt_or_eq.mp bound with before | now
      · exact .inl before
      · exact .inr ⟨now, Bool.eq_false_of_not_eq_true done⟩
  · rw [queues, update_self, CanTxQueue.queue_remove_head head] at waiting
    have before := CanTxQueue.Entry.before_iff.mp (sorted.1 later waiting)
    change e.frame.arbitration = later.frame.arbitration at equal
    change e.serial < later.serial
    omega
  · rw [head] at waiting
    rcases mem_cons.mp waiting with rfl | behind
    · exact absurd older (Nat.lt_irrefl _)
    · have before := CanTxQueue.Entry.before_iff.mp (sorted.1 other behind)
      change other.serial < e.serial at older
      exact (CanFrame.priorityHigherThan_iff e.frame other.frame).mpr (by omega)
  · subst same
    exact orderly.behind earlier old taken e (less.subset member) equal.symm

theorem flush (orderly : m.Orderly c left) {res : ℤ} (flushes : m.Flushes env i res m') :
    m'.Orderly c left := by
  have update {q : CanTxQueue} (less : q.queue.Sublist (m.txQueues i).queue)
      (queues : m'.txQueues = Function.update m.txQueues i q) (j : ℕ) :
      (m'.txQueues j).queue.Sublist (m.txQueues j).queue := by
    rw [queues]
    by_cases same : j = i
    · rw [same, update_self]
      exact less
    · rw [update_of_ne same]
  have peeks {timestamp : ℕ} {entry : Option CanTxQueue.Entry} {q : CanTxQueue}
      (peeked : (m.txQueues i).peek timestamp = (entry, q)) : q.queue.Sublist (m.txQueues i).queue := by
    simpa only [peeked] using (m.txQueues i).sublist_peek timestamp
  cases flushes with
  | idle peeked _ queues logged => exact orderly.sublist logged (update (peeks peeked) queues)
  | refused peeked _ queues logged refused =>
    refine orderly.event logged (update (peeks peeked) queues) ?_
    rintro _ ⟨⟩ taken
    exact absurd taken (Int.not_lt.mpr refused)
  | taken peeked _ queues logged =>
    obtain ⟨rest, head⟩ := CanTxQueue.queue_of_peek peeked
    refine orderly.event logged (update ((CanTxQueue.sublist_remove _).trans (peeks peeked)) queues) ?_
    rintro _ ⟨⟩ -
    exact orderly.inLine (peeks peeked) head queues _

theorem offer (orderly : m.Orderly c left) {o : Offer} (offers : m.Offers o m') (serial : o.serial = c)
    (wanted : left o.iface = true) (still : ∀ i, left' i = (left i && !decide (o.iface = i ∧ o.res > 0)))
    (lower : o.res > 0 → ∀ e ∈ (m.txQueues o.iface).queue, o.frame.priorityHigherThan e.frame) :
    m'.Orderly c left' := by
  have fewer : m.Orderly c left' := orderly.mono fun i here => by
    rw [still, Bool.and_eq_true] at here
    exact here.1
  refine fewer.event offers.log (fun i => by rw [offers.txQueues]) ?_
  rintro _ ⟨⟩ taken
  refine ⟨.inr ⟨serial, ?_⟩, fun e waiting equal => ?_, fun e waiting _ => ?_,
    fun earlier old takenEarlier same _ => ?_⟩
  · simp [still, taken]
  · rw [offers.txQueues] at waiting
    have before := (CanFrame.priorityHigherThan_iff ..).mp (lower taken e waiting)
    omega
  · rw [offers.waiting] at waiting
    exact lower taken e waiting
  · rcases orderly.serial earlier old takenEarlier with before | ⟨-, done⟩
    · omega
    · rw [← same, wanted] at done
      cases done

theorem push (orderly : m.Orderly c left) (env : Environment) (wanted : left i = true)
    (still : ∀ j, left' j = (left j && j ≠ i)) (frame : CanFrame) (txDeadline : ℕ) (qos : Qos) (flags : UInt16) :
    (m.pushTo env i frame txDeadline qos flags c).Orderly c left' := by
  have fewer : m.Orderly c left' := orderly.mono fun j here => by
    rw [still, Bool.and_eq_true] at here
    exact here.1
  have old (o : Offer) (member : .offer o ∈ (m.pushTo env i frame txDeadline qos flags c).log) :
      .offer o ∈ m.log := by
    rcases mem_cons.mp member with new | old
    · cases new
    · exact old
  have queue : (m.pushTo env i frame txDeadline qos flags c).txQueues i =
      (m.txQueues i).push (env.getMonotonic m.readings) (env.allocate m.pushes) frame txDeadline qos flags c :=
    update_self ..
  have others {j : ℕ} (other : j ≠ i) :
      (m.pushTo env i frame txDeadline qos flags c).txQueues j = m.txQueues j :=
    update_of_ne other ..
  refine ⟨fun j => ?_, fun o member => fewer.serial o (old o member), fun o member taken e waiting equal => ?_,
    fun o member => orderly.first o (old o member), ?_⟩
  · by_cases same : j = i
    · have ordered := orderly.ordered i
      rw [wanted] at ordered
      rw [same, queue, still]
      simpa using ordered.push _ _ frame txDeadline qos flags
    · rw [others same]
      exact fewer.ordered j
  · by_cases same : o.iface = i
    · rw [same, queue] at waiting
      rcases CanTxQueue.mem_push waiting with queued | rfl
      · exact orderly.behind o (old o member) taken e (same ▸ queued) equal
      · rcases orderly.serial o (old o member) taken with before | ⟨-, done⟩
        · exact before
        · rw [same, wanted] at done
          cases done
    · rw [others same] at waiting
      exact orderly.behind o (old o member) taken e waiting equal
  · exact pairwise_cons.mpr ⟨fun _ _ => trivial, orderly.inOrder⟩

end Orderly

/-! ## Sending -/

variable {env : Environment} {request : Request} {n c : ℕ}

variable {m m' : CanIOManager} {rounds : ℕ}

theorem Flushes.steady {i : ℕ} {res : ℤ} (flushes : m.Flushes env i res m') (steady : Steady m'.log) :
    Steady m.log := by
  cases flushes with
  | idle _ _ _ logged => exact logged ▸ steady
  | refused _ _ _ logged => exact Steady.of_cons (logged ▸ steady)
  | taken _ _ _ logged => exact Steady.of_cons (logged ▸ steady)

/-- If the driver takes the new frame after `sendFromTxQueue` could not send, all that is waiting is of a lower
priority. -/
theorem Flushes.lower {i : ℕ} {res : ℤ} (flushes : m.Flushes env i res m') (nothing : res ≤ 0)
    (present : env.getIface i = true) {left : ℕ → Bool} (orderly : m'.Orderly c left) {o : Offer}
    (iface : o.iface = i) (new : o.queued = false) (taken : o.res > 0) (steady : Steady (.offer o :: m'.log)) :
    ∀ e ∈ (m'.txQueues i).queue, o.frame.priorityHigherThan e.frame := by
  refine (orderly.ordered i).lower fun e top => ?_
  cases flushes with
  | idle peeked _ queues _ _ empty =>
    rcases empty with rfl | absent
    · rw [queues, update_self, CanTxQueue.queue_of_peek_none peeked] at top
      cases top
    · cases absent.symm.trans present
  | refused peeked _ queues logged =>
    obtain ⟨rest, head⟩ := CanTxQueue.queue_of_peek peeked
    rw [queues, update_self, head] at top
    cases top
    rw [logged] at steady
    have kept := (isChain_cons_cons.mp steady).1
    simpa [IoEvent.overtakes, iface, new, taken, nothing] using kept
  | taken _ _ _ _ sent => exact absurd sent (Int.not_lt.mpr nothing)

/-- What holds during call `c` of `send`. -/
structure InCall (n c : ℕ) (s : Sending) : Prop where
  numIfaces : s.m.numIfaces = n
  calls : s.m.calls = c + 1
  orderly : Steady s.m.log → s.m.Orderly c fun i => decide (i < n) && hasIface s.ifaceMask i

namespace InCall

variable {s : Sending}

theorem later (inCall : InCall n c s) {m' : CanIOManager} (later : s.m.Later m')
    (orderly : Steady m'.log → m'.Orderly c fun i => decide (i < n) && hasIface s.ifaceMask i) (retval : ℕ) :
    InCall n c ⟨m', s.ifaceMask, retval⟩ :=
  ⟨later.numIfaces.trans inCall.numIfaces, later.calls.trans inCall.calls, orderly⟩

theorem sendQueued (inCall : InCall n c s) (i : ℕ) : InCall n c (sendQueued env s i).2 :=
  have flushes := flushes_sendQueued env s i
  inCall.later flushes.later (fun steady => (inCall.orderly (flushes.steady steady)).flush flushes) _

theorem sendNew (inCall : InCall n c s) (small : n ≤ 8) (serial : request.serial = c) {i : ℕ} (inside : i < n)
    (has : hasIface s.ifaceMask i)
    (lower : ∀ o, o.iface = i → o.queued = false → o.frame = request.frame → o.res > 0 →
      env.getIface i = true → Steady (.offer o :: s.m.log) →
      ∀ e ∈ (s.m.txQueues i).queue, o.frame.priorityHigherThan e.frame) :
    InCall n c (sendNew env request s i) := by
  rcases sendNew_cases env request s i with ⟨-, same⟩ | ⟨present, o, rfl, new, own, offers, mask⟩
  · rw [same]
    exact inCall
  · refine ⟨offers.later.numIfaces.trans inCall.numIfaces, offers.later.calls.trans inCall.calls, ?_⟩
    intro steady
    rw [offers.log] at steady
    refine (inCall.orderly steady.of_cons).offer offers (own.serial.trans serial) ?_ (fun i => ?_) ?_
    · simp [inside, has]
    · by_cases exists_ : i < n
      · rw [mask, hasIface_taken _ _ (by omega) (by omega), Bool.and_assoc]
      · simp [exists_]
    · intro taken
      exact lower o rfl new own.frame taken present steady

theorem transmit (inCall : InCall n c s) (small : n ≤ 8) (serial : request.serial = c) {i : ℕ}
    (inside : i < n) : InCall n c (transmit env request s i) := by
  rcases transmit_cases env request s i with ⟨-, same⟩ | ⟨has, top, same⟩ | ⟨-, -, same⟩ | ⟨has, nothing, same⟩
  · exact same ▸ inCall.sendQueued i
  · rw [same]
    refine inCall.sendNew small serial inside has ?_
    rintro o rfl - frame - - steady
    rw [frame]
    exact ((inCall.orderly steady.of_cons).ordered o.iface).lower (CanTxQueue.higher_of_top top)
  · exact same ▸ inCall.sendQueued i
  · rw [same]
    have queued : InCall n c (CanIOManager.sendQueued env s i).2 := inCall.sendQueued i
    refine queued.sendNew small serial inside has ?_
    intro o iface new _ taken present steady
    exact (flushes_sendQueued env s i).lower nothing present (queued.orderly steady.of_cons) iface new taken steady

end InCall

theorem inCall_invariant (env : Environment) (request : Request) (small : n ≤ 8) :
    Invariant env request n (InCall n request.serial) where
  numIfaces _ inCall := inCall.numIfaces
  select s read write pendingTx deadline inCall := by
    obtain ⟨later, queues, logged⟩ := s.m.later_callSelect env read write pendingTx deadline
    refine inCall.later later (fun steady => ?_) s.retval
    rw [logged] at steady
    exact (inCall.orderly steady.of_cons).event logged (fun i => by rw [queues]) nofun
  transmit s i inCall inside := inCall.transmit small rfl inside
  getMonotonic s inCall := inCall.later (s.m.later_getMonotonic env)
    (fun steady => (inCall.orderly steady).sublist rfl fun _ => .refl _) s.retval

theorem Orderly.pushAll {left : ℕ → Bool} (orderly : m.Orderly request.serial left) (env : Environment) (mask : UInt8)
    (l : List ℕ) (nodup : l.Nodup) (wanted : ∀ i ∈ l, hasIface mask i → left i = true) :
    ∃ left', (l.foldl (fun m i => if hasIface mask i then
        m.pushTo env i request.frame request.txDeadline request.qos request.flags request.serial
        else m) m).Orderly request.serial left' := by
  induction l generalizing m left with
  | nil => exact ⟨left, orderly⟩
  | cons j l ih =>
    obtain ⟨fresh, nodup⟩ := nodup_cons.mp nodup
    rw [foldl_cons]
    cases has : hasIface mask j with
    | false => exact ih orderly nodup fun i member => wanted i (mem_cons_of_mem j member)
    | true =>
      have pushed := orderly.push env (wanted j mem_cons_self has) (fun i => rfl) request.frame
        request.txDeadline request.qos request.flags
      refine ih pushed nodup fun i member here => ?_
      have other : i ≠ j := fun same => fresh (same ▸ member)
      simp [wanted i (mem_cons_of_mem j member) here, other]

theorem pushAll_cases (env : Environment) (request : Request) (m : CanIOManager) (mask : UInt8) :
    m.Later (pushAll env request m mask) ∧ ∃ pushed, (pushAll env request m mask).log = pushed ++ m.log := by
  refine foldlRecOn (motive := fun m' : CanIOManager => m.Later m' ∧ ∃ pushed, m'.log = pushed ++ m.log)
    _ _ ⟨.refl m, [], rfl⟩ ?_
  rintro m' ⟨later, pushed, logged⟩ i -
  split
  · exact ⟨later.trans ⟨rfl, rfl, Nat.le_succ _⟩, _ :: pushed, congrArg (cons _) logged⟩
  · exact ⟨later, pushed, logged⟩

/-- A call of `send` keeps the order, unless the driver takes the new frame after it has refused one that comes
first. -/
theorem orderly_send (orderly : Steady m.log → m.Orderly m.calls fun _ => true) (valid : m.numIfaces ≤ maxCanIfaces)
    {frame : CanFrame} {txDeadline blockingDeadline : ℕ} {ifaceMask : UInt8} {qos : Qos} {flags : UInt16}
    {res : Except Err ℕ}
    (run : m.send env rounds frame txDeadline blockingDeadline ifaceMask qos flags = some (res, m')) :
    m'.numIfaces = m.numIfaces ∧ (Steady m'.log → m'.Orderly m'.calls fun _ => true) := by
  have small : m.numIfaces ≤ 8 := Nat.le_trans valid (by decide)
  have started : InCall m.numIfaces m.calls
      ⟨{ m with calls := m.calls + 1 }, ifaceMask &&& ((1 <<< UInt8.ofNat m.numIfaces) - 1), 0⟩ := by
    refine ⟨rfl, rfl, fun steady => ?_⟩
    refine Orderly.sublist ((orderly steady).mono fun _ _ => rfl) rfl fun _ => .refl _
  have invariant := inCall_invariant env ⟨frame, txDeadline, qos, flags, m.calls⟩ small
  have ended {s : Sending} (inCall : InCall m.numIfaces m.calls s) (steady : Steady s.m.log) :
      s.m.Orderly s.m.calls fun _ => true := by
    rw [inCall.calls]
    exact (inCall.orderly steady).finish
  obtain ⟨s', inCall, ⟨-, rfl⟩ | ⟨-, ⟨-, rfl⟩ | rfl⟩⟩ := invariant.sendLoop started run
  · exact ⟨inCall.numIfaces, ended inCall⟩
  · exact ⟨inCall.numIfaces, ended inCall⟩
  · obtain ⟨later, pushed, logged⟩ := pushAll_cases env ⟨frame, txDeadline, qos, flags, m.calls⟩ s'.m s'.ifaceMask
    refine ⟨later.numIfaces.trans inCall.numIfaces, fun steady => ?_⟩
    rw [logged] at steady
    obtain ⟨left', pushed⟩ := Orderly.pushAll (inCall.orderly steady.right_of_append) env s'.ifaceMask
      (range s'.m.numIfaces) nodup_range fun i member has => by
        rw [inCall.numIfaces] at member
        simp [mem_range.mp member, has]
    rw [later.calls, inCall.calls]
    exact pushed.finish

/-! ## Receiving -/

/-- Neither the queues nor the log change. -/
structure Quiet (m m' : CanIOManager) : Prop extends m.Later m' where
  txQueues : m'.txQueues = m.txQueues
  log : m'.log = m.log

theorem quiet_readLoop (env : Environment) (read : UInt8) (l : List ℕ) (m : CanIOManager) :
    m.Quiet (readLoop env read l m).2 := by
  induction l generalizing m with
  | nil => exact ⟨.refl m, rfl, rfl⟩
  | cons i l ih =>
    have next := ih { m with receives := m.receives + 1 }
    simp only [readLoop]
    split
    · exact ih m
    split
    · exact ⟨⟨next.numIfaces, next.calls, next.readings⟩, next.txQueues, next.log⟩
    -- the counter of the interface changes or not
    dsimp only
    split
    · exact ⟨⟨rfl, rfl, Nat.le_refl _⟩, rfl, rfl⟩
    · exact ⟨⟨rfl, rfl, Nat.le_refl _⟩, rfl, rfl⟩

/-- What `select`, the transmission from the queues and all that leaves queues and log alone preserve, is
preserved by `receive`. -/
theorem receive_induction {Q : CanIOManager → Prop}
    (select : ∀ m read write pendingTx deadline, Q m → Q (m.callSelect env read write pendingTx deadline).2)
    (flush : ∀ m i, Q m → Q (m.sendFromTxQueue env i).2) (quiet : ∀ m m', m.Quiet m' → Q m → Q m') {deadline : ℕ}
    {res : Except Err ℤ × Option (CanRxFrame × UInt16)} (holds : Q m)
    (run : receive env deadline rounds m = some (res, m')) : Q m' := by
  induction rounds generalizing m with
  | zero => cases run
  | succ rounds ih =>
    unfold receive at run
    split at run
    case h_1 selected =>
      cases run
      have after : _ = m' := congrArg Prod.snd selected
      rw [← after]
      exact select m _ _ _ _ holds
    case h_2 read write m₁ selected =>
      have ready : Q m₁ := by
        have after : _ = m₁ := congrArg Prod.snd selected
        rw [← after]
        exact select m _ _ _ _ holds
      simp only at run
      have sent : Q (((range m₁.numIfaces).filter fun i => hasIface write i).foldl
          (fun m i => (m.sendFromTxQueue env i).2) m₁) :=
        foldlRecOn _ _ ready fun m' now i _ => flush m' i now
      generalize ((range m₁.numIfaces).filter fun i => hasIface write i).foldl
          (fun m i => (m.sendFromTxQueue env i).2) m₁ = m₂ at sent run
      have received := quiet _ _ (quiet_readLoop env read (range m₂.numIfaces) m₂) sent
      split at run
      case h_1 found =>
        rw [found] at received
        cases run
        exact received
      case h_2 m₃ found =>
        rw [found] at received
        have waited := quiet _ _ ⟨later_getMonotonic _ env, rfl, rfl⟩ received
        by_cases late : env.getMonotonic m₃.readings ≥ deadline
        · simp only [getMonotonic, late] at run
          cases run
          exact waited
        · simp only [getMonotonic, late] at run
          exact ih waited run

theorem orderly_receive (orderly : Steady m.log → m.Orderly m.calls fun _ => true) {deadline : ℕ}
    {res : Except Err ℤ × Option (CanRxFrame × UInt16)} (run : receive env deadline rounds m = some (res, m')) :
    m'.numIfaces = m.numIfaces ∧ (Steady m'.log → m'.Orderly m'.calls fun _ => true) := by
  have kept : m'.numIfaces = m.numIfaces ∧ m'.calls = m.calls ∧
      (Steady m'.log → m'.Orderly m.calls fun _ => true) := by
    refine receive_induction (Q := fun m' => m'.numIfaces = m.numIfaces ∧ m'.calls = m.calls ∧
      (Steady m'.log → m'.Orderly m.calls fun _ => true)) ?_ ?_ ?_ ⟨rfl, rfl, orderly⟩ run
    · rintro m₁ read write pendingTx deadline ⟨numIfaces, calls, orderly⟩
      obtain ⟨later, queues, logged⟩ := m₁.later_callSelect env read write pendingTx deadline
      refine ⟨later.numIfaces.trans numIfaces, later.calls.trans calls, fun steady => ?_⟩
      rw [logged] at steady
      exact (orderly steady.of_cons).event logged (fun i => by rw [queues]) nofun
    · rintro m₁ i ⟨numIfaces, calls, orderly⟩
      have flushes := m₁.flushes_sendFromTxQueue env i
      exact ⟨flushes.later.numIfaces.trans numIfaces, flushes.later.calls.trans calls,
        fun steady => (orderly (flushes.steady steady)).flush flushes⟩
    · rintro m₁ m₂ quiet ⟨numIfaces, calls, orderly⟩
      refine ⟨quiet.numIfaces.trans numIfaces, quiet.calls.trans calls, fun steady => ?_⟩
      exact (orderly (quiet.log ▸ steady)).sublist quiet.log fun i => by rw [quiet.txQueues]
  exact ⟨kept.1, fun steady => kept.2.1 ▸ kept.2.2 steady⟩

end CanIOManager

/-! ## Runs -/

/-- Calls of `send` and `receive`, in any order. -/
inductive IoRun (env : Environment) : CanIOManager → Prop
  | init {n : ℕ} : 1 ≤ n → n ≤ CanIOManager.maxCanIfaces → IoRun env (.init n)
  | send {m m' : CanIOManager} (rounds : ℕ) (frame : CanFrame) (txDeadline blockingDeadline : ℕ)
    (ifaceMask : UInt8) (qos : Qos) (flags : UInt16) {res : Except Err ℕ} : IoRun env m →
    m.send env rounds frame txDeadline blockingDeadline ifaceMask qos flags = some (res, m') → IoRun env m'
  | receive {m m' : CanIOManager} (rounds blockingDeadline : ℕ)
    {res : Except Err ℤ × Option (CanRxFrame × UInt16)} : IoRun env m →
    CanIOManager.receive env blockingDeadline rounds m = some (res, m') → IoRun env m'

namespace IoRun

variable {env : Environment} {m : CanIOManager}

theorem orderly (run : IoRun env m) : m.numIfaces ≤ CanIOManager.maxCanIfaces ∧
    (Steady m.log → m.Orderly m.calls fun _ => true) := by
  induction run with
  | init _ valid => exact ⟨valid, fun _ => ⟨fun _ => ⟨.nil, nofun⟩, nofun, nofun, nofun, .nil⟩⟩
  | send _ _ _ _ _ _ _ _ sent ih =>
    obtain ⟨numIfaces, orderly⟩ := CanIOManager.orderly_send ih.2 ih.1 sent
    exact ⟨numIfaces ▸ ih.1, orderly⟩
  | receive _ _ _ received ih =>
    obtain ⟨numIfaces, orderly⟩ := CanIOManager.orderly_receive ih.2 received
    exact ⟨numIfaces ▸ ih.1, orderly⟩

/-- Unless the driver takes a new frame right after it has refused one that comes first: in every run, a frame
that a driver takes has a higher priority than all frames that were queued before it and are still waiting,
and an interface takes frames of one priority in the order of the calls of `send`. -/
theorem sent_in_order (run : IoRun env m) (steady : Steady m.log) :
    (∀ o, .offer o ∈ m.log → o.res > 0 → o.FirstInLine) ∧ m.log.Pairwise IoEvent.InOrder :=
  have orderly := run.orderly.2 steady
  ⟨orderly.first, orderly.inOrder⟩

/-- One interface that is always ready, and a driver that answers as in a list. -/
def Sample.answers (l : List ℤ) : Environment where
  getIface _ := true
  select _ := ⟨1, 0, 1⟩
  send k := l.getD k 0
  receive _ := ⟨0, ⟨0, []⟩, 0, 0, 0⟩
  getMonotonic k := k
  allocate _ _ := true

/-- Two frames of a transfer are sent, and then `receive` is called. -/
def Sample.calls (env : Environment) : Option CanIOManager := do
  let (_, m) ← (CanIOManager.init 1).send env 1 ⟨CanFrame.flagEFF ||| 7, [1]⟩ 100 0 1 .volatile 0
  let (_, m) ← m.send env 1 ⟨CanFrame.flagEFF ||| 7, [2]⟩ 100 0 1 .volatile 0
  let (_, m) ← CanIOManager.receive env 0 1 m
  some m

theorem Sample.run_calls (calls : Sample.calls env = some m) :
    IoRun env m := by
  simp only [Sample.calls, Option.bind_eq_bind, Option.bind_eq_some_iff] at calls
  obtain ⟨⟨_, m₁⟩, first, ⟨_, m₂⟩, second, ⟨_, m₃⟩, received, same⟩ := calls
  cases same
  have init : IoRun env (CanIOManager.init 1) := .init (by decide) (by decide)
  exact .receive _ _ (.send _ _ _ _ _ _ _ (.send _ _ _ _ _ _ _ init first) second) received

/-- The driver refuses the first frame and takes all others. -/
theorem sent_in_order_sample : ∃ m, IoRun (Sample.answers [0, 1, 1]) m ∧ Steady m.log ∧
    (m.log.filterMap fun | .offer o => some (o.serial, o.res) | _ => none) = [(1, 1), (0, 1), (0, 0)] ∧
    (∀ o, .offer o ∈ m.log → o.res > 0 → o.FirstInLine) ∧ m.log.Pairwise IoEvent.InOrder := by
  obtain ⟨m, calls, steady, offers⟩ : ∃ m, Sample.calls (Sample.answers [0, 1, 1]) = some m ∧ Steady m.log ∧
      (m.log.filterMap fun | .offer o => some (o.serial, o.res) | _ => none) = [(1, 1), (0, 1), (0, 0)] :=
    ⟨_, rfl, by decide +kernel, by decide +kernel⟩
  have run := Sample.run_calls calls
  exact ⟨m, run, steady, offers, run.sent_in_order steady⟩

/-- The driver refuses the first frame of the transfer, then refuses it again and takes the second one, although
the first one is in the queue and has not expired: the frames leave in the wrong order. -/
theorem queued_frame_overtaken : (∀ k, (Sample.answers [0, 0, 1, 1]).send k ∈ [0, 1]) ∧
    ∃ m, IoRun (Sample.answers [0, 0, 1, 1]) m ∧
      (∃ o, .offer o ∈ m.log ∧ o.res > 0 ∧ ∃ e ∈ o.waiting, e.serial < o.serial ∧ e.frame.id = o.frame.id ∧
        ¬ o.frame.priorityHigherThan e.frame ∧
        ∀ k < m.readings, ¬ e.isExpired ((Sample.answers [0, 0, 1, 1]).getMonotonic k)) ∧
      ¬ m.log.Pairwise IoEvent.InOrder := by
  refine ⟨fun k => ?_, ?_⟩
  · rcases k with _ | _ | _ | _ | k
    · decide
    · decide
    · decide
    · decide
    · simp [Sample.answers]
  obtain ⟨m, calls, logged, readings, reordered⟩ : ∃ m,
      Sample.calls (Sample.answers [0, 0, 1, 1]) = some m ∧
      m.log[2]? = some (.offer ⟨0, false, 1, ⟨CanFrame.flagEFF ||| 7, [2]⟩, 100, 0, 1,
        [⟨100, ⟨CanFrame.flagEFF ||| 7, [1]⟩, .volatile, 0, 0⟩]⟩) ∧
      m.readings = 6 ∧ ¬ m.log.Pairwise IoEvent.InOrder :=
    ⟨_, rfl, rfl, rfl, by decide +kernel⟩
  refine ⟨m, Sample.run_calls calls, ⟨_, mem_of_getElem? logged, by decide, _, mem_cons_self, ?_⟩,
    reordered⟩
  rw [readings]
  decide +kernel

end IoRun

end Uavcan
