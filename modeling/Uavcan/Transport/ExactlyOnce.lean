import Uavcan.Transport.CanIOManager

/-!
# Every interface gets a frame once

Whatever driver and clock answer, `CanIOManager.send` gives its frame to each of the selected interfaces
exactly once: the driver takes it, or it goes to the queue of the interface.
-/

namespace Uavcan

open List

/-! ## Counting -/

namespace IoEvent

/-- The new frame is given to the driver of an interface. -/
def offers (i : ℕ) : IoEvent → Bool
  | .offer o => o.iface = i && !o.queued
  | _ => false

/-- The driver of an interface takes the new frame. -/
def accepts (i : ℕ) : IoEvent → Bool
  | .offer o => o.iface = i && !o.queued && o.res > 0
  | _ => false

/-- The new frame is pushed to the queue of an interface. -/
def pushes (i : ℕ) : IoEvent → Bool
  | .push iface .. => iface = i
  | _ => false

/-- An event that has nothing to do with the new frame. -/
def Other : IoEvent → Prop
  | .select .. => True
  | .offer o => o.queued = true
  | .push .. => False

theorem Other.uncounted {event : IoEvent} (other : event.Other) (i : ℕ) :
    event.offers i = false ∧ event.accepts i = false ∧ event.pushes i = false := by
  cases event with
  | select => exact ⟨rfl, rfl, rfl⟩
  | offer o =>
    have queued : o.queued = true := other
    simp [offers, accepts, pushes, queued]
  | push => exact other.elim

end IoEvent

/-- What has become of the frame of a call of `send`, if it still has to go to the interfaces of `mask`. -/
structure Tally (n : ℕ) (request : Request) (selected mask : UInt8) (events : List IoEvent) : Prop where
  within : ∀ i < n, hasIface mask i → hasIface selected i
  left : ∀ i < n, hasIface mask i → events.countP (IoEvent.accepts i) = 0
  done : ∀ i < n, hasIface selected i → ¬ hasIface mask i → events.countP (IoEvent.accepts i) = 1
  others : ∀ i, ¬ (i < n ∧ hasIface selected i) → events.countP (IoEvent.offers i) = 0
  unqueued : ∀ i, events.countP (IoEvent.pushes i) = 0
  own : ∀ o, .offer o ∈ events → o.queued = false → request.Matches o

namespace Tally

variable {n : ℕ} {request : Request} {selected mask : UInt8} {events : List IoEvent}

theorem start (n : ℕ) (request : Request) (selected : UInt8) : Tally n request selected selected [] :=
  ⟨fun _ _ has => has, fun _ _ _ => rfl, fun _ _ has hasNot => absurd has hasNot, fun _ _ => rfl, fun _ => rfl,
    nofun⟩

theorem other (tally : Tally n request selected mask events) {event : IoEvent} (other : event.Other) :
    Tally n request selected mask (event :: events) := by
  refine ⟨tally.within, ?_, ?_, ?_, ?_, ?_⟩
  · simpa [countP_cons, other.uncounted] using tally.left
  · simpa [countP_cons, other.uncounted] using tally.done
  · simpa [countP_cons, other.uncounted] using tally.others
  · simpa [countP_cons, other.uncounted] using tally.unqueued
  · intro o member new
    rcases mem_cons.mp member with rfl | older
    · have queued : o.queued = true := other
      cases queued.symm.trans new
    · exact tally.own o older new

theorem offer (tally : Tally n request selected mask events) {o : Offer} (small : n ≤ 8)
    (inside : o.iface < n) (has : hasIface mask o.iface) (new : o.queued = false) (own : request.Matches o) :
    Tally n request selected (if o.res > 0 then mask &&& ~~~(1 <<< UInt8.ofNat o.iface) else mask)
      (.offer o :: events) := by
  have accepts (i : ℕ) : (IoEvent.offer o).accepts i = decide (o.iface = i ∧ o.res > 0) := by
    simp [IoEvent.accepts, new]
  have mask' (i : ℕ) (_ : i < n) := hasIface_taken mask o.res (i := i) (j := o.iface) (by omega) (by omega)
  refine ⟨?_, ?_, ?_, ?_, ?_, ?_⟩
  · intro i inside left
    rw [mask' i inside, Bool.and_eq_true] at left
    exact tally.within i inside left.1
  · intro i inside left
    rw [mask' i inside, Bool.and_eq_true, Bool.not_eq_true'] at left
    rw [countP_cons, accepts, left.2, tally.left i inside left.1]
    rfl
  · intro i inside wanted finished
    rw [mask' i inside] at finished
    rw [countP_cons, accepts]
    by_cases now : o.iface = i ∧ o.res > 0
    · obtain ⟨rfl, taken⟩ := now
      rw [tally.left o.iface inside has]
      simp [taken]
    · rw [decide_eq_false now, Bool.not_false, Bool.and_true] at finished
      rw [tally.done i inside wanted finished, decide_eq_false now]
      rfl
  · intro i outside
    have different : o.iface ≠ i := by
      rintro rfl
      exact outside ⟨inside, tally.within _ inside has⟩
    rw [countP_cons, tally.others i outside]
    simp [IoEvent.offers, different]
  · intro i
    rw [countP_cons, tally.unqueued i]
    rfl
  · intro o' member new'
    rcases mem_cons.mp member with same | older
    · cases same
      exact own
    · exact tally.own o' older new'

theorem not_pushed (tally : Tally n request selected mask events) {i : ℕ} {e : CanTxQueue.Entry} {q : CanTxQueue} :
    .push i e q ∉ events := fun member =>
  countP_eq_zero.mp (tally.unqueued i) _ member (by simp [IoEvent.pushes])

end Tally

namespace CanIOManager

variable {env : Environment} {request : Request} {n : ℕ} {selected : UInt8} {log : List IoEvent}

/-- The tally of what has happened since the log was `log`. -/
def Counted (n : ℕ) (request : Request) (selected : UInt8) (log : List IoEvent) (s : Sending) : Prop :=
  s.m.numIfaces = n ∧ ∃ events, s.m.log = events ++ log ∧ Tally n request selected s.ifaceMask events

variable {s : Sending}

/-- An event that has nothing to do with the frame does not count. -/
theorem Counted.other {s' : Sending} (counted : Counted n request selected log s) {event : IoEvent}
    (logged : s'.m.log = event :: s.m.log) (other : event.Other) (later : s.m.Later s'.m)
    (mask : s'.ifaceMask = s.ifaceMask) : Counted n request selected log s' := by
  obtain ⟨numIfaces, events, since, tally⟩ := counted
  refine ⟨later.numIfaces.trans numIfaces, event :: events, ?_, mask ▸ tally.other other⟩
  rw [logged, since]
  rfl

theorem Counted.sendQueued (counted : Counted n request selected log s) (i : ℕ) :
    Counted n request selected log (sendQueued env s i).2 := by
  cases flushes_sendQueued env s i with
  | idle _ later _ same =>
    obtain ⟨numIfaces, events, since, tally⟩ := counted
    exact ⟨later.numIfaces.trans numIfaces, events, same.trans since, tally⟩
  | refused _ later _ logged => exact counted.other logged rfl later rfl
  | taken _ later _ logged => exact counted.other logged rfl later rfl

theorem Counted.sendNew (counted : Counted n request selected log s) (small : n ≤ 8) {i : ℕ} (inside : i < n)
    (has : hasIface s.ifaceMask i) :
    Counted n request selected log (sendNew env request s i) := by
  obtain ⟨numIfaces, events, since, tally⟩ := counted
  rcases sendNew_cases env request s i with ⟨-, same⟩ | ⟨-, o, rfl, new, own, offers, mask⟩
  · rw [same]
    exact ⟨numIfaces, events, since, tally⟩
  · refine ⟨offers.later.numIfaces.trans numIfaces, .offer o :: events, ?_, ?_⟩
    · rw [offers.log, since]
      rfl
    · rw [mask]
      exact tally.offer small inside has new own

/-- Each round of the loop keeps the tally. -/
theorem counted_invariant (env : Environment) (request : Request) (selected : UInt8) (log : List IoEvent)
    (small : n ≤ 8) : Invariant env request n (Counted n request selected log) where
  numIfaces _ counted := counted.1
  select s read write pendingTx deadline counted := by
    obtain ⟨later, -, logged⟩ := s.m.later_callSelect env read write pendingTx deadline
    exact counted.other logged trivial later rfl
  getMonotonic _ counted := counted
  transmit s i counted inside := by
    rcases transmit_cases env request s i with ⟨-, same⟩ | ⟨has, -, same⟩ | ⟨-, -, same⟩ | ⟨has, -, same⟩
    · exact same ▸ counted.sendQueued i
    · exact same ▸ counted.sendNew small inside has
    · exact same ▸ counted.sendQueued i
    · exact same ▸ (counted.sendQueued i).sendNew small inside has

/-- The request is pushed to the queue of each interface of the mask. -/
theorem pushAll_log (env : Environment) (request : Request) (m : CanIOManager) (mask : UInt8) (l : List ℕ)
    (nodup : l.Nodup) :
    ∃ m', l.foldl (fun m i => if hasIface mask i then
        m.pushTo env i request.frame request.txDeadline request.qos request.flags request.serial
        else m) m = m' ∧
      m'.log = ((l.filter (hasIface mask)).map fun i => .push i request.entry (m'.txQueues i)).reverse ++ m.log ∧
      (∀ i, i ∉ l → m'.txQueues i = m.txQueues i) ∧
      ∀ i ∈ l, hasIface mask i → ∃ timestamp alloc, m'.txQueues i = (m.txQueues i).push timestamp alloc
        request.frame request.txDeadline request.qos request.flags request.serial := by
  induction l generalizing m with
  | nil => exact ⟨m, rfl, rfl, fun _ _ => rfl, by simp⟩
  | cons j l ih =>
    obtain ⟨fresh, nodup⟩ := nodup_cons.mp nodup
    rw [foldl_cons]
    cases has : hasIface mask j with
    | false =>
      obtain ⟨m', same, log, others, given⟩ := ih m nodup
      refine ⟨m', same, by rw [filter_cons_of_neg (by simp [has]), log], fun i outside => ?_, fun i member wanted => ?_⟩
      · exact others i fun member => outside (mem_cons_of_mem j member)
      · rcases mem_cons.mp member with rfl | member
        · cases has.symm.trans wanted
        · exact given i member wanted
    | true =>
      have update {i : ℕ} (other : i ≠ j) : (m.pushTo env j request.frame request.txDeadline request.qos
          request.flags request.serial).txQueues i = m.txQueues i := Function.update_of_ne other ..
      obtain ⟨m', same, log, others, given⟩ := ih (m.pushTo env j request.frame request.txDeadline request.qos
        request.flags request.serial) nodup
      have queue := (others j fresh).trans (Function.update_self ..)
      refine ⟨m', same, ?_, fun i outside => ?_, fun i member wanted => ?_⟩
      · rw [log, filter_cons_of_pos has, map_cons, reverse_cons, append_assoc, queue]
        rfl
      · obtain ⟨different, outside⟩ := not_or.mp (mem_cons.not.mp outside)
        rw [others i outside, update different]
      · rcases mem_cons.mp member with rfl | member
        · exact ⟨_, _, queue⟩
        · rw [← update fun same => fresh (same ▸ member)]
          exact given i member wanted

theorem countP_pushed {l : List ℕ} (nodup : l.Nodup) (entry : CanTxQueue.Entry) (queues : ℕ → CanTxQueue) (i : ℕ) :
    (l.map fun j => .push j entry (queues j)).reverse.countP (IoEvent.accepts i) = 0 ∧
      (l.map fun j => .push j entry (queues j)).reverse.countP (IoEvent.offers i) = 0 ∧
      (l.map fun j => .push j entry (queues j)).reverse.countP (IoEvent.pushes i) = if i ∈ l then 1 else 0 := by
  rw [countP_reverse, countP_reverse, countP_reverse, countP_map, countP_map, countP_map, ← nodup.count, count]
  exact ⟨countP_eq_zero.mpr (by simp [IoEvent.accepts]), countP_eq_zero.mpr (by simp [IoEvent.offers]),
    countP_congr fun j _ => by simp [IoEvent.pushes]⟩

/-- What has been logged during a call of `send`: each selected interface gets the frame once, by the driver
or in its queue, and no other interface is given it.  What it is given is what was requested, and a queue that was
given it is as it has become. -/
structure GivenOnce (n : ℕ) (request : Request) (selected : UInt8) (events : List IoEvent) (m' : CanIOManager) :
    Prop where
  once : ∀ i < n, hasIface selected i →
    events.countP (IoEvent.accepts i) = 1 ∧ events.countP (IoEvent.pushes i) = 0 ∨
      events.countP (IoEvent.accepts i) = 0 ∧ events.countP (IoEvent.pushes i) = 1
  others : ∀ i, ¬ (i < n ∧ hasIface selected i) →
    events.countP (IoEvent.offers i) = 0 ∧ events.countP (IoEvent.pushes i) = 0
  own : ∀ o, .offer o ∈ events → o.queued = false → request.Matches o
  pushed : ∀ i e q, .push i e q ∈ events → e = request.entry ∧ q = m'.txQueues i ∧
    ∃ before timestamp alloc, q = CanTxQueue.push before timestamp alloc e.frame e.deadline e.qos e.flags e.serial

theorem givenOnce_of_tally {events : List IoEvent} (tally : Tally n request selected 0 events) (m' : CanIOManager) :
    GivenOnce n request selected events m' where
  once i inside wanted := .inl ⟨tally.done i inside wanted (by simp [hasIface]), tally.unqueued i⟩
  others i outside := ⟨tally.others i outside, tally.unqueued i⟩
  own := tally.own
  pushed _ _ _ member := absurd member tally.not_pushed

theorem Counted.pushAll (counted : Counted n request selected log s) :
    ∃ events, (pushAll env request s.m s.ifaceMask).log = events ++ log ∧
      GivenOnce n request selected events (pushAll env request s.m s.ifaceMask) := by
  obtain ⟨numIfaces, events, since, tally⟩ := counted
  obtain ⟨m', same, logged, -, given⟩ := pushAll_log env request s.m s.ifaceMask (range s.m.numIfaces) nodup_range
  rw [show CanIOManager.pushAll env request s.m s.ifaceMask = m' from same]
  have counts := countP_pushed ((nodup_range (n := n)).filter (hasIface s.ifaceMask)) request.entry m'.txQueues
  rw [numIfaces] at logged given
  refine ⟨_ ++ events, by rw [logged, since, append_assoc], ?_, ?_, ?_, ?_⟩
  · intro i inside wanted
    obtain ⟨accepts, -, pushes⟩ := counts i
    simp only [countP_append, accepts, pushes, tally.unqueued i, mem_filter, mem_range, inside]
    cases left : hasIface s.ifaceMask i with
    | true => exact .inr ⟨by rw [tally.left i inside left], rfl⟩
    | false =>
      refine .inl ⟨?_, rfl⟩
      rw [tally.done i inside wanted (by rw [left]; exact Bool.false_ne_true)]
  · intro i outside
    obtain ⟨-, offers, pushes⟩ := counts i
    have unwanted : i ∉ (range n).filter (hasIface s.ifaceMask) := by
      rw [mem_filter, mem_range]
      rintro ⟨inside, left⟩
      exact outside ⟨inside, tally.within i inside left⟩
    rw [countP_append, countP_append, offers, pushes, if_neg unwanted, tally.others i outside,
      tally.unqueued i]
    exact ⟨rfl, rfl⟩
  · intro o member new
    rcases mem_append.mp member with recent | older
    · simp at recent
    · exact tally.own o older new
  · intro i e q member
    rcases mem_append.mp member with recent | older
    · obtain ⟨j, wanted, same⟩ := mem_map.mp (mem_reverse.mp recent)
      obtain ⟨inside, left⟩ := mem_filter.mp wanted
      cases same
      exact ⟨rfl, rfl, _, given i inside left⟩
    · exact absurd older tally.not_pushed

/-- Interfaces that do not exist do not matter. -/
theorem GivenOnce.of_all {events : List IoEvent} {m' : CanIOManager} (valid : n ≤ 3)
    (given : GivenOnce n request (selected &&& ((1 <<< UInt8.ofNat n) - 1)) events m') :
    GivenOnce n request selected events m' := by
  have same (i : ℕ) (inside : i < n) :
      hasIface (selected &&& ((1 <<< UInt8.ofNat n) - 1)) i = hasIface selected i := by
    rw [hasIface_all selected valid (by omega)]
    simp [inside]
  refine ⟨fun i inside wanted => given.once i inside ((same i inside).trans wanted), ?_, given.own, given.pushed⟩
  intro i outside
  exact given.others i fun ⟨inside, wanted⟩ => outside ⟨inside, (same i inside).symm.trans wanted⟩

/-- Whatever driver, clock and queues do: `send` ends if the clock gets past the deadline, and if it has not
ended with an error of the driver, each selected interface was given the frame once. -/
theorem send_exactly_once (env : Environment) (m : CanIOManager) (valid : m.numIfaces ≤ maxCanIfaces)
    (frame : CanFrame) (txDeadline blockingDeadline : ℕ) (ifaceMask : UInt8) (qos : Qos) (flags : UInt16) :
    (∀ N, (∀ k ≥ N, blockingDeadline ≤ env.getMonotonic k) → ∃ enough, ∀ rounds ≥ enough,
        (m.send env rounds frame txDeadline blockingDeadline ifaceMask qos flags).isSome) ∧
      ∀ rounds res m', m.send env rounds frame txDeadline blockingDeadline ifaceMask qos flags = some (res, m') →
        res = .error .driver ∨ ∃ retval events, res = .ok retval ∧ m'.log = events ++ m.log ∧
          GivenOnce m.numIfaces ⟨frame, txDeadline, qos, flags, m.calls⟩ ifaceMask events m' := by
  refine ⟨fun N passes => ⟨N + 1, fun rounds enough => ?_⟩, fun rounds res m' run => ?_⟩
  · refine isSome_sendLoop (N := N) (fun k late => ?_) (by omega) (by omega)
    have reached := passes k late
    split <;> omega
  · have small : m.numIfaces ≤ 8 := Nat.le_trans valid (by decide)
    have invariant := counted_invariant env ⟨frame, txDeadline, qos, flags, m.calls⟩
      (ifaceMask &&& ((1 <<< UInt8.ofNat m.numIfaces) - 1)) m.log small
    obtain ⟨s', counted, ⟨rfl, -⟩ | ⟨rfl, ends⟩⟩ := invariant.sendLoop ⟨rfl, [], rfl, .start ..⟩ run
    · exact .inl rfl
    refine .inr ⟨s'.retval, ?_⟩
    rcases ends with ⟨none_left, rfl⟩ | rfl
    · obtain ⟨-, events, since, tally⟩ := counted
      rw [none_left] at tally
      exact ⟨events, rfl, since, (givenOnce_of_tally tally _).of_all valid⟩
    · obtain ⟨events, since, given⟩ := counted.pushAll
      exact ⟨events, rfl, since, given.of_all valid⟩

/-- Two interfaces, of which only the first takes a frame. -/
def Sample.oneBusy : Environment where
  getIface _ := true
  select _ := ⟨2, 0, 3⟩
  send k := if k = 0 then 1 else 0
  receive _ := ⟨0, ⟨0, []⟩, 0, 0, 0⟩
  getMonotonic k := k
  allocate _ _ := true

theorem send_exactly_once_sample : ∃ m' events,
    (init 2).send Sample.oneBusy 3 ⟨CanFrame.flagEFF ||| 7, [1]⟩ 10 1 3 .volatile 0 = some (.ok 1, m') ∧
      m'.log = events ++ [] ∧ events.countP (IoEvent.accepts 0) = 1 ∧ events.countP (IoEvent.pushes 1) = 1 ∧
      GivenOnce 2 ⟨⟨CanFrame.flagEFF ||| 7, [1]⟩, 10, .volatile, 0, 0⟩ 3 events m' := by
  obtain ⟨m', run, accepts, pushes⟩ : ∃ m',
      (init 2).send Sample.oneBusy 3 ⟨CanFrame.flagEFF ||| 7, [1]⟩ 10 1 3 .volatile 0 = some (.ok 1, m') ∧
        m'.log.countP (IoEvent.accepts 0) = 1 ∧ m'.log.countP (IoEvent.pushes 1) = 1 :=
    ⟨_, rfl, by decide +kernel, by decide +kernel⟩
  rcases (send_exactly_once Sample.oneBusy (init 2) (by decide) _ 10 1 3 .volatile 0).2 3 _ m' run with
    failed | ⟨_, events, -, since, given⟩
  · cases failed
  · rw [since, show (init 2).log = [] from rfl, append_nil] at accepts pushes
    exact ⟨m', events, run, since, accepts, pushes, given⟩

end CanIOManager

end Uavcan
