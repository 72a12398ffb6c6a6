import Mathlib.Algebra.Order.BigOperators.Group.List
import Uavcan.Node.DeadlineScheduler
import Uavcan.Transport.OutgoingTransferRegistry
import Uavcan.Transport.TransferReceiver

/-!
# Timers

The deadline handlers of a scheduler, some of them timers. Whoever runs, the application or a handler that is
called by a poll, may start and stop any of them. A timer with a period is started again before its event is
handled, at the time it was due plus the period.
-/

namespace Uavcan

open List Function

/-- `MonotonicDuration::getInfinite`. -/
def infiniteDuration : ℤ := 2 ^ 63 - 1

/-- `MonotonicTime::getMax`. -/
def maxTime : ℕ := 2 ^ 64 - 1

/-- A call of `handleDeadline`; for a timer, its `TimerEvent`. -/
structure TimerEvent (κ : Type) where
  handler : κ
  scheduledTime : ℕ
  realTime : ℕ
  deriving DecidableEq

/-- The handlers.  `events` are the calls so far, and `order` numbers the last starts. -/
structure Timers (κ : Type) where
  scheduler : DeadlineScheduler κ
  period : κ → ℤ
  starts : ℕ
  order : κ → ℕ
  events : List (TimerEvent κ)

/-- What the application and the handlers may do. -/
inductive TimerCommand (κ : Type) where
  | startWithDeadline (k : κ) (deadline : ℕ)
  | startWithDelay (k : κ) (now : ℕ) (delay : ℤ)
  | startOneShotWithDeadline (k : κ) (deadline : ℕ)
  | startOneShotWithDelay (k : κ) (now : ℕ) (delay : ℤ)
  | startPeriodic (k : κ) (now : ℕ) (period : ℤ)
  | stop (k : κ)
  deriving DecidableEq

def TimerCommand.target {κ : Type} : TimerCommand κ → κ
  | .startWithDeadline k _ | .startWithDelay k _ _ | .startOneShotWithDeadline k _ | .startOneShotWithDelay k _ _
  | .startPeriodic k _ _ | .stop k => k

namespace Timers

variable {κ : Type}

def init : Timers κ := ⟨.empty, fun _ => infiniteDuration, 0, fun _ => 0, []⟩

variable [DecidableEq κ]

def stop (w : Timers κ) (k : κ) : Timers κ := { w with scheduler := w.scheduler.remove k }

def startWithDeadline (w : Timers κ) (k : κ) (deadline : ℕ) : Timers κ :=
  { w with
    scheduler := w.scheduler.startWithDeadline k deadline
    starts := w.starts + 1
    order := update w.order k w.starts }

/-- `TimerBase::period_`, which the starting functions set after they have stopped the timer. -/
def setPeriod (w : Timers κ) (k : κ) (period : ℤ) : Timers κ :=
  { w.stop k with period := update w.period k period }

def run (w : Timers κ) : TimerCommand κ → Timers κ
  | .startWithDeadline k deadline => w.startWithDeadline k deadline
  | .startWithDelay k now delay => w.startWithDeadline k (timeAdd now delay)
  | .startOneShotWithDeadline k deadline => (w.setPeriod k infiniteDuration).startWithDeadline k deadline
  | .startOneShotWithDelay k now delay => (w.setPeriod k infiniteDuration).startWithDeadline k (timeAdd now delay)
  | .startPeriodic k now period => (w.setPeriod k period).startWithDeadline k (timeAdd now period)
  | .stop k => w.stop k

variable (isTimer : κ → Bool)

/-- `handleDeadline` of a handler that was removed, up to the handler's own code. -/
def handleDeadline (w : Timers κ) (h : DeadlineHandler κ) (current : ℕ) : Timers κ :=
  let w := { w.stop h.handler with events := w.events ++ [⟨h.handler, h.deadline, current⟩] }
  if isTimer h.handler && w.period h.handler < infiniteDuration then
    w.startWithDeadline h.handler (timeAdd h.deadline (w.period h.handler))
  else w

/-- A turn of `pollAndGetMonotonicTime` at the time `ts`; if there is none, the poll returns. -/
def turn (ts : ℕ) (w : Timers κ) : Option (Timers κ) :=
  match w.scheduler.handlers with
  | [] => none
  | h :: _ => if ts < h.deadline then none else some (w.handleDeadline isTimer h ts)

/-- `pollAndGetMonotonicTime` with the readings of the clock.  The code of the handlers is `react`. -/
def poll (react : Timers κ → List (TimerCommand κ)) : ℕ → (ℕ → ℕ) → Timers κ → Option (ℕ × Timers κ)
  | 0, _, _ => none
  | fuel + 1, clock, w =>
    match w.turn isTimer (clock 0) with
    | none => some (clock 0, w)
    | some w' => poll react fuel (fun i => clock (i + 1)) ((react w').foldl run w')

/-- The states that are reached by commands that are allowed and by turns of polls. -/
inductive Run (allowed : TimerCommand κ → Prop) (Clock : ℕ → Prop) (w : Timers κ) : Timers κ → Prop
  | refl : Run allowed Clock w w
  | command {w' : Timers κ} (c : TimerCommand κ) : allowed c → Run allowed Clock w w' → Run allowed Clock w (w'.run c)
  | turn {w' w'' : Timers κ} (ts : ℕ) : Clock ts → Run allowed Clock w w' → w'.turn isTimer ts = some w'' →
    Run allowed Clock w w''

/-! ## What a step does -/

section Steps

variable {isTimer : κ → Bool} {w w' : Timers κ} {ts : ℕ}

theorem turn_eq_some (taken : w.turn isTimer ts = some w') :
    ∃ h rest, w.scheduler.handlers = h :: rest ∧ h.deadline ≤ ts ∧ w' = w.handleDeadline isTimer h ts := by
  unfold turn at taken
  split at taken
  · cases taken
  · next h rest handlers =>
    obtain ⟨late, taken⟩ := Option.ite_none_left_eq_some.mp taken
    exact ⟨h, rest, handlers, Nat.not_lt.mp late, (Option.some.inj taken).symm⟩

theorem turn_eq_none (returned : w.turn isTimer ts = none) : ∀ h ∈ w.scheduler.handlers, ts < h.deadline := by
  refine DeadlineScheduler.takeDue_eq_none ?_
  unfold turn at returned
  unfold DeadlineScheduler.takeDue
  cases handlers : w.scheduler.handlers with
  | nil => rfl
  | cons h rest =>
    rw [handlers] at returned
    refine if_pos ?_
    by_contra late
    cases (if_neg late).symm.trans returned

/-- What is kept by its parts is kept by a command. -/
theorem run_keeps {P : Timers κ → Prop} {c : TimerCommand κ} (stop : ∀ w, P w → P (w.stop c.target))
    (setPeriod : ∀ w period, P w → P (w.setPeriod c.target period))
    (start : ∀ w deadline, P w → P (w.startWithDeadline c.target deadline)) (holds : P w) : P (w.run c) := by
  cases c with
  | startWithDeadline k deadline => exact start _ _ holds
  | startWithDelay k now delay => exact start _ _ holds
  | stop k => exact stop _ holds
  | _ => exact start _ _ (setPeriod _ _ holds)

end Steps

/-! ## The order of the handlers -/

/-- The list is sorted by deadline, and equal deadlines by their last start. -/
structure Ordered (w : Timers κ) : Prop where
  sorted : w.scheduler.handlers.Pairwise fun a b =>
    a.deadline < b.deadline ∨ a.deadline = b.deadline ∧ w.order a.handler < w.order b.handler
  numbered : ∀ h ∈ w.scheduler.handlers, w.order h.handler < w.starts

namespace Ordered

variable {w : Timers κ}

theorem stop (ordered : Ordered w) (k : κ) : Ordered (w.stop k) where
  sorted := ordered.sorted.sublist eraseP_sublist
  numbered h mem := ordered.numbered h (DeadlineScheduler.mem_remove.mp mem).1

theorem startWithDeadline (ordered : Ordered w) (k : κ) (deadline : ℕ) : Ordered (w.startWithDeadline k deadline) := by
  have new : (w.startWithDeadline k deadline).order k = w.starts := update_self ..
  have others : ∀ h ∈ (w.scheduler.remove k).handlers,
      (w.startWithDeadline k deadline).order h.handler = w.order h.handler ∧ w.order h.handler < w.starts := by
    intro h mem
    obtain ⟨registered, other⟩ := DeadlineScheduler.mem_remove.mp mem
    exact ⟨update_of_ne other .., ordered.numbered h registered⟩
  constructor
  · refine Queues.pairwise_insertBefore ((ordered.stop k).sorted.imp_of_mem ?_) ?_ ?_ ?_
    · intro a b memA memB order
      rwa [(others a memA).1, (others b memB).1]
    · intro h mem notAfter
      have le := Nat.not_lt.mp (of_decide_eq_false notAfter)
      rw [(others h mem).1, new]
      exact le.lt_or_eq.imp_right fun same => ⟨same, (others h mem).2⟩
    · intro h _ after
      exact .inl (of_decide_eq_true after)
    · intro a b after order
      rw [decide_eq_true_eq] at after ⊢
      omega
  · intro h mem
    rcases Queues.mem_insertBefore.mp mem with rfl | mem
    · exact new.trans_lt (Nat.lt_succ_self _)
    · exact (others h mem).1.trans_lt ((others h mem).2.trans (Nat.lt_succ_self _))

theorem setPeriod (ordered : Ordered w) (k : κ) (period : ℤ) : Ordered (w.setPeriod k period) :=
  ⟨(ordered.stop k).sorted, (ordered.stop k).numbered⟩

theorem handleDeadline (ordered : Ordered w) (isTimer : κ → Bool) (h : DeadlineHandler κ) (current : ℕ) :
    Ordered (w.handleDeadline isTimer h current) := by
  have stopped : Ordered { w.stop h.handler with events := w.events ++ [⟨h.handler, h.deadline, current⟩] } :=
    ⟨(ordered.stop h.handler).sorted, (ordered.stop h.handler).numbered⟩
  unfold Timers.handleDeadline
  dsimp only
  split
  · exact stopped.startWithDeadline _ _
  · exact stopped

end Ordered

theorem Run.ordered {isTimer : κ → Bool} {allowed : TimerCommand κ → Prop} {Clock : ℕ → Prop} {w w' : Timers κ}
    (run : Run isTimer allowed Clock w w') (ordered : Ordered w) : Ordered w' := by
  induction run with
  | refl => exact ordered
  | command c _ _ ih =>
    exact run_keeps (fun _ h => h.stop _) (fun _ _ h => h.setPeriod _ _) (fun _ _ h => h.startWithDeadline _ _) ih
  | turn ts _ _ taken ih =>
    obtain ⟨h, rest, -, -, rfl⟩ := turn_eq_some taken
    exact ih.handleDeadline isTimer h ts

/-! ## Periodic timers -/

/-- The scheduled times of the events of a timer. -/
def eventsOf (w : Timers κ) (k : κ) : List ℕ := (w.events.filter fun e => e.handler = k).map TimerEvent.scheduledTime

/-- A timer of the period `p`, started at the time `t` when it had had the events `past`, has had `n` events since.
It waits for the next one, if there is such a time. -/
structure OnSchedule (k : κ) (t p : ℕ) (past : List ℕ) (n : ℕ) (w : Timers κ) : Prop where
  period : w.period k = p
  next : ⟨k, min (t + (n + 1) * p) maxTime⟩ ∈ w.scheduler.handlers
  events : w.eventsOf k = past ++ (range n).map fun i => t + (i + 1) * p

namespace OnSchedule

variable {k : κ} {t p n : ℕ} {past : List ℕ} {w w' : Timers κ}

theorem startPeriodic (w : Timers κ) (time : t ≤ maxTime) (finite : (p : ℤ) < infiniteDuration) :
    OnSchedule k t p (w.eventsOf k) 0 (w.run (.startPeriodic k t p)) where
  period := update_self ..
  next := by
    unfold maxTime at time
    unfold infiniteDuration at finite
    refine DeadlineScheduler.mem_startWithDeadline.mpr (.inl ?_)
    rw [timeAdd_eq_min (by omega) (by omega) (by omega), Nat.one_mul]
    rfl
  events := (append_nil _).symm

theorem stop (scheduled : OnSchedule k t p past n w) {other : κ} (differ : other ≠ k) :
    OnSchedule k t p past n (w.stop other) :=
  ⟨scheduled.period, DeadlineScheduler.mem_remove.mpr ⟨scheduled.next, differ.symm⟩, scheduled.events⟩

theorem startWithDeadline (scheduled : OnSchedule k t p past n w) {other : κ} (differ : other ≠ k) (deadline : ℕ) :
    OnSchedule k t p past n (w.startWithDeadline other deadline) :=
  ⟨scheduled.period, DeadlineScheduler.mem_startWithDeadline.mpr (.inr ⟨scheduled.next, differ.symm⟩), scheduled.events⟩

theorem setPeriod (scheduled : OnSchedule k t p past n w) {other : κ} (differ : other ≠ k) (period : ℤ) :
    OnSchedule k t p past n (w.setPeriod other period) :=
  ⟨(update_of_ne differ.symm ..).trans scheduled.period, (scheduled.stop differ).next, scheduled.events⟩

/-- The timer itself is called: the deadline that has come is not the latest time, so it is the next of the schedule. -/
theorem turn {isTimer : κ → Bool} {ts : ℕ} (scheduled : OnSchedule k t p past n w) (timer : isTimer k = true)
    (finite : (p : ℤ) < infiniteDuration) (clock : ts < maxTime) (taken : w.turn isTimer ts = some w') :
    ∃ n', OnSchedule k t p past n' w' := by
  obtain ⟨h, rest, handlers, due, rfl⟩ := turn_eq_some taken
  rcases eq_or_ne h.handler k with same | differ
  · have deadline : h = ⟨k, min (t + (n + 1) * p) maxTime⟩ :=
      inj_on_of_nodup_map w.scheduler.distinct (handlers ▸ mem_cons_self) scheduled.next same
    subst deadline
    replace due : min (t + (n + 1) * p) maxTime ≤ ts := due
    have exact : min (t + (n + 1) * p) maxTime = t + (n + 1) * p := by omega
    have again : timeAdd (t + (n + 1) * p) p = min (t + (n + 1 + 1) * p) maxTime := by
      unfold infiniteDuration at finite
      unfold maxTime at clock exact ⊢
      rw [timeAdd_eq_min (by omega) (by omega) (by omega), Nat.add_mul (n + 1) 1 p]
      omega
    refine ⟨n + 1, ?_⟩
    unfold handleDeadline
    rw [exact, if_pos (by simp [timer, Timers.stop, scheduled.period, finite])]
    refine ⟨scheduled.period, DeadlineScheduler.mem_startWithDeadline.mpr (.inl ?_), ?_⟩
    · rw [show (w.stop k).period k = p from scheduled.period, again]
    · have events := scheduled.events
      rw [eventsOf] at events ⊢
      simp [Timers.startWithDeadline, events, range_succ]
  · have stopped : OnSchedule k t p past n
        { w.stop h.handler with events := w.events ++ [⟨h.handler, h.deadline, ts⟩] } := by
      refine ⟨scheduled.period, (scheduled.stop differ).next, ?_⟩
      rw [← scheduled.events, eventsOf, eventsOf]
      simp [differ]
    refine ⟨n, ?_⟩
    unfold handleDeadline
    dsimp only
    split
    · exact stopped.startWithDeadline differ _
    · exact stopped

end OnSchedule

theorem Run.onSchedule {isTimer : κ → Bool} {k : κ} {t p : ℕ} {past : List ℕ} {w w' : Timers κ}
    (run : Run isTimer (fun c => c.target ≠ k) (· < maxTime) w w') (timer : isTimer k = true)
    (finite : (p : ℤ) < infiniteDuration) (start : OnSchedule k t p past 0 w) : ∃ n, OnSchedule k t p past n w' := by
  induction run with
  | refl => exact ⟨0, start⟩
  | command c other _ ih =>
    obtain ⟨n, scheduled⟩ := ih
    exact ⟨n, run_keeps (fun _ h => h.stop other) (fun _ _ h => h.setPeriod other _)
      (fun _ _ h => h.startWithDeadline other _) scheduled⟩
  | turn ts clock _ taken ih =>
    obtain ⟨n, scheduled⟩ := ih
    exact scheduled.turn timer finite clock taken

/-! ## The end of a poll -/

section Poll

variable {isTimer : κ → Bool}

theorem Run.commands {Clock : ℕ → Prop} {w w' : Timers κ} (run : Run isTimer (fun _ => True) Clock w w')
    (commands : List (TimerCommand κ)) : Run isTimer (fun _ => True) Clock w (commands.foldl Timers.run w') := by
  induction commands generalizing w' with
  | nil => exact run
  | cons c _ ih => exact ih (.command c trivial run)

theorem Run.poll {react : Timers κ → List (TimerCommand κ)} {fuel : ℕ} {clock : ℕ → ℕ} {ts : ℕ} {w w' w'' : Timers κ}
    (run : Run isTimer (fun _ => True) (fun _ => True) w w')
    (polled : w'.poll isTimer react fuel clock = some (ts, w'')) :
    Run isTimer (fun _ => True) (fun _ => True) w w'' ∧ w''.turn isTimer ts = none := by
  induction fuel generalizing clock w' with
  | zero => cases polled
  | succ fuel ih =>
    unfold Timers.poll at polled
    split at polled
    · next returned =>
      cases polled
      exact ⟨run, returned⟩
    · next taken => exact ih ((run.turn _ trivial taken).commands _) polled

/-- How late the handlers are at the time `ts`, together. -/
def lateness (ts : ℕ) (w : Timers κ) : ℕ := (w.scheduler.handlers.map fun h => ts + 1 - h.deadline).sum

theorem lateness_stop_le (ts : ℕ) (w : Timers κ) (k : κ) : (w.stop k).lateness ts ≤ w.lateness ts :=
  Sublist.sum_le_sum (eraseP_sublist.map _) fun _ _ => Nat.zero_le _

theorem lateness_startWithDeadline (ts : ℕ) (w : Timers κ) (k : κ) (deadline : ℕ) :
    (w.startWithDeadline k deadline).lateness ts = ts + 1 - deadline + (w.stop k).lateness ts :=
  (Queues.perm_insertBefore.map _).sum_eq

/-- Every handler that runs is a timer with a positive period. -/
def Periodic (isTimer : κ → Bool) (w : Timers κ) : Prop :=
  ∀ h ∈ w.scheduler.handlers, isTimer h.handler = true ∧ 0 < w.period h.handler

theorem Periodic.stop {w : Timers κ} (periodic : Periodic isTimer w) (k : κ) : Periodic isTimer (w.stop k) :=
  fun h mem => periodic h (DeadlineScheduler.mem_remove.mp mem).1

/-- A turn of a poll before the latest time makes the handlers less late. -/
theorem Periodic.turn {w w' : Timers κ} {ts : ℕ} (periodic : Periodic isTimer w) (clock : ts < maxTime)
    (taken : w.turn isTimer ts = some w') : Periodic isTimer w' ∧ w'.lateness ts < w.lateness ts := by
  obtain ⟨h, rest, handlers, due, rfl⟩ := turn_eq_some taken
  have first : h ∈ w.scheduler.handlers := handlers ▸ mem_cons_self
  obtain ⟨timer, positive⟩ := periodic h first
  have head : w.lateness ts = ts + 1 - h.deadline + (w.stop h.handler).lateness ts := by
    unfold lateness Timers.stop DeadlineScheduler.remove
    dsimp only
    rw [handlers, eraseP_cons_of_pos (by simp), map_cons, sum_cons]
  unfold handleDeadline
  dsimp only
  split
  · next finite =>
    replace finite : w.period h.handler < infiniteDuration := of_decide_eq_true (Bool.and_eq_true_iff.mp finite).2
    constructor
    · intro h' mem
      rcases DeadlineScheduler.mem_startWithDeadline.mp mem with rfl | ⟨mem, -⟩
      · exact ⟨timer, positive⟩
      · exact periodic.stop _ h' mem
    · have later : h.deadline < timeAdd h.deadline (w.period h.handler) := by
        unfold infiniteDuration at finite
        unfold maxTime at clock
        rw [timeAdd_eq_min (by omega) positive.le (by omega)]
        omega
      have rest := lateness_stop_le ts (w.stop h.handler) h.handler
      rw [lateness_startWithDeadline, head]
      refine Nat.add_lt_add_of_lt_of_le ?_ rest
      change ts + 1 - timeAdd h.deadline (w.period h.handler) < _
      omega
  · refine ⟨periodic.stop _, ?_⟩
    change (w.stop h.handler).lateness ts < _
    omega

theorem stops_keep {P : Timers κ → Prop} (stop : ∀ w k, P w → P (w.stop k)) {commands : List (TimerCommand κ)}
    (stops : ∀ c ∈ commands, ∃ k, c = .stop k) {w : Timers κ} (holds : P w) : P (commands.foldl Timers.run w) := by
  induction commands generalizing w with
  | nil => exact holds
  | cons c _ ih =>
    obtain ⟨⟨k, rfl⟩, rest⟩ := forall_mem_cons.mp stops
    exact ih rest (stop w k holds)

/-- While the clock stands still, the lateness of the handlers bounds the turns of a poll. -/
theorem Periodic.poll_returns {w : Timers κ} {ts m : ℕ} (periodic : Periodic isTimer w) (clock : ts < maxTime)
    {react : Timers κ → List (TimerCommand κ)} (stops : ∀ w, ∀ c ∈ react w, ∃ k, c = .stop k)
    (late : w.lateness ts ≤ m) : ∃ result, w.poll isTimer react (m + 1) (fun _ => ts) = some result := by
  induction m generalizing w with
  | zero =>
    unfold Timers.poll
    split
    · exact ⟨_, rfl⟩
    · next taken =>
      have less := (periodic.turn clock taken).2
      omega
  | succ m ih =>
    unfold Timers.poll
    split
    · exact ⟨_, rfl⟩
    · next w' taken =>
      obtain ⟨periodic', less⟩ := periodic.turn clock taken
      obtain ⟨kept, le⟩ : Periodic isTimer ((react w').foldl Timers.run w') ∧
          ((react w').foldl Timers.run w').lateness ts ≤ m := by
        refine stops_keep (P := fun w => Periodic isTimer w ∧ w.lateness ts ≤ m) (fun w k holds => ?_) (stops w') ?_
        · exact ⟨holds.1.stop k, (lateness_stop_le ts w k).trans holds.2⟩
        · exact ⟨periodic', by omega⟩
      exact ih kept le

end Poll

/-- In every run the handlers are ordered by deadline and start, a poll calls the first of them and only if its deadline
has come, and when it returns the deadlines of all are later.  A periodic timer that is left alone has its events at
the multiples of its period after its start, and waits for the next of them, as long as the clock does not show the
latest time; nor does a poll of periodic timers go on for ever then. -/
theorem deadline_scheduling (isTimer : κ → Bool) {w : Timers κ}
    (run : Run isTimer (fun _ => True) (fun _ => True) init w) :
    Ordered w ∧
      (∀ ts w', w.turn isTimer ts = some w' →
        ∃ h rest, w.scheduler.handlers = h :: rest ∧ h.deadline ≤ ts ∧ w' = w.handleDeadline isTimer h ts) ∧
      (∀ react fuel clock ts w', w.poll isTimer react fuel clock = some (ts, w') →
        Run isTimer (fun _ => True) (fun _ => True) init w' ∧ ∀ h ∈ w'.scheduler.handlers, ts < h.deadline) ∧
      (∀ (k : κ) (t p : ℕ), isTimer k = true → 0 < p → (p : ℤ) < infiniteDuration → t ≤ maxTime →
        ∀ w', Run isTimer (fun c => c.target ≠ k) (· < maxTime) (w.run (.startPeriodic k t p)) w' →
          ∃ n, w'.eventsOf k = w.eventsOf k ++ (range n).map (fun i => t + (i + 1) * p) ∧
            ⟨k, min (t + (n + 1) * p) maxTime⟩ ∈ w'.scheduler.handlers) ∧
      ∀ ts < maxTime, ∀ react : Timers κ → List (TimerCommand κ), (∀ w, ∀ c ∈ react w, ∃ k, c = .stop k) →
        Periodic isTimer w → ∃ fuel result, w.poll isTimer react fuel (fun _ => ts) = some result := by
  refine ⟨run.ordered ⟨.nil, nofun⟩, fun ts w' => turn_eq_some, ?_, ?_, ?_⟩
  · intro react fuel clock ts w' polled
    obtain ⟨run', returned⟩ := run.poll polled
    exact ⟨run', turn_eq_none returned⟩
  · intro k t p timer _ finite time w' since
    obtain ⟨n, scheduled⟩ := since.onSchedule timer finite (.startPeriodic w time finite)
    exact ⟨n, scheduled.events, scheduled.next⟩
  · intro ts clock react stops periodic
    exact ⟨_, periodic.poll_returns clock stops (Nat.le_refl _)⟩

theorem deadline_scheduling_sample :
    Ordered (((init : Timers Bool).run (.startPeriodic true 5 3)).run (.startWithDeadline false 8)) :=
  (deadline_scheduling (fun k => k) (.command _ trivial (.command _ trivial .refl))).1

/-- At the latest time there is, the sum of a deadline and the period is the deadline again. -/
theorem event_repeated :
    ∃ w, Run (fun _ : Unit => true) (fun c => c.target ≠ ()) (fun _ => True)
        (init.run (.startPeriodic () (2 ^ 64 - 3) 2)) w ∧
      w.eventsOf () = [2 ^ 64 - 1, 2 ^ 64 - 1] :=
  ⟨_, .turn maxTime trivial (.turn maxTime trivial .refl rfl) rfl, by decide⟩

end Timers

/-! ## The deadline of a spin -/

/-- `deadline_resolution_` in microseconds, as `setDeadlineResolution` limits it. -/
structure DeadlineResolution where
  usec : ℕ
  least : 1000 ≤ usec
  most : usec ≤ 100000

namespace DeadlineScheduler

variable {κ : Type}

def getEarliestDeadline (s : DeadlineScheduler κ) : ℕ :=
  match s.handlers with
  | [] => maxTime
  | h :: _ => h.deadline

/-- `Scheduler::computeDispatcherSpinDeadline` at the time `ts`. -/
def computeDispatcherSpinDeadline (s : DeadlineScheduler κ) (resolution : DeadlineResolution)
    (ts spinDeadline : ℕ) : ℕ :=
  let earliest := min s.getEarliestDeadline spinDeadline
  if earliest > ts then
    if timeDiff earliest ts > resolution.usec then timeAdd ts resolution.usec else earliest
  else earliest

/-- The earliest deadline is that of some handler, or there is none. -/
theorem lt_getEarliestDeadline {s : DeadlineScheduler κ} {time : ℕ} (possible : time < maxTime) :
    time < s.getEarliestDeadline ↔ ∀ h ∈ s.handlers, time < h.deadline := by
  have sorted := s.sorted
  unfold getEarliestDeadline
  split
  · next handlers => simp [handlers, possible]
  · next first rest handlers =>
    rw [handlers] at sorted ⊢
    rw [forall_mem_cons]
    exact ⟨fun early => ⟨early, fun h mem => early.trans_le ((pairwise_cons.mp sorted).1 h mem)⟩, And.left⟩

/-- The difference of two times is taken as a signed number, so it is seen only below half of the range. -/
theorem computeDispatcherSpinDeadline_le_iff (s : DeadlineScheduler κ) (resolution : DeadlineResolution)
    {ts spinDeadline : ℕ} (range : spinDeadline ≤ maxTime) (later : ts < min s.getEarliestDeadline spinDeadline) :
    s.computeDispatcherSpinDeadline resolution ts spinDeadline ≤ ts + resolution.usec ↔
      min s.getEarliestDeadline spinDeadline - ts < 2 ^ 63 := by
  have most := resolution.most
  unfold computeDispatcherSpinDeadline
  unfold maxTime at range
  dsimp only
  rw [timeDiff, toInt64]
  rw [timeAdd_eq_min (by omega) (by omega) (by omega)]
  split_ifs <;> omega

/-- The dispatcher is left within the resolution exactly if some deadline is less than half of the range of times
ahead. -/
theorem spin_within_resolution_iff (s : DeadlineScheduler κ) (resolution : DeadlineResolution) {ts spinDeadline : ℕ}
    (range : spinDeadline ≤ maxTime) (pending : ∀ h ∈ s.handlers, ts < h.deadline) (later : ts < spinDeadline) :
    s.computeDispatcherSpinDeadline resolution ts spinDeadline ≤ ts + resolution.usec ↔
      (∃ h ∈ s.handlers, h.deadline < ts + 2 ^ 63) ∨ spinDeadline < ts + 2 ^ 63 := by
  have earliest := (lt_getEarliestDeadline (later.trans_le range)).mpr pending
  rw [computeDispatcherSpinDeadline_le_iff s resolution range (lt_min earliest later)]
  by_cases far : spinDeadline < ts + 2 ^ 63
  · exact ⟨fun _ => .inr far, fun _ => by omega⟩
  · have bound : ts + 2 ^ 63 - 1 < s.getEarliestDeadline ↔ ∀ h ∈ s.handlers, ts + 2 ^ 63 - 1 < h.deadline :=
      lt_getEarliestDeadline (by omega)
    constructor
    · intro near
      left
      by_contra none
      push Not at none
      have := bound.mpr fun h mem => by have := none h mem; omega
      omega
    · rintro (⟨h, mem, near⟩ | near)
      · by_contra far'
        have := bound.mp (by omega) h mem
        omega
      · exact absurd near far

/-- `DefaultDeadlineResolutionMs`. -/
def defaultResolution : DeadlineResolution := ⟨5000, by decide, by decide⟩

/-- A handler waits, and the spin has no deadline. -/
theorem spin_within_resolution_sample :
    (empty.startWithDeadline () 2000000).computeDispatcherSpinDeadline defaultResolution 1000 maxTime ≤ 6000 :=
  (spin_within_resolution_iff (empty.startWithDeadline () 2000000) defaultResolution (by decide) (by decide)
    (by decide)).mpr (.inl (by decide))

/-- A spin without a deadline, while no handler waits, has the latest time as its deadline. -/
theorem spin_past_resolution :
    (empty : DeadlineScheduler Unit).computeDispatcherSpinDeadline defaultResolution 1000000 maxTime = maxTime ∧
      1000000 + defaultResolution.usec < maxTime := by
  decide

end DeadlineScheduler

end Uavcan
