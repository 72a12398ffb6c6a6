import Uavcan.Transport.Reception

/-!
# Redundant interfaces

A node sends each of its frames on every interface, and the receiver gets the copies in some merged order.
Here the transfers have one frame each.  They are numbered in the order in which they were sent; the
transfer ID has the last five bits of this number.
-/

namespace Uavcan

open TransferReceiver

/-- The frame of a single-frame transfer, with the number of the transfer, as it comes from an interface. -/
structure Arrival where
  index : ℕ
  frame : RxFrame
  start : frame.startOfTransfer = true
  stop : frame.endOfTransfer = true
  toggle : frame.toggle = false
  transferId : frame.transferId = ⟨Fin.ofNat 32 index⟩
  iface : frame.ifaceIndex < 3

/-- A merged order of frames: the times do not decrease, each interface keeps the order in which the frames
were sent and may lose some, and each frame is at most 15 positions away from the transfer that was
delivered last. -/
structure Merges (arrived delivered : List Arrival) (a : Arrival) : Prop where
  inTime : ∀ b ∈ arrived, b.frame.tsMono ≤ a.frame.tsMono
  inOrder : ∀ b ∈ arrived, b.frame.ifaceIndex = a.frame.ifaceIndex → b.index < a.index
  near : ∀ d ∈ delivered.head?, a.index ≤ d.index + 15 ∧ d.index ≤ a.index + 15

/-- The frame comes more than a second after the frame that was accepted last. -/
def Arrival.Late (a : Arrival) (delivered : List Arrival) : Prop :=
  ∃ d ∈ delivered.head?, d.frame.tsMono + 1000000 < a.frame.tsMono

instance (arrived delivered : List Arrival) (a : Arrival) : Decidable (Merges arrived delivered a) :=
  decidable_of_iff
    ((∀ b ∈ arrived, b.frame.tsMono ≤ a.frame.tsMono) ∧
      (∀ b ∈ arrived, b.frame.ifaceIndex = a.frame.ifaceIndex → b.index < a.index) ∧
      ∀ d ∈ delivered.head?, a.index ≤ d.index + 15 ∧ d.index ≤ a.index + 15)
    ⟨fun ⟨inTime, inOrder, near⟩ => ⟨inTime, inOrder, near⟩,
      fun merges => ⟨merges.inTime, merges.inOrder, merges.near⟩⟩

instance (a : Arrival) (delivered : List Arrival) : Decidable (a.Late delivered) :=
  inferInstanceAs (Decidable (∃ d ∈ delivered.head?, _))

/-- Whatever comes late has not been delivered yet. -/
def LateIsFresh (delivered : List Arrival) (a : Arrival) : Prop :=
  a.Late delivered → ∀ d ∈ delivered, d.index ≠ a.index

/-- Whatever comes late was sent after everything that has been delivered. -/
def LateIsLater (delivered : List Arrival) (a : Arrival) : Prop :=
  a.Late delivered → ∀ d ∈ delivered, d.index < a.index

instance (delivered : List Arrival) (a : Arrival) : Decidable (LateIsFresh delivered a) :=
  inferInstanceAs (Decidable (_ → _))

instance (delivered : List Arrival) (a : Arrival) : Decidable (LateIsLater delivered a) :=
  inferInstanceAs (Decidable (_ → _))

/-- A receiver from its construction on that gets the frames of a merged order.  The frames that have
arrived and those that were delivered are listed newest first. -/
inductive RedundantRun {size : ℕ} (late : List Arrival → Arrival → Prop) :
    List Arrival → List Arrival → TransferReceiver → TransferBufferAccessor size → Prop
  | start {tba : TransferBufferAccessor size} : tba.access = none → RedundantRun late [] [] .init tba
  | add {arrived delivered : List Arrival} {r r' : TransferReceiver}
      {tba tba' : TransferBufferAccessor size} {result : ResultCode} (mem : Memory size) (a : Arrival) :
    RedundantRun late arrived delivered r tba → Merges arrived delivered a → late delivered a →
    r.addFrame mem a.frame tba = (result, r', tba') →
    RedundantRun late (a :: arrived) (if result = .notComplete then delivered else a :: delivered) r' tba'

/-- The receiver waits for the transfer after the one that was delivered last, on the same interface. -/
structure TransferReceiver.Follows (r : TransferReceiver) (d : Arrival) : Prop where
  tid : r.tid = d.frame.transferId.increment
  iface : r.ifaceIndex = d.frame.ifaceIndex
  ts : r.thisTransferTs = d.frame.tsMono

namespace Arrival

variable {size : ℕ} {r : TransferReceiver} {a d : Arrival} {arrived delivered : List Arrival}

theorem matches_restart (r : TransferReceiver) (a : Arrival) : (r.restart a.frame).Matches a.frame := by
  refine ⟨Nat.mod_eq_of_lt (Nat.lt_of_lt_of_le a.iface (by decide)), a.toggle, rfl, fun _ => a.toggle,
    fun _ more => ?_⟩
  rw [a.stop] at more
  cases more

/-- A frame that is accepted belongs to a later transfer than the one that was delivered last. -/
theorem index_lt_of_accepts (follows : r.Follows d) (arrived_d : d ∈ arrived)
    (newest : delivered.head? = some d) (merges : Merges arrived delivered a)
    (late : LateIsLater delivered a) (accepts : r.Accepts a.frame) : d.index < a.index := by
  by_cases sameIface : d.frame.ifaceIndex = a.frame.ifaceIndex
  · exact merges.inOrder d arrived_d sameIface
  -- a frame from another interface is accepted only if the receiver switches to it
  have restarts : r.needRestart a.frame = true := by
    by_contra stays
    have iface := accepts.matched.1
    rw [refresh, if_neg stays, follows.iface] at iface
    exact sameIface iface
  have inTime := merges.inTime d arrived_d
  have initialized := isInitialized_of_lt (follows.iface ▸ d.iface)
  simp only [needRestart, initialized, Bool.not_true, Bool.false_or, Bool.or_eq_true,
    Bool.and_eq_true, decide_eq_true_eq] at restarts
  rcases restarts with (timedOut | ⟨⟨same, -⟩, -⟩) | ⟨-, nonWrapped⟩
  · refine late ⟨d, newest, ?_⟩ d (List.mem_of_mem_head? newest)
    have elapsed := timeDiff_le inTime
    simp only [isTimedOut, decide_eq_true_eq, follows.ts, getTidTimeout,
      defaultTidTimeoutMSec] at timedOut
    omega
  · exact absurd (follows.iface.symm.trans same.symm) sameIface
  · have near := merges.near d newest
    rw [TransferID.computeForwardDistance_eq, follows.tid, TransferID.val_increment, d.transferId,
      a.transferId] at nonWrapped
    simp only [Fin.val_ofNat, TransferID.half] at nonWrapped
    omega

theorem follows_of_accepts {n : ℕ} (accepts : r.Accepts a.frame) :
    TransferReceiver.Follows
      { ((r.refresh a.frame).stamp a.frame).updateTransferTimings.prepareForNextTransfer with
        thisTransferCrc := 0, errorCnt := n } a := by
  obtain ⟨iface, -, tid, -⟩ := accepts.matched
  refine ⟨?_, iface, ?_⟩
  · rw [tid]
    rfl
  · exact if_pos a.start

theorem verdict_cases (mem : Memory size) (tba : TransferBufferAccessor size) :
    r.verdict mem a.frame tba = .ignored ∨ r.verdict mem a.frame tba = .single := by
  obtain ⟨n, validated⟩ := validate_eq (r.refresh a.frame) a.frame
  simp only [verdict, validated, a.start, a.stop, Bool.not_true, Bool.and_false,
    Bool.false_eq_true, if_false]
  split
  · exact .inl rfl
  split
  case isFalse => exact .inr rfl
  case isTrue rejected =>
    -- only a frame that does not make the receiver restart is rejected
    split
    case isFalse => exact .inl rfl
    case isTrue restarts =>
      rw [refresh, if_pos restarts] at rejected
      simp [matches_restart r a] at rejected

end Arrival

namespace RedundantRun

variable {size : ℕ} {late : List Arrival → Arrival → Prop} {arrived delivered : List Arrival}
  {r : TransferReceiver} {tba : TransferBufferAccessor size}

/-- What holds of the receiver and of the transfers that were delivered, newest first. -/
structure Ordered (arrived delivered : List Arrival) (r : TransferReceiver)
    (tba : TransferBufferAccessor size) : Prop where
  fit : r.Fit tba
  last : ∀ d ∈ delivered.head?, d ∈ arrived ∧ r.Follows d
  sorted : delivered.Pairwise fun newer older => older.index < newer.index

theorem Ordered.add (positive : 0 < size) {r' : TransferReceiver} {tba' : TransferBufferAccessor size}
    {result : ResultCode} {mem : Memory size} {a : Arrival} (ordered : Ordered arrived delivered r tba)
    (merges : Merges arrived delivered a) (late : LateIsLater delivered a)
    (run : r.addFrame mem a.frame tba = (result, r', tba')) :
    Ordered (a :: arrived) (if result = .notComplete then delivered else a :: delivered) r' tba' := by
  have outcome := (addFrame_cases positive ordered.fit run).2
  have fit := outcome.fit ordered.fit
  rcases Arrival.verdict_cases (r := r) (a := a) mem tba with ignored | single
  · rw [ignored] at outcome
    cases outcome with
    | ignored n =>
      refine ⟨fit, fun d newest => ?_, ordered.sorted⟩
      obtain ⟨member, tid, iface, ts⟩ := ordered.last d newest
      exact ⟨List.mem_cons_of_mem _ member, tid, iface, ts⟩
  · rw [single] at outcome
    cases outcome with
    | single n accepts =>
      refine ⟨fit, fun d newest => ?_, List.pairwise_cons.mpr ⟨fun d member => ?_, ordered.sorted⟩⟩
      · cases newest
        exact ⟨List.mem_cons_self .., Arrival.follows_of_accepts accepts⟩
      · -- the transfer that was delivered last is the latest one
        cases delivered with
        | nil => cases member
        | cons newest older =>
          obtain ⟨arrived_newest, follows⟩ := ordered.last newest rfl
          have later := Arrival.index_lt_of_accepts follows arrived_newest rfl merges late accepts
          rcases List.mem_cons.mp member with rfl | earlier
          · exact later
          · exact Nat.lt_trans ((List.pairwise_cons.mp ordered.sorted).1 d earlier) later

theorem ordered (positive : 0 < size) (run : RedundantRun LateIsLater arrived delivered r tba) :
    Ordered arrived delivered r tba := by
  induction run with
  | start absent => exact ⟨.of_zero (.of_none absent) rfl, by simp, List.Pairwise.nil⟩
  | add mem a _ merges late added ih => exact ih.add positive merges late added

/-- The transfers are delivered in the order in which they were sent, each at most once. -/
theorem delivered_in_order (positive : 0 < size)
    (run : RedundantRun LateIsLater arrived delivered r tba) :
    delivered.Pairwise fun newer older => older.index < newer.index :=
  (run.ordered positive).sorted

/-- What arrived, what was delivered, the receiver and its buffer after one more frame. -/
def extend (mem : Memory size) (s : List Arrival × List Arrival × TransferReceiver × TransferBufferAccessor size)
    (a : Arrival) : Option (List Arrival × List Arrival × TransferReceiver × TransferBufferAccessor size) :=
  let (arrived, delivered, r, tba) := s
  let (result, r, tba) := r.addFrame mem a.frame tba
  some (a :: arrived, if result = .notComplete then delivered else a :: delivered, r, tba)

theorem exists_of_feed (late : List Arrival → Arrival → Prop) [∀ delivered a, Decidable (late delivered a)]
    (absent : tba.access = none) (mem : Memory size) (frames : List Arrival) (indices : List ℕ)
    (fed : (Machines.play (extend mem) (fun s a => Merges s.1 s.2.1 a ∧ late s.2.1 a) frames ([], [], .init, tba)).any
      (fun s => decide (s.2.1.map Arrival.index = indices)) = true) :
    ∃ (arrived delivered : List Arrival) (r : TransferReceiver) (tba : TransferBufferAccessor size),
      RedundantRun late arrived delivered r tba ∧ delivered.map Arrival.index = indices := by
  obtain ⟨⟨arrived, delivered, r, tba⟩, run, same⟩ := Machines.exists_of_play
    (P := fun s => RedundantRun late s.1 s.2.1 s.2.2.1 s.2.2.2)
    (fun run permitted taken => Option.some.inj taken ▸ run.add mem _ permitted.1 permitted.2 rfl)
    (.start absent) frames _ fed
  exact ⟨arrived, delivered, r, tba, run, same⟩

end RedundantRun

/-- The frame of a transfer of node 1 without payload, on any interface. -/
def Sample.arrival (index : ℕ) (iface : Fin 3) (tsMono : ℕ) : Arrival where
  index := index
  frame := { Sample.frame (Fin.ofNat 32 index) true true false tsMono [] with ifaceIndex := iface }
  start := rfl
  stop := rfl
  toggle := rfl
  transferId := rfl
  iface := iface.isLt

theorem RedundantRun.delivered_in_order_sample : ∃ (arrived delivered : List Arrival)
    (r : TransferReceiver) (tba : TransferBufferAccessor 32),
    RedundantRun LateIsLater arrived delivered r tba ∧ delivered.map Arrival.index = [33, 32, 31] ∧
      delivered.Pairwise fun newer older => older.index < newer.index := by
  obtain ⟨arrived, delivered, r, tba, run, indices⟩ := RedundantRun.exists_of_feed LateIsLater
    (show Sample.accessor.access = none from rfl) Sample.memory
    [Sample.arrival 31 0 1, Sample.arrival 31 1 2, Sample.arrival 32 0 3, Sample.arrival 33 1 1200000,
      Sample.arrival 33 0 1200001]
    [33, 32, 31] (by decide +kernel)
  exact ⟨arrived, delivered, r, tba, run, indices, RedundantRun.delivered_in_order (by decide) run⟩

/-- A transfer that was lost on the first interface can come late on the second one and is then delivered
out of order; the transfer after it, which has already been delivered, is delivered again. -/
theorem RedundantRun.delivered_again : ∃ (arrived delivered : List Arrival) (r : TransferReceiver)
    (tba : TransferBufferAccessor 32),
    RedundantRun LateIsFresh arrived delivered r tba ∧ delivered.map Arrival.index = [6, 5, 6, 4] :=
  RedundantRun.exists_of_feed LateIsFresh (show Sample.accessor.access = none from rfl) Sample.memory
    [Sample.arrival 4 0 1, Sample.arrival 6 0 2, Sample.arrival 5 1 2000000, Sample.arrival 6 1 2000001]
    [6, 5, 6, 4] (by decide +kernel)

end Uavcan
