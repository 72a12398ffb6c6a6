import Uavcan.Memory.PoolAllocator
import Uavcan.Transport.CanTxQueue

/-!
# The memory of the transmission queue

`CanTxQueue` describes the queue when its allocations succeed or fail in any way. Here it has the allocator of
the source: a `LimitedPoolAllocator` over a pool that other parts of the node use as well. Every entry takes a
block, and gives it back when it is removed.
-/

namespace Uavcan

open List

/-- A queue with its allocator. -/
structure PooledTxQueue (σ : Type) where
  queue : CanTxQueue
  allocator : LimitedPoolAllocator σ

namespace PooledTxQueue

open CanTxQueue (lowestQos)

variable {σ : Type} (pool : IPoolAllocator σ)

/-- The constructor. -/
def init (allocator : σ) (allocatorQuota : ℕ) (positive : 0 < allocatorQuota) : PooledTxQueue σ :=
  ⟨.empty, .init allocator allocatorQuota positive⟩

variable (s : PooledTxQueue σ)

def registerRejectedFrame : PooledTxQueue σ := { s with queue := s.queue.registerRejectedFrame }

/-- The entry is taken out of the list and destroyed. -/
def remove (entry : CanTxQueue.Entry) : PooledTxQueue σ := ⟨s.queue.remove entry, s.allocator.deallocate pool⟩

def insertBefore (entry : CanTxQueue.Entry) : PooledTxQueue σ := { s with queue := s.queue.insertBefore entry }

/-- An allocation, and the queue after it. -/
def allocate : Bool × PooledTxQueue σ :=
  ((s.allocator.allocate pool).1, { s with allocator := (s.allocator.allocate pool).2 })

/-- The loop of `push` that removes the expired frames. -/
def removeExpired (timestamp : ℕ) : List CanTxQueue.Entry → PooledTxQueue σ → PooledTxQueue σ
  | [], s => s
  | p :: next, s =>
    if p.isExpired timestamp then removeExpired timestamp next (s.registerRejectedFrame.remove pool p)
    else removeExpired timestamp next s

/-- The last part of `push`: the frame with the lowest quality of service makes room. -/
def replace (frame : CanFrame) (qos : Qos) (entry : CanTxQueue.Entry) : PooledTxQueue σ :=
  let s := s.registerRejectedFrame
  match s.queue.queue with
  | [] => s
  | p :: _ =>
    let lowestqos := lowestQos p s.queue.queue
    if lowestqos.qosHigherThan frame qos then s
    else
      let (praw, s) := (s.remove pool lowestqos).allocate pool
      if praw then s.insertBefore entry else s

def push (timestamp : ℕ) (frame : CanFrame) (txDeadline : ℕ) (qos : Qos) (flags : UInt16) (serial : ℕ) :
    PooledTxQueue σ :=
  let entry : CanTxQueue.Entry := ⟨txDeadline, frame, qos, flags, serial⟩
  if timestamp ≥ txDeadline then s.registerRejectedFrame
  else
    let (praw, s) := s.allocate pool
    if praw then s.insertBefore entry
    else
      let (praw, s) := (removeExpired pool timestamp s.queue.queue s).allocate pool
      if praw then s.insertBefore entry else s.replace pool frame qos entry

/-- The loop of `peek`. -/
def peekLoop (timestamp : ℕ) : List CanTxQueue.Entry → PooledTxQueue σ → Option CanTxQueue.Entry × PooledTxQueue σ
  | [], s => (none, s)
  | p :: next, s =>
    if p.isExpired timestamp then peekLoop timestamp next (s.registerRejectedFrame.remove pool p)
    else (some p, s)

def peek (timestamp : ℕ) : Option CanTxQueue.Entry × PooledTxQueue σ := peekLoop pool timestamp s.queue.queue s

/-- Other users take blocks of the underlying pool or give them back. -/
def share (allocator : σ) : PooledTxQueue σ := { s with allocator := s.allocator.share allocator }

/-! ## What a call does -/

variable {pool s} {timestamp : ℕ} {entry : CanTxQueue.Entry}

@[simp] theorem queue_register (s : PooledTxQueue σ) : s.registerRejectedFrame.queue.queue = s.queue.queue :=
  CanTxQueue.queue_registerRejectedFrame

/-- No other entry of the queue has a lower quality of service. -/
def Lowest (queue : List CanTxQueue.Entry) (e : CanTxQueue.Entry) : Prop :=
  e ∈ queue ∧ ∀ other ∈ queue, ¬e.qosHigherThan other.frame other.qos

/-- What `push` can do, by the results of its allocations. -/
inductive PushOutcome (pool : IPoolAllocator σ) (s : PooledTxQueue σ) (timestamp : ℕ) (entry : CanTxQueue.Entry) :
    PooledTxQueue σ → Prop
  | late : timestamp ≥ entry.deadline → PushOutcome pool s timestamp entry s.registerRejectedFrame
  | stored {s' : PooledTxQueue σ} : timestamp < entry.deadline → s.allocate pool = (true, s') →
    PushOutcome pool s timestamp entry (s'.insertBefore entry)
  | swept {s' t : PooledTxQueue σ} : timestamp < entry.deadline → s.allocate pool = (false, s') →
    (removeExpired pool timestamp s'.queue.queue s').allocate pool = (true, t) →
    PushOutcome pool s timestamp entry (t.insertBefore entry)
  | refused {s' t : PooledTxQueue σ} : timestamp < entry.deadline → s.allocate pool = (false, s') →
    (removeExpired pool timestamp s'.queue.queue s').allocate pool = (false, t) →
    (∀ e, Lowest t.queue.queue e → e.qosHigherThan entry.frame entry.qos) →
    PushOutcome pool s timestamp entry t.registerRejectedFrame
  | replaced {s' t t' : PooledTxQueue σ} {e : CanTxQueue.Entry} : timestamp < entry.deadline →
    s.allocate pool = (false, s') →
    (removeExpired pool timestamp s'.queue.queue s').allocate pool = (false, t) →
    Lowest t.queue.queue e → ¬e.qosHigherThan entry.frame entry.qos →
    (t.registerRejectedFrame.remove pool e).allocate pool = (true, t') →
    PushOutcome pool s timestamp entry (t'.insertBefore entry)
  | lost {s' t t' : PooledTxQueue σ} {e : CanTxQueue.Entry} : timestamp < entry.deadline →
    s.allocate pool = (false, s') →
    (removeExpired pool timestamp s'.queue.queue s').allocate pool = (false, t) →
    Lowest t.queue.queue e → ¬e.qosHigherThan entry.frame entry.qos →
    (t.registerRejectedFrame.remove pool e).allocate pool = (false, t') →
    PushOutcome pool s timestamp entry t'

theorem qosHigherThan_of_lowest {queue : List CanTxQueue.Entry} {e low : CanTxQueue.Entry}
    {frame : CanFrame} {qos : Qos} (lowest : Lowest queue low) (member : e ∈ queue)
    (higher : low.qosHigherThan frame qos) :
    e.qosHigherThan frame qos := by
  have least := lowest.2 e member
  rw [CanTxQueue.Entry.qosHigherThan_iff] at least higher ⊢
  omega

theorem push_outcome (pool : IPoolAllocator σ) (s : PooledTxQueue σ) (timestamp : ℕ) (frame : CanFrame)
    (txDeadline : ℕ) (qos : Qos) (flags : UInt16) (serial : ℕ) :
    PushOutcome pool s timestamp ⟨txDeadline, frame, qos, flags, serial⟩
      (s.push pool timestamp frame txDeadline qos flags serial) := by
  unfold push
  split
  · next expired => exact .late expired
  · next fresh =>
    have fresh' : timestamp < txDeadline := Nat.lt_of_not_le fresh
    rcases first : s.allocate pool with ⟨block, s'⟩
    cases block with
    | true => exact .stored fresh' first
    | false =>
      rcases second : (removeExpired pool timestamp s'.queue.queue s').allocate pool with ⟨block, t⟩
      simp only [second]
      cases block with
      | true => exact .swept fresh' first second
      | false =>
        simp only [Bool.false_eq_true, if_false, replace, queue_register]
        split
        · next none =>
          refine .refused fresh' first second fun e lowest => ?_
          rw [none] at lowest
          exact absurd lowest.1 not_mem_nil
        · next p rest some =>
          obtain ⟨found, least⟩ := CanTxQueue.lowestQos_spec p t.queue.queue
          have lowest : Lowest t.queue.queue (lowestQos p t.queue.queue) := by
            refine ⟨?_, fun other member => least other (mem_cons_of_mem _ member)⟩
            rcases mem_cons.mp found with first | member
            · rw [first, some]
              exact mem_cons_self
            · exact member
          split
          · next higher =>
            exact .refused fresh' first second fun e low => qosHigherThan_of_lowest lowest low.1 higher
          · next lower =>
            rcases third : (t.registerRejectedFrame.remove pool (lowestQos p t.queue.queue)).allocate pool with
              ⟨block, t'⟩
            cases block with
            | true => exact .replaced fresh' first second lowest lower third
            | false => exact .lost fresh' first second lowest lower third

/-! ## The same queue -/

theorem queue_allocate {block : Bool} {s' : PooledTxQueue σ} (run : s.allocate pool = (block, s')) :
    s'.queue = s.queue := by
  obtain rfl : (s.allocate pool).2 = s' := congrArg Prod.snd run
  rfl

theorem queue_removeExpired (l : List CanTxQueue.Entry) (s : PooledTxQueue σ) :
    (removeExpired pool timestamp l s).queue = CanTxQueue.removeExpired timestamp l s.queue := by
  induction l generalizing s with
  | nil => rfl
  | cons p next ih =>
    unfold removeExpired CanTxQueue.removeExpired
    split
    · exact ih _
    · exact ih s

theorem queue_peekLoop (l : List CanTxQueue.Entry) (s : PooledTxQueue σ) :
    (peekLoop pool timestamp l s).1 = (CanTxQueue.peekLoop timestamp l s.queue).1 ∧
      (peekLoop pool timestamp l s).2.queue = (CanTxQueue.peekLoop timestamp l s.queue).2 := by
  induction l generalizing s with
  | nil => exact ⟨rfl, rfl⟩
  | cons p next ih =>
    unfold peekLoop CanTxQueue.peekLoop
    split
    · exact ih _
    · exact ⟨rfl, rfl⟩

/-- Seen without its memory, `push` is that of a queue whose allocations go as they go here. -/
theorem queue_push (pool : IPoolAllocator σ) (s : PooledTxQueue σ) (timestamp : ℕ) (frame : CanFrame)
    (txDeadline : ℕ) (qos : Qos) (flags : UInt16) (serial : ℕ) :
    ∃ alloc, (s.push pool timestamp frame txDeadline qos flags serial).queue =
      s.queue.push timestamp alloc frame txDeadline qos flags serial := by
  unfold push
  split
  · next expired => exact ⟨fun _ => true, by simp only [CanTxQueue.push, if_pos expired]; rfl⟩
  · next fresh =>
    rcases first : s.allocate pool with ⟨block, s'⟩
    have same := queue_allocate first
    cases block with
    | true =>
      refine ⟨fun _ => true, ?_⟩
      simp [CanTxQueue.push, if_neg fresh, insertBefore, same]
    | false =>
      rcases second : (removeExpired pool timestamp s'.queue.queue s').allocate pool with ⟨block, t⟩
      have same' := (queue_allocate second).trans (queue_removeExpired _ _)
      rw [same] at same'
      cases block with
      | true =>
        refine ⟨fun k => k = 1, ?_⟩
        simp [CanTxQueue.push, fresh, second, insertBefore, same']
      | false =>
        simp only [second, Bool.false_eq_true, if_false, replace, CanTxQueue.push, if_neg fresh]
        have rejected : t.registerRejectedFrame.queue =
            (CanTxQueue.removeExpired timestamp s.queue.queue s.queue).registerRejectedFrame := by
          rw [← same']
          rfl
        rw [← rejected]
        rcases queue : t.registerRejectedFrame.queue.queue with _ | ⟨p, rest⟩
        · exact ⟨fun _ => false, rfl⟩
        · simp only
          rcases third : (t.registerRejectedFrame.remove pool (lowestQos p (p :: rest))).allocate pool with
            ⟨block, t'⟩
          have same'' := queue_allocate third
          cases block with
          | true =>
            refine ⟨fun k => k = 2, ?_⟩
            simp only [insertBefore, same'']
            split <;> rfl
          | false =>
            refine ⟨fun _ => false, ?_⟩
            split
            · rfl
            · exact same''

/-! ## Blocks -/

/-- Every entry is a list node of its own, and holds one of the blocks that are out. -/
structure Blocks (s : PooledTxQueue σ) (n : ℕ) : Prop where
  distinct : s.queue.queue.Pairwise fun e other => e.serial ≠ other.serial
  serial : ∀ e ∈ s.queue.queue, e.serial < n
  out : s.allocator.handedOut = s.queue.queue.length
  counted : s.allocator.Counted

namespace Blocks

variable {n : ℕ}

theorem register (blocks : s.Blocks n) : s.registerRejectedFrame.Blocks n := by
  have same := s.queue_register
  exact ⟨same ▸ blocks.distinct, same ▸ blocks.serial, same ▸ blocks.out, blocks.counted⟩

variable {e : CanTxQueue.Entry} {s' : PooledTxQueue σ}

theorem length_remove (pool : IPoolAllocator σ) (member : e ∈ s.queue.queue) :
    (s.remove pool e).queue.queue.length + 1 = s.queue.queue.length := by
  have some := length_pos_of_mem member
  have shorter : (s.queue.queue.eraseP fun x => x.serial = e.serial).length = s.queue.queue.length - 1 :=
    length_eraseP_of_mem member (decide_eq_true rfl)
  change (s.queue.queue.eraseP fun x => x.serial = e.serial).length + 1 = _
  omega

section

variable (blocks : s.Blocks n)

include blocks

theorem remove (member : e ∈ s.queue.queue) : (s.remove pool e).Blocks n := by
  have less : (s.remove pool e).queue.queue.Sublist s.queue.queue := CanTxQueue.sublist_remove e
  have length := length_remove pool member
  have out := blocks.out
  refine ⟨blocks.distinct.sublist less, fun x there => blocks.serial x (less.subset there), ?_, ?_⟩
  · change s.allocator.handedOut - 1 = _
    omega
  · exact blocks.counted.deallocate (by omega)

/-- An allocation counts a block that no entry has yet, or a failure. -/
theorem allocate {block : Bool} (run : s.allocate pool = (block, s')) :
    s'.queue = s.queue ∧ s'.allocator.Counted ∧
      s'.allocator.handedOut = if block then s.queue.queue.length + 1 else s.queue.queue.length := by
  obtain ⟨rfl, rfl⟩ := Prod.mk.inj run
  refine ⟨rfl, blocks.counted.allocate, ?_⟩
  have out := blocks.out
  rcases LimitedPoolAllocator.allocate_cases pool s.allocator with ⟨_, -, -, run⟩ | ⟨_, -, -, run⟩ | ⟨-, run⟩ <;>
    rw [run] <;> simp [out]

theorem mono : s.Blocks (n + 1) :=
  ⟨blocks.distinct, fun e member => (blocks.serial e member).trans (Nat.lt_succ_self n), blocks.out,
    blocks.counted⟩

theorem failed (run : s.allocate pool = (false, s')) :
    s'.Blocks n := by
  obtain ⟨same, counted, out⟩ := blocks.allocate run
  exact ⟨same ▸ blocks.distinct, same ▸ blocks.serial, same ▸ out, counted⟩

/-- A new entry is the only one with its number. -/
theorem queue_insertBefore (new : entry.serial = n) {block : Bool} (run : s.allocate pool = (block, s')) :
    (s'.insertBefore entry).queue.queue =
      Queues.insertBefore (fun e => entry.frame.priorityHigherThan e.frame) entry s.queue.queue := by
  have others : (s.queue.remove entry).queue = s.queue.queue :=
    CanTxQueue.remove_of_serial_ne fun e member => new ▸ (blocks.serial e member).ne
  simp only [PooledTxQueue.insertBefore, CanTxQueue.insertBefore, queue_allocate run, others]

theorem insert (new : entry.serial = n) (run : s.allocate pool = (true, s')) :
    (s'.insertBefore entry).Blocks (n + 1) ∧
      (s'.insertBefore entry).queue.queue.length = s.queue.queue.length + 1 ∧
      (s'.insertBefore entry).queue.rejectedFramesCnt = s.queue.rejectedFramesCnt := by
  obtain ⟨same, counted, out⟩ := blocks.allocate run
  have list := blocks.queue_insertBefore new run
  have length : (s'.insertBefore entry).queue.queue.length = s.queue.queue.length + 1 := by
    rw [list, Queues.perm_insertBefore.length_eq, length_cons]
  refine ⟨⟨?_, ?_, ?_, counted⟩, length, ?_⟩
  · rw [list]
    refine (Queues.perm_insertBefore.pairwise_iff fun differ => differ.symm).mpr ?_
    exact pairwise_cons.mpr ⟨fun e member => new ▸ (blocks.serial e member).ne', blocks.distinct⟩
  · rw [list]
    intro e member
    rcases Queues.mem_insertBefore.mp member with rfl | old
    · omega
    · exact (blocks.serial e old).trans (Nat.lt_succ_self n)
  · rw [length]
    exact out
  · exact (congrArg CanTxQueue.rejectedFramesCnt same :)

end

theorem evict (blocks : s.Blocks n) (member : e ∈ s.queue.queue) : (s.registerRejectedFrame.remove pool e).Blocks n :=
  blocks.register.remove (s.queue_register.symm ▸ member)

theorem mem_evict {other : CanTxQueue.Entry} (member : other ∈ s.queue.queue) (differ : other.serial ≠ e.serial) :
    other ∈ (s.registerRejectedFrame.remove pool e).queue.queue :=
  (mem_eraseP_of_neg (by simpa using differ)).mpr (s.queue_register.symm ▸ member)

end Blocks

/-- What one removal of an expired frame keeps, a loop over the queue keeps. -/
theorem removeExpired_induction {n : ℕ} {P : PooledTxQueue σ → Prop}
    (step : ∀ {t : PooledTxQueue σ} {e : CanTxQueue.Entry}, t.Blocks n → P t → e ∈ t.queue.queue →
      e.isExpired timestamp = true → P (t.registerRejectedFrame.remove pool e))
    {l : List CanTxQueue.Entry} (distinct : l.Pairwise fun e other => e.serial ≠ other.serial)
    (there : ∀ e ∈ l, e ∈ s.queue.queue) (blocks : s.Blocks n) (start : P s) :
    (removeExpired pool timestamp l s).Blocks n ∧ P (removeExpired pool timestamp l s) := by
  induction l generalizing s with
  | nil => exact ⟨blocks, start⟩
  | cons p next ih =>
    obtain ⟨others, rest⟩ := pairwise_cons.mp distinct
    unfold removeExpired
    split
    · next expired =>
      refine ih rest (fun e later => ?_) (blocks.evict (there p mem_cons_self))
        (step blocks start (there p mem_cons_self) expired)
      exact Blocks.mem_evict (there e (mem_cons_of_mem _ later)) (others e later).symm
    · exact ih rest (fun e later => there e (mem_cons_of_mem _ later)) blocks start

/-- The expired frames at the head are removed as the other loop would remove them. -/
theorem peekLoop_eq (l : List CanTxQueue.Entry) (s : PooledTxQueue σ) : (peekLoop pool timestamp l s).2 =
    removeExpired pool timestamp (l.takeWhile fun e => e.isExpired timestamp) s := by
  induction l generalizing s with
  | nil => rfl
  | cons p next ih =>
    unfold peekLoop
    cases expired : p.isExpired timestamp with
    | true =>
      simp only [takeWhile_cons, expired, if_true, removeExpired]
      exact ih _
    | false =>
      simp [expired, removeExpired]

theorem peek_induction {n : ℕ} {P : PooledTxQueue σ → Prop}
    (step : ∀ {t : PooledTxQueue σ} {e : CanTxQueue.Entry}, t.Blocks n → P t → e ∈ t.queue.queue →
      e.isExpired timestamp = true → P (t.registerRejectedFrame.remove pool e))
    (blocks : s.Blocks n) (start : P s) : (s.peek pool timestamp).2.Blocks n ∧ P (s.peek pool timestamp).2 := by
  have first := takeWhile_sublist (l := s.queue.queue) fun e => e.isExpired timestamp
  rw [peek, peekLoop_eq]
  exact removeExpired_induction step (blocks.distinct.sublist first) (fun e member => first.subset member)
    blocks start

namespace Blocks

variable {n : ℕ}

theorem sweep (blocks : s.Blocks n) : (removeExpired pool timestamp s.queue.queue s).Blocks n :=
  (removeExpired_induction (P := fun _ => True) (fun _ _ _ _ => trivial) blocks.distinct (fun _ member => member)
    blocks trivial).1

theorem peek (blocks : s.Blocks n) (timestamp : ℕ) : (s.peek pool timestamp).2.Blocks n :=
  (peek_induction (P := fun _ => True) (fun _ _ _ _ => trivial) blocks trivial).1


theorem push (blocks : s.Blocks n) (timestamp : ℕ) (frame : CanFrame) (txDeadline : ℕ) (qos : Qos)
    (flags : UInt16) : (s.push pool timestamp frame txDeadline qos flags n).Blocks (n + 1) := by
  have outcome := push_outcome pool s timestamp frame txDeadline qos flags n
  generalize s.push pool timestamp frame txDeadline qos flags n = result at outcome ⊢
  cases outcome with
  | late => exact blocks.register.mono
  | stored _ first => exact (blocks.insert rfl first).1
  | swept _ first second => exact ((blocks.failed first).sweep.insert rfl second).1
  | refused _ first second => exact ((blocks.failed first).sweep.failed second).register.mono
  | replaced _ first second lowest _ third =>
    exact ((((blocks.failed first).sweep.failed second).evict lowest.1).insert rfl third).1
  | lost _ first second lowest _ third =>
    exact ((((blocks.failed first).sweep.failed second).evict lowest.1).failed third).mono

end Blocks

end PooledTxQueue

/-- Runs of a queue with the numbers of calls of `push` and of entries that the caller took out. -/
inductive PooledRun {σ : Type} (pool : IPoolAllocator σ) : PooledTxQueue σ → ℕ → ℕ → Prop
  | init (allocator : σ) (allocatorQuota : ℕ) (positive : 0 < allocatorQuota) :
    PooledRun pool (.init allocator allocatorQuota positive) 0 0
  | push {s : PooledTxQueue σ} {pushes removed : ℕ} (timestamp : ℕ) (frame : CanFrame) (txDeadline : ℕ) (qos : Qos)
    (flags : UInt16) : PooledRun pool s pushes removed →
    PooledRun pool (s.push pool timestamp frame txDeadline qos flags pushes) (pushes + 1) removed
  | peek {s : PooledTxQueue σ} {pushes removed : ℕ} (timestamp : ℕ) : PooledRun pool s pushes removed →
    PooledRun pool (s.peek pool timestamp).2 pushes removed
  | remove {s : PooledTxQueue σ} {pushes removed : ℕ} {entry : CanTxQueue.Entry} : PooledRun pool s pushes removed →
    entry ∈ s.queue.queue → PooledRun pool (s.remove pool entry) pushes (removed + 1)
  | share {s : PooledTxQueue σ} {pushes removed : ℕ} (allocator : σ) : PooledRun pool s pushes removed →
    PooledRun pool (s.share allocator) pushes removed

namespace PooledRun

open PooledTxQueue

variable {σ : Type} {pool : IPoolAllocator σ} {s : PooledTxQueue σ} {pushes removed : ℕ}

theorem blocks (run : PooledRun pool s pushes removed) : s.Blocks pushes := by
  induction run with
  | init allocator allocatorQuota positive =>
    exact ⟨.nil, nofun, rfl, LimitedPoolAllocator.counted_init allocator allocatorQuota positive⟩
  | push timestamp frame txDeadline qos flags _ ih => exact ih.push timestamp frame txDeadline qos flags
  | peek timestamp _ ih => exact ih.peek timestamp
  | remove _ member ih => exact ih.remove member
  | share allocator _ ih => exact ⟨ih.distinct, ih.serial, ih.out, ih.counted.share allocator⟩

/-- A queue with its memory is a queue. -/
theorem queueRun (run : PooledRun pool s pushes removed) : QueueRun s.queue pushes := by
  induction run with
  | init => exact .empty
  | @push s pushes _ timestamp frame txDeadline qos flags _ ih =>
    obtain ⟨alloc, same⟩ := queue_push pool s timestamp frame txDeadline qos flags pushes
    rw [same]
    exact ih.push timestamp alloc frame txDeadline qos flags
  | @peek s _ _ timestamp _ ih =>
    have same : (s.peek pool timestamp).2.queue = (s.queue.peek timestamp).2 := (queue_peekLoop _ _).2
    rw [same]
    exact ih.peek timestamp
  | remove _ member ih => exact ih.remove _ member
  | share _ _ ih => exact ih

/-- A pool with one block, and a quota of two.  The first frame takes the block, the second one is rejected, and the
first one is sent. -/
def Sample.released : PooledTxQueue ℕ :=
  (((PooledTxQueue.init 1 2 Nat.two_pos).push poolAllocator 0 ⟨7, []⟩ 5 .persistent 0 0).push poolAllocator 0
    ⟨8, []⟩ 5 .volatile 0 1).remove poolAllocator ⟨5, ⟨7, []⟩, .persistent, 0, 0⟩

theorem Sample.run : PooledRun poolAllocator Sample.released 2 1 :=
  (((PooledRun.init 1 2 Nat.two_pos).push 0 ⟨7, []⟩ 5 .persistent 0).push 0 ⟨8, []⟩ 5 .volatile 0).remove (by decide)

theorem queueRun_sample : QueueRun Sample.released.queue 2 := queueRun Sample.run

/-! ## The quota -/

theorem used_of_empty (run : PooledRun pool s pushes removed) (empty : s.queue.queue = []) :
    s.allocator.usedBlocks = s.allocator.failures := by
  have used := run.blocks.counted.used
  rw [run.blocks.out, empty, length_nil, Nat.zero_add] at used
  exact used

/-- An empty queue whose allocator is over its limit takes nothing. -/
theorem queue_push_of_over (empty : s.queue.queue = []) (full : s.allocator.maxBlocks ≤ s.allocator.usedBlocks)
    (timestamp : ℕ) (frame : CanFrame) (txDeadline : ℕ) (qos : Qos) (flags : UInt16) :
    (s.push pool timestamp frame txDeadline qos flags pushes).queue.queue = [] := by
  have none : s.allocate pool = (false, s) := by
    simp only [PooledTxQueue.allocate, LimitedPoolAllocator.allocate, if_neg (Nat.not_lt.mpr full)]
  unfold PooledTxQueue.push
  split
  · exact s.queue_register.trans empty
  · simp [none, empty, PooledTxQueue.removeExpired, PooledTxQueue.replace]

/-- The limit counts the blocks that are out exactly as long as the underlying allocator has never failed, for a
failure is counted as a block that never comes back.  An empty queue then takes a frame, if there is a block
for it, exactly as long as fewer allocations have failed than the limit allows. -/
theorem blocks_counted_iff {σ : Type} (pool : IPoolAllocator σ) :
    (∀ a, LimitedRun pool a → (a.usedBlocks = a.handedOut ↔ a.failures = 0)) ∧
      ∀ s pushes removed, PooledRun pool s pushes removed → s.queue.queue = [] →
        (pool.allocate s.allocator.allocator).1 = true →
        ∀ timestamp frame txDeadline qos flags, timestamp < txDeadline →
          (⟨txDeadline, frame, qos, flags, pushes⟩ ∈
              (s.push pool timestamp frame txDeadline qos flags pushes).queue.queue ↔
            s.allocator.failures < s.allocator.maxBlocks) := by
  refine ⟨fun a run => ?_, fun s pushes removed run empty free timestamp frame txDeadline qos flags fresh => ?_⟩
  · have used := run.counted.used
    omega
  · have used := run.used_of_empty empty
    constructor
    · intro member
      by_contra full
      rw [queue_push_of_over empty (by omega)] at member
      exact absurd member not_mem_nil
    · intro below
      rcases first : s.allocate pool with ⟨block, s'⟩
      have granted : block = true := by
        have answer : (s.allocate pool).1 = block := congrArg Prod.fst first
        rw [← answer, PooledTxQueue.allocate, LimitedPoolAllocator.allocate, if_pos (by omega)]
        exact free
      subst granted
      have late : ¬timestamp ≥ txDeadline := Nat.not_le.mpr fresh
      simp only [PooledTxQueue.push, if_neg late, first]
      exact Queues.mem_insertBefore.mpr (.inl rfl)

/-- One allocation has failed, and the block is back: a third frame is stored, but the count is wrong. -/
theorem blocks_counted_iff_sample :
    Sample.released.allocator.usedBlocks ≠ Sample.released.allocator.handedOut ∧
      ⟨5, ⟨9, []⟩, .volatile, 0, 2⟩ ∈
        (Sample.released.push poolAllocator 0 ⟨9, []⟩ 5 .volatile 0 2).queue.queue := by
  obtain ⟨counted, stored⟩ := blocks_counted_iff poolAllocator
  have run := (@LimitedRun.init _ poolAllocator 1 2 Nat.two_pos).allocate.allocate.allocate.deallocate (by decide)
  exact ⟨(counted _ run).not.mpr (by decide),
    (stored _ _ _ Sample.run rfl rfl 0 ⟨9, []⟩ 5 .volatile 0 (by decide)).mpr (by decide)⟩

/-- A frame is pushed while the pool is empty.  A block comes back, but the quota of one block is used up for
ever: the queue is empty and takes nothing. -/
theorem block_never_returned : ∃ s pushes removed, PooledRun poolAllocator s pushes removed ∧
    s.allocator.usedBlocks = 1 ∧ s.allocator.handedOut = 0 ∧ s.queue.queue = [] ∧
    (poolAllocator.allocate s.allocator.allocator).1 = true ∧
    (s.push poolAllocator 0 ⟨7, []⟩ 5 .volatile 0 pushes).queue.queue = [] :=
  ⟨_, _, _, ((PooledRun.init 0 1 Nat.one_pos).push 0 ⟨7, []⟩ 5 .volatile 0).share 1, by decide +kernel⟩

end PooledRun

end Uavcan
