import Uavcan.Transport.TxQueueMemory

/-!
# What becomes of the frames of a queue

Every frame that is pushed is in the queue, or was taken out by the caller, or is counted as rejected. Other
users of the node's pool take its blocks and give them back between the calls. The block of an evicted frame
is free again: a call that evicts a frame always stores its own.
-/

namespace Uavcan

/-- The largest value of the counter of rejected frames. -/
def maxRejectedFrames : ℕ := 2 ^ 32 - 1

namespace PooledTxQueue

variable {σ : Type} {pool : IPoolAllocator σ} {s : PooledTxQueue σ} {timestamp : ℕ} {entry : CanTxQueue.Entry}

/-! ## The balance -/

/-- All of `frames` frames are in the queue or rejected; the counter stops at its largest value. -/
def Balance (s : PooledTxQueue σ) (frames : ℕ) : Prop :=
  ∃ rejected, frames = s.queue.queue.length + rejected ∧ s.queue.rejectedFramesCnt = min rejected maxRejectedFrames

theorem rejected_register (s : PooledTxQueue σ) {rejected : ℕ}
    (count : s.queue.rejectedFramesCnt = min rejected maxRejectedFrames) :
    s.registerRejectedFrame.queue.rejectedFramesCnt = min (rejected + 1) maxRejectedFrames := by
  change s.queue.registerRejectedFrame.rejectedFramesCnt = _
  unfold CanTxQueue.registerRejectedFrame
  change _ = min rejected (2 ^ 32 - 1) at count
  change _ = min (rejected + 1) (2 ^ 32 - 1)
  split
  · simp only
    omega
  · omega

namespace Balance

variable {frames n : ℕ}

theorem remove (balance : s.Balance (frames + 1)) {e : CanTxQueue.Entry} (member : e ∈ s.queue.queue) :
    (s.remove pool e).Balance frames := by
  obtain ⟨rejected, total, count⟩ := balance
  have length := Blocks.length_remove pool member
  exact ⟨rejected, by omega, count⟩

section

variable (balance : s.Balance frames)

include balance

theorem register : s.registerRejectedFrame.Balance (frames + 1) := by
  obtain ⟨rejected, total, count⟩ := balance
  exact ⟨rejected + 1, by rw [queue_register]; omega, s.rejected_register count⟩

theorem evict {e : CanTxQueue.Entry} (member : e ∈ s.queue.queue) :
    (s.registerRejectedFrame.remove pool e).Balance frames := by
  obtain ⟨rejected, total, count⟩ := balance
  have length := Blocks.length_remove pool (s.queue_register.symm ▸ member)
  rw [queue_register] at length
  exact ⟨rejected + 1, by omega, s.rejected_register count⟩

theorem insert (blocks : s.Blocks n) (new : entry.serial = n) {s' : PooledTxQueue σ}
    (run : s.allocate pool = (true, s')) : (s'.insertBefore entry).Balance (frames + 1) := by
  obtain ⟨rejected, total, count⟩ := balance
  obtain ⟨-, length, same⟩ := blocks.insert new run
  exact ⟨rejected, by omega, by rw [same, count]⟩

theorem failed {s' : PooledTxQueue σ} (run : s.allocate pool = (false, s')) :
    s'.Balance frames := by
  unfold Balance
  rw [queue_allocate run]
  exact balance

theorem sweep (blocks : s.Blocks n) :
    (removeExpired pool timestamp s.queue.queue s).Balance frames :=
  (removeExpired_induction (fun _ balance member _ => Balance.evict balance member) blocks.distinct
    (fun _ member => member) blocks balance).2

theorem peek (blocks : s.Blocks n) (timestamp : ℕ) :
    (s.peek pool timestamp).2.Balance frames :=
  (peek_induction (fun _ balance member _ => Balance.evict balance member) blocks balance).2

end

end Balance

/-! ## Room in the pool -/

/-- The allocator has a block for the queue. -/
def Room (s : PooledTxQueue ℕ) : Prop :=
  0 < s.allocator.allocator ∧ s.allocator.usedBlocks < s.allocator.maxBlocks

theorem Room.allocate {s : PooledTxQueue ℕ} (room : s.Room) : (s.allocate poolAllocator).1 = true := by
  have some : ¬s.allocator.allocator = 0 := by
    have := room.1
    omega
  change (s.allocator.allocate poolAllocator).1 = true
  rw [LimitedPoolAllocator.allocate, if_pos room.2]
  simp only [poolAllocator, if_neg some]

variable {n : ℕ} {e : CanTxQueue.Entry}

/-- A block that comes back can be had again. -/
theorem Blocks.room_remove {s : PooledTxQueue ℕ} (blocks : s.Blocks n) (e : CanTxQueue.Entry) :
    (s.remove poolAllocator e).Room := by
  have limit := blocks.counted.limit
  have positive := s.allocator.positive
  refine ⟨Nat.succ_pos _, ?_⟩
  change (if s.allocator.usedBlocks > 0 then s.allocator.usedBlocks - 1 else s.allocator.usedBlocks) <
    s.allocator.maxBlocks
  split <;> omega

/-- A sweep that leaves no room has removed nothing. -/
theorem sweep_eq_of_no_room {s : PooledTxQueue ℕ} (blocks : s.Blocks n)
    (none : ¬(removeExpired poolAllocator timestamp s.queue.queue s).Room) :
    removeExpired poolAllocator timestamp s.queue.queue s = s := by
  have cases : _ ∧ (removeExpired poolAllocator timestamp s.queue.queue s = s ∨
      (removeExpired poolAllocator timestamp s.queue.queue s).Room) :=
    removeExpired_induction (P := fun t => t = s ∨ t.Room)
      (fun blocks _ _ _ => .inr (blocks.register.room_remove _)) blocks.distinct (fun _ member => member) blocks
      (.inl rfl)
  exact cases.2.resolve_right none

theorem not_room_of_failed {s s' : PooledTxQueue ℕ} (run : s.allocate poolAllocator = (false, s')) : ¬s.Room := by
  intro room
  have answer := room.allocate
  rw [run] at answer
  exact Bool.false_ne_true answer

theorem Balance.push {s : PooledTxQueue ℕ} {frames : ℕ} (balance : s.Balance frames) (blocks : s.Blocks n)
    (timestamp : ℕ) (frame : CanFrame) (txDeadline : ℕ) (qos : Qos) (flags : UInt16) :
    (s.push poolAllocator timestamp frame txDeadline qos flags n).Balance (frames + 1) := by
  have outcome := push_outcome poolAllocator s timestamp frame txDeadline qos flags n
  generalize s.push poolAllocator timestamp frame txDeadline qos flags n = result at outcome ⊢
  cases outcome with
  | late => exact balance.register
  | stored _ first => exact balance.insert blocks rfl first
  | swept _ first second =>
    exact ((balance.failed first).sweep (blocks.failed first)).insert (blocks.failed first).sweep rfl second
  | refused _ first second =>
    exact (((balance.failed first).sweep (blocks.failed first)).failed second).register
  | replaced _ first second lowest _ third =>
    have full := ((balance.failed first).sweep (blocks.failed first)).failed second
    have blocks' := (blocks.failed first).sweep.failed second
    exact (full.evict lowest.1).insert (blocks'.evict lowest.1) rfl third
  | lost _ first second _ _ third =>
    -- the block of the evicted frame is free
    have blocks' := (blocks.failed first).sweep.failed second
    exact absurd (blocks'.register.room_remove _) (not_room_of_failed third)

/-! ## Eviction -/

/-- There is no block for the queue: its quota is used up, or the pool is empty. -/
def Exhausted (s : PooledTxQueue ℕ) : Prop :=
  s.allocator.maxBlocks ≤ s.allocator.usedBlocks ∨ s.allocator.allocator = 0

theorem exhausted_of_not_room {s : PooledTxQueue ℕ} (none : ¬s.Room) : s.Exhausted := by
  by_contra some
  rw [Exhausted, not_or] at some
  exact none ⟨Nat.pos_of_ne_zero some.2, Nat.not_le.mp some.1⟩

theorem Blocks.eq_of_serial (blocks : s.Blocks n) {other : CanTxQueue.Entry} (member : e ∈ s.queue.queue)
    (member' : other ∈ s.queue.queue) (same : e.serial = other.serial) : e = other := by
  have nodup : (s.queue.queue.map CanTxQueue.Entry.serial).Nodup := List.pairwise_map.mpr blocks.distinct
  exact List.inj_on_of_nodup_map nodup member member' same

variable (pool) in
theorem mem_sweep (blocks : s.Blocks n) (member : e ∈ s.queue.queue) (fresh : e.isExpired timestamp = false) :
    e ∈ (removeExpired pool timestamp s.queue.queue s).queue.queue := by
  refine (removeExpired_induction (P := fun t => e ∈ t.queue.queue) (fun {t other} blocks there found expired => ?_)
    blocks.distinct (fun _ there => there) blocks member).2
  refine Blocks.mem_evict there fun same => ?_
  rw [blocks.eq_of_serial there found same, expired] at fresh
  exact Bool.false_ne_true fresh.symm

theorem mem_insertBefore (blocks : s.Blocks n) (new : entry.serial = n) {block : Bool} {s' : PooledTxQueue σ}
    (run : s.allocate pool = (block, s')) (member : e ∈ s.queue.queue) : e ∈ (s'.insertBefore entry).queue.queue := by
  rw [blocks.queue_insertBefore new run]
  exact Queues.mem_insertBefore.mpr (.inr member)

/-- A frame that `push` drops before its time: there is no memory, and no frame of the queue is lower; nor is the
new one. -/
theorem Blocks.evicted {s : PooledTxQueue ℕ} (blocks : s.Blocks n) {frame : CanFrame} {txDeadline : ℕ} {qos : Qos}
    {flags : UInt16} (member : e ∈ s.queue.queue) (fresh : e.isExpired timestamp = false)
    (gone : e ∉ (s.push poolAllocator timestamp frame txDeadline qos flags n).queue.queue) :
    s.Exhausted ∧ Lowest s.queue.queue e ∧ ¬e.qosHigherThan frame qos := by
  have outcome := push_outcome poolAllocator s timestamp frame txDeadline qos flags n
  generalize s.push poolAllocator timestamp frame txDeadline qos flags n = result at outcome gone
  cases outcome with
  | late => exact absurd (s.queue_register.symm ▸ member) gone
  | stored _ first => exact absurd (mem_insertBefore blocks rfl first member) gone
  | swept _ first second =>
    have blocks' := blocks.failed first
    have kept := mem_sweep poolAllocator blocks' ((queue_allocate first).symm ▸ member) fresh
    exact absurd (mem_insertBefore blocks'.sweep rfl second kept) gone
  | @refused s' t _ first second =>
    have kept := mem_sweep poolAllocator (blocks.failed first) ((queue_allocate first).symm ▸ member) fresh
    rw [← queue_allocate second, ← queue_register] at kept
    exact absurd kept gone
  | @replaced s' t t' low _ first second lowest lower third =>
    have blocks' := (blocks.failed first).sweep.failed second
    -- nothing was swept, so the queue is that of the call
    have unswept := sweep_eq_of_no_room (blocks.failed first) (not_room_of_failed second)
    have same : t.queue.queue = s.queue.queue := by
      rw [queue_allocate second, unswept, queue_allocate first]
    have victim : low = e := by
      by_contra other
      have there := same.symm ▸ member
      refine gone (mem_insertBefore (blocks'.evict lowest.1) rfl third (Blocks.mem_evict there fun serials => ?_))
      exact other (blocks'.eq_of_serial there lowest.1 serials).symm
    subst victim
    exact ⟨exhausted_of_not_room (not_room_of_failed first), same ▸ lowest, lower⟩
  | lost _ first second _ _ third =>
    have blocks' := (blocks.failed first).sweep.failed second
    exact absurd (blocks'.register.room_remove _) (not_room_of_failed third)

end PooledTxQueue

namespace PooledRun

open PooledTxQueue

variable {s : PooledTxQueue ℕ} {pushes removed : ℕ}

theorem balance (run : PooledRun poolAllocator s pushes removed) :
    ∃ frames, pushes = frames + removed ∧ s.Balance frames := by
  induction run with
  | init => exact ⟨0, rfl, 0, rfl, rfl⟩
  | push timestamp frame txDeadline qos flags run ih =>
    obtain ⟨frames, total, balance⟩ := ih
    exact ⟨frames + 1, by omega, balance.push run.blocks timestamp frame txDeadline qos flags⟩
  | peek timestamp run ih =>
    obtain ⟨frames, total, balance⟩ := ih
    exact ⟨frames, total, balance.peek run.blocks timestamp⟩
  | @remove s _ _ entry _ member ih =>
    obtain ⟨frames, total, balance⟩ := ih
    obtain ⟨frames, rfl⟩ : ∃ others, frames = others + 1 := by
      obtain ⟨rejected, sum, -⟩ := balance
      have some := List.length_pos_of_mem member
      exact ⟨frames - 1, by omega⟩
    exact ⟨frames, by omega, balance.remove member⟩
  | share _ _ ih => exact ih

/-- In every run, until the counter is full, the frames that were pushed are those in the queue, those that the
caller took out and those that were rejected; and a frame that has not expired is evicted only if there is no
memory, by a frame that is not lower, and only if no frame of the queue is lower. -/
theorem frames_accounted (run : PooledRun poolAllocator s pushes removed) :
    (s.queue.rejectedFramesCnt < maxRejectedFrames →
      pushes = s.queue.queue.length + removed + s.queue.rejectedFramesCnt) ∧
    ∀ timestamp frame txDeadline qos flags, ∀ e ∈ s.queue.queue, e.isExpired timestamp = false →
      e ∉ (s.push poolAllocator timestamp frame txDeadline qos flags pushes).queue.queue →
      s.Exhausted ∧ (∀ other ∈ s.queue.queue, ¬e.qosHigherThan other.frame other.qos) ∧
        ¬e.qosHigherThan frame qos := by
  refine ⟨fun counting => ?_, fun timestamp frame txDeadline qos flags e member fresh gone => ?_⟩
  · obtain ⟨frames, total, rejected, sum, count⟩ := run.balance
    omega
  · obtain ⟨exhausted, lowest, lower⟩ := run.blocks.evicted member fresh gone
    exact ⟨exhausted, lowest.2, lower⟩

/-- A pool of one block: the second frame takes the place of the first one. -/
theorem frames_accounted_sample : ∃ s : PooledTxQueue ℕ, PooledRun poolAllocator s 2 0 ∧
    s.queue.queue.map CanTxQueue.Entry.serial = [1] ∧ s.queue.rejectedFramesCnt = 1 ∧
    2 = s.queue.queue.length + 0 + s.queue.rejectedFramesCnt := by
  have start : PooledRun poolAllocator _ 0 0 := PooledRun.init 1 3 (by decide)
  have run := (start.push 0 ⟨7, []⟩ 5 .volatile 0).push 1 ⟨7, [1]⟩ 5 .volatile 0
  exact ⟨_, run, by decide +kernel, by decide +kernel, run.frames_accounted.1 (by decide +kernel)⟩

end PooledRun

end Uavcan
