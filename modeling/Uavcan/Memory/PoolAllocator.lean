import Mathlib.Tactic.Common

/-!
# Pool allocators

A pool hands out blocks of one size.  A `LimitedPoolAllocator` draws from another allocator, and limits how
many blocks its owner can have.  Which block it is plays no role here, so an allocation is only whether there
was one.
-/

namespace Uavcan

/-- The interface of an allocator with state `σ`; an allocation may fail at any call. -/
structure IPoolAllocator (σ : Type) where
  allocate : σ → Bool × σ
  deallocate : σ → σ

/-- `PoolAllocator`; the state is the length of the free list. -/
def poolAllocator : IPoolAllocator ℕ where
  allocate free := if free = 0 then (false, free) else (true, free - 1)
  deallocate free := free + 1

/-- The last two fields are not in the source: how many blocks the owner has, and how often the underlying
allocator had none. -/
structure LimitedPoolAllocator (σ : Type) where
  allocator : σ
  maxBlocks : ℕ
  usedBlocks : ℕ
  positive : 0 < maxBlocks
  handedOut : ℕ
  failures : ℕ

namespace LimitedPoolAllocator

variable {σ : Type} (pool : IPoolAllocator σ) (a : LimitedPoolAllocator σ)

/-- The constructor; the limit is a 16-bit number. -/
def init (allocator : σ) (maxBlocks : ℕ) (positive : 0 < maxBlocks) : LimitedPoolAllocator σ :=
  ⟨allocator, min maxBlocks 0xFFFF, 0, by omega, 0, 0⟩

def allocate : Bool × LimitedPoolAllocator σ :=
  if a.usedBlocks < a.maxBlocks then
    let (block, allocator) := pool.allocate a.allocator
    (block,
      { a with
        allocator := allocator
        usedBlocks := a.usedBlocks + 1
        handedOut := if block then a.handedOut + 1 else a.handedOut
        failures := if block then a.failures else a.failures + 1 })
  else (false, a)

def deallocate : LimitedPoolAllocator σ :=
  { a with
    allocator := pool.deallocate a.allocator
    usedBlocks := if a.usedBlocks > 0 then a.usedBlocks - 1 else a.usedBlocks
    handedOut := a.handedOut - 1 }

/-- Other users change the state of the underlying allocator. -/
def share (allocator : σ) : LimitedPoolAllocator σ := { a with allocator := allocator }

variable {pool a}

/-- An allocation gives a block, finds the underlying allocator empty, or is over the limit. -/
theorem allocate_cases (pool : IPoolAllocator σ) (a : LimitedPoolAllocator σ) :
    (∃ s, pool.allocate a.allocator = (true, s) ∧ a.usedBlocks < a.maxBlocks ∧
        a.allocate pool = (true,
          { a with allocator := s, usedBlocks := a.usedBlocks + 1, handedOut := a.handedOut + 1 })) ∨
      (∃ s, pool.allocate a.allocator = (false, s) ∧ a.usedBlocks < a.maxBlocks ∧
        a.allocate pool = (false,
          { a with allocator := s, usedBlocks := a.usedBlocks + 1, failures := a.failures + 1 })) ∨
      (a.maxBlocks ≤ a.usedBlocks ∧ a.allocate pool = (false, a)) := by
  unfold allocate
  split
  · next below =>
    rcases answer : pool.allocate a.allocator with ⟨block, s⟩
    cases block with
    | true => exact .inl ⟨s, rfl, below, rfl⟩
    | false => exact .inr (.inl ⟨s, rfl, below, rfl⟩)
  · next full => exact .inr (.inr ⟨Nat.not_lt.mp full, rfl⟩)

/-- What the limit counts: the blocks that are out, and every failure of the underlying allocator. -/
structure Counted (a : LimitedPoolAllocator σ) : Prop where
  used : a.usedBlocks = a.handedOut + a.failures
  limit : a.usedBlocks ≤ a.maxBlocks

theorem counted_init (allocator : σ) (maxBlocks : ℕ) (positive : 0 < maxBlocks) :
    (init allocator maxBlocks positive).Counted := ⟨rfl, Nat.zero_le _⟩

theorem Counted.allocate (counted : a.Counted) : (a.allocate pool).2.Counted := by
  obtain ⟨used, limit⟩ := counted
  rcases allocate_cases pool a with ⟨s, -, below, run⟩ | ⟨s, -, below, run⟩ | ⟨-, run⟩
  · rw [run]
    exact ⟨by simp only; omega, below⟩
  · rw [run]
    exact ⟨by simp only; omega, below⟩
  · rw [run]
    exact ⟨used, limit⟩

theorem Counted.deallocate (counted : a.Counted) (out : 0 < a.handedOut) : (a.deallocate pool).Counted := by
  obtain ⟨used, limit⟩ := counted
  have some : a.usedBlocks > 0 := by omega
  simp only [LimitedPoolAllocator.deallocate, if_pos some]
  exact ⟨by simp only; omega, by simp only; omega⟩

theorem Counted.share (counted : a.Counted) (s : σ) : (a.share s).Counted := ⟨counted.used, counted.limit⟩

end LimitedPoolAllocator

/-- Runs of a `LimitedPoolAllocator`; only blocks that are out come back.  None of the callers gives it a null pointer,
for which `deallocate` would count down as well. -/
inductive LimitedRun {σ : Type} (pool : IPoolAllocator σ) : LimitedPoolAllocator σ → Prop
  | init (allocator : σ) (maxBlocks : ℕ) (positive : 0 < maxBlocks) :
    LimitedRun pool (.init allocator maxBlocks positive)
  | allocate {a : LimitedPoolAllocator σ} : LimitedRun pool a → LimitedRun pool (a.allocate pool).2
  | deallocate {a : LimitedPoolAllocator σ} : LimitedRun pool a → 0 < a.handedOut →
    LimitedRun pool (a.deallocate pool)
  | share {a : LimitedPoolAllocator σ} (allocator : σ) : LimitedRun pool a → LimitedRun pool (a.share allocator)

theorem LimitedRun.counted {σ : Type} {pool : IPoolAllocator σ} {a : LimitedPoolAllocator σ}
    (run : LimitedRun pool a) : a.Counted := by
  induction run with
  | init allocator maxBlocks positive => exact LimitedPoolAllocator.counted_init allocator maxBlocks positive
  | allocate _ ih => exact ih.allocate
  | deallocate _ out ih => exact ih.deallocate out
  | share allocator _ ih => exact ih.share allocator

end Uavcan
