import Uavcan.Containers.Linked
import Mathlib

/-!
# The blocks of the pool allocator

`PoolAllocator` keeps its free blocks on a list that is linked through the blocks themselves. The application may
write anything into the blocks it holds. Addresses are offsets into the pool.
-/

namespace Uavcan

open List Function Containers

/-- The parameters of the template. The block size is a multiple of the size of a pointer, and the number of blocks
is within the limit that a static assertion checks. -/
structure PoolParams where
  poolSize : ℕ
  blockSize : ℕ
  pointerSize : ℕ
  pointer : 0 < pointerSize
  block : 0 < blockSize
  aligned : pointerSize ∣ blockSize
  positive : 1 ≤ poolSize / blockSize
  counted : poolSize / blockSize ≤ 0xFFFF

namespace PoolParams

variable (p : PoolParams)

def numBlocks : ℕ := p.poolSize / p.blockSize

/-- The size of a block of the free list: room for a pointer, padded to its alignment. -/
def nodeSize : ℕ := (max p.blockSize p.pointerSize + p.pointerSize - 1) / p.pointerSize * p.pointerSize

theorem nodeSize_eq : p.nodeSize = p.blockSize := by
  obtain ⟨k, size⟩ := p.aligned
  have pointer := p.pointer
  have large : p.pointerSize ≤ p.blockSize := Nat.le_of_dvd p.block p.aligned
  rw [nodeSize, Nat.max_eq_left large, Nat.add_sub_assoc pointer, size, Nat.mul_add_div pointer,
    Nat.div_eq_of_lt (by omega), Nat.add_zero, Nat.mul_comm]

end PoolParams

/-- The pool: in each block, the pointer to the next free one that its first bytes hold. -/
structure PoolAllocator where
  freeList : Option ℕ
  next : ℕ → Option ℕ
  used : ℕ
  maxUsed : ℕ

namespace PoolAllocator

variable (p : PoolParams)

/-- The constructor. -/
def init : PoolAllocator where
  freeList := some 0
  next address := if address / p.nodeSize + 1 < p.numBlocks then some (address + p.nodeSize) else none
  used := 0
  maxUsed := 0

def allocate (size : ℕ) (a : PoolAllocator) : Option ℕ × PoolAllocator :=
  match a.freeList with
  | none => (none, a)
  | some pmem =>
    if size > p.blockSize then (none, a)
    else
      let used := (a.used + 1) % 0x10000
      (some pmem,
        { a with freeList := a.next pmem, used, maxUsed := if used > a.maxUsed then used else a.maxUsed })

def deallocate (ptr : ℕ) (a : PoolAllocator) : PoolAllocator :=
  { a with next := update a.next ptr a.freeList, freeList := some ptr, used := (a.used + 0xFFFF) % 0x10000 }

/-- The application writes into a block. -/
def write (ptr : ℕ) (value : Option ℕ) (a : PoolAllocator) : PoolAllocator :=
  { a with next := update a.next ptr value }

end PoolAllocator

/-- The runs, with the blocks that the application holds and the most it ever held. -/
inductive PoolRun (p : PoolParams) : PoolAllocator → List ℕ → ℕ → Prop
  | init : PoolRun p (.init p) [] 0
  | allocate {a : PoolAllocator} {held : List ℕ} {peak : ℕ} (size : ℕ) : PoolRun p a held peak →
    PoolRun p (a.allocate p size).2 ((a.allocate p size).1.toList ++ held)
      (max peak ((a.allocate p size).1.toList ++ held).length)
  | deallocate {a : PoolAllocator} {held : List ℕ} {peak : ℕ} {ptr : ℕ} : PoolRun p a held peak → ptr ∈ held →
    PoolRun p (a.deallocate ptr) (held.erase ptr) peak
  | write {a : PoolAllocator} {held : List ℕ} {peak : ℕ} {ptr : ℕ} (value : Option ℕ) : PoolRun p a held peak →
    ptr ∈ held → PoolRun p (a.write ptr value) held peak

namespace PoolAllocator

/-- The addresses of the blocks. -/
def addresses (p : PoolParams) : List ℕ := (range p.numBlocks).map (· * p.blockSize)

/-- The free list and the held blocks together are the blocks of the pool. -/
structure Inv (p : PoolParams) (a : PoolAllocator) (held : List ℕ) (peak : ℕ) (free : List ℕ) : Prop where
  linked : Linked a.next a.freeList free
  all : (free ++ held).Perm (addresses p)
  used : a.used = held.length
  maxUsed : a.maxUsed = peak
  peak : held.length ≤ peak

variable {p : PoolParams} {a : PoolAllocator} {held free : List ℕ} {peak : ℕ}

theorem nodup_addresses (p : PoolParams) : (addresses p).Nodup :=
  Nodup.map (fun _ _ same => Nat.eq_of_mul_eq_mul_right p.block same) nodup_range

theorem length_addresses (p : PoolParams) : (addresses p).length = p.numBlocks := by
  rw [addresses, length_map, length_range]

theorem mem_addresses {b : ℕ} (block : b ∈ addresses p) : p.blockSize ∣ b ∧ b + p.blockSize ≤ p.poolSize := by
  obtain ⟨i, inside, rfl⟩ := mem_map.mp block
  refine ⟨Nat.dvd_mul_left .., ?_⟩
  have count : i + 1 ≤ p.poolSize / p.blockSize := mem_range.mp inside
  have bytes := (Nat.le_div_iff_mul_le p.block).mp count
  rwa [Nat.add_mul, Nat.one_mul] at bytes

/-- The blocks from number `i` on are linked by the constructor. -/
theorem linked_init (i n : ℕ) (last : i + n = p.numBlocks) (some : 0 < n) :
    Linked (init p).next (.some (i * p.blockSize)) ((range' i n).map (· * p.blockSize)) := by
  induction n generalizing i with
  | zero => omega
  | succ n ih =>
    rw [range'_succ, map_cons]
    refine ⟨rfl, ?_⟩
    simp only [init, p.nodeSize_eq, Nat.mul_div_cancel _ p.block]
    by_cases more : i + 1 < p.numBlocks
    · rw [if_pos more, ← Nat.succ_mul]
      have later := ih (i + 1) (by omega) (by omega)
      simpa only [init, p.nodeSize_eq] using later
    · rw [if_neg more, show n = 0 by omega]
      rfl

theorem inv_init (p : PoolParams) : Inv p (init p) [] 0 (addresses p) where
  linked := by
    have linked := @linked_init p 0 p.numBlocks (Nat.zero_add _) p.positive
    rwa [Nat.zero_mul, ← range_eq_range'] at linked
  all := by rw [append_nil]
  used := rfl
  maxUsed := rfl
  peak := Nat.le_refl _

theorem Inv.held_le (inv : Inv p a held peak free) : free.length + held.length = p.numBlocks := by
  rw [← length_addresses, ← inv.all.length_eq, length_append]

theorem Inv.nodup (inv : Inv p a held peak free) : (free ++ held).Nodup :=
  inv.all.nodup_iff.mpr (nodup_addresses p)

/-- An allocation fails without a change, or takes the first free block. -/
theorem Inv.allocate (inv : Inv p a held peak free) (size : ℕ) :
    ((a.allocate p size).1 = none ∧ (a.allocate p size).2 = a ∧ (p.blockSize < size ∨ free = [])) ∨
      ∃ b rest, free = b :: rest ∧ size ≤ p.blockSize ∧ (a.allocate p size).1 = some b ∧
        Inv p (a.allocate p size).2 (b :: held) (max peak (b :: held).length) rest := by
  have total := inv.held_le
  obtain ⟨linked, all, used, maxUsed, low⟩ := inv
  unfold PoolAllocator.allocate
  cases head : a.freeList with
  | none =>
    rw [head] at linked
    exact .inl ⟨rfl, rfl, .inr linked.nil_of_none⟩
  | some b =>
    rw [head] at linked
    obtain ⟨rest, rfl, linked'⟩ := linked.cons_of_some
    have limit : p.numBlocks ≤ 0xFFFF := p.counted
    rw [length_cons] at total
    by_cases large : size > p.blockSize
    · exact .inl ⟨by simp only [if_pos large], by simp only [if_pos large], .inl large⟩
    · refine .inr ⟨b, rest, rfl, Nat.not_lt.mp large, by simp only [if_neg large], ?_⟩
      simp only [if_neg large]
      refine ⟨linked', perm_middle.trans all, ?_, ?_, Nat.le_max_right ..⟩
      · simp only [length_cons, used]
        omega
      · simp only [length_cons, used, maxUsed]
        split <;> omega

theorem Inv.deallocate {ptr : ℕ} (inv : Inv p a held peak free) (out : ptr ∈ held) :
    Inv p (a.deallocate ptr) (held.erase ptr) peak (ptr :: free) := by
  have total := inv.held_le
  have limit : p.numBlocks ≤ 0xFFFF := p.counted
  have some := length_pos_of_mem out
  have off : ptr ∉ free := fun listed => (nodup_append.mp inv.nodup).2.2 ptr listed ptr out rfl
  refine ⟨inv.linked.push off, ?_, ?_, inv.maxUsed, ?_⟩
  · exact (perm_middle.symm.trans ((perm_cons_erase out).symm.append_left free)).trans inv.all
  · rw [length_erase_of_mem out]
    simp only [PoolAllocator.deallocate, inv.used]
    omega
  · rw [length_erase_of_mem out]
    have := inv.peak
    omega

theorem Inv.write {ptr : ℕ} (inv : Inv p a held peak free) (out : ptr ∈ held) (value : Option ℕ) :
    Inv p (a.write ptr value) held peak free := by
  have off : ptr ∉ free := fun listed => (nodup_append.mp inv.nodup).2.2 ptr listed ptr out rfl
  exact ⟨inv.linked.update off value, inv.all, inv.used, inv.maxUsed, inv.peak⟩

theorem inv_of_run (run : PoolRun p a held peak) : ∃ free, Inv p a held peak free := by
  induction run with
  | init => exact ⟨_, inv_init p⟩
  | allocate size _ ih =>
    obtain ⟨free, inv⟩ := ih
    rcases inv.allocate size with ⟨none, same, -⟩ | ⟨b, rest, -, -, given, inv'⟩
    · rw [none, same, Option.toList_none, nil_append, Nat.max_eq_left inv.peak]
      exact ⟨free, inv⟩
    · rw [given, Option.toList_some, singleton_append]
      exact ⟨rest, inv'⟩
  | deallocate _ out ih =>
    obtain ⟨free, inv⟩ := ih
    exact ⟨_, inv.deallocate out⟩
  | write value _ out ih =>
    obtain ⟨free, inv⟩ := ih
    exact ⟨free, inv.write out value⟩

/-- What the pool guarantees at any time: held blocks are distinct blocks of the pool, an allocation gives a block
that is not held and fails exactly if it is too large or nothing is free, and the counters are right. -/
theorem poolAllocator_sound (run : PoolRun p a held peak) :
    held.Nodup ∧ (∀ b ∈ held, p.blockSize ∣ b ∧ b + p.blockSize ≤ p.poolSize) ∧
      (∀ size b, (a.allocate p size).1 = some b → b ∉ held ∧ p.blockSize ∣ b ∧ b + p.blockSize ≤ p.poolSize) ∧
      (∀ size, (a.allocate p size).1 = none ↔ p.blockSize < size ∨ held.length = p.numBlocks) ∧
      a.used = held.length ∧ a.maxUsed = peak := by
  obtain ⟨free, inv⟩ := inv_of_run run
  have total := inv.held_le
  have split := nodup_append.mp inv.nodup
  refine ⟨split.2.1, fun b out => mem_addresses (inv.all.subset (mem_append_right _ out)), fun size b given => ?_,
    fun size => ?_, inv.used, inv.maxUsed⟩
  · rcases inv.allocate size with ⟨none, -, -⟩ | ⟨b', rest, rfl, -, given', -⟩
    · cases none.symm.trans given
    · cases given'.symm.trans given
      exact ⟨fun out => split.2.2 b mem_cons_self b out rfl,
        mem_addresses (inv.all.subset (mem_append_left _ mem_cons_self))⟩
  · rcases inv.allocate size with ⟨none, -, why⟩ | ⟨b, rest, rfl, small, given, -⟩
    · refine ⟨fun _ => ?_, fun _ => none⟩
      rcases why with large | rfl
      · exact .inl large
      · exact .inr (by rwa [length_nil, Nat.zero_add] at total)
    · rw [given]
      rw [length_cons] at total
      exact ⟨nofun, fun why => by omega⟩

/-- Two blocks of eight bytes, and some bytes that are not used. -/
def twoBlocks : PoolParams := ⟨20, 8, 4, by decide, Nat.le_add_left 1 7, by decide, by decide, by decide⟩

def Sample.exhausted : PoolAllocator := (((init twoBlocks).allocate twoBlocks 5).2.allocate twoBlocks 8).2

/-- Both blocks are held, and nothing can be allocated; then the first one is given back. -/
theorem poolAllocator_sound_two_blocks :
    (Sample.exhausted.allocate twoBlocks 1).1 = none ∧ ((Sample.exhausted.deallocate 0).allocate twoBlocks 1).1 ≠ none ∧
      (Sample.exhausted.deallocate 0).used = 1 ∧ (Sample.exhausted.deallocate 0).maxUsed = 2 := by
  have full : PoolRun twoBlocks Sample.exhausted [8, 0] 2 := .allocate 8 (.allocate 5 .init)
  obtain ⟨-, -, -, fails, -⟩ := poolAllocator_sound full
  obtain ⟨-, -, -, fails', used, maxUsed⟩ := poolAllocator_sound (full.deallocate (show 0 ∈ [8, 0] by decide))
  exact ⟨(fails 1).mpr (by decide), fun none => absurd ((fails' 1).mp none) (by decide), used, maxUsed⟩

end PoolAllocator

end Uavcan
