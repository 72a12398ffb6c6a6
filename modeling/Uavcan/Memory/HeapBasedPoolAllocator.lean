import Uavcan.Containers.Linked
import Mathlib

/-!
# The pool allocator that grows

`HeapBasedPoolAllocator`, used sequentially. Blocks come from the heap, up to a hard limit, and go to a reserve
that is linked through them when they are given back. `shrink` returns the reserve to the heap. The heap gives
blocks that are not in use; the application may write anything into the blocks it holds.
-/

namespace Uavcan

open List Function Containers

/-- The allocator, with the blocks that are taken from the heap. -/
structure HeapBasedPoolAllocator where
  capacitySoftLimit : UInt16
  capacityHardLimit : UInt16
  numReservedBlocks : ℕ
  numAllocatedBlocks : ℕ
  reserve : Option ℕ
  next : ℕ → Option ℕ
  heap : List ℕ

namespace HeapBasedPoolAllocator

/-- The constructor; a hard limit of zero stands for twice the soft limit. -/
def init (blockCapacitySoftLimit blockCapacityHardLimit : UInt16) (next : ℕ → Option ℕ) : HeapBasedPoolAllocator where
  capacitySoftLimit := blockCapacitySoftLimit
  capacityHardLimit :=
    if blockCapacityHardLimit > 0 then blockCapacityHardLimit
    else UInt16.ofNat (min (blockCapacitySoftLimit.toNat * 2) 0xFFFF)
  numReservedBlocks := 0
  numAllocatedBlocks := 0
  reserve := none
  next := next
  heap := []

/-- The answer of `malloc`, if it is called, is an argument. -/
def allocate (blockSize size : ℕ) (malloc : Option ℕ) (a : HeapBasedPoolAllocator) :
    Option ℕ × HeapBasedPoolAllocator :=
  if size > blockSize then (none, a)
  else
    match a.reserve with
    | some p => (some p, { a with reserve := a.next p, numAllocatedBlocks := (a.numAllocatedBlocks + 1) % 0x10000 })
    | none =>
      if a.numReservedBlocks ≥ a.capacityHardLimit.toNat then (none, a)
      else
        match malloc with
        | none => (none, a)
        | some m =>
          (some m,
            { a with
              numReservedBlocks := (a.numReservedBlocks + 1) % 0x10000
              numAllocatedBlocks := (a.numAllocatedBlocks + 1) % 0x10000
              heap := m :: a.heap })

def deallocate (ptr : ℕ) (a : HeapBasedPoolAllocator) : HeapBasedPoolAllocator :=
  { a with
    next := update a.next ptr a.reserve
    reserve := some ptr
    numAllocatedBlocks := (a.numAllocatedBlocks + 0xFFFF) % 0x10000 }

/-- The loop of `shrink`, with the blocks that it returns to the heap. -/
def shrinkLoop : ℕ → HeapBasedPoolAllocator → List ℕ × HeapBasedPoolAllocator
  | 0, a => ([], a)
  | rounds + 1, a =>
    match a.reserve with
    | none => ([], a)
    | some p =>
      let (freed, a') := shrinkLoop rounds
        { a with
          reserve := a.next p
          numReservedBlocks := (a.numReservedBlocks + 0xFFFF) % 0x10000
          heap := a.heap.erase p }
      (p :: freed, a')

/-- The loop ends when the reserve is empty, so as many rounds as there are reserved blocks are enough. -/
def shrink (a : HeapBasedPoolAllocator) : List ℕ × HeapBasedPoolAllocator := shrinkLoop a.numReservedBlocks a

/-- The application writes into a block. -/
def write (ptr : ℕ) (value : Option ℕ) (a : HeapBasedPoolAllocator) : HeapBasedPoolAllocator :=
  { a with next := update a.next ptr value }

end HeapBasedPoolAllocator

/-- The runs, with the blocks that the application holds. -/
inductive HeapPoolRun (blockSize : ℕ) : HeapBasedPoolAllocator → List ℕ → Prop
  | init (softLimit hardLimit : UInt16) (next : ℕ → Option ℕ) :
      HeapPoolRun blockSize (.init softLimit hardLimit next) []
  | allocate {a : HeapBasedPoolAllocator} {held : List ℕ} (size : ℕ) {malloc : Option ℕ} :
    HeapPoolRun blockSize a held → (∀ m ∈ malloc, m ∉ a.heap) →
    HeapPoolRun blockSize (a.allocate blockSize size malloc).2 ((a.allocate blockSize size malloc).1.toList ++ held)
  | deallocate {a : HeapBasedPoolAllocator} {held : List ℕ} {ptr : ℕ} : HeapPoolRun blockSize a held → ptr ∈ held →
    HeapPoolRun blockSize (a.deallocate ptr) (held.erase ptr)
  | shrink {a : HeapBasedPoolAllocator} {held : List ℕ} : HeapPoolRun blockSize a held →
    HeapPoolRun blockSize a.shrink.2 held
  | write {a : HeapBasedPoolAllocator} {held : List ℕ} {ptr : ℕ} (value : Option ℕ) : HeapPoolRun blockSize a held →
    ptr ∈ held → HeapPoolRun blockSize (a.write ptr value) held

namespace HeapBasedPoolAllocator

/-- The reserve and the held blocks together are the blocks from the heap. -/
structure Inv (a : HeapBasedPoolAllocator) (held free : List ℕ) : Prop where
  linked : Linked a.next a.reserve free
  all : (free ++ held).Perm a.heap
  distinct : a.heap.Nodup
  reserved : a.numReservedBlocks = a.heap.length
  allocated : a.numAllocatedBlocks = held.length
  limit : a.heap.length ≤ a.capacityHardLimit.toNat

variable {a : HeapBasedPoolAllocator} {held free : List ℕ}

theorem Inv.length (inv : Inv a held free) : free.length + held.length = a.heap.length := by
  rw [← inv.all.length_eq, length_append]

theorem Inv.small (inv : Inv a held free) : a.heap.length < 2 ^ 16 := by
  have limit := inv.limit
  have word := a.capacityHardLimit.toNat_lt
  omega

theorem Inv.nodup (inv : Inv a held free) : (free ++ held).Nodup := inv.all.nodup_iff.mpr inv.distinct

theorem Inv.not_mem_free {ptr : ℕ} (inv : Inv a held free) (out : ptr ∈ held) : ptr ∉ free :=
  fun listed => (nodup_append.mp inv.nodup).2.2 ptr listed ptr out rfl

theorem inv_init (softLimit hardLimit : UInt16) (next : ℕ → Option ℕ) : Inv (init softLimit hardLimit next) [] [] :=
  ⟨rfl, .nil, nodup_nil, rfl, rfl, Nat.zero_le _⟩

/-- An allocation fails without a change, or gives a block that is not held. -/
theorem Inv.allocate (inv : Inv a held free) (blockSize size : ℕ) {malloc : Option ℕ}
    (fresh : ∀ m ∈ malloc, m ∉ a.heap) :
    ((a.allocate blockSize size malloc).1 = none ∧ (a.allocate blockSize size malloc).2 = a) ∨
      ∃ b free', (a.allocate blockSize size malloc).1 = some b ∧ b ∉ held ∧
        Inv (a.allocate blockSize size malloc).2 (b :: held) free' := by
  have total := inv.length
  have small := inv.small
  have nodup := inv.nodup
  obtain ⟨linked, all, distinct, reserved, allocated, limit⟩ := inv
  have word := a.capacityHardLimit.toNat_lt
  by_cases large : size > blockSize
  · rw [show a.allocate blockSize size malloc = (none, a) from if_pos large]
    exact .inl ⟨rfl, rfl⟩
  · cases head : a.reserve with
    | some b =>
      -- a block of the reserve
      simp only [HeapBasedPoolAllocator.allocate, if_neg large, head]
      rw [head] at linked
      obtain ⟨rest, rfl, linked'⟩ := linked.cons_of_some
      refine .inr ⟨b, rest, rfl, fun out => (nodup_append.mp nodup).2.2 b mem_cons_self b out rfl, linked',
        perm_middle.trans all, distinct, reserved, ?_, limit⟩
      rw [length_cons] at total
      simp only [length_cons, allocated]
      omega
    | none =>
      rw [head] at linked
      cases linked.nil_of_none
      by_cases full : a.numReservedBlocks ≥ a.capacityHardLimit.toNat
      · have refused : a.allocate blockSize size malloc = (none, a) := by
          simp only [HeapBasedPoolAllocator.allocate, if_neg large, head, if_pos full]
        rw [refused]
        exact .inl ⟨rfl, rfl⟩
      · cases malloc with
        | none =>
          have failed : a.allocate blockSize size none = (none, a) := by
            simp only [HeapBasedPoolAllocator.allocate, if_neg large, head, if_neg full]
          rw [failed]
          exact .inl ⟨rfl, rfl⟩
        | some m =>
          simp only [HeapBasedPoolAllocator.allocate, if_neg large, head, if_neg full]
          have new := fresh m rfl
          refine .inr ⟨m, [], rfl, fun out => new (all.subset (mem_append_right _ out)), rfl, all.cons m,
            nodup_cons.mpr ⟨new, distinct⟩, ?_, ?_, ?_⟩
          · simp only [length_cons, reserved]
            omega
          · simp only [length_cons, allocated]
            omega
          · simp only [length_cons]
            omega

theorem Inv.deallocate {ptr : ℕ} (inv : Inv a held free) (out : ptr ∈ held) :
    Inv (a.deallocate ptr) (held.erase ptr) (ptr :: free) := by
  have total := inv.length
  have small := inv.small
  have some := length_pos_of_mem out
  unfold HeapBasedPoolAllocator.deallocate
  refine ⟨inv.linked.push (inv.not_mem_free out), ?_, inv.distinct, inv.reserved, ?_, inv.limit⟩
  · exact (perm_middle.symm.trans ((perm_cons_erase out).symm.append_left free)).trans inv.all
  · rw [length_erase_of_mem out]
    simp only [inv.allocated]
    omega

theorem Inv.write {ptr : ℕ} (inv : Inv a held free) (out : ptr ∈ held) (value : Option ℕ) :
    Inv (a.write ptr value) held free :=
  ⟨inv.linked.update (inv.not_mem_free out) value, inv.all, inv.distinct, inv.reserved, inv.allocated, inv.limit⟩

/-- The loop returns the whole reserve, and nothing else. -/
theorem Inv.shrinkLoop (inv : Inv a held free) {rounds : ℕ} (enough : free.length ≤ rounds) :
    (a.shrinkLoop rounds).1 = free ∧ Inv (a.shrinkLoop rounds).2 held [] := by
  induction rounds generalizing a free with
  | zero =>
    cases length_eq_zero_iff.mp (Nat.le_zero.mp enough)
    exact ⟨rfl, inv⟩
  | succ rounds ih =>
    have total := inv.length
    have small := inv.small
    unfold HeapBasedPoolAllocator.shrinkLoop
    cases head : a.reserve with
    | none =>
      have linked := inv.linked
      rw [head] at linked
      cases linked.nil_of_none
      exact ⟨rfl, inv⟩
    | some b =>
      have linked := inv.linked
      rw [head] at linked
      obtain ⟨rest, rfl, linked'⟩ := linked.cons_of_some
      have listed : b ∈ a.heap := inv.all.subset mem_cons_self
      rw [length_cons] at enough total
      have shrunk := @ih
        { a with
          reserve := a.next b
          numReservedBlocks := (a.numReservedBlocks + 0xFFFF) % 0x10000
          heap := a.heap.erase b } rest
        ⟨linked', by simpa using inv.all.erase b, inv.distinct.erase b, by
            simp only [length_erase_of_mem listed, inv.reserved]
            omega, inv.allocated, Nat.le_trans length_erase_le inv.limit⟩ (by omega)
      exact ⟨congrArg (b :: ·) shrunk.1, shrunk.2⟩

theorem Inv.shrink (inv : Inv a held free) : a.shrink.1 = free ∧ Inv a.shrink.2 held [] := by
  have total := inv.length
  exact inv.shrinkLoop (by rw [inv.reserved]; omega)

theorem inv_of_run {blockSize : ℕ} (run : HeapPoolRun blockSize a held) : ∃ free, Inv a held free := by
  induction run with
  | init softLimit hardLimit next => exact ⟨[], inv_init softLimit hardLimit next⟩
  | allocate size _ fresh ih =>
    obtain ⟨free, inv⟩ := ih
    rcases inv.allocate blockSize size fresh with ⟨none, same⟩ | ⟨b, free', given, -, inv'⟩
    · rw [none, same, Option.toList_none, nil_append]
      exact ⟨free, inv⟩
    · rw [given, Option.toList_some, singleton_append]
      exact ⟨free', inv'⟩
  | deallocate _ out ih =>
    obtain ⟨free, inv⟩ := ih
    exact ⟨_, inv.deallocate out⟩
  | shrink _ ih =>
    obtain ⟨free, inv⟩ := ih
    exact ⟨[], inv.shrink.2⟩
  | write value _ out ih =>
    obtain ⟨free, inv⟩ := ih
    exact ⟨free, inv.write out value⟩

/-- What holds at any time: held blocks are distinct and come from the heap, a new block is not held, the counters
are right and within the hard limit, and `shrink` returns no held block and leaves exactly the held ones. -/
theorem heapBasedPool_sound {blockSize : ℕ} (run : HeapPoolRun blockSize a held) :
    held.Nodup ∧ held ⊆ a.heap ∧
      (∀ size malloc b, (∀ m ∈ malloc, m ∉ a.heap) → (a.allocate blockSize size malloc).1 = some b → b ∉ held) ∧
      a.numAllocatedBlocks = held.length ∧ a.numReservedBlocks = a.heap.length ∧
      a.numAllocatedBlocks ≤ a.numReservedBlocks ∧ a.numReservedBlocks ≤ a.capacityHardLimit.toNat ∧
      (∀ b ∈ a.shrink.1, b ∉ held) ∧ a.shrink.2.reserve = none ∧ a.shrink.2.heap.Perm held ∧
      a.shrink.2.numReservedBlocks = held.length := by
  obtain ⟨free, inv⟩ := inv_of_run run
  have total := inv.length
  obtain ⟨freed, shrunk⟩ := inv.shrink
  refine ⟨(nodup_append.mp inv.nodup).2.1, fun b out => inv.all.subset (mem_append_right _ out),
    fun size malloc b fresh given => ?_, inv.allocated, inv.reserved, ?_, ?_, fun b returned out => ?_, shrunk.linked,
    shrunk.all.symm, ?_⟩
  · rcases inv.allocate blockSize size fresh with ⟨none, -⟩ | ⟨b', -, given', new, -⟩
    · cases none.symm.trans given
    · cases given'.symm.trans given
      exact new
  · rw [inv.allocated, inv.reserved]
    omega
  · rw [inv.reserved]
    exact inv.limit
  · rw [freed] at returned
    exact inv.not_mem_free out returned
  · rw [shrunk.reserved, ← shrunk.all.length_eq, nil_append]

/-- Two blocks, as many as the limits allow, of which one is given back. -/
def Sample.released : HeapBasedPoolAllocator :=
  (((init 1 0 fun _ => none).allocate 8 8 (some 64)).2.allocate 8 5 (some 128)).2.deallocate 64

theorem heapBasedPool_sound_one_block :
    Sample.released.numReservedBlocks = 2 ∧ 128 ∉ Sample.released.shrink.1 ∧
      Sample.released.shrink.2.numReservedBlocks = 1 := by
  have run : HeapPoolRun 8 Sample.released [128] :=
    .deallocate (.allocate 5 (.allocate 8 (.init 1 0 fun _ => none) (by decide)) (by decide)) (by decide)
  obtain ⟨-, -, -, -, reserved, -, -, kept, -, -, shrunk⟩ := heapBasedPool_sound run
  exact ⟨reserved, fun returned => kept 128 returned (by decide), shrunk⟩

end HeapBasedPoolAllocator

end Uavcan
