import Mathlib.Algebra.Order.Floor.Div
import Uavcan.Machines.Answers
import Uavcan.Transport.TransferBuffer

/-!
# Chained buffers and flat ones

A `TransferBufferManagerEntry` keeps its bytes in a chain of blocks, a `StaticTransferBufferImpl` in one
array. Both are called in the same way (`BufferCall`), and what a caller sees are the numbers that are
returned and the bytes that are read.

`FlatArray` says what a buffer is for: it stores up to `maxSize` bytes, a write stores the longest prefix that
there is room and memory for, and a read gives the stored bytes of a range. Bytes up to a position `n` occupy
`n ⌈/⌉ size` blocks, and a write needs those that the bytes stored before do not occupy. The chained buffer
answers every sequence of calls like the flat array, and if memory is never short like the static buffer too.
-/

namespace Uavcan

open Buffers (overwrite splice)
open List

/-! ## The static buffer -/

/-- A length, cut so that a range does not go beyond a limit; the sum is one of `unsigned` numbers. -/
def clampLength (limit offset len : ℕ) : ℕ := if (offset + len) % 2 ^ 32 > limit then limit - offset else len

variable {offset len : ℕ}

theorem clampLength_eq {limit : ℕ} (fits : offset + len < 2 ^ 32) :
    clampLength limit offset len = min len (limit - offset) := by
  rw [clampLength]
  split
  · omega
  · omega

/-- A read of the first `pos` bytes of a memory. -/
theorem clamped_read {memory : List UInt8} {pos : ℕ} (bounded : pos ≤ memory.length)
    (fits : offset + len < 2 ^ 32) :
    (if offset ≥ pos then (0, []) else
      (clampLength pos offset len, (memory.drop offset).take (clampLength pos offset len))) =
      ((((memory.take pos).drop offset).take len).length, ((memory.take pos).drop offset).take len) := by
  have count : (((memory.take pos).drop offset).take len).length = min len (pos - offset) := by
    rw [length_take, length_drop, length_take_of_le bounded]
  split
  · have nothing : ((memory.take pos).drop offset).take len = [] := by
      rw [← length_eq_zero_iff]
      omega
    rw [nothing, length_nil]
  · rw [count, clampLength_eq fits, drop_take, take_take]

structure StaticTransferBufferImpl where
  data : List UInt8
  size : UInt16
  maxWritePos : ℕ
  length_data : data.length = size.toNat

variable {written : ℕ} {bytes : List UInt8}

namespace StaticTransferBufferImpl

/-- The number that is returned, and the bytes. -/
def read (b : StaticTransferBufferImpl) (offset len : ℕ) : ℕ × List UInt8 :=
  if offset ≥ b.maxWritePos then (0, [])
  else
    let len := clampLength b.maxWritePos offset len
    (len, (b.data.drop offset).take len)

def write (b : StaticTransferBufferImpl) (offset : ℕ) (data : List UInt8) : ℕ × StaticTransferBufferImpl :=
  if offset ≥ b.size.toNat then (0, b)
  else
    let len := clampLength b.size.toNat offset data.length
    (len,
      { b with
        data := overwrite b.data offset (data.take len)
        maxWritePos := max ((offset + len) % 2 ^ 16) b.maxWritePos
        length_data := by rw [Buffers.length_overwrite, b.length_data] })

/-- A debug build also clears the memory. -/
def reset (debug : Bool) (b : StaticTransferBufferImpl) : StaticTransferBufferImpl :=
  { b with
    data := if debug then List.replicate b.size.toNat 0 else b.data
    maxWritePos := 0
    length_data := by
      split
      · exact List.length_replicate
      · exact b.length_data }

/-- The bytes that have been written. -/
def stored (b : StaticTransferBufferImpl) : List UInt8 := b.data.take b.maxWritePos

variable {b : StaticTransferBufferImpl}

theorem length_stored (bounded : b.maxWritePos ≤ b.size.toNat) :
    b.stored.length = b.maxWritePos := by
  rw [stored, length_take, b.length_data, Nat.min_eq_left bounded]

theorem read_eq (bounded : b.maxWritePos ≤ b.size.toNat) (fits : offset + len < 2 ^ 32) :
    b.read offset len = (((b.stored.drop offset).take len).length, (b.stored.drop offset).take len) :=
  clamped_read (by rwa [b.length_data]) fits

/-- A write that starts in the data or at its end splices in the bytes that fit. -/
theorem write_cases {b' : StaticTransferBufferImpl} (bounded : b.maxWritePos ≤ b.size.toNat)
    (start : offset ≤ b.maxWritePos) (fits : offset + bytes.length < 2 ^ 32)
    (run : b.write offset bytes = (written, b')) :
    written = min bytes.length (b.size.toNat - offset) ∧ b'.size = b.size ∧ b'.maxWritePos ≤ b'.size.toNat ∧
      b'.stored = splice b.stored offset (bytes.take written) := by
  have limit := b.size.toNat_lt
  unfold write at run
  split at run
  · cases run
    exact ⟨by omega, rfl, bounded, by simp⟩
  · obtain ⟨count, rfl⟩ := Prod.mk.inj run
    have written_eq : written = min bytes.length (b.size.toNat - offset) := count.symm.trans (clampLength_eq fits)
    have length : (bytes.take written).length = written := by
      rw [length_take]
      omega
    have position : (offset + written) % 2 ^ 16 = offset + (bytes.take written).length := by
      rw [length]
      exact Nat.mod_eq_of_lt (by omega)
    refine ⟨written_eq, rfl, ?_, ?_⟩
    · show max _ _ ≤ b.size.toNat
      omega
    · show (overwrite _ _ _).take (max _ _) = _
      rw [count, position, Buffers.take_overwrite start (by rw [b.length_data]; exact bounded)
        (by rw [b.length_data]; omega), stored]

end StaticTransferBufferImpl

/-! ## Calls -/

/-- A call to a buffer; what the pool gives during a write comes with it. -/
inductive BufferCall (size : ℕ)
  | read (offset len : ℕ)
  | write (offset : ℕ) (bytes : List UInt8) (mem : Memory size)
  | reset (key : TransferBufferManagerKey)

namespace BufferCall

variable {size : ℕ}

/-- Writes start at or before the end of the data, and ranges do not wrap around. -/
def Proper (pos : ℕ) : BufferCall size → Prop
  | read offset len => offset + len < 2 ^ 32
  | write offset bytes _ => offset ≤ pos ∧ offset + bytes.length < 2 ^ 32
  | reset _ => True

instance Proper.instDecidable (pos : ℕ) : (c : BufferCall size) → Decidable (c.Proper pos)
  | read offset len => inferInstanceAs (Decidable (offset + len < 2 ^ 32))
  | write offset bytes _ => inferInstanceAs (Decidable (offset ≤ pos ∧ offset + bytes.length < 2 ^ 32))
  | reset _ => .isTrue trivial

/-- The pool has a block whenever one is asked for. -/
def Granted : BufferCall size → Prop
  | write _ _ mem => ∀ k, (mem.block k).isSome
  | _ => True

end BufferCall

/-- What a call returns: the number, and the bytes that were read. -/
abbrev BufferAnswer := ℕ × List UInt8

namespace TransferBufferManagerEntry

variable {size : ℕ}

variable (e : TransferBufferManagerEntry size)

/-- `read` with the number that it returns. -/
def readCounted (offset len : ℕ) : BufferAnswer :=
  if offset ≥ e.maxWritePos then (0, [])
  else
    let len := clampLength e.maxWritePos offset len
    (len, readBlocks e.blocks offset 0 len)

/-- All blocks go back to the pool. -/
def reset (key : TransferBufferManagerKey) : TransferBufferManagerEntry size :=
  { e with key, maxWritePos := 0, blocks := [] }

def call : BufferCall size → BufferAnswer × TransferBufferManagerEntry size
  | .read offset len => (e.readCounted offset len, e)
  | .write offset bytes mem => (((e.write mem offset bytes).1, []), (e.write mem offset bytes).2)
  | .reset key => ((0, []), e.reset key)

theorem readCounted_eq {e : TransferBufferManagerEntry size} (filled : e.Filled)
    (fits : offset + len < 2 ^ 32) :
    e.readCounted offset len = (((e.data.drop offset).take len).length, (e.data.drop offset).take len) := by
  simp only [readCounted, readBlocks_eq, Nat.sub_zero]
  exact clamped_read filled fits

end TransferBufferManagerEntry

namespace StaticTransferBufferImpl

variable {size : ℕ}

/-- A static buffer needs no memory and has no key. -/
def call (debug : Bool) (b : StaticTransferBufferImpl) : BufferCall size → BufferAnswer × StaticTransferBufferImpl
  | .read offset len => (b.read offset len, b)
  | .write offset bytes _ => (((b.write offset bytes).1, []), (b.write offset bytes).2)
  | .reset _ => ((0, []), b.reset debug)

end StaticTransferBufferImpl

/-! ## The flat array -/

/-- The pool gives the first `n` blocks that it is asked for. -/
def Memory.Gives {size : ℕ} (mem : Memory size) (n : ℕ) : Prop := ∀ k < n, (mem.block k).isSome

instance Memory.Gives.instDecidable {size : ℕ} (mem : Memory size) (n : ℕ) : Decidable (mem.Gives n) :=
  inferInstanceAs (Decidable (∀ k < n, (mem.block k).isSome))

/-- The bytes stored in an array of `maxSize` bytes. -/
structure FlatArray (maxSize : ℕ) where
  stored : List UInt8
  bounded : stored.length ≤ maxSize

namespace FlatArray

variable {size maxSize : ℕ}

def empty : FlatArray maxSize := ⟨[], Nat.zero_le _⟩

variable (a : FlatArray maxSize)

/-- The length of the longest prefix of `bytes` that has room at `offset` and memory. -/
def longest (mem : Memory size) (offset : ℕ) (bytes : List UInt8) : ℕ :=
  Nat.findGreatest (fun n => mem.Gives ((offset + n) ⌈/⌉ size - a.stored.length ⌈/⌉ size))
    (min bytes.length (maxSize - offset))

theorem longest_le (mem : Memory size) (offset : ℕ) (bytes : List UInt8) :
    a.longest mem offset bytes ≤ min bytes.length (maxSize - offset) :=
  Nat.findGreatest_le _

theorem length_write_le (mem : Memory size) (offset : ℕ) (bytes : List UInt8) :
    (splice a.stored offset (bytes.take (a.longest mem offset bytes))).length ≤ maxSize := by
  have room := a.longest_le mem offset bytes
  have := a.bounded
  simp only [splice, List.length_append, List.length_take, List.length_drop]
  omega

def write (mem : Memory size) (offset : ℕ) (bytes : List UInt8) : FlatArray maxSize where
  stored := splice a.stored offset (bytes.take (a.longest mem offset bytes))
  bounded := a.length_write_le mem offset bytes

/-- A read gives the stored bytes of the range, a write stores the longest prefix. -/
def call : BufferCall size → BufferAnswer × FlatArray maxSize
  | .read offset len => ((((a.stored.drop offset).take len).length, (a.stored.drop offset).take len), a)
  | .write offset bytes mem => ((a.longest mem offset bytes, []), a.write mem offset bytes)
  | .reset _ => ((0, []), empty)

/-- If memory is not short the prefix is only limited by the room. -/
theorem longest_of_granted {mem : Memory size} (granted : ∀ k, (mem.block k).isSome)
    (offset : ℕ) (bytes : List UInt8) : a.longest mem offset bytes = min bytes.length (maxSize - offset) :=
  Nat.findGreatest_eq fun k _ => granted k

end FlatArray

/-! ## Answers -/

/-- A chained buffer holds what the flat array stores, in as many blocks as that needs. -/
structure TransferBufferManagerEntry.Represents {size maxSize : ℕ} (e : TransferBufferManagerEntry size)
    (a : FlatArray maxSize) : Prop where
  maxSize : e.maxSize.toNat = maxSize
  filled : e.Filled
  data : e.data = a.stored
  blocks : e.blocks.length = a.stored.length ⌈/⌉ size

namespace TransferBufferManagerEntry.Represents

variable {size maxSize : ℕ} {e : TransferBufferManagerEntry size} {a : FlatArray maxSize}

section

variable (related : e.Represents a)

include related

theorem maxWritePos : e.maxWritePos = a.stored.length := by
  rw [← related.data, length_data related.filled]

theorem write_longest (positive : 0 < size) {mem : Memory size}
    (start : offset ≤ a.stored.length) {e' : TransferBufferManagerEntry size}
    (run : e.write mem offset bytes = (written, e')) : written = a.longest mem offset bytes := by
  obtain ⟨-, -, -, -, limited, -, m, -, inside, taken, short⟩ :=
    write_cases positive related.filled (start.trans related.maxWritePos.ge) run
  rw [related.maxSize] at limited short
  refine (Nat.findGreatest_eq_iff.mpr ⟨limited, fun _ k here => ?_, fun n longer room given => ?_⟩).symm
  · -- the blocks of the prefix are the ones that were taken
    rw [← related.blocks] at here
    have : (offset + written) ⌈/⌉ size ≤ e.blocks.length + m := (ceilDiv_le_iff_le_mul positive).mpr inside
    exact (taken k (by omega)).2
  · -- a longer one needs the block that the pool did not have
    obtain ⟨full, exhausted⟩ := short (longer.trans_le room)
    have beyond : e.blocks.length + m < (offset + n) ⌈/⌉ size := by
      rw [← not_le, ceilDiv_le_iff_le_mul positive]
      omega
    have := given m (by rw [← related.blocks]; omega)
    rw [exhausted] at this
    cases this

theorem write (positive : 0 < size) (mem : Memory size)
    (bytes : List UInt8) (start : offset ≤ a.stored.length) :
    (e.write mem offset bytes).1 = a.longest mem offset bytes ∧
      (e.write mem offset bytes).2.Represents (a.write mem offset bytes) := by
  rcases run : e.write mem offset bytes with ⟨written, e'⟩
  have longest := related.write_longest positive start run
  obtain ⟨filled, -, maxSize_eq, data_eq, limited, -, m, count, inside, taken, -⟩ :=
    write_cases positive related.filled (start.trans related.maxWritePos.ge) run
  have stored : (a.write mem offset bytes).stored = splice a.stored offset (bytes.take written) := by
    rw [longest]
    rfl
  have length : (a.write mem offset bytes).stored.length = max a.stored.length (offset + written) := by
    rw [stored, Buffers.length_splice start, length_take]
    omega
  refine ⟨longest, by rw [maxSize_eq, related.maxSize], filled, ?_, ?_⟩
  · rw [data_eq, related.data, stored]
  · have before : a.stored.length ≤ size * e.blocks.length := by
      rw [related.blocks]
      exact le_smul_ceilDiv positive
    rw [count, length]
    apply le_antisymm
    · -- the last of the blocks holds a byte
      rcases Nat.eq_zero_or_pos m with rfl | more
      · rw [Nat.add_zero, related.blocks, ceilDiv_le_iff_le_mul positive]
        exact (le_max_left _ _).trans (le_smul_ceilDiv positive)
      · have needed := (taken (m - 1) (by omega)).1
        by_contra fewer
        have : max a.stored.length (offset + written) ≤ size * (e.blocks.length + (m - 1)) :=
          (ceilDiv_le_iff_le_mul positive).mp (by omega)
        omega
    · rw [ceilDiv_le_iff_le_mul positive]
      refine max_le (before.trans ?_) inside
      exact Nat.mul_le_mul_left _ (Nat.le_add_right _ _)

theorem call (positive : 0 < size) {c : BufferCall size} (proper : c.Proper e.maxWritePos) :
    (e.call c).1 = (a.call c).1 ∧ (e.call c).2.Represents (a.call c).2 := by
  cases c with
  | read offset len =>
    refine ⟨?_, related⟩
    simp only [TransferBufferManagerEntry.call, FlatArray.call]
    rw [readCounted_eq related.filled proper, related.data]
  | write offset bytes mem =>
    rw [related.maxWritePos] at proper
    obtain ⟨count, still⟩ := related.write positive mem bytes proper.1
    refine ⟨?_, still⟩
    simp only [TransferBufferManagerEntry.call, FlatArray.call]
    rw [count]
  | reset key =>
    refine ⟨rfl, related.maxSize, Nat.zero_le _, rfl, ?_⟩
    exact (zero_ceilDiv size).symm

end

end TransferBufferManagerEntry.Represents

/-- A static buffer holds what the flat array stores. -/
structure StaticTransferBufferImpl.Represents {maxSize : ℕ} (b : StaticTransferBufferImpl) (a : FlatArray maxSize) :
    Prop where
  size : b.size.toNat = maxSize
  bounded : b.maxWritePos ≤ b.size.toNat
  stored : b.stored = a.stored

theorem StaticTransferBufferImpl.Represents.call {size maxSize : ℕ} {b : StaticTransferBufferImpl}
    {a : FlatArray maxSize} (related : b.Represents a) (debug : Bool) {c : BufferCall size}
    (proper : c.Proper a.stored.length) (granted : c.Granted) :
    (b.call debug c).1 = (a.call c).1 ∧ (b.call debug c).2.Represents (a.call c).2 := by
  have position : b.maxWritePos = a.stored.length := by rw [← related.stored, length_stored related.bounded]
  cases c with
  | read offset len =>
    refine ⟨?_, related⟩
    simp only [StaticTransferBufferImpl.call, FlatArray.call]
    rw [read_eq related.bounded proper, related.stored]
  | write offset bytes mem =>
    rcases run : b.write offset bytes with ⟨written, b'⟩
    obtain ⟨count, size_eq, bounded, stored⟩ :=
      write_cases related.bounded (position ▸ proper.1) proper.2 run
    have longest : written = a.longest mem offset bytes := by
      rw [count, related.size, a.longest_of_granted granted]
    simp only [StaticTransferBufferImpl.call, FlatArray.call, run]
    refine ⟨by rw [longest], by rw [size_eq, related.size], bounded, ?_⟩
    rw [stored, related.stored, longest]
    rfl
  | reset key => exact ⟨rfl, related.size, Nat.zero_le _, rfl⟩

namespace TransferBufferManagerEntry

variable {size : ℕ}

/-- A buffer as it is created. -/
def fresh (size : ℕ) (key : TransferBufferManagerKey) (maxSize : UInt16) : TransferBufferManagerEntry size :=
  ⟨key, [], 0, maxSize⟩

theorem fresh_represents (key : TransferBufferManagerKey) (maxSize : UInt16) :
    (fresh size key maxSize).Represents (FlatArray.empty : FlatArray maxSize.toNat) :=
  ⟨rfl, Nat.zero_le _, rfl, (zero_ceilDiv size).symm⟩

/-- Calls that are proper at the end of the data that a buffer has when they are made. -/
def ProperCalls (calls : List (BufferCall size)) (e : TransferBufferManagerEntry size) : Prop :=
  Machines.Permitted call (fun e c => c.Proper e.maxWritePos) calls e

instance ProperCalls.instDecidable (calls : List (BufferCall size)) (e : TransferBufferManagerEntry size) :
    Decidable (ProperCalls calls e) :=
  inferInstanceAs (Decidable (Machines.Permitted call (fun e c => c.Proper e.maxWritePos) calls e))

/-- A chained buffer answers like a flat array in which a write stores the longest prefix that memory allows, and like a
static buffer of the same size if memory is never short. -/
theorem answers_like_flat_buffer (positive : 0 < size) (key : TransferBufferManagerKey) (maxSize : UInt16)
    (calls : List (BufferCall size)) (proper : ProperCalls calls (fresh size key maxSize)) :
    Machines.answers call calls (fresh size key maxSize) =
        Machines.answers FlatArray.call calls (FlatArray.empty : FlatArray maxSize.toNat) ∧
      ((∀ c ∈ calls, c.Granted) → ∀ (debug : Bool) (b : StaticTransferBufferImpl), b.size = maxSize →
        b.maxWritePos = 0 →
          Machines.answers call calls (fresh size key maxSize) =
            Machines.answers (StaticTransferBufferImpl.call debug) calls b) := by
  refine ⟨?_, ?_⟩
  · refine Machines.answers_eq Represents ?_ (fresh_represents key maxSize) proper
    intro e a c related proper
    exact related.call positive proper
  · intro granted debug b sameSize unwritten
    -- both stay related to one flat array
    let R (e : TransferBufferManagerEntry size) (b : StaticTransferBufferImpl) : Prop :=
      ∃ a : FlatArray maxSize.toNat, e.Represents a ∧ b.Represents a
    have related : R (fresh size key maxSize) b := by
      refine ⟨.empty, fresh_represents key maxSize, by rw [sameSize], by omega, ?_⟩
      rw [StaticTransferBufferImpl.stored, unwritten]
      rfl
    refine Machines.answers_eq R ?_ related (Machines.Permitted.and proper granted)
    rintro e b c ⟨a, chained, static⟩ ⟨proper, granted⟩
    obtain ⟨same, still⟩ := chained.call positive proper
    rw [chained.maxWritePos] at proper
    obtain ⟨same', still'⟩ := static.call debug proper granted
    exact ⟨same.trans same'.symm, _, still, still'⟩

/-- A pool that has `n` blocks of two bytes. -/
def fewBlocks (n : ℕ) : Memory 2 where
  receiver := true
  buffer := true
  block k := if k < n then some ⟨[0, 0], rfl⟩ else none

/-- The second write finds the pool empty, the last one goes up to the end of the buffer. -/
def scarceCalls : List (BufferCall 2) :=
  [.write 0 [1, 2, 3] (fewBlocks 2), .write 3 [4, 5, 6] (fewBlocks 0), .read 1 9, .write 4 [7, 8] (fewBlocks 1),
    .read 0 9]

theorem answers_like_flat_buffer_scarce :
    ProperCalls scarceCalls (fresh 2 ⟨⟨7⟩, .messageBroadcast⟩ 5) ∧
      Machines.answers call scarceCalls (fresh 2 ⟨⟨7⟩, .messageBroadcast⟩ 5) =
        [(3, []), (1, []), (3, [2, 3, 4]), (1, []), (5, [1, 2, 3, 4, 7])] ∧
      Machines.answers call scarceCalls (fresh 2 ⟨⟨7⟩, .messageBroadcast⟩ 5) =
        Machines.answers FlatArray.call scarceCalls (FlatArray.empty : FlatArray (5 : UInt16).toNat) :=
  ⟨by decide, by decide, (answers_like_flat_buffer (by decide) ⟨⟨7⟩, .messageBroadcast⟩ 5 scarceCalls (by decide)).1⟩

end TransferBufferManagerEntry

end Uavcan
