import Uavcan.Queues.Insertion
import Uavcan.Transport.Transfer
import Uavcan.Buffers.Overwrite

/-!
# Transfer buffers

The payload of a multi-frame transfer is collected in a chain of memory blocks that grows while it is written.
A `TransferBufferManager` owns the buffers of a listener, one for each node and transfer type. Each allocation
may fail: `Memory` says what the pool does during one call.
-/

namespace Uavcan

open Buffers (overwrite splice)
open List

structure TransferBufferManagerKey where
  nodeId : NodeID
  transferType : TransferType
  deriving DecidableEq

def TransferBufferManagerKey.isEmpty (key : TransferBufferManagerKey) : Bool := !key.nodeId.isValid

/-- A memory block; `size` is the block size of the pool without the list node. -/
structure Block (size : ℕ) where
  data : List UInt8
  length_data : data.length = size

/-- What the pool gives during one call: room for a receiver, for a buffer, and the blocks of a buffer,
each with what was left in it. -/
structure Memory (size : ℕ) where
  receiver : Bool
  buffer : Bool
  block : ℕ → Option (Block size)

/-- The pool has memory for everything. -/
def Memory.Enough {size : ℕ} (mem : Memory size) : Prop :=
  mem.receiver = true ∧ mem.buffer = true ∧ ∀ k, (mem.block k).isSome

variable {input rest : List UInt8} {target total total' : ℕ}

namespace Block

variable {size : ℕ}

/-- The loop of `Block::write` over the bytes of the block: what the block holds then, what is left to
write, and the total offset. -/
def writeLoop : List UInt8 → List UInt8 → ℕ → ℕ → List UInt8 × List UInt8 × ℕ
  | [], input, _, totalOffset => ([], input, totalOffset)
  | b :: bs, [], _, totalOffset => (b :: bs, [], totalOffset)
  | b :: bs, x :: xs, targetOffset, totalOffset =>
    if targetOffset ≤ totalOffset then
      let (bs, rest, total) := writeLoop bs xs targetOffset (totalOffset + 1)
      (x :: bs, rest, total)
    else
      let (bs, rest, total) := writeLoop bs (x :: xs) targetOffset (totalOffset + 1)
      (b :: bs, rest, total)

/-- The loop of `Block::read`: what was read, the total offset, and how much is left to read. -/
def readLoop : List UInt8 → ℕ → ℕ → ℕ → List UInt8 × ℕ × ℕ
  | [], _, totalOffset, leftToRead => ([], totalOffset, leftToRead)
  | _ :: _, _, totalOffset, 0 => ([], totalOffset, 0)
  | b :: bs, targetOffset, totalOffset, leftToRead + 1 =>
    if targetOffset ≤ totalOffset then
      let (out, total, left) := readLoop bs targetOffset (totalOffset + 1) leftToRead
      (b :: out, total, left)
    else readLoop bs targetOffset (totalOffset + 1) (leftToRead + 1)

/-- Writing skips up to the target offset and goes on to the end of the block. -/
theorem writeLoop_eq (data input : List UInt8) (target total : ℕ) :
    (writeLoop data input target total).1 = overwrite data (target - total) input ∧
      (writeLoop data input target total).2.1 = input.drop (data.length - (target - total)) ∧
      ((writeLoop data input target total).2.1 ≠ [] →
        (writeLoop data input target total).2.2 = total + data.length) := by
  fun_induction writeLoop data input target total with
  | case1 => simp
  | case2 => simp
  | case3 b bs x xs target total here bs' rest total' eq ih =>
    rw [eq] at ih
    obtain ⟨block, left, offset⟩ := ih
    have skip : target - total = 0 := by omega
    have skip' : target - (total + 1) = 0 := by omega
    rw [skip'] at block left
    refine ⟨?_, ?_, fun more => ?_⟩
    · simp only [skip, overwrite] at block ⊢
      rw [block]
    · simpa [skip] using left
    · rw [offset more, length_cons]
      omega
  | case4 b bs x xs target total later bs' rest total' eq ih =>
    rw [eq] at ih
    obtain ⟨block, left, offset⟩ := ih
    obtain ⟨k, skip⟩ : ∃ k, target - total = k + 1 := ⟨target - total - 1, by omega⟩
    have skip' : target - (total + 1) = k := by omega
    rw [skip'] at block left
    refine ⟨?_, ?_, fun more => ?_⟩
    · simp only [skip, overwrite] at block ⊢
      rw [block]
    · simpa [skip] using left
    · rw [offset more, length_cons]
      omega

theorem readLoop_eq (data : List UInt8) (target total left : ℕ) :
    (readLoop data target total left).1 = (data.drop (target - total)).take left ∧
      (readLoop data target total left).2.2 = left - (data.length - (target - total)) ∧
      ((readLoop data target total left).2.2 ≠ 0 →
        (readLoop data target total left).2.1 = total + data.length) := by
  fun_induction readLoop data target total left with
  | case1 => simp
  | case2 => simp
  | case3 b bs target total left here out total' left' eq ih =>
    rw [eq] at ih
    obtain ⟨read, remaining, offset⟩ := ih
    have skip : target - total = 0 := by omega
    have skip' : target - (total + 1) = 0 := by omega
    rw [skip'] at read remaining
    refine ⟨?_, ?_, fun more => ?_⟩
    · simpa [skip] using read
    · simpa [skip] using remaining
    · rw [offset more, length_cons]
      omega
  | case4 b bs target total left later ih =>
    obtain ⟨read, remaining, offset⟩ := ih
    obtain ⟨k, skip⟩ : ∃ k, target - total = k + 1 := ⟨target - total - 1, by omega⟩
    have skip' : target - (total + 1) = k := by omega
    rw [skip'] at read remaining
    refine ⟨?_, ?_, fun more => ?_⟩
    · simpa [skip] using read
    · simpa [skip] using remaining
    · rw [length_cons]
      omega

def write (b : Block size) (input : List UInt8) (targetOffset totalOffset : ℕ) :
    Block size × List UInt8 × ℕ :=
  (⟨(writeLoop b.data input targetOffset totalOffset).1, by
      rw [(writeLoop_eq _ _ _ _).1, Buffers.length_overwrite, b.length_data]⟩,
    (writeLoop b.data input targetOffset totalOffset).2)

def read (b : Block size) (targetOffset totalOffset leftToRead : ℕ) : List UInt8 × ℕ × ℕ :=
  readLoop b.data targetOffset totalOffset leftToRead

theorem write_cases {b b' : Block size}
    (run : b.write input target total = (b', rest, total')) :
    b'.data = overwrite b.data (target - total) input ∧ rest = input.drop (size - (target - total)) ∧
      (rest ≠ [] → total' = total + size) := by
  obtain ⟨rfl, tail⟩ := Prod.mk.inj run
  obtain ⟨block, left, offset⟩ := writeLoop_eq b.data input target total
  rw [tail, b.length_data] at left offset
  exact ⟨block, left, offset⟩

theorem read_cases {b : Block size} {out : List UInt8} {left left' : ℕ}
    (run : b.read target total left = (out, total', left')) :
    out = (b.data.drop (target - total)).take left ∧ left' = left - (size - (target - total)) ∧
      (left' ≠ 0 → total' = total + size) := by
  obtain ⟨read, remaining, offset⟩ := readLoop_eq b.data target total left
  rw [show readLoop b.data target total left = (out, total', left') from run, b.length_data] at *
  exact ⟨read, remaining, offset⟩

end Block

/-! ## Chains of blocks -/

namespace TransferBufferManagerEntry

variable {size : ℕ}

/-- The bytes of a chain of blocks. -/
def chain (blocks : List (Block size)) : List UInt8 := (blocks.map Block.data).flatten

@[simp] theorem chain_nil : chain ([] : List (Block size)) = [] := rfl

@[simp] theorem chain_cons (b : Block size) (blocks : List (Block size)) :
    chain (b :: blocks) = b.data ++ chain blocks := rfl

@[simp] theorem chain_append (blocks more : List (Block size)) :
    chain (blocks ++ more) = chain blocks ++ chain more := by
  simp [chain]

/-- The part of `write` that goes to the blocks that are already allocated. -/
def writeBlocks : List (Block size) → List UInt8 → ℕ → ℕ → List (Block size) × List UInt8 × ℕ
  | [], input, _, totalOffset => ([], input, totalOffset)
  | b :: bs, input, targetOffset, totalOffset =>
    let (b, rest, total) := b.write input targetOffset totalOffset
    if rest = [] then (b :: bs, rest, total)
    else
      let (bs, rest, total) := writeBlocks bs rest targetOffset total
      (b :: bs, rest, total)

/-- The part of `write` that appends new blocks, at most `rounds` of them; the `k`-th one comes first. -/
def appendBlocks (block : ℕ → Option (Block size)) :
    (rounds k : ℕ) → List UInt8 → ℕ → ℕ → List (Block size) × List UInt8
  | 0, _, input, _, _ => ([], input)
  | rounds + 1, k, input, targetOffset, totalOffset =>
    if input = [] then ([], input)
    else
      match block k with
      | none => ([], input)
      | some b =>
        let (b, rest, total) := b.write input targetOffset totalOffset
        let (bs, rest) := appendBlocks block rounds (k + 1) rest targetOffset total
        (b :: bs, rest)

def readBlocks : List (Block size) → ℕ → ℕ → ℕ → List UInt8
  | [], _, _, _ => []
  | b :: bs, targetOffset, totalOffset, leftToRead =>
    let (out, total, left) := b.read targetOffset totalOffset leftToRead
    if left = 0 then out else out ++ readBlocks bs targetOffset total left

@[simp] theorem length_chain (blocks : List (Block size)) : (chain blocks).length = size * blocks.length := by
  induction blocks with
  | nil => simp
  | cons b bs ih =>
    rw [chain_cons, length_append, b.length_data, ih, length_cons, Nat.mul_succ, Nat.add_comm]

theorem writeBlocks_cases {blocks blocks' : List (Block size)}
    (run : writeBlocks blocks input target total = (blocks', rest, total')) :
    chain blocks' = overwrite (chain blocks) (target - total) input ∧
      rest = input.drop ((chain blocks).length - (target - total)) ∧
      (rest ≠ [] → total' = total + (chain blocks).length) := by
  induction blocks generalizing blocks' input rest total total' with
  | nil =>
    cases run
    simp
  | cons b bs ih =>
    unfold writeBlocks at run
    rcases first : b.write input target total with ⟨b', left, offset⟩
    obtain ⟨block, left_eq, advanced⟩ := Block.write_cases first
    simp only [first] at run
    -- the rest of the chain is written from the end of this block on
    have beyond : input.drop ((chain (b :: bs)).length - (target - total)) =
        left.drop ((chain bs).length - (target - (total + size))) := by
      rw [left_eq, drop_drop, chain_cons, length_append, b.length_data]
      congr 1
      omega
    split at run
    · rename_i done
      cases run
      refine ⟨?_, ?_, fun more => absurd done more⟩
      · rw [chain_cons, chain_cons, Buffers.overwrite_append, block, b.length_data, ← left_eq, done,
          Buffers.overwrite_nil]
      · rw [beyond, done, drop_nil]
    · rename_i more
      rcases tail : writeBlocks bs left target offset with ⟨bs', rest', total''⟩
      simp only [tail] at run
      cases run
      obtain ⟨blocks_eq, rest_eq, advanced'⟩ := ih tail
      rw [advanced more] at blocks_eq rest_eq advanced'
      refine ⟨?_, ?_, fun more' => ?_⟩
      · rw [chain_cons, chain_cons, Buffers.overwrite_append, block, blocks_eq, b.length_data,
          left_eq, Nat.sub_sub]
      · rw [beyond, rest_eq]
      · rw [advanced' more', chain_cons, length_append, b.length_data, Nat.add_assoc]

/-- New blocks are written like one sequence that starts at the first byte that is left. They are taken from the pool
while there is something to write to each of them, until the pool has none. -/
theorem appendBlocks_cases (positive : 0 < size) {block : ℕ → Option (Block size)} {rounds k : ℕ}
    {blocks : List (Block size)}
    (start : input ≠ [] → target ≤ total) (enough : input.length ≤ rounds)
    (run : appendBlocks block rounds k input target total = (blocks, rest)) :
    ∃ fresh : List UInt8, chain blocks = overwrite fresh 0 input ∧ rest = input.drop fresh.length ∧
      (∀ i < blocks.length, size * i < input.length ∧ (block (k + i)).isSome) ∧
      (rest ≠ [] → block (k + blocks.length) = none) := by
  induction rounds generalizing k input total blocks with
  | zero =>
    cases run
    obtain rfl : rest = [] := length_eq_zero_iff.mp (Nat.le_zero.mp enough)
    exact ⟨[], by simp, rfl, by simp, fun more => absurd rfl more⟩
  | succ rounds ih =>
    unfold appendBlocks at run
    split at run
    · rename_i done
      cases run
      exact ⟨[], by simp, rfl, by simp, fun more => absurd done more⟩
    · rename_i more
      have start := start more
      have inhabited : 0 < input.length := length_pos_iff.mpr more
      split at run
      · rename_i exhausted
        cases run
        exact ⟨[], by simp, rfl, by simp, fun _ => exhausted⟩
      · rename_i b found
        rcases first : b.write input target total with ⟨b', left, offset⟩
        obtain ⟨written, left_eq, advanced⟩ := Block.write_cases first
        rw [Nat.sub_eq_zero_of_le start, Nat.sub_zero] at left_eq
        rw [Nat.sub_eq_zero_of_le start] at written
        have shorter : left.length ≤ rounds := by
          rw [left_eq, length_drop]
          omega
        rcases tail : appendBlocks block rounds (k + 1) left target offset with ⟨bs, rest'⟩
        simp only [first, tail] at run
        cases run
        obtain ⟨fresh, chain_eq, rest_eq, taken, exhausted⟩ :=
          ih (fun more => by rw [advanced more]; omega) shorter tail
        refine ⟨b.data ++ fresh, ?_, ?_, fun i here => ?_, fun more => ?_⟩
        · rw [chain_cons, Buffers.overwrite_append, written, chain_eq, b.length_data, Nat.sub_zero,
            Nat.zero_sub, left_eq]
        · rw [rest_eq, left_eq, drop_drop, length_append, b.length_data]
        · cases i with
          | zero => exact ⟨inhabited, by rw [Nat.add_zero, found]; rfl⟩
          | succ i =>
            obtain ⟨needed, given⟩ := taken i (by simpa using here)
            rw [left_eq, length_drop] at needed
            refine ⟨by rw [Nat.mul_succ]; omega, ?_⟩
            rwa [Nat.add_assoc, Nat.add_comm 1] at given
        · rw [length_cons, Nat.add_comm _ 1, ← Nat.add_assoc]
          exact exhausted more

theorem readBlocks_eq (blocks : List (Block size)) (target total left : ℕ) :
    readBlocks blocks target total left = ((chain blocks).drop (target - total)).take left := by
  induction blocks generalizing total left with
  | nil => simp [readBlocks]
  | cons b bs ih =>
    unfold readBlocks
    rcases first : b.read target total left with ⟨out, offset, remaining⟩
    obtain ⟨read, remaining_eq, advanced⟩ := Block.read_cases first
    have length : (b.data.drop (target - total)).length = size - (target - total) := by
      rw [length_drop, b.length_data]
    simp only
    rw [chain_cons, drop_append, take_append, ← read, length, b.length_data, ← remaining_eq]
    split
    · rename_i done
      rw [done, take_zero, append_nil]
    · rename_i more
      rw [ih, advanced more, Nat.sub_sub]

end TransferBufferManagerEntry

/-! ## A buffer -/

/-- A buffer with its key. -/
structure TransferBufferManagerEntry (size : ℕ) where
  key : TransferBufferManagerKey
  blocks : List (Block size)
  maxWritePos : ℕ
  maxSize : UInt16

namespace TransferBufferManagerEntry

variable {size : ℕ}

variable (e : TransferBufferManagerEntry size)

/-- Reads up to the end of the data. -/
def read (offset len : ℕ) : List UInt8 :=
  if offset ≥ e.maxWritePos then []
  else
    let len := if offset + len > e.maxWritePos then e.maxWritePos - offset else len
    readBlocks e.blocks offset 0 len

/-- Writes as much as fits into the buffer and into the memory that the pool gives, and returns how much
that is. -/
def write (mem : Memory size) (offset : ℕ) (data : List UInt8) :
    ℕ × TransferBufferManagerEntry size :=
  if offset ≥ e.maxSize.toNat then (0, e)
  else
    let input := data.take (e.maxSize.toNat - offset)
    let (blocks, rest, total) := writeBlocks e.blocks input offset 0
    let (more, rest) := appendBlocks mem.block (offset + input.length) 0 rest offset total
    let actuallyWritten := input.length - rest.length
    (actuallyWritten,
      { e with
        blocks := blocks ++ more
        maxWritePos := max ((offset + actuallyWritten) % 2 ^ 16) e.maxWritePos })

/-- The data is in the blocks. -/
def Filled : Prop := e.maxWritePos ≤ (chain e.blocks).length

/-- The data of a buffer. -/
def data : List UInt8 := (chain e.blocks).take e.maxWritePos

theorem length_data {e : TransferBufferManagerEntry size} (filled : e.Filled) :
    e.data.length = e.maxWritePos := by
  rw [data, length_take, Nat.min_eq_left filled]

theorem read_eq (offset len : ℕ) :
    e.read offset len = (e.data.drop offset).take len := by
  unfold read data
  split
  · rw [drop_eq_nil_of_le (by rw [length_take]; omega), take_nil]
  · rw [readBlocks_eq, Nat.sub_zero, drop_take, take_take]
    split
    · rw [Nat.min_eq_right (by omega)]
    · rw [Nat.min_eq_left (by omega)]

variable {offset : ℕ}

/-- The blocks of a buffer after a write: the old ones and new ones are written like one sequence. Each new one was
needed, and bytes are left only when the pool has none. -/
theorem write_chain (positive : 0 < size) {blocks blocks' more : List (Block size)}
    {block : ℕ → Option (Block size)} {rest' : List UInt8}
    (start : offset ≤ (chain blocks).length)
    (first : writeBlocks blocks input offset 0 = (blocks', rest, total))
    (second : appendBlocks block (offset + input.length) 0 rest offset total = (more, rest')) :
    ∃ fresh : List UInt8, fresh.length = size * more.length ∧
      chain (blocks' ++ more) = overwrite (chain blocks ++ fresh) offset input ∧
      rest' = input.drop ((chain blocks ++ fresh).length - offset) ∧
      (∀ i < more.length, (chain blocks).length + size * i < offset + input.length ∧ (block i).isSome) ∧
      (rest' ≠ [] → block more.length = none) := by
  obtain ⟨written, rest_eq, advanced⟩ := writeBlocks_cases first
  rw [Nat.sub_zero] at written rest_eq
  have rest_length : rest.length = input.length - ((chain blocks).length - offset) := by
    rw [rest_eq, length_drop]
  obtain ⟨fresh, appended, rest'_eq, taken, exhausted⟩ :=
    appendBlocks_cases positive (fun more => by rw [advanced more]; omega) (by omega) second
  simp only [Nat.zero_add] at taken exhausted
  refine ⟨fresh, ?_, ?_, ?_, fun i here => ?_, exhausted⟩
  · rw [← length_chain, appended, Buffers.length_overwrite]
  · rw [chain_append, written, appended, Buffers.overwrite_append, Nat.sub_eq_zero_of_le start, rest_eq]
  · rw [rest'_eq, rest_eq, drop_drop, length_append]
    congr 1
    omega
  · obtain ⟨needed, given⟩ := taken i here
    exact ⟨by omega, given⟩

/-- A write that starts in the data or at its end splices some of the bytes in, and all that fit if there is memory.
The blocks hold what was written, each of the `m` new ones was needed, and less than fits is written only when the
blocks are full and the pool has none. -/
theorem write_cases (positive : 0 < size) {e e' : TransferBufferManagerEntry size} {mem : Memory size}
    {bytes : List UInt8} {written : ℕ} (filled : e.Filled) (start : offset ≤ e.maxWritePos)
    (run : e.write mem offset bytes = (written, e')) :
    e'.Filled ∧ e'.key = e.key ∧ e'.maxSize = e.maxSize ∧
      e'.data = splice e.data offset (bytes.take written) ∧
      written ≤ min bytes.length (e.maxSize.toNat - offset) ∧
      ((∀ k, (mem.block k).isSome) → written = min bytes.length (e.maxSize.toNat - offset)) ∧
      ∃ m, e'.blocks.length = e.blocks.length + m ∧ offset + written ≤ size * (e.blocks.length + m) ∧
        (∀ i < m, size * (e.blocks.length + i) < offset + written ∧ (mem.block i).isSome) ∧
        (written < min bytes.length (e.maxSize.toNat - offset) →
          offset + written = size * (e.blocks.length + m) ∧ mem.block m = none) := by
  have inside : offset ≤ (chain e.blocks).length := start.trans filled
  unfold write at run
  split at run
  · cases run
    rw [length_chain] at inside
    exact ⟨filled, rfl, rfl, by simp, Nat.zero_le _, fun _ => by omega, 0, rfl, inside, by simp, fun short => by omega⟩
  · have sizeBound := e.maxSize.toNat_lt
    generalize input_eq : bytes.take (e.maxSize.toNat - offset) = input at run
    have input_length : input.length = min bytes.length (e.maxSize.toNat - offset) := by
      rw [← input_eq, length_take, Nat.min_comm]
    rcases first : writeBlocks e.blocks input offset 0 with ⟨blocks, rest, total⟩
    rcases second : appendBlocks mem.block (offset + input.length) 0 rest offset total with ⟨more, rest'⟩
    simp only [first, second] at run
    obtain ⟨rfl, rfl⟩ := Prod.mk.inj run
    obtain ⟨fresh, fresh_length, chain_eq, rest_eq, taken, exhausted⟩ := write_chain positive inside first second
    generalize memory : chain e.blocks ++ fresh = l at chain_eq rest_eq
    have length : l.length = size * (e.blocks.length + more.length) := by
      rw [← memory, length_append, length_chain, fresh_length, Nat.mul_add]
    have longer : (chain e.blocks).length ≤ l.length := by
      rw [length, length_chain]
      exact Nat.mul_le_mul_left _ (Nat.le_add_right _ _)
    have written_eq : input.length - rest'.length = min input.length (l.length - offset) := by
      rw [rest_eq, length_drop]
      omega
    have stored : bytes.take (input.length - rest'.length) = input.take (l.length - offset) := by
      rw [input_length, ← input_eq, take_take, take_eq_take_iff]
      omega
    have stored_length : (input.take (l.length - offset)).length = input.length - rest'.length := by
      rw [length_take, written_eq, Nat.min_comm]
    have position : (offset + (input.length - rest'.length)) % 2 ^ 16 =
        offset + (input.length - rest'.length) :=
      Nat.mod_eq_of_lt (by omega)
    have data_eq : e.data = l.take e.maxWritePos := by
      rw [data, ← memory, take_append_of_le_length filled]
    refine ⟨?_, rfl, rfl, ?_, by omega, fun available => ?_, more.length, ?_, by omega, fun i here => ?_,
      fun short => ⟨by omega, exhausted (length_pos_iff.mp (by omega))⟩⟩
    · show max _ _ ≤ (chain (blocks ++ more)).length
      rw [chain_eq, Buffers.length_overwrite]
      exact max_le (by omega) (filled.trans longer)
    · show (chain (blocks ++ more)).take (max _ _) = _
      rw [position, chain_eq, stored, data_eq, ← Buffers.overwrite_take, ← stored_length]
      exact Buffers.take_overwrite start (filled.trans longer) (by omega)
    · have complete : rest' = [] := by
        by_contra left
        simpa [exhausted left] using available more.length
      rw [complete, length_nil, Nat.sub_zero, input_length]
    · refine Nat.eq_of_mul_eq_mul_left positive ?_
      rw [← length_chain, chain_eq, Buffers.length_overwrite, length]
    · obtain ⟨needed, given⟩ := taken i here
      rw [length_chain, ← Nat.mul_add] at needed
      have : size * (e.blocks.length + i) < size * (e.blocks.length + more.length) :=
        Nat.mul_lt_mul_of_pos_left (Nat.add_lt_add_left here _) positive
      exact ⟨by omega, given⟩

end TransferBufferManagerEntry

/-! ## The buffers of a listener -/

/-- There is one buffer at most for a key. -/
structure TransferBufferManager (size : ℕ) where
  maxBufSize : UInt16
  buffers : List (TransferBufferManagerEntry size)
  nodup : (buffers.map fun e => e.key).Nodup

namespace TransferBufferManager

variable {size : ℕ}

variable (mgr : TransferBufferManager size)

def findFirst (key : TransferBufferManagerKey) :
    Option (TransferBufferManagerEntry size) :=
  mgr.buffers.find? fun e => e.key = key

def access (key : TransferBufferManagerKey) :
    Option (TransferBufferManagerEntry size) :=
  if key.isEmpty then none else mgr.findFirst key

def remove (key : TransferBufferManagerKey) :
    TransferBufferManager size :=
  { mgr with
    buffers := mgr.buffers.eraseP fun e => e.key = key
    nodup := mgr.nodup.sublist (List.eraseP_sublist.map _) }

variable {key : TransferBufferManagerKey} {e : TransferBufferManagerEntry size}

theorem buffers_remove (key : TransferBufferManagerKey) :
    (mgr.remove key).buffers = mgr.buffers.filter fun e => e.key ≠ key :=
  Queues.eraseP_eq_filter mgr.nodup key

/-- `create` first removes what has the key; then the new buffer, if there is memory for it, is the first
of the list. -/
def create (mem : Memory size) (key : TransferBufferManagerKey) :
    Option (TransferBufferManagerEntry size) × TransferBufferManager size :=
  if key.isEmpty then (none, mgr)
  else if !mem.buffer then (none, mgr.remove key)
  else
    let e : TransferBufferManagerEntry size := ⟨key, [], 0, mgr.maxBufSize⟩
    (some e,
      { mgr with
        buffers := e :: (mgr.remove key).buffers
        nodup := by
          refine List.nodup_cons.mpr ⟨?_, (mgr.remove key).nodup⟩
          simp +contextual [buffers_remove, e] })

/-- The state after the buffer with the key of `e` has been changed to `e`. -/
def store (e : TransferBufferManagerEntry size) :
    TransferBufferManager size :=
  { mgr with
    buffers := mgr.buffers.map fun e' => if e'.key = e.key then e else e'
    nodup := by
      have keys : (mgr.buffers.map fun e' => if e'.key = e.key then e else e').map (fun e => e.key) =
          mgr.buffers.map fun e => e.key := by
        rw [List.map_map]
        refine List.map_congr_left fun e' _ => ?_
        simp only [Function.comp_apply]
        split
        · rename_i same
          exact same.symm
        · rfl
      rw [keys]
      exact mgr.nodup }

theorem findFirst_remove (key : TransferBufferManagerKey) :
    (mgr.remove key).findFirst key = none := by
  simp [findFirst, buffers_remove]

theorem findFirst_remove_of_ne {key' : TransferBufferManagerKey}
    (other : key' ≠ key) : (mgr.remove key).findFirst key' = mgr.findFirst key' := by
  rw [findFirst, buffers_remove, find?_filter]
  congr 1
  funext e
  simp +contextual [other]

theorem key_of_findFirst {mgr : TransferBufferManager size} (found : mgr.findFirst key = some e) : e.key = key := by
  simpa using find?_some found

theorem findFirst_store (present : (mgr.findFirst e.key).isSome) :
    (mgr.store e).findFirst e.key = some e := by
  simp only [findFirst, store] at present ⊢
  generalize mgr.buffers = buffers at present ⊢
  induction buffers with
  | nil => cases present
  | cons b rest ih =>
    by_cases same : b.key = e.key
    · simp [same]
    · rw [find?_cons_of_neg (by simpa using same)] at present
      rw [map_cons, if_neg same, find?_cons_of_neg (by simpa using same), ih present]

theorem findFirst_store_of_ne (other : key ≠ e.key) :
    (mgr.store e).findFirst key = mgr.findFirst key := by
  simp only [findFirst, store]
  induction mgr.buffers with
  | nil => rfl
  | cons b rest ih =>
    by_cases same : b.key = e.key
    · rw [map_cons, if_pos same, find?_cons_of_neg (by simpa using other.symm), ih,
        find?_cons_of_neg (by simpa [same] using other.symm)]
    · rw [map_cons, if_neg same, find?_cons, find?_cons, ih]

end TransferBufferManager

/-! ## Access to the buffer of one key -/

structure TransferBufferAccessor (size : ℕ) where
  bufmgr : TransferBufferManager size
  key : TransferBufferManagerKey
  valid : key.isEmpty = false

namespace TransferBufferAccessor

variable {size : ℕ} (tba : TransferBufferAccessor size)

def access : Option (TransferBufferManagerEntry size) := tba.bufmgr.access tba.key

def create (mem : Memory size) :
    Option (TransferBufferManagerEntry size) × TransferBufferAccessor size :=
  ((tba.bufmgr.create mem tba.key).1, { tba with bufmgr := (tba.bufmgr.create mem tba.key).2 })

def remove : TransferBufferAccessor size := { tba with bufmgr := tba.bufmgr.remove tba.key }

def store (e : TransferBufferManagerEntry size) : TransferBufferAccessor size :=
  { tba with bufmgr := tba.bufmgr.store e }

theorem access_eq : tba.access = tba.bufmgr.findFirst tba.key := by
  simp [access, TransferBufferManager.access, tba.valid]

@[simp] theorem access_remove : tba.remove.access = none := by
  rw [access_eq]
  exact TransferBufferManager.findFirst_remove _ _

@[simp] theorem key_remove : tba.remove.key = tba.key := rfl

variable {e : TransferBufferManagerEntry size} {tba' : TransferBufferAccessor size}

theorem key_of_access (found : tba.access = some e) :
    e.key = tba.key :=
  TransferBufferManager.key_of_findFirst ((access_eq tba).symm.trans found)

theorem access_store {e' : TransferBufferManagerEntry size} (same : e.key = tba.key) (present : tba.access = some e') :
    (tba.store e).access = some e := by
  rw [access_eq] at present ⊢
  simp only [store]
  rw [← same] at present ⊢
  exact TransferBufferManager.findFirst_store _ (by rw [present]; rfl)

/-- The accessor finds the buffer it has created, an empty one. -/
theorem create_cases (mem : Memory size) :
    (tba.create mem).2.access = (tba.create mem).1 ∧ (tba.create mem).2.key = tba.key ∧
      (tba.create mem).1 =
        if mem.buffer then some ⟨tba.key, [], 0, tba.bufmgr.maxBufSize⟩ else none := by
  refine ⟨?_, rfl, ?_⟩
  · rw [access_eq]
    simp only [create, TransferBufferManager.create, tba.valid]
    cases mem.buffer with
    | false => exact TransferBufferManager.findFirst_remove _ _
    | true => simp [TransferBufferManager.findFirst]
  · simp only [create, TransferBufferManager.create, tba.valid]
    cases mem.buffer <;> rfl

/-- The data in the buffer, none if there is no buffer. -/
def content : List UInt8 := (tba.access.map fun e => e.data).getD []

/-- The buffer is filled as far as it was written, and has the size that the manager gives. -/
structure Sound : Prop where
  filled : ∀ e, tba.access = some e → e.Filled
  bounded : ∀ e, tba.access = some e → e.maxWritePos ≤ e.maxSize.toNat
  maxSize : ∀ e, tba.access = some e → e.maxSize = tba.bufmgr.maxBufSize

/-- Another accessor of the same key, after changes to its buffer only. -/
structure SameElsewhere (tba' : TransferBufferAccessor size) : Prop where
  key : tba'.key = tba.key
  maxBufSize : tba'.bufmgr.maxBufSize = tba.bufmgr.maxBufSize
  others : ∀ key, key ≠ tba.key → tba'.bufmgr.findFirst key = tba.bufmgr.findFirst key

variable {tba}

theorem content_eq (found : tba.access = some e) :
    tba.content = e.data := by
  simp [content, found]

theorem content_of_none (absent : tba.access = none) : tba.content = [] := by
  simp [content, absent]

theorem Sound.of_none (absent : tba.access = none) : tba.Sound where
  filled e found := by simp [absent] at found
  bounded e found := by simp [absent] at found
  maxSize e found := by simp [absent] at found

theorem Sound.of_access (found : tba.access = some e) (filled : e.Filled) (bounded : e.maxWritePos ≤ e.maxSize.toNat)
    (maxSize : e.maxSize = tba.bufmgr.maxBufSize) : tba.Sound where
  filled e' found' := by
    cases found.symm.trans found'
    exact filled
  bounded e' found' := by
    cases found.symm.trans found'
    exact bounded
  maxSize e' found' := by
    cases found.symm.trans found'
    exact maxSize

theorem content_congr (access : tba'.access = tba.access) :
    tba'.content = tba.content := by
  simp only [content, access]

theorem Sound.congr (sound : tba.Sound) (access : tba'.access = tba.access)
    (maxBufSize : tba'.bufmgr.maxBufSize = tba.bufmgr.maxBufSize) :
    tba'.Sound where
  filled e found := sound.filled e (access ▸ found)
  bounded e found := sound.bounded e (access ▸ found)
  maxSize e found := (sound.maxSize e (access ▸ found)).trans maxBufSize.symm

variable (tba) in
@[refl] theorem SameElsewhere.refl : tba.SameElsewhere tba := ⟨rfl, rfl, fun _ _ => rfl⟩

@[trans] theorem SameElsewhere.trans {tba'' : TransferBufferAccessor size} (first : tba.SameElsewhere tba')
    (second : tba'.SameElsewhere tba'') : tba.SameElsewhere tba'' where
  key := second.key.trans first.key
  maxBufSize := second.maxBufSize.trans first.maxBufSize
  others key other := (second.others key (first.key ▸ other)).trans (first.others key other)

variable (tba)

theorem SameElsewhere.remove : tba.SameElsewhere tba.remove where
  key := rfl
  maxBufSize := rfl
  others _ other := TransferBufferManager.findFirst_remove_of_ne _ other

theorem SameElsewhere.store (same : e.key = tba.key) :
    tba.SameElsewhere (tba.store e) where
  key := rfl
  maxBufSize := rfl
  others _ other := TransferBufferManager.findFirst_store_of_ne _ (same ▸ other)

theorem SameElsewhere.create (mem : Memory size) : tba.SameElsewhere (tba.create mem).2 := by
  simp only [TransferBufferAccessor.create, TransferBufferManager.create, tba.valid]
  cases mem.buffer with
  | false => exact SameElsewhere.remove tba
  | true =>
    refine ⟨rfl, rfl, fun key other => ?_⟩
    rw [← TransferBufferManager.findFirst_remove_of_ne tba.bufmgr other]
    simp [TransferBufferManager.findFirst, other.symm]

end TransferBufferAccessor

end Uavcan
