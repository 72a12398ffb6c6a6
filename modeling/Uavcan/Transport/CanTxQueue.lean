import Mathlib.Data.List.TakeWhile
import Uavcan.Driver.Arbitration
import Uavcan.Queues.Insertion

/-!
# The transmission queue of an interface

Frames that the driver did not take at once wait in a list, sorted by their priority on the bus; frames of
the same priority wait in the order in which they came.  The list shares a memory pool with the rest of the
node: when the pool is empty, expired frames are removed first, and then the frame with the lowest quality of
service.
-/

namespace Uavcan

open List

inductive Qos
  | volatile
  | persistent
  deriving DecidableEq

def Qos.toNat : Qos → ℕ
  | .volatile => 0
  | .persistent => 1

/-- An entry; `serial` numbers the calls of `push` and tells the list nodes apart. -/
structure CanTxQueue.Entry where
  deadline : ℕ
  frame : CanFrame
  qos : Qos
  flags : UInt16
  serial : ℕ
  deriving DecidableEq

structure CanTxQueue where
  queue : List CanTxQueue.Entry
  rejectedFramesCnt : ℕ
  deriving DecidableEq

namespace CanTxQueue

namespace Entry

def isExpired (e : Entry) (timestamp : ℕ) : Bool := timestamp > e.deadline

def qosHigherThan (e : Entry) (rhsFrame : CanFrame) (rhsQos : Qos) : Bool :=
  if e.qos ≠ rhsQos then e.qos.toNat > rhsQos.toNat else e.frame.priorityHigherThan rhsFrame

end Entry

/-- The constructor. -/
def empty : CanTxQueue := ⟨[], 0⟩

variable (q : CanTxQueue)

def registerRejectedFrame : CanTxQueue :=
  if q.rejectedFramesCnt < 2 ^ 32 - 1 then { q with rejectedFramesCnt := q.rejectedFramesCnt + 1 } else q

/-- The entry is taken out of the list. -/
def remove (entry : Entry) : CanTxQueue :=
  { q with queue := q.queue.eraseP fun e => e.serial = entry.serial }

/-- The entry goes in front of the first frame that it has a higher priority than. -/
def insertBefore (entry : Entry) : CanTxQueue :=
  { q with
    queue := Queues.insertBefore (fun e => entry.frame.priorityHigherThan e.frame) entry
      (q.remove entry).queue }

/-- The loop of `push` that removes the expired frames. -/
def removeExpired (timestamp : ℕ) : List Entry → CanTxQueue → CanTxQueue
  | [], q => q
  | p :: next, q =>
    if p.isExpired timestamp then removeExpired timestamp next (q.registerRejectedFrame.remove p)
    else removeExpired timestamp next q

/-- The loop of `push` that looks for the lowest quality of service. -/
def lowestQos : Entry → List Entry → Entry
  | lowest, [] => lowest
  | lowest, p :: next => lowestQos (if lowest.qosHigherThan p.frame p.qos then p else lowest) next

/-- `alloc` says which of the allocations of the call succeed. -/
def push (timestamp : ℕ) (alloc : ℕ → Bool) (frame : CanFrame) (txDeadline : ℕ) (qos : Qos) (flags : UInt16)
    (serial : ℕ) : CanTxQueue :=
  let entry : Entry := ⟨txDeadline, frame, qos, flags, serial⟩
  if timestamp ≥ txDeadline then q.registerRejectedFrame
  else if alloc 0 then q.insertBefore entry
  else
    let q := removeExpired timestamp q.queue q
    if alloc 1 then q.insertBefore entry
    else
      let q := q.registerRejectedFrame
      match q.queue with
      | [] => q
      | p :: _ =>
        let lowestqos := lowestQos p q.queue
        -- a frame with the same quality of service is replaced too
        if lowestqos.qosHigherThan frame qos then q
        else if alloc 2 then (q.remove lowestqos).insertBefore entry
        else q.remove lowestqos

/-- The loop of `peek`. -/
def peekLoop (timestamp : ℕ) : List Entry → CanTxQueue → Option Entry × CanTxQueue
  | [], q => (none, q)
  | p :: next, q =>
    if p.isExpired timestamp then peekLoop timestamp next (q.registerRejectedFrame.remove p)
    else (some p, q)

/-- The first frame that has not expired; those in front of it are removed. -/
def peek (timestamp : ℕ) : Option Entry × CanTxQueue := peekLoop timestamp q.queue q

def getTopPriorityPendingFrame : Option CanFrame := q.queue.head?.map Entry.frame

/-- The "or equal" is there so that frames are not reordered. -/
def topPriorityHigherOrEqual (rhsFrame : CanFrame) : Bool :=
  match q.queue with
  | [] => false
  | entry :: _ => !rhsFrame.priorityHigherThan entry.frame

def isEmpty : Bool := q.queue.isEmpty

/-! ## What the functions do -/

variable {q} {timestamp : ℕ} {alloc : ℕ → Bool} {frame : CanFrame} {txDeadline : ℕ} {qos : Qos}
  {flags : UInt16} {serial : ℕ}

@[simp] theorem queue_registerRejectedFrame : q.registerRejectedFrame.queue = q.queue := by
  unfold registerRejectedFrame
  split <;> rfl

theorem sublist_remove (entry : Entry) : (q.remove entry).queue.Sublist q.queue := eraseP_sublist

theorem remove_of_serial_ne {entry : Entry} (differ : ∀ e ∈ q.queue, e.serial ≠ entry.serial) :
    (q.remove entry).queue = q.queue :=
  eraseP_of_forall_not fun e member => by simpa using differ e member

theorem queue_remove_head {p : Entry} {next : List Entry} (head : q.queue = p :: next) :
    (q.remove p).queue = next := by
  simp [remove, head]

theorem sublist_removeExpired (timestamp : ℕ) (l : List Entry) (q : CanTxQueue) :
    (removeExpired timestamp l q).queue.Sublist q.queue := by
  induction l generalizing q with
  | nil => exact List.Sublist.refl _
  | cons p next ih =>
    unfold removeExpired
    split
    · refine (ih _).trans ((sublist_remove p).trans ?_)
      simp [queue_registerRejectedFrame]
    · exact ih q

/-- What `push` can do: some entries are removed, and the new one is inserted or not. -/
theorem push_cases (q : CanTxQueue) (timestamp : ℕ) (alloc : ℕ → Bool) (frame : CanFrame) (txDeadline : ℕ)
    (qos : Qos) (flags : UInt16) (serial : ℕ) :
    ∃ kept : CanTxQueue, kept.queue.Sublist q.queue ∧
      ((q.push timestamp alloc frame txDeadline qos flags serial).queue = kept.queue ∨
        (q.push timestamp alloc frame txDeadline qos flags serial).queue =
          (kept.insertBefore ⟨txDeadline, frame, qos, flags, serial⟩).queue) := by
  have expired := sublist_removeExpired timestamp q.queue q
  unfold push
  split
  · exact ⟨q, .refl _, .inl queue_registerRejectedFrame⟩
  split
  · exact ⟨q, .refl _, .inr rfl⟩
  simp only
  split
  · exact ⟨_, expired, .inr rfl⟩
  rw [← queue_registerRejectedFrame] at expired
  split
  · exact ⟨_, expired, .inl rfl⟩
  split
  · exact ⟨_, expired, .inl rfl⟩
  split
  · exact ⟨_, (sublist_remove _).trans expired, .inr rfl⟩
  · exact ⟨_, (sublist_remove _).trans expired, .inl rfl⟩

theorem peekLoop_eq {l : List Entry} (same : q.queue = l) :
    (peekLoop timestamp l q).1 = l.find? (fun e => !e.isExpired timestamp) ∧
      (peekLoop timestamp l q).2.queue = l.dropWhile fun e => e.isExpired timestamp := by
  induction l generalizing q with
  | nil => exact ⟨rfl, same⟩
  | cons p next ih =>
    unfold peekLoop
    cases expired : p.isExpired timestamp with
    | true =>
      have head : q.registerRejectedFrame.queue = p :: next := queue_registerRejectedFrame.trans same
      simpa [expired] using ih (queue_remove_head head)
    | false => simp [expired, same]

/-- `peek` finds the first frame that has not expired, and removes exactly those in front of it. -/
theorem peek_eq (q : CanTxQueue) (timestamp : ℕ) :
    (q.peek timestamp).1 = q.queue.find? (fun e => !e.isExpired timestamp) ∧
      (q.peek timestamp).2.queue = q.queue.dropWhile fun e => e.isExpired timestamp :=
  peekLoop_eq rfl

variable {q' : CanTxQueue} {e : Entry} {n : ℕ}

theorem queue_of_peek (peeked : q.peek timestamp = (some e, q')) :
    ∃ rest, q'.queue = e :: rest := by
  obtain ⟨found, left⟩ := q.peek_eq timestamp
  rw [find?_not_eq_head?_dropWhile, ← left, peeked] at found
  exact head?_eq_some_iff.mp found.symm

theorem queue_of_peek_none (peeked : q.peek timestamp = (none, q')) : q'.queue = [] := by
  obtain ⟨found, left⟩ := q.peek_eq timestamp
  rw [find?_not_eq_head?_dropWhile, ← left, peeked] at found
  exact head?_eq_none_iff.mp found.symm

theorem sublist_peek (q : CanTxQueue) (timestamp : ℕ) : (q.peek timestamp).2.queue.Sublist q.queue := by
  rw [(q.peek_eq timestamp).2]
  exact dropWhile_sublist _

theorem mem_push (member : e ∈ (q.push timestamp alloc frame txDeadline qos flags serial).queue) :
    e ∈ q.queue ∨ e = ⟨txDeadline, frame, qos, flags, serial⟩ := by
  obtain ⟨kept, less, same | same⟩ := q.push_cases timestamp alloc frame txDeadline qos flags serial
  · exact .inl (less.subset (same ▸ member))
  · rw [same] at member
    rcases Queues.mem_insertBefore.mp member with new | old
    · exact .inr new
    · exact .inl (less.subset ((sublist_remove _).subset old))

/-! ## Quality of service -/

theorem Entry.qosHigherThan_iff {rhsFrame : CanFrame} {rhsQos : Qos} :
    e.qosHigherThan rhsFrame rhsQos ↔ rhsQos.toNat < e.qos.toNat ∨
      e.qos.toNat = rhsQos.toNat ∧ e.frame.arbitration < rhsFrame.arbitration := by
  have injective : e.qos = rhsQos ↔ e.qos.toNat = rhsQos.toNat := by
    cases e.qos <;> cases rhsQos <;> decide
  unfold Entry.qosHigherThan
  split
  · next differ =>
    have differ' := mt injective.mpr differ
    rw [decide_eq_true_iff]
    omega
  · next same =>
    have same' := injective.mp (not_not.mp same)
    rw [CanFrame.priorityHigherThan_iff]
    omega

/-- The loop finds an entry that is not higher than any other one. -/
theorem lowestQos_spec (lowest : Entry) (l : List Entry) : lowestQos lowest l ∈ lowest :: l ∧
    ∀ e ∈ lowest :: l, ¬(lowestQos lowest l).qosHigherThan e.frame e.qos := by
  induction l generalizing lowest with
  | nil =>
    refine ⟨mem_cons_self, fun e member => ?_⟩
    rw [mem_singleton.mp member, Entry.qosHigherThan_iff]
    simp [lowestQos]
  | cons p next ih =>
    rw [lowestQos]
    split
    · next higher =>
      obtain ⟨found, least⟩ := ih p
      refine ⟨mem_cons_of_mem _ found, fun e member => ?_⟩
      rcases mem_cons.mp member with rfl | other
      · have first := least p mem_cons_self
        rw [Entry.qosHigherThan_iff] at first higher ⊢
        omega
      · exact least e other
    · next lower =>
      obtain ⟨found, least⟩ := ih lowest
      refine ⟨?_, fun e member => ?_⟩
      · rcases mem_cons.mp found with first | later
        · rw [first]
          exact mem_cons_self
        · exact mem_cons_of_mem _ (mem_cons_of_mem _ later)
      · rcases mem_cons.mp member with rfl | other
        · exact least e mem_cons_self
        · rcases mem_cons.mp other with rfl | later
          · have first := least lowest mem_cons_self
            rw [Entry.qosHigherThan_iff] at first lower ⊢
            omega
          · exact least e (mem_cons_of_mem _ later)

/-! ## Order -/

/-- An entry goes out before another one: by its priority, or because it came first. -/
def Entry.Before (e later : Entry) : Prop :=
  ¬ later.frame.priorityHigherThan e.frame ∧
    (¬ e.frame.priorityHigherThan later.frame → e.serial < later.serial)

theorem Entry.before_iff {later : Entry} : e.Before later ↔
    e.frame.arbitration < later.frame.arbitration ∨
      e.frame.arbitration = later.frame.arbitration ∧ e.serial < later.serial := by
  simp only [Before, CanFrame.priorityHigherThan_iff]
  omega

/-- The queue is sorted, and every entry comes from one of the first `n` calls. -/
structure Ordered (q : CanTxQueue) (n : ℕ) : Prop where
  sorted : q.queue.Pairwise Entry.Before
  serial : ∀ e ∈ q.queue, e.serial < n

theorem Ordered.sublist {q : CanTxQueue} (ordered : q.Ordered n) (less : q'.queue.Sublist q.queue) : q'.Ordered n :=
  ⟨ordered.sorted.sublist less, fun e member => ordered.serial e (less.subset member)⟩

theorem Ordered.mono {m : ℕ} (ordered : q.Ordered n) (le : n ≤ m) : q.Ordered m :=
  ⟨ordered.sorted, fun e member => (ordered.serial e member).trans_le le⟩

/-- A new entry comes after all entries of its priority. -/
theorem Ordered.insertBefore (ordered : q.Ordered n) (entry : Entry) (new : entry.serial = n) :
    (q.insertBefore entry).Ordered (n + 1) := by
  have others : (q.remove entry).queue = q.queue := remove_of_serial_ne fun e member =>
    new ▸ (ordered.serial e member).ne
  rw [CanTxQueue.insertBefore, others]
  refine ⟨Queues.pairwise_insertBefore ordered.sorted ?_ ?_ ?_, ?_⟩
  · intro e member ahead
    have serial := ordered.serial e member
    rw [← Bool.not_eq_true, CanFrame.priorityHigherThan_iff] at ahead
    rw [Entry.before_iff]
    omega
  · intro e member behind
    exact Entry.before_iff.mpr (.inl ((CanFrame.priorityHigherThan_iff ..).mp behind))
  · intro e later behind before
    rw [CanFrame.priorityHigherThan_iff] at behind ⊢
    rw [Entry.before_iff] at before
    omega
  · intro e member
    rcases Queues.mem_insertBefore.mp member with rfl | old
    · omega
    · exact (ordered.serial e old).trans_le (Nat.le_succ n)

theorem Ordered.push (ordered : q.Ordered n) (timestamp : ℕ) (alloc : ℕ → Bool) (frame : CanFrame) (txDeadline : ℕ)
    (qos : Qos) (flags : UInt16) :
    (q.push timestamp alloc frame txDeadline qos flags n).Ordered (n + 1) := by
  obtain ⟨kept, less, same | same⟩ := q.push_cases timestamp alloc frame txDeadline qos flags n
  · have rest := (ordered.sublist less).mono (Nat.le_succ n)
    exact ⟨same ▸ rest.sorted, same ▸ rest.serial⟩
  · have rest := (ordered.sublist less).insertBefore ⟨txDeadline, frame, qos, flags, n⟩ rfl
    exact ⟨same ▸ rest.sorted, same ▸ rest.serial⟩

theorem Ordered.peek (ordered : q.Ordered n) (timestamp : ℕ) : (q.peek timestamp).2.Ordered n :=
  ordered.sublist (q.sublist_peek timestamp)

/-- A frame that has a higher priority than the first one has a higher priority than all. -/
theorem Ordered.lower (ordered : q.Ordered n) (top : ∀ e ∈ q.queue.head?, frame.priorityHigherThan e.frame) :
    ∀ e ∈ q.queue, frame.priorityHigherThan e.frame := by
  intro e member
  have sorted := ordered.sorted
  cases queue : q.queue with
  | nil => simp [queue] at member
  | cons first rest =>
    rw [queue] at sorted top member
    have higher := top first rfl
    rcases mem_cons.mp member with rfl | behind
    · exact higher
    · have before := Entry.before_iff.mp (rel_of_pairwise_cons sorted behind)
      rw [CanFrame.priorityHigherThan_iff] at higher ⊢
      omega

theorem higher_of_top (low : q.topPriorityHigherOrEqual frame = false) :
    ∀ e ∈ q.queue.head?, frame.priorityHigherThan e.frame := by
  unfold topPriorityHigherOrEqual at low
  cases queue : q.queue with
  | nil => simp
  | cons first rest => simpa [queue] using low

end CanTxQueue

/-- Runs of a queue with the number of calls of `push`. -/
inductive QueueRun : CanTxQueue → ℕ → Prop
  | empty : QueueRun .empty 0
  | push {q : CanTxQueue} {n : ℕ} (timestamp : ℕ) (alloc : ℕ → Bool) (frame : CanFrame) (txDeadline : ℕ)
    (qos : Qos) (flags : UInt16) : QueueRun q n →
    QueueRun (q.push timestamp alloc frame txDeadline qos flags n) (n + 1)
  | peek {q : CanTxQueue} {n : ℕ} (timestamp : ℕ) : QueueRun q n → QueueRun (q.peek timestamp).2 n
  | remove {q : CanTxQueue} {n : ℕ} (entry : CanTxQueue.Entry) : QueueRun q n → entry ∈ q.queue →
    QueueRun (q.remove entry) n

theorem QueueRun.ordered {q : CanTxQueue} {n : ℕ} (run : QueueRun q n) : q.Ordered n := by
  induction run with
  | empty => exact ⟨.nil, nofun⟩
  | push timestamp alloc frame txDeadline qos flags _ ih =>
    exact ih.push timestamp alloc frame txDeadline qos flags
  | peek timestamp _ ih => exact ih.peek timestamp
  | remove entry _ _ ih => exact ih.sublist (CanTxQueue.sublist_remove entry)

/-- The comparison of frames is a strict weak order; in every run the queue is sorted by it, frames of the
same priority in the order of the calls of `push`; and `peek` finds the first frame that has not expired and
removes exactly the expired ones in front of it. -/
theorem QueueRun.sorted_by_priority :
    IsStrictWeakOrder CanFrame (fun f rhs => f.priorityHigherThan rhs) ∧
      ∀ (q : CanTxQueue) (n : ℕ), QueueRun q n → q.queue.Pairwise CanTxQueue.Entry.Before ∧
        ∀ timestamp, (q.peek timestamp).1 = q.queue.find? (fun e => !e.isExpired timestamp) ∧
          (q.peek timestamp).2.queue = q.queue.dropWhile fun e => e.isExpired timestamp :=
  ⟨CanFrame.isStrictWeakOrder_priorityHigherThan, fun q _ run => ⟨run.ordered.sorted, q.peek_eq⟩⟩

/-- Two frames of one priority and one of a higher priority wait in the right order. -/
theorem QueueRun.sorted_by_priority_sample : ∃ (q : CanTxQueue) (n : ℕ), QueueRun q n ∧
    q.queue.map CanTxQueue.Entry.serial = [2, 0, 1] ∧ q.queue.Pairwise CanTxQueue.Entry.Before := by
  have run := ((QueueRun.empty.push 1 (fun _ => true) ⟨CanFrame.flagEFF ||| 7, [1]⟩ 10 .volatile 0).push 2
    (fun _ => true) ⟨CanFrame.flagEFF ||| 7, [2]⟩ 10 .persistent 0).push 3 (fun _ => true)
    ⟨CanFrame.flagEFF ||| 6, [3]⟩ 10 .volatile 0
  exact ⟨_, _, run, by decide +kernel, (QueueRun.sorted_by_priority.2 _ _ run).1⟩

end Uavcan
