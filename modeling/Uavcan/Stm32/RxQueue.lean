import Uavcan.Queues.Ring

/-!
# The receive queue of the STM32 driver

`CanIface::RxQueue` keeps the received frames in a ring of a fixed capacity. The indices, the length and the
number of lost frames are machine words. When a frame arrives while the queue is full, the oldest one is lost.
-/

namespace Uavcan

namespace CanIface

open List Queues

/-- The items of the buffer have a frame, its timestamp and its flags. -/
structure RxQueue (α : Type) where
  buf : List α
  capacity : ℕ
  in_ : ℕ
  out : ℕ
  len : ℕ
  overflowCnt : ℕ
  deriving DecidableEq

/-- A call of the driver. -/
inductive RxCall (α : Type)
  | push (item : α)
  | pop

namespace RxQueue

variable {α : Type}

/-- The constructor. -/
def init (buf : List α) (capacity : ℕ) : RxQueue α := ⟨buf, capacity, 0, 0, 0, 0⟩

def registerOverflow (q : RxQueue α) : RxQueue α :=
  if q.overflowCnt < 0xFFFFFFFF then { q with overflowCnt := q.overflowCnt + 1 } else q

def push (item : α) (q : RxQueue α) : RxQueue α :=
  let q := { q with buf := q.buf.set q.in_ item, in_ := wrap q.capacity ((q.in_ + 1) % 256), len := (q.len + 1) % 256 }
  if q.len > q.capacity then
    { registerOverflow { q with len := q.capacity } with out := wrap q.capacity ((q.out + 1) % 256) }
  else q

/-- No item when the assertion fails. -/
def pop (q : RxQueue α) : Option α × RxQueue α :=
  if q.len > 0 then (q.buf[q.out]?, { q with out := wrap q.capacity ((q.out + 1) % 256), len := q.len - 1 })
  else (none, q)

/-- The answers of the calls to `pop`; no run pops an empty queue. -/
def run : List (RxCall α) → RxQueue α → Option (List (Option α) × RxQueue α)
  | [], q => some ([], q)
  | .push item :: calls, q => run calls (q.push item)
  | .pop :: calls, q =>
    if q.len = 0 then none
    else (run calls q.pop.2).map fun (items, q') => (q.pop.1 :: items, q')

end RxQueue

/-! ## A bounded queue -/

/-- What the queue is for: the last items, how many were ever pushed, and how many were lost. -/
structure LossyFifo (α : Type) where
  items : List α
  dropped : ℕ
  deriving DecidableEq

namespace LossyFifo

variable {α : Type} (capacity : ℕ)

def push (item : α) (f : LossyFifo α) : LossyFifo α :=
  if f.items.length = capacity then ⟨f.items.tail ++ [item], f.dropped + 1⟩ else ⟨f.items ++ [item], f.dropped⟩

def run : List (RxCall α) → LossyFifo α → Option (List (Option α) × LossyFifo α)
  | [], f => some ([], f)
  | .push item :: calls, f => run calls (f.push capacity item)
  | .pop :: calls, f =>
    if f.items.length = 0 then none
    else (run calls ⟨f.items.tail, f.dropped⟩).map fun (items, f') => (f.items.head? :: items, f')

/-- The items that the calls push. -/
def pushed : List (RxCall α) → List α
  | [] => []
  | .push item :: calls => item :: pushed calls
  | .pop :: calls => pushed calls

theorem suffix_push {f : LossyFifo α} {history : List α} (recent : f.items <:+ history) (item : α) :
    (f.push capacity item).items <:+ history ++ [item] := by
  obtain ⟨older, rfl⟩ := recent
  unfold push
  split
  · refine ⟨older ++ f.items.take 1, ?_⟩
    rw [append_assoc, ← append_assoc (f.items.take 1), ← drop_one, take_append_drop, append_assoc]
  · exact ⟨older, (append_assoc ..).symm⟩

/-- The retained items are the most recent ones, in the order in which they came. -/
theorem suffix_run {calls : List (RxCall α)} {f f' : LossyFifo α} {history : List α} {items : List (Option α)}
    (recent : f.items <:+ history) (ran : run capacity calls f = some (items, f')) :
    f'.items <:+ history ++ pushed calls := by
  induction calls generalizing f history items with
  | nil =>
    cases ran
    rwa [pushed, append_nil]
  | cons call calls ih =>
    cases call with
    | push item =>
      have later := ih (suffix_push capacity recent item) ran
      rwa [append_assoc] at later
    | pop =>
      unfold run at ran
      split at ran
      · cases ran
      · obtain ⟨⟨rest, last⟩, ran', same⟩ := Option.map_eq_some_iff.mp ran
        cases same
        exact ih ((tail_suffix _).trans recent) ran'

end LossyFifo

namespace RxQueue

variable {α : Type}

/-- The queue holds these items, and has lost that many. -/
structure Holds (q : RxQueue α) (f : LossyFifo α) : Prop where
  size : q.buf.length = q.capacity
  capacity : 1 ≤ q.capacity ∧ q.capacity ≤ 254
  len : q.len = f.items.length
  fits : q.len ≤ q.capacity
  out : q.out < q.capacity
  in_ : q.in_ = (q.out + q.len) % q.capacity
  items : window q.buf q.out q.len = f.items.map some
  overflow : q.overflowCnt = min f.dropped 0xFFFFFFFF

variable {q : RxQueue α} {f : LossyFifo α}

theorem Holds.inside (holds : Holds q f) : q.in_ < q.capacity := by
  rw [holds.in_]
  exact Nat.mod_lt _ holds.capacity.1

theorem holds_init {buf : List α} (low : 1 ≤ buf.length) (high : buf.length ≤ 254) :
    Holds (init buf buf.length) ⟨[], 0⟩ :=
  ⟨rfl, ⟨low, high⟩, rfl, Nat.zero_le _, low, (Nat.zero_mod _).symm, rfl, rfl⟩

/-- An index of the ring that moves on. -/
theorem wrap_next {capacity i : ℕ} (bound : capacity ≤ 254) (inside : i < capacity) :
    wrap capacity ((i + 1) % 256) = (i + 1) % capacity := by
  rw [Nat.mod_eq_of_lt (by omega), wrap_succ inside]

theorem registerOverflow_eq (q : RxQueue α) :
    q.registerOverflow =
      { q with overflowCnt := if q.overflowCnt < 0xFFFFFFFF then q.overflowCnt + 1 else q.overflowCnt } := by
  unfold registerOverflow
  split
  · rfl
  · rfl

/-- A count that stops at a limit. -/
theorem saturate (n limit : ℕ) :
    (if min n limit < limit then min n limit + 1 else min n limit) = min (n + 1) limit := by
  split <;> omega

theorem Holds.pop (holds : Holds q f) (some : q.len ≠ 0) :
    q.pop.1 = f.items.head? ∧ Holds q.pop.2 ⟨f.items.tail, f.dropped⟩ := by
  obtain ⟨size, ⟨low, high⟩, len, fits, out, in_, items, overflow⟩ := holds
  obtain ⟨n, same⟩ := Nat.exists_eq_succ_of_ne_zero some
  cases held : f.items with
  | nil => rw [held] at len; exact absurd len some
  | cons first rest =>
    rw [held, same, Nat.succ_eq_add_one, window_succ, size, Nat.mod_eq_of_lt out, map_cons, cons.injEq] at items
    rw [held, length_cons] at len
    rw [RxQueue.pop, if_pos (by omega), wrap_next high out]
    refine ⟨items.1, size, ⟨low, high⟩, by simp only [tail_cons]; omega, by simp only; omega, Nat.mod_lt _ low, ?_, ?_,
      overflow⟩
    · simp only
      rw [Nat.mod_add_mod, in_, show q.out + 1 + (q.len - 1) = q.out + q.len by omega]
    · simp only [tail_cons]
      rw [← items.2, same, Nat.succ_sub_one, ← size, window_mod]

theorem Holds.push (holds : Holds q f) (item : α) : Holds (q.push item) (f.push q.capacity item) := by
  have inside := holds.inside
  obtain ⟨size, ⟨low, high⟩, len, fits, out, in_, items, overflow⟩ := holds
  have next : (q.in_ + 1) % q.capacity = (q.out + (q.len + 1)) % q.capacity := by
    rw [in_, Nat.mod_add_mod, Nat.add_assoc]
  have counted : (q.len + 1) % 256 = q.len + 1 := Nat.mod_eq_of_lt (by omega)
  rw [RxQueue.push, wrap_next high inside, wrap_next high out, counted]
  by_cases full : q.len = q.capacity
  · -- the item overwrites the oldest one
    rw [if_pos (by simp only; omega), LossyFifo.push, if_pos (by omega)]
    cases held : f.items with
    | nil => rw [held, length_nil] at len; omega
    | cons first rest =>
      rw [held, length_cons] at len
      rw [held, full, ← Nat.sub_add_cancel low, window_succ, map_cons, cons.injEq] at items
      refine ⟨by simpa [registerOverflow_eq] using size, by simpa [registerOverflow_eq] using ⟨low, high⟩, ?_, ?_, ?_,
        ?_, ?_, ?_⟩
      · simp only [registerOverflow_eq, tail_cons, length_append, length_singleton]
        omega
      · simp only [registerOverflow_eq]
        exact Nat.le_refl _
      · simp only [registerOverflow_eq]
        exact Nat.mod_lt _ low
      · simp only [registerOverflow_eq]
        rw [next, Nat.mod_add_mod, full, show q.out + 1 + q.capacity = q.out + (q.capacity + 1) by omega]
      · simp only [registerOverflow_eq, tail_cons, map_append, map_singleton]
        rw [← items.2, in_, full, ← size]
        have written := @window_set α q.buf (q.out + 1) (q.buf.length - 1) (by omega) item
        rw [show q.out + 1 + (q.buf.length - 1) = q.out + q.buf.length by omega,
          show q.buf.length - 1 + 1 = q.buf.length by omega] at written
        have turned := window_mod (q.buf.set ((q.out + q.buf.length) % q.buf.length) item) (q.out + 1) q.buf.length
        rw [length_set] at turned
        rw [turned, written]
      · simp only [registerOverflow_eq, overflow]
        exact saturate _ _
  · rw [if_neg (by simp only; omega), LossyFifo.push, if_neg (by omega)]
    refine ⟨by simpa using size, ⟨low, high⟩, by simp [len], by simp only; omega, out, next, ?_, overflow⟩
    simp only [map_append, map_singleton]
    rw [← items, in_, ← size, window_set (by omega)]

/-- The queue behaves as the bounded one in every run. -/
theorem Holds.run {calls : List (RxCall α)} (holds : Holds q f) :
    (RxQueue.run calls q = none ∧ LossyFifo.run q.capacity calls f = none) ∨
      ∃ items q' f', RxQueue.run calls q = some (items, q') ∧
        LossyFifo.run q.capacity calls f = some (items, f') ∧ Holds q' f' ∧ q'.capacity = q.capacity := by
  induction calls generalizing q f with
  | nil => exact .inr ⟨[], q, f, rfl, rfl, holds, rfl⟩
  | cons call calls ih =>
    cases call with
    | push item =>
      have same : (q.push item).capacity = q.capacity := by
        simp only [RxQueue.push, registerOverflow_eq]
        split <;> rfl
      have later := ih (holds.push item)
      rwa [same] at later
    | pop =>
      by_cases empty : q.len = 0
      · refine .inl ⟨by rw [RxQueue.run, if_pos empty], ?_⟩
        rw [LossyFifo.run, if_pos (by rw [← holds.len, empty])]
      · obtain ⟨answer, popped⟩ := holds.pop empty
        have same : q.pop.2.capacity = q.capacity := by
          rw [RxQueue.pop]
          split <;> rfl
        rw [RxQueue.run, if_neg empty, LossyFifo.run, if_neg (by rwa [← holds.len]), answer]
        have later := ih popped
        rw [same] at later
        rcases later with ⟨stuck, stuck'⟩ | ⟨items, q', f', ran, ran', holds'⟩
        · exact .inl ⟨by rw [stuck]; rfl, by rw [stuck']; rfl⟩
        · exact .inr ⟨f.items.head? :: items, q', f', by rw [ran]; rfl, by rw [ran']; rfl, holds'⟩

/-- Every run is one of a bounded queue that loses its oldest items: the same answers, the most recent items in
their order, the indices inside the buffer, and the lost items counted. -/
theorem rxQueue_refines {buf : List α} (low : 1 ≤ buf.length) (high : buf.length ≤ 254) (calls : List (RxCall α)) :
    (RxQueue.run calls (init buf buf.length) = none ∧ LossyFifo.run buf.length calls ⟨[], 0⟩ = none) ∨
      ∃ items q f, RxQueue.run calls (init buf buf.length) = some (items, q) ∧
        LossyFifo.run buf.length calls ⟨[], 0⟩ = some (items, f) ∧
        window q.buf q.out q.len = f.items.map some ∧ f.items <:+ LossyFifo.pushed calls ∧
        f.items.length ≤ buf.length ∧ q.in_ < q.buf.length ∧ q.out < q.buf.length ∧ q.buf.length = buf.length ∧
        q.overflowCnt = min f.dropped 0xFFFFFFFF := by
  rcases @Holds.run α _ _ calls (holds_init low high) with stuck | ⟨items, q, f, ran, ran', holds, kept⟩
  · exact .inl stuck
  · have fits := holds.fits
    have size := holds.size
    have same : q.buf.length = buf.length := size.trans kept
    refine .inr ⟨items, q, f, ran, ran', holds.items, ?_, ?_, ?_, ?_, same, holds.overflow⟩
    · exact LossyFifo.suffix_run buf.length (nil_suffix (l := [])) ran'
    · rw [← holds.len]
      omega
    · rw [size]
      exact holds.inside
    · rw [size]
      exact holds.out

/-- Three frames for a queue of two. -/
theorem rxQueue_refines_two :
    (RxQueue.run [.push 1, .push 2, .push 3, .pop] (init [0, 0] 2) = none ∧
        LossyFifo.run 2 [.push 1, .push 2, .push 3, .pop] ⟨[], 0⟩ = none) ∨
      ∃ items q f, RxQueue.run [.push 1, .push 2, .push 3, .pop] (init [0, 0] 2) = some (items, q) ∧
        LossyFifo.run 2 [.push 1, .push 2, .push 3, .pop] ⟨[], 0⟩ = some (items, f) ∧
        window q.buf q.out q.len = f.items.map some ∧
        f.items <:+ LossyFifo.pushed [.push 1, .push 2, .push 3, .pop] ∧
        f.items.length ≤ 2 ∧ q.in_ < q.buf.length ∧ q.out < q.buf.length ∧ q.buf.length = 2 ∧
        q.overflowCnt = min f.dropped 0xFFFFFFFF :=
  @rxQueue_refines ℕ [0, 0] (by decide) (by decide) [.push 1, .push 2, .push 3, .pop]

end RxQueue

end CanIface

end Uavcan
