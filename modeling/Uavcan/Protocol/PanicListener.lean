import Mathlib
import Uavcan.Time

/-!
# The panic detector

A node panics when enough panic messages have come in, each soon after the one before. The listener keeps the time
of the last message and a counter of eight bits.
-/

namespace Uavcan

open List

/-- The constants of the data type: how many messages make a panic, and how far apart they may be. -/
structure PanicType where
  minMessages : UInt8
  maxIntervalMs : UInt16

structure PanicListener where
  prevMsgTimestamp : UInt64
  numSubsequentMsgs : UInt8

namespace PanicListener

/-- The constructor. -/
def init : PanicListener := ⟨0, 0⟩

variable (panic : PanicType)

/-- A message comes too long after the one before. -/
def isLate (timestamp prev : UInt64) : Bool :=
  TimeBase.diff timestamp prev / 1000 > Int64.ofNat panic.maxIntervalMs.toNat

/-- A message is handled. The result says whether the callback is invoked. -/
def handleMsg (s : PanicListener) (timestamp : UInt64) : Bool × PanicListener :=
  if s.prevMsgTimestamp = 0 then (false, ⟨timestamp, 1⟩)
  else
    let num := if isLate panic timestamp s.prevMsgTimestamp then 1 else s.numSubsequentMsgs + 1
    if num ≥ panic.minMessages then (true, ⟨timestamp, panic.minMessages⟩) else (false, ⟨timestamp, num⟩)

def stop (_ : PanicListener) : PanicListener := ⟨0, 0⟩

/-- What happens to a listener. `start` begins with `stop`, and the callback can stop the listener too. -/
inductive Event
  | message (timestamp : UInt64)
  | stop

def handle (s : PanicListener) : Event → PanicListener
  | .message timestamp => (s.handleMsg panic timestamp).2
  | .stop => s.stop

def run (events : List Event) : PanicListener := events.foldl (handle panic) init

/-! ## What counts -/

/-- The messages since the listener was stopped last, the latest one first. -/
def messages (events : List Event) : List UInt64 :=
  events.foldl (fun messages event =>
    match event with
    | .message timestamp => timestamp :: messages
    | .stop => []) []

/-- How many messages have come in, each soon after the one before. -/
def streak : List UInt64 → ℕ
  | [] => 0
  | [_] => 1
  | timestamp :: prev :: earlier => if isLate panic timestamp prev then 1 else streak (prev :: earlier) + 1

variable {panic}

/-- The state of a listener after the messages since it was stopped. -/
structure Follows (panic : PanicType) (s : PanicListener) (messages : List UInt64) : Prop where
  prev : s.prevMsgTimestamp = messages.headD 0
  count : s.numSubsequentMsgs.toNat = min panic.minMessages.toNat (streak panic messages)

variable {s : PanicListener} {earlier : List UInt64}

/-- One message: the callback is invoked at the end of a row of messages that is long enough. -/
theorem Follows.handleMsg (follows : Follows panic s earlier) (positive : 0 < panic.minMessages)
    (small : panic.minMessages < 255) (timed : ∀ t ∈ earlier, t ≠ 0) (timestamp : UInt64) :
    ((s.handleMsg panic timestamp).1 = true ↔
      earlier ≠ [] ∧ panic.minMessages.toNat ≤ streak panic (timestamp :: earlier)) ∧
      Follows panic (s.handleMsg panic timestamp).2 (timestamp :: earlier) := by
  have atLeast : 1 ≤ panic.minMessages.toNat := UInt8.lt_iff_toNat_lt.mp positive
  have atMost : panic.minMessages.toNat < 255 := UInt8.lt_iff_toNat_lt.mp small
  cases earlier with
  | nil =>
    have first : s.handleMsg panic timestamp = (false, ⟨timestamp, 1⟩) := if_pos follows.prev
    rw [first]
    exact ⟨by simp, rfl, (Nat.min_eq_right atLeast).symm⟩
  | cons prev earlier =>
    have known : s.prevMsgTimestamp = prev := follows.prev
    have count := follows.count
    -- the counter does not wrap, as it never exceeds the number of messages that make a panic
    have next : (if isLate panic timestamp prev then 1 else s.numSubsequentMsgs + 1).toNat =
        min (panic.minMessages.toNat + 1) (streak panic (timestamp :: prev :: earlier)) := by
      rw [streak]
      split
      · exact (Nat.min_eq_right (Nat.le_add_left 1 _)).symm
      · rw [UInt8.toNat_add, count]
        simp only [UInt8.reduceToNat]
        omega
    rw [PanicListener.handleMsg, known, if_neg (timed prev (mem_cons_self ..))]
    simp only [ge_iff_le, UInt8.le_iff_toNat_le, next]
    split
    · exact ⟨by simp; omega, rfl, by simp; omega⟩
    · exact ⟨by simp; omega, rfl, by rw [next]; omega⟩

end PanicListener

end Uavcan
