import Mathlib.Algebra.Order.Group.Nat
import Uavcan.Queues.Insertion

/-!
# Deadlines

`DeadlineScheduler` holds the deadline handlers that are registered, the one with the earliest deadline first.
A poll takes the first handler as long as its deadline has come: the handler may register itself or others
again. Handlers are named by the elements of an arbitrary type. Times are in microseconds.
-/

namespace Uavcan

open List

/-- A handler that is registered. -/
structure DeadlineHandler (κ : Type) where
  handler : κ
  deadline : ℕ
  deriving DecidableEq

structure DeadlineScheduler (κ : Type) where
  handlers : List (DeadlineHandler κ)
  sorted : handlers.Pairwise fun a b => a.deadline ≤ b.deadline
  distinct : (handlers.map DeadlineHandler.handler).Nodup

namespace DeadlineScheduler

variable {κ : Type}

def empty : DeadlineScheduler κ := ⟨[], .nil, .nil⟩

variable [DecidableEq κ]

/-- The handler is not registered any more, if it was. -/
def remove (k : κ) (s : DeadlineScheduler κ) : DeadlineScheduler κ where
  handlers := s.handlers.eraseP fun h => h.handler = k
  sorted := s.sorted.sublist List.eraseP_sublist
  distinct := s.distinct.sublist (List.eraseP_sublist.map _)

variable {k : κ} {s : DeadlineScheduler κ} {h : DeadlineHandler κ}

theorem mem_remove :
    h ∈ (s.remove k).handlers ↔ h ∈ s.handlers ∧ h.handler ≠ k := by
  unfold remove
  dsimp only
  rw [Queues.eraseP_eq_filter s.distinct, mem_filter, decide_eq_true_eq]

theorem not_mem_remove (k : κ) (s : DeadlineScheduler κ) : k ∉ (s.remove k).handlers.map DeadlineHandler.handler := by
  intro mem
  obtain ⟨h, registered, rfl⟩ := mem_map.mp mem
  exact (mem_remove.mp registered).2 rfl

/-- `DeadlineHandler::startWithDeadline`: the handler is registered, behind those with the same deadline. -/
def startWithDeadline (k : κ) (deadline : ℕ) (s : DeadlineScheduler κ) : DeadlineScheduler κ where
  handlers := Queues.insertBefore (fun h => deadline < h.deadline) ⟨k, deadline⟩ (s.remove k).handlers
  sorted := by
    refine Queues.pairwise_insertBefore (s.remove k).sorted ?_ ?_ ?_
    · intro h _ before
      exact Nat.not_lt.mp (of_decide_eq_false before)
    · intro h _ after
      exact Nat.le_of_lt (of_decide_eq_true after)
    · intro h h' after le
      exact decide_eq_true (Nat.lt_of_lt_of_le (of_decide_eq_true after) le)
  distinct := by
    rw [(Queues.perm_insertBefore.map DeadlineHandler.handler).nodup_iff, List.map_cons, List.nodup_cons]
    exact ⟨not_mem_remove k s, (s.remove k).distinct⟩

theorem mem_startWithDeadline {deadline : ℕ} :
    h ∈ (s.startWithDeadline k deadline).handlers ↔ h = ⟨k, deadline⟩ ∨ h ∈ s.handlers ∧ h.handler ≠ k := by
  rw [startWithDeadline, Queues.mem_insertBefore, mem_remove]

/-! ## Polling -/

/-- One turn of `pollAndGetMonotonicTime` at the time `ts`: the first handler, if its deadline has come.  Otherwise the
poll returns `ts`. -/
def takeDue (ts : ℕ) (s : DeadlineScheduler κ) : Option (κ × DeadlineScheduler κ) :=
  match s.handlers with
  | [] => none
  | h :: _ => if ts < h.deadline then none else some (h.handler, s.remove h.handler)

/-- When a poll returns, no deadline has come that a handler waits for. -/
theorem takeDue_eq_none {ts : ℕ} (returned : s.takeDue ts = none) :
    ∀ h ∈ s.handlers, ts < h.deadline := by
  have sorted := s.sorted
  unfold takeDue at returned
  split at returned
  · rename_i handlers
    rw [handlers]
    nofun
  · rename_i first rest handlers
    rw [handlers] at sorted ⊢
    have early : ts < first.deadline := by
      by_contra late
      rw [if_neg late] at returned
      cases returned
    refine forall_mem_cons.mpr ⟨early, fun h mem => ?_⟩
    exact Nat.lt_of_lt_of_le early ((pairwise_cons.mp sorted).1 h mem)

end DeadlineScheduler

end Uavcan
