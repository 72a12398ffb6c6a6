import Mathlib.Data.List.Basic
import Mathlib.Logic.Function.Basic

/-!
# Lists linked through memory

A list whose cells are blocks of memory: each block holds the address of the next one. Writing into a block that
is not on the list does not change the list.
-/

namespace Containers

open List Function

universe u

variable {α : Type u}

/-- From this address on, the memory holds this list. -/
def Linked (next : α → Option α) : Option α → List α → Prop
  | head, [] => head = none
  | head, block :: rest => head = some block ∧ Linked next (next block) rest

variable {next : α → Option α} {head : Option α} {blocks : List α}

theorem Linked.nil_of_none (linked : Linked next none blocks) : blocks = [] := by
  cases blocks with
  | nil => rfl
  | cons block rest => cases linked.1

theorem Linked.cons_of_some {block : α} (linked : Linked next (some block) blocks) :
    ∃ rest, blocks = block :: rest ∧ Linked next (next block) rest := by
  cases blocks with
  | nil => cases linked
  | cons first rest =>
    obtain ⟨same, linked⟩ := linked
    cases same
    exact ⟨rest, rfl, linked⟩

theorem Linked.update [DecidableEq α] (linked : Linked next head blocks) {block : α} (off : block ∉ blocks)
    (value : Option α) : Linked (update next block value) head blocks := by
  induction blocks generalizing head with
  | nil => exact linked
  | cons first rest ih =>
    rw [mem_cons, not_or] at off
    refine ⟨linked.1, ?_⟩
    rw [update_of_ne (Ne.symm off.1)]
    exact ih linked.2 off.2

/-- A block is put in front. -/
theorem Linked.push [DecidableEq α] (linked : Linked next head blocks) {block : α} (off : block ∉ blocks) :
    Linked (Function.update next block head) (some block) (block :: blocks) := by
  refine ⟨rfl, ?_⟩
  rw [update_self]
  exact linked.update off head

end Containers
