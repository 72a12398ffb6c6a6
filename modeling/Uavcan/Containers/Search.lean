import Mathlib.Order.Lattice

/-!
# Looking for the best

A loop that remembers the best element it has seen, with its rank, ends with the first of those that no other
element beats.
-/

namespace Containers

universe u v

variable {α : Type u} {ρ : Type v} [LinearOrder ρ]

/-- One element is looked at. -/
def consider (rank : α → ρ) (best : ρ × α) (a : α) : ρ × α := if rank a > best.1 then (rank a, a) else best

/-- Nothing beats the best at the start, or the first of the best of the list is found. -/
theorem foldl_consider_cases (rank : α → ρ) (best : ρ × α) (l : List α) :
    ((∀ a ∈ l, rank a ≤ best.1) ∧ l.foldl (consider rank) best = best) ∨
      ∃ before a after, l = before ++ a :: after ∧ (∀ b ∈ before, rank b < rank a) ∧
        (∀ b ∈ after, rank b ≤ rank a) ∧ best.1 < rank a ∧ l.foldl (consider rank) best = (rank a, a) := by
  induction l generalizing best with
  | nil => exact .inl ⟨nofun, rfl⟩
  | cons x rest ih =>
    rw [List.foldl_cons]
    by_cases better : best.1 < rank x
    · rw [show consider rank best x = (rank x, x) from if_pos better]
      rcases ih (rank x, x) with ⟨lower, same⟩ | ⟨before, a, after, split, below, notAbove, above, found⟩
      · exact .inr ⟨[], x, rest, rfl, nofun, lower, better, same⟩
      · refine .inr ⟨x :: before, a, after, by rw [split]; rfl, ?_, notAbove, better.trans above, found⟩
        exact List.forall_mem_cons.mpr ⟨above, below⟩
    · rw [show consider rank best x = best from if_neg better]
      have lower := not_lt.mp better
      rcases ih best with ⟨rest_lower, same⟩ | ⟨before, a, after, split, below, notAbove, above, found⟩
      · exact .inl ⟨List.forall_mem_cons.mpr ⟨lower, rest_lower⟩, same⟩
      · refine .inr ⟨x :: before, a, after, by rw [split]; rfl, ?_, notAbove, above, found⟩
        exact List.forall_mem_cons.mpr ⟨lower.trans_lt above, below⟩

theorem foldl_consider_of_best (rank : α → ρ) {best : ρ × α} {before after : List α} {a : α}
    (below : ∀ b ∈ before, rank b < rank a) (notAbove : ∀ b ∈ after, rank b ≤ rank a) (above : best.1 < rank a) :
    (before ++ a :: after).foldl (consider rank) best = (rank a, a) := by
  have lower : (before.foldl (consider rank) best).1 < rank a := by
    rcases foldl_consider_cases rank best before with ⟨-, same⟩ | ⟨_, b, _, rfl, -, -, -, found⟩
    · rw [same]
      exact above
    · rw [found]
      exact below b (by simp)
  rw [List.foldl_append, List.foldl_cons, show consider rank _ a = (rank a, a) from if_pos lower]
  rcases foldl_consider_cases rank (rank a, a) after with ⟨-, same⟩ | ⟨_, b, _, rfl, -, -, better, -⟩
  · exact same
  · exact absurd better (not_lt.mpr (notAbove b (by simp)))

end Containers
