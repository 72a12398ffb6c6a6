import Mathlib.Data.Finset.Card

/-!
# Majorities

The quorums of a fixed set of members: the sets that hold more than half of them.
-/

namespace Replication

variable {S : Type}

/-- `Q` contains more than half of the members. -/
def Majority (members : Finset S) (Q : Set S) : Prop :=
  ∃ V ⊆ members, ↑V ⊆ Q ∧ members.card / 2 + 1 ≤ V.card

theorem Majority.mono {members : Finset S} {Q Q' : Set S} (sub : Q ⊆ Q')
    (majority : Majority members Q) : Majority members Q' := by
  obtain ⟨V, inside, held, large⟩ := majority
  exact ⟨V, inside, held.trans sub, large⟩

/-- Two majorities have a member in common. -/
theorem Majority.meet {members : Finset S} {Q Q' : Set S} (left : Majority members Q)
    (right : Majority members Q') : ∃ v, v ∈ Q ∧ v ∈ Q' := by
  classical
  obtain ⟨V, inside, held, large⟩ := left
  obtain ⟨V', inside', held', large'⟩ := right
  by_contra apart
  have disjoint : Disjoint V V' := by
    rw [Finset.disjoint_left]
    intro v member member'
    exact apart ⟨v, held member, held' member'⟩
  have total := Finset.card_le_card (Finset.union_subset inside inside')
  rw [Finset.card_union_of_disjoint disjoint] at total
  omega

end Replication
