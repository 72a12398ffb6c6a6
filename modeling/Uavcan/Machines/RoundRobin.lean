import Mathlib.Data.List.Nodup

/-!
# Round robin

A cursor goes round the numbers from one to `m`; each pick is the next number that may be picked. As long as one of
them may be picked all the time, no other one is picked twice before it.
-/

namespace Machines

/-- How many numbers the cursor passes on its way to `x`. -/
def ahead (m cursor x : ℕ) : ℕ := if cursor < x then x - cursor - 1 else x + m - cursor - 1

/-- The picks of a cursor; none of them is behind `n`. -/
def Toward (m n : ℕ) : ℕ → List ℕ → Prop
  | _, [] => True
  | cursor, pick :: picks => 1 ≤ pick ∧ pick ≤ m ∧ ahead m cursor pick ≤ ahead m cursor n ∧ Toward m n pick picks

variable {m n : ℕ}

/-- Each pick brings the cursor nearer to `n`. -/
theorem Toward.nodup {cursor : ℕ} {picks : List ℕ} (toward : Toward m n cursor picks) (bound : cursor ≤ m)
    (lower : 1 ≤ n) (upper : n ≤ m) (missed : n ∉ picks) :
    picks.Nodup ∧ picks.length ≤ ahead m cursor n ∧
      ∀ pick ∈ picks, 1 ≤ pick ∧ pick ≤ m ∧ ahead m cursor pick < ahead m cursor n := by
  induction picks generalizing cursor with
  | nil => exact ⟨List.nodup_nil, Nat.zero_le _, nofun⟩
  | cons pick picks ih =>
    obtain ⟨low, high, near, toward⟩ := toward
    obtain ⟨other, missed⟩ := not_or.mp (List.mem_cons.not.mp missed)
    obtain ⟨nodup, length, between⟩ := ih toward high missed
    unfold ahead at near length between ⊢
    refine ⟨List.nodup_cons.mpr ⟨fun again => ?_, nodup⟩, ?_,
      List.forall_mem_cons.mpr ⟨⟨low, high, ?_⟩, fun x member => ?_⟩⟩
    · have := between pick again
      split_ifs at * <;> omega
    · rw [List.length_cons]
      split_ifs at * <;> omega
    · split_ifs at * <;> omega
    · have := between x member
      split_ifs at * <;> omega

end Machines
