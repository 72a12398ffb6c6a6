import Mathlib.Data.List.Nodup
import Mathlib.Data.List.Pairwise

/-!
# Insertion into a sorted list

`insertBefore` puts an element in front of the first one that satisfies a predicate, and at the end if there
is none.  A list that is sorted stays so if the predicate fits the order.
-/

namespace Queues

open List

variable {α : Type*}

/-- The list with `a` in front of the first element that satisfies `p`. -/
def insertBefore (p : α → Bool) (a : α) : List α → List α
  | [] => [a]
  | x :: l => if p x then a :: x :: l else x :: insertBefore p a l

variable {p : α → Bool} {a : α} {l : List α}

theorem mem_insertBefore {x : α} : x ∈ insertBefore p a l ↔ x = a ∨ x ∈ l := by
  induction l with
  | nil => simp [insertBefore]
  | cons y l ih =>
    unfold insertBefore
    split
    · simp
    · simp only [mem_cons, ih]
      exact or_left_comm

/-- Up to the order, the element is put in front. -/
theorem perm_insertBefore : (insertBefore p a l).Perm (a :: l) := by
  induction l with
  | nil => exact .refl _
  | cons x l ih =>
    unfold insertBefore
    split
    · exact .refl _
    · exact (ih.cons x).trans (.swap a x l)

theorem filter_insertBefore {q : α → Bool} (out : q a = false) : (insertBefore p a l).filter q = l.filter q := by
  induction l with
  | nil => simp [insertBefore, out]
  | cons x l ih =>
    unfold insertBefore
    split
    · rw [filter_cons_of_neg (by simp [out])]
    · rw [filter_cons, filter_cons, ih]

/-- A sorted list stays sorted if everything in front of the new element comes before it, and the predicate
says what comes after it. -/
theorem pairwise_insertBefore {R : α → α → Prop} (sorted : l.Pairwise R)
    (before : ∀ x ∈ l, p x = false → R x a) (after : ∀ x ∈ l, p x = true → R a x)
    (upward : ∀ x y, p x = true → R x y → p y = true) : (insertBefore p a l).Pairwise R := by
  induction l with
  | nil => exact pairwise_singleton ..
  | cons x l ih =>
    obtain ⟨least, rest⟩ := pairwise_cons.mp sorted
    unfold insertBefore
    cases now : p x with
    | true =>
      refine pairwise_cons.mpr ⟨?_, sorted⟩
      intro y member
      refine after y member ?_
      rcases mem_cons.mp member with rfl | later
      · exact now
      · exact upward x y now (least y later)
    | false =>
      refine pairwise_cons.mpr ⟨?_, ih rest (fun y member => before y (mem_cons_of_mem _ member))
        (fun y member => after y (mem_cons_of_mem _ member))⟩
      intro y member
      rcases mem_insertBefore.mp member with rfl | later
      · exact before x (mem_cons_self ..) now
      · exact least y later

/-- An element leaves the front of one list for the end of another. -/
theorem perm_move (a : α) (front middle back : List α) :
    (a :: front ++ (middle ++ back)).Perm (front ++ (middle ++ [a] ++ back)) := by
  have moved : (a :: (middle ++ back)).Perm (middle ++ [a] ++ back) := by
    rw [append_assoc]
    exact perm_middle.symm
  exact perm_middle.symm.trans (moved.append_left front)

/-- If no key comes twice, erasing the first element with a key erases all of them. -/
theorem eraseP_eq_filter {β : Type*} [DecidableEq β] {key : α → β} (distinct : (l.map key).Nodup) (k : β) :
    (l.eraseP fun x => key x = k) = l.filter fun x => key x ≠ k := by
  induction l with
  | nil => rfl
  | cons x l ih =>
    obtain ⟨fresh, distinct⟩ := nodup_cons.mp distinct
    by_cases here : key x = k
    · rw [eraseP_cons_of_pos (by simpa using here), filter_cons_of_neg (by simpa using here), eq_comm,
        filter_eq_self]
      rintro y mem
      refine decide_eq_true fun same => fresh ?_
      rw [here, ← same]
      exact mem_map_of_mem mem
    · rw [eraseP_cons_of_neg (by simpa using here), filter_cons_of_pos (by simpa using here), ih distinct]

end Queues
