import Uavcan.Replication.Completeness

/-!
# Committed positions

A server that counts positions as committed is right about position `k` of its log when the log up
to there is part of a chosen prefix.  Such positions survive every retaining rewrite
(`Committed.rewrite`), and any two of them, of any two servers at any two moments, hold the same
entry (`Committed.agree`).
-/

namespace Replication

open List

variable {S E : Type} {sys : System S E} {A B : State S E}

variable {l l' : List E} {T k : ℕ}

theorem getElem?_eq_of_sub (sub : l <+: l') {i : ℕ} (inside : i < l.length) :
    l'[i]? = l[i]? := by
  obtain ⟨rest, rfl⟩ := sub
  exact getElem?_append_left inside

/-- The positions up to `k` of `l` belong to a prefix chosen no later than in term `T`.  Position
zero belongs to the base log and needs no choice. -/
def State.Committed (sys : System S E) (A : State S E) (T : ℕ) (l : List E) (k : ℕ) : Prop :=
  k = 0 ∨ ∃ U p, U ≤ T ∧ A.Chosen sys U p ∧ l.take (k + 1) <+: p ∧ k + 1 ≤ l.length

theorem State.Committed.zero (T : ℕ) (l : List E) : A.Committed sys T l 0 := Or.inl rfl

section

variable (committed : A.Committed sys T l k)

include committed

theorem State.Committed.mono (le : Le A B) :
    B.Committed sys T l k := by
  rcases committed with zero | ⟨U, p, bound, chosen, sub, inside⟩
  · exact Or.inl zero
  · exact Or.inr ⟨U, p, bound, chosen.mono le, sub, inside⟩

theorem State.Committed.later {T' : ℕ} (later : T ≤ T') :
    A.Committed sys T' l k := by
  rcases committed with zero | ⟨U, p, bound, rest⟩
  · exact Or.inl zero
  · exact Or.inr ⟨U, p, bound.trans later, rest⟩

/-- What is committed in a log is committed in every log that shares the positions in question. -/
theorem State.Committed.transfer {k' : ℕ} (less : k' ≤ k)
    (inside : k' + 1 ≤ l'.length) (same : l'.take (k' + 1) <+: l.take (k + 1)) :
    A.Committed sys T l' k' := by
  rcases committed with rfl | ⟨U, p, bound, chosen, sub, _⟩
  · exact Or.inl (Nat.le_zero.mp less)
  · exact Or.inr ⟨U, p, bound, chosen, same.trans sub, inside⟩

theorem State.Committed.extend (longer : l <+: l') :
    A.Committed sys T l' k := by
  rcases committed with zero | ⟨U, p, bound, chosen, sub, inside⟩
  · exact Or.inl zero
  · refine Or.inr ⟨U, p, bound, chosen, ?_, inside.trans longer.length_le⟩
    obtain ⟨rest, rfl⟩ := longer
    rwa [take_append_of_le_length inside]

end

/-- A rewrite that keeps what a server shares with the leader of its term keeps what it committed:
the leader holds every prefix chosen in its term or before. -/
theorem State.Committed.rewrite (inv : Inv sys A) (careful : Careful sys A)
    (committed : A.Committed sys T l k) (led : (A.leader T).isSome)
    (keeps : ∀ shared, shared <+: l → shared <+: A.leaderLog T → shared <+: l') :
    A.Committed sys T l' k := by
  rcases committed with zero | ⟨U, p, bound, chosen, sub, inside⟩
  · exact Or.inl zero
  · have held := keeps _ ( take_prefix _ _)
      (sub.trans (chosen.sub_leaderLog inv careful T bound led))
    have length := held.length_le
    rw [length_take, Nat.min_eq_left inside] at length
    refine Or.inr ⟨U, p, bound, chosen, ?_, length⟩
    have same : l'.take (k + 1) = l.take (k + 1) := by
      rw [prefix_iff_eq_take.mp held, length_take, Nat.min_eq_left inside]
    rwa [same]

theorem State.Committed.agree (inv : Inv sys A) (careful : Careful sys A) {T' : ℕ} {k' i : ℕ}
    (committed : A.Committed sys T l k) (committed' : A.Committed sys T' l' k') (pos : 0 < i)
    (below : i ≤ k) (below' : i ≤ k') :
    l[i]? = l'[i]? := by
  rcases committed with rfl | ⟨U, p, _, chosen, sub, inside⟩
  · omega
  rcases committed' with rfl | ⟨U', p', _, chosen', sub', inside'⟩
  · omega
  have entry := getElem?_eq_of_sub sub (i := i) (by rw [length_take]; omega)
  have entry' := getElem?_eq_of_sub sub' (i := i) (by rw [length_take]; omega)
  rw [getElem?_take_of_lt (by omega)] at entry entry'
  have length := sub.length_le
  have length' := sub'.length_le
  rw [length_take] at length length'
  rcases chosen.comparable inv careful chosen' with shorter | shorter
  · rw [← entry, ← entry', getElem?_eq_of_sub shorter (by omega)]
  · rw [← entry, ← entry', getElem?_eq_of_sub shorter (by omega)]

end Replication
