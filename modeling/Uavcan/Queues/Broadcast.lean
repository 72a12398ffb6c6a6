import Mathlib.Data.List.Induction

/-!
# Ordered broadcast

One sequence of messages that every party reads in order and at its own pace.  What a party does often depends
on the last thing it has read (`lastRead`); a party with nothing left to read agrees with every other such party
on what that was (`latest_of_lastRead`).
-/

namespace Queues

open List Function

/-! ## The latest element of a kind -/

section Latest

variable {α : Type*} {P Q : α → Bool} {l : List α} {a x : α}

/-- The last element that satisfies `P`. -/
def latest (P : α → Bool) (l : List α) : Option α := (l.filter P).getLast?

theorem latest_concat : latest P (l ++ [a]) = if P a then some a else latest P l := by
  unfold latest
  by_cases kind : P a = true
  · simp [kind]
  · simp [kind]

theorem latest_concat_of_not (other : P a = false) : latest P (l ++ [a]) = latest P l := by
  rw [latest_concat, if_neg (by simp [other])]

theorem latest_concat_of (kind : P a = true) : latest P (l ++ [a]) = some a := by
  rw [latest_concat, if_pos kind]

theorem mem_of_latest (found : latest P l = some x) : x ∈ l ∧ P x = true :=
  mem_filter.mp (mem_of_getLast? found)

/-- The latest of a kind is the latest of every narrower kind that it has. -/
theorem latest_of_imp (narrower : ∀ y, Q y = true → P y = true) (found : latest P l = some x)
    (kind : Q x = true) : latest Q l = some x := by
  induction l using reverseRecOn with
  | nil => cases found
  | append_singleton l a ih =>
    rw [latest_concat] at found
    split at found
    case isTrue =>
      cases found
      exact latest_concat_of kind
    case isFalse other =>
      have other' : Q a = false := Bool.eq_false_iff.mpr fun same => other (narrower a same)
      rw [latest_concat_of_not other', ih found]

end Latest

/-! ## The bus -/

/-- All messages, oldest first, each with the party that sent it; the first `seen p` of them are behind party
`p`. -/
structure Broadcast (ρ μ : Type*) where
  sent : List (ρ × μ)
  seen : ρ → ℕ
  inside : ∀ p, seen p ≤ sent.length

namespace Broadcast

variable {ρ μ : Type*} [DecidableEq ρ] (b : Broadcast ρ μ) {p q : ρ} {m : μ} {x : ρ × μ}

def empty : Broadcast ρ μ := ⟨[], fun _ => 0, fun _ => Nat.le_refl 0⟩

omit [DecidableEq ρ] in
theorem inside_send (sender : ρ) (m : μ) (p : ρ) : b.seen p ≤ (b.sent ++ [(sender, m)]).length := by
  have inside := b.inside p
  rw [length_append]
  omega

def send (sender : ρ) (m : μ) : Broadcast ρ μ := ⟨b.sent ++ [(sender, m)], b.seen, b.inside_send sender m⟩

/-- The next message for a party; its own messages are in the sequence too. -/
def next (p : ρ) : Option (ρ × μ) := b.sent[b.seen p]?

/-- A party moves on to position `n`. -/
def moveTo (p : ρ) (n : ℕ) : Broadcast ρ μ where
  sent := b.sent
  seen := update b.seen p (min n b.sent.length)
  inside q := by
    by_cases same : q = p
    · rw [same, update_self]
      exact Nat.min_le_right _ _
    · rw [update_of_ne same]
      exact b.inside q

def advance (p : ρ) : Broadcast ρ μ := b.moveTo p (b.seen p + 1)

/-- A party that was absent starts with the messages sent from now on. -/
def join (p : ρ) : Broadcast ρ μ := b.moveTo p b.sent.length

/-- Nothing is left to read. -/
def CaughtUp (p : ρ) : Prop := b.seen p = b.sent.length

instance (p : ρ) : Decidable (b.CaughtUp p) := inferInstanceAs (Decidable (_ = _))

/-- The last message of another party that a party has read. -/
def lastRead (p : ρ) : Option (ρ × μ) := latest (fun x => x.1 ≠ p) (b.sent.take (b.seen p))

/-! ### Positions -/

variable {b}

omit [DecidableEq ρ] in
theorem below_of_next (next : b.next p = some x) : b.seen p < b.sent.length :=
  (List.getElem?_eq_some_iff.mp next).1

omit [DecidableEq ρ] in
theorem mem_of_next (next : b.next p = some x) : x ∈ b.sent := mem_of_getElem? next

theorem seen_advance (next : b.next p = some x) : (b.advance p).seen p = b.seen p + 1 := by
  have below := below_of_next next
  change update b.seen p (min (b.seen p + 1) b.sent.length) p = _
  rw [update_self]
  omega

theorem seen_moveTo_of_ne (n : ℕ) (other : q ≠ p) : (b.moveTo p n).seen q = b.seen q :=
  update_of_ne other _ _

theorem take_advance (next : b.next p = some x) :
    (b.advance p).sent.take ((b.advance p).seen p) = b.sent.take (b.seen p) ++ [x] := by
  rw [seen_advance next]
  change b.sent.take (b.seen p + 1) = _
  rw [take_add_one]
  have found : b.sent[b.seen p]? = some x := next
  rw [found, Option.toList_some]

/-! ### The last message read -/

theorem lastRead_send (sender : ρ) (m : μ) : (b.send sender m).lastRead p = b.lastRead p := by
  unfold lastRead
  change latest _ ((b.sent ++ [(sender, m)]).take (b.seen p)) = _
  rw [take_append_of_le_length (b.inside p)]

theorem lastRead_moveTo_of_ne (n : ℕ) (other : q ≠ p) : (b.moveTo p n).lastRead q = b.lastRead q := by
  unfold lastRead
  rw [seen_moveTo_of_ne n other]
  rfl

/-- A party passes over its own messages. -/
theorem lastRead_advance_own (next : b.next p = some (p, m)) : (b.advance p).lastRead p = b.lastRead p := by
  unfold lastRead
  rw [take_advance next]
  exact latest_concat_of_not (by simp)

theorem lastRead_advance (next : b.next p = some (q, m)) (other : q ≠ p) :
    (b.advance p).lastRead p = some (q, m) := by
  unfold lastRead
  rw [take_advance next]
  exact latest_concat_of (by simpa using other)

/-- What a party with nothing left to read has read last is the latest message of every kind that it has,
unless the party sends such messages itself. -/
theorem latest_of_lastRead {P : ρ × μ → Bool} (done : b.CaughtUp p) (last : b.lastRead p = some x)
    (foreign : ∀ y, P y = true → y.1 ≠ p) (kind : P x = true) : latest P b.sent = some x := by
  have all : b.sent.take (b.seen p) = b.sent := take_of_length_le (Nat.le_of_eq done.symm)
  unfold lastRead at last
  rw [all] at last
  exact latest_of_imp (fun y same => by simpa using foreign y same) last kind

end Broadcast

end Queues
