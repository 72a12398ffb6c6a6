import Mathlib.Data.Nat.Notation

/-!
# Runs of a guarded machine

A machine takes actions, each of which leads to another state or cannot be taken. `Reach` are the states that
are reached by actions which a guard allows. The guard is part of a statement about the machine, not of the
machine.
-/

namespace Machines

universe u v

variable {σ : Type u} {α : Type v} (exec : σ → α → Option σ) (allowed : σ → α → Prop)

/-- The states that allowed actions lead to. -/
inductive Reach (start : σ) : σ → Prop
  | start : Reach start start
  | step {s s' : σ} (reach : Reach start s) {a : α} (permitted : allowed s a) (taken : exec s a = some s') :
      Reach start s'

variable {exec allowed}

variable {start s : σ}

/-- What holds at the start and is kept by every allowed action holds in all states that are reached. -/
theorem Reach.invariant {P : σ → Prop} (reach : Reach exec allowed start s) (initial : P start)
    (kept : ∀ {s a s'}, P s → allowed s a → exec s a = some s' → P s') : P s := by
  induction reach with
  | start => exact initial
  | step _ permitted taken ih => exact kept ih permitted taken

theorem Reach.trans {s' : σ} (first : Reach exec allowed start s) (second : Reach exec allowed s s') :
    Reach exec allowed start s' := by
  induction second with
  | start => exact first
  | step _ permitted taken ih => exact ih.step permitted taken

variable (exec allowed)

/-- A list of actions, one after the other. -/
def play [∀ s a, Decidable (allowed s a)] : List α → σ → Option σ
  | [], s => some s
  | a :: actions, s => if allowed s a then (exec s a).bind (play actions) else none

variable {exec allowed}

variable [∀ s a, Decidable (allowed s a)]

/-- What every allowed action keeps holds in the state that a list of actions leads to. -/
theorem play_invariant {P : σ → Prop} (kept : ∀ {s a s'}, P s → allowed s a → exec s a = some s' → P s')
    {s' : σ} {actions : List α} (initial : P s) (played : play exec allowed actions s = some s') : P s' := by
  induction actions generalizing s with
  | nil =>
    cases played
    exact initial
  | cons a actions ih =>
    simp only [play, Option.ite_none_right_eq_some, Option.bind_eq_some_iff] at played
    obtain ⟨permitted, next, taken, rest⟩ := played
    exact ih (kept initial permitted taken) rest

/-- Actions that can be played show that there is a state with what they keep and what their last state is seen to
have. -/
theorem exists_of_play {P : σ → Prop} (kept : ∀ {s a s'}, P s → allowed s a → exec s a = some s' → P s')
    (initial : P start) (actions : List α) (Q : σ → Prop) [DecidablePred Q]
    (played : (play exec allowed actions start).any (fun s => decide (Q s)) = true) : ∃ s, P s ∧ Q s := by
  obtain ⟨s, last, holds⟩ := (Option.any_eq_true _ _).mp played
  exact ⟨s, play_invariant kept initial last, of_decide_eq_true holds⟩

theorem Reach.exists_of_play (exec : σ → α → Option σ) (allowed : σ → α → Prop) [∀ s a, Decidable (allowed s a)]
    (start : σ) (actions : List α) (P : σ → Prop) [DecidablePred P]
    (played : (play exec allowed actions start).any (fun s => decide (P s)) = true) :
    ∃ s, Reach exec allowed start s ∧ P s :=
  Machines.exists_of_play (fun reach => reach.step) .start actions P played

end Machines
