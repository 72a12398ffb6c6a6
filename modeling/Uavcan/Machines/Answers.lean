import Mathlib.Data.Nat.Notation

/-!
# Machines that answer calls

A machine answers each call and goes to another state. Two machines whose states stay related as long as the
calls are permitted give the same answers (`answers_eq`). Whether a call is permitted depends on the state of
the first machine, the one that a statement is about.
-/

namespace Machines

universe u v w x

variable {σ : Type u} {τ : Type v} {γ : Type w} {ο : Type x}

/-- The answers to calls made one after the other. -/
def answers (call : σ → γ → ο × σ) : List γ → σ → List ο
  | [], _ => []
  | c :: calls, s => (call s c).1 :: answers call calls (call s c).2

/-- The state after the calls. -/
def after (call : σ → γ → ο × σ) (calls : List γ) (s : σ) : σ := calls.foldl (fun s c => (call s c).2) s

/-- What every permitted call keeps holds after all of them. -/
theorem after_invariant {call : σ → γ → ο × σ} {P : σ → Prop} (kept : ∀ {s} (c : γ), P s → P (call s c).2)
    (calls : List γ) {s : σ} (initial : P s) : P (after call calls s) := by
  induction calls generalizing s with
  | nil => exact initial
  | cons c calls ih => exact ih (kept c initial)

/-- Each call is permitted in the state in which it is made. -/
def Permitted (call : σ → γ → ο × σ) (permits : σ → γ → Prop) : List γ → σ → Prop
  | [], _ => True
  | c :: calls, s => permits s c ∧ Permitted call permits calls (call s c).2

instance Permitted.instDecidable (call : σ → γ → ο × σ) (permits : σ → γ → Prop) [∀ s c, Decidable (permits s c)] :
    (calls : List γ) → (s : σ) → Decidable (Permitted call permits calls s)
  | [], _ => .isTrue trivial
  | c :: calls, s =>
    have := instDecidable call permits calls (call s c).2
    inferInstanceAs (Decidable (permits s c ∧ Permitted call permits calls (call s c).2))

variable {call : σ → γ → ο × σ} {permits : σ → γ → Prop}

theorem Permitted.and {more : γ → Prop} {calls : List γ} {s : σ} (permitted : Permitted call permits calls s)
    (all : ∀ c ∈ calls, more c) : Permitted call (fun s c => permits s c ∧ more c) calls s := by
  induction calls generalizing s with
  | nil => trivial
  | cons c calls ih =>
    exact ⟨⟨permitted.1, all c List.mem_cons_self⟩, ih permitted.2
      fun c member => all c (List.mem_cons_of_mem _ member)⟩

/-- Machines with related states answer alike if each permitted call has the same answer and keeps the relation. -/
theorem answers_eq {call' : τ → γ → ο × τ} (R : σ → τ → Prop)
    (alike : ∀ {s t c}, R s t → permits s c →
      (call s c).1 = (call' t c).1 ∧ R (call s c).2 (call' t c).2)
    {calls : List γ} {s : σ} {t : τ} (related : R s t) (permitted : Permitted call permits calls s) :
    answers call calls s = answers call' calls t := by
  induction calls generalizing s t with
  | nil => rfl
  | cons c calls ih =>
    obtain ⟨here, later⟩ := permitted
    obtain ⟨same, still⟩ := alike related here
    rw [answers, answers, same, ih still later]

end Machines
