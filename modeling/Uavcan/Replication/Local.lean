import Uavcan.Replication.Matching

/-!
# Moves of one server

An implementation handles one event at one server, which amounts to a few steps of that server.
`Local` says that `B` is reached from `A` by moves of `s` alone, and what such moves leave untouched.
The records of a leader change only in the terms `leading`, in which `s` may be elected or append.
-/

namespace Replication

variable {S E : Type} {sys : System S E} [DecidableEq S] {retaining : Prop} {leading : ℕ → Prop}
  {A B C : State S E}

/-- `B` is reached from `A` by moves of server `s`, which leads only in the terms `leading`. -/
structure Local (sys : System S E) (retaining : Prop) (leading : ℕ → Prop) (s : S)
    (A B : State S E) : Prop where
  reach : Reach sys retaining A B
  current : ∀ {s'}, s' ≠ s → B.current s' = A.current s'
  log : ∀ {s'}, s' ≠ s → B.log s' = A.log s'
  vote : ∀ {s'}, s' ≠ s → ∀ T, B.vote s' T = A.vote s' T
  leader : ∀ {s' T}, (s' = s → ¬ leading T) → B.leader T = some s' → A.leader T = some s'
  leaderLog : ∀ {s' T}, (s' = s → ¬ leading T) → A.leader T = some s' →
    B.leaderLog T = A.leaderLog T

namespace Local

variable {s : S}

theorem refl (sys : System S E) (retaining : Prop) (s : S) (A : State S E) :
    Local sys retaining leading s A A :=
  ⟨.refl, fun _ => rfl, fun _ => rfl, fun _ _ => rfl, fun _ h => h, fun _ _ => rfl⟩

theorem le (local_ : Local sys retaining leading s A B) (inv : Inv sys A) : Le A B :=
  (inv.reach local_.reach).2

theorem trans (inv : Inv sys A) (first : Local sys retaining leading s A B)
    (second : Local sys retaining leading s B C) : Local sys retaining leading s A C where
  reach := first.reach.trans second.reach
  current other := (second.current other).trans (first.current other)
  log other := (second.log other).trans (first.log other)
  vote other T := (second.vote other T).trans (first.vote other T)
  leader other leads := first.leader other (second.leader other leads)
  leaderLog other leads :=
    (second.leaderLog other ((first.le inv).leader leads)).trans (first.leaderLog other leads)

theorem advance {T : ℕ} (later : A.current s < T) :
    Local sys retaining leading s A (A.setCurrent s T) where
  reach := .single (.advance later)
  current other := by simp [other]
  log _ := rfl
  vote _ _ := rfl
  leader _ leads := leads
  leaderLog _ _ := rfl

theorem campaign {T : ℕ} (later : A.current s < T) :
    Local sys retaining leading s A (((A.setCurrent s T).setVote s T s).setBallot s T (A.log s)) where
  reach := .single (.campaign later)
  current other := by simp [other]
  log _ := rfl
  vote other _ := by simp [other]
  leader _ leads := leads
  leaderLog _ _ := rfl

variable {l : List E}

theorem grant {c : S} (ballot : A.ballot c (A.current s) = some l)
    (recent : sys.UpToDate l (A.log s))
    (free : A.vote s (A.current s) = none ∨ A.vote s (A.current s) = some c) :
    Local sys retaining leading s A (A.setVote s (A.current s) c) where
  reach := .single (.grant ballot recent free)
  current _ := rfl
  log _ := rfl
  vote other _ := by simp [other]
  leader _ leads := leads
  leaderLog _ _ := rfl

theorem elect (leads : leading (A.current s))
    (ballot : A.ballot s (A.current s) = some (A.log s))
    (vacant : A.leader (A.current s) = none)
    (won : sys.quorum {v | A.vote v (A.current s) = some s}) :
    Local sys retaining leading s A
      (((A.setLeader (A.current s) s).setLeaderLog (A.current s) (A.log s)).addAck s
        (A.current s) (A.log s)) where
  reach := .single (.elect ballot vacant won)
  current _ := rfl
  log _ := rfl
  vote _ _ := rfl
  leader {s' T} other led := by
    by_cases same : T = A.current s
    · subst same
      have self : s = s' := by simpa using led
      exact absurd leads (other self.symm)
    · simpa [same] using led
  leaderLog {s' T} other led := by
    have apart : T ≠ A.current s := by
      rintro rfl
      rw [vacant] at led
      cases led
    simp [apart]

theorem append {e : E} (may : leading (A.current s)) (leads : A.leader (A.current s) = some s)
    (own : A.log s = A.leaderLog (A.current s)) (term : sys.term e = A.current s) :
    Local sys retaining leading s A
      (((A.setLog s (A.log s ++ [e])).setLeaderLog (A.current s) (A.log s ++ [e])).addAck s
        (A.current s) (A.log s ++ [e])) where
  reach := .single (.append leads own term)
  current _ := rfl
  log other := by simp [other]
  vote _ _ := rfl
  leader _ leads := leads
  leaderLog {s' T} other leads' := by
    have apart : T ≠ A.current s := by
      rintro rfl
      exact other (Option.some.inj (leads'.symm.trans leads)) may
    simp [apart]

theorem rewrite (led : (A.leader (A.current s)).isSome) (rooted : sys.base.length ≤ l.length)
    (origin : l <+: A.leaderLog (A.current s) ∨ l <+: A.log s)
    (keeps : retaining → ∀ shared, shared <+: A.log s → shared <+: A.leaderLog (A.current s) →
      shared <+: l) : Local sys retaining leading s A (A.setLog s l) where
  reach := .single (.rewrite led rooted origin keeps)
  current _ := rfl
  log other := by simp [other]
  vote _ _ := rfl
  leader _ leads := leads
  leaderLog _ _ := rfl

theorem acknowledge (led : (A.leader (A.current s)).isSome) (sub : l <+: A.leaderLog (A.current s))
    (held : l <+: A.log s) :
    Local sys retaining leading s A (A.addAck s (A.current s) l) where
  reach := .single (.acknowledge led sub held)
  current _ := rfl
  log _ := rfl
  vote _ _ := rfl
  leader _ leads := leads
  leaderLog _ _ := rfl

end Local

end Replication
