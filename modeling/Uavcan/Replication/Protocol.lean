import Mathlib.Data.Set.Basic

/-!
# Log replication under elected leaders

An abstract protocol in which servers move through numbered terms, vote, and copy the log of the leader of
their term. A `State` keeps, next to the current term and log of each server, the whole past as durable
records: the votes cast, the logs candidates stood with, the leader of each term, the longest log that leader
had while it led, and the prefixes that servers acknowledged.

`Step` is one move of one server. It says nothing of messages: a message is only a way to learn that a record
exists. `retaining` switches on the one guard that safety of acknowledged entries needs: a server that
rewrites its log keeps what it shares with the leader of its term.
-/

namespace Replication

open Function

/-- The fixed parameters of a replication protocol. -/
structure System (S E : Type) where
  /-- The term in which a leader created the entry. -/
  term : E → ℕ
  /-- The log every server starts from; it belongs to no leader. -/
  base : List E
  quorum : Set S → Prop
  term_base : ∀ e ∈ base, term e = 0
  quorum_mono : ∀ {Q Q' : Set S}, Q ⊆ Q' → quorum Q → quorum Q'
  quorum_meet : ∀ {Q Q' : Set S}, quorum Q → quorum Q' → ∃ v, v ∈ Q ∧ v ∈ Q'

variable {S E : Type}

variable (sys : System S E)

/-- The term of a log's last entry, zero for an empty log. -/
def System.lastTerm (l : List E) : ℕ :=
  (l.getLast?.map sys.term).getD 0

/-- A log whose last entry was created in term `T`. -/
def System.EndsIn (T : ℕ) (l : List E) : Prop :=
  ∃ init last, l = init ++ [last] ∧ sys.term last = T

/-- The comparison a voter makes: `l` is at least as recent as `own`. -/
def System.UpToDate (l own : List E) : Prop :=
  sys.lastTerm own < sys.lastTerm l ∨
    (sys.lastTerm l = sys.lastTerm own ∧ own.length ≤ l.length)

/-- Current terms and logs, and the durable records of the past. -/
structure State (S E : Type) where
  current : S → ℕ
  log : S → List E
  /-- The candidate a server voted for in a term. -/
  vote : S → ℕ → Option S
  /-- The log a candidate stood with in a term. -/
  ballot : S → ℕ → Option (List E)
  leader : ℕ → Option S
  /-- The log of a term's leader at its last moment of leadership so far. -/
  leaderLog : ℕ → List E
  /-- `ack s T l`: in term `T` server `s` confirmed to hold `l`. -/
  ack : S → ℕ → List E → Prop

/-- Term `T` has a leader log: its leader was elected, or it is the initial term. -/
def State.Led (A : State S E) (T : ℕ) : Prop := T = 0 ∨ (A.leader T).isSome

/-- The start: every server in term zero with the base log, and no records. -/
def State.initial : State S E where
  current := fun _ => 0
  log := fun _ => sys.base
  vote := fun _ _ => none
  ballot := fun _ _ => none
  leader := fun _ => none
  leaderLog := fun T => if T = 0 then sys.base else []
  ack := fun _ _ _ => False

section Updates

variable [DecidableEq S] (A : State S E)

@[simps] def State.setCurrent (s : S) (T : ℕ) : State S E :=
  { A with current := update A.current s T }

@[simps] def State.setLog (s : S) (l : List E) : State S E :=
  { A with log := update A.log s l }

@[simps] def State.setVote (v : S) (T : ℕ) (c : S) : State S E :=
  { A with vote := fun v' T' => if v' = v ∧ T' = T then some c else A.vote v' T' }

@[simps] def State.setBallot (c : S) (T : ℕ) (l : List E) : State S E :=
  { A with ballot := fun c' T' => if c' = c ∧ T' = T then some l else A.ballot c' T' }

@[simps] def State.setLeader (T : ℕ) (c : S) : State S E :=
  { A with leader := update A.leader T (some c) }

@[simps] def State.setLeaderLog (T : ℕ) (l : List E) : State S E :=
  { A with leaderLog := update A.leaderLog T l }

@[simps] def State.addAck (s : S) (T : ℕ) (l : List E) : State S E :=
  { A with ack := fun s' T' l' => A.ack s' T' l' ∨ (s' = s ∧ T' = T ∧ l' = l) }

end Updates

/-- One move of one server. -/
inductive Step (sys : System S E) [DecidableEq S] (retaining : Prop) :
    State S E → State S E → Prop
  | advance {A : State S E} {s : S} {T : ℕ} :
    A.current s < T → Step sys retaining A (A.setCurrent s T)
  | campaign {A : State S E} {s : S} {T : ℕ} :
    A.current s < T →
    Step sys retaining A (((A.setCurrent s T).setVote s T s).setBallot s T (A.log s))
  | grant {A : State S E} {v c : S} {l : List E} :
    A.ballot c (A.current v) = some l → sys.UpToDate l (A.log v) →
    (A.vote v (A.current v) = none ∨ A.vote v (A.current v) = some c) →
    Step sys retaining A (A.setVote v (A.current v) c)
  | elect {A : State S E} {c : S} :
    A.ballot c (A.current c) = some (A.log c) → A.leader (A.current c) = none →
    sys.quorum {v | A.vote v (A.current c) = some c} →
    Step sys retaining A
      (((A.setLeader (A.current c) c).setLeaderLog (A.current c) (A.log c)).addAck c
        (A.current c) (A.log c))
  | append {A : State S E} {c : S} {e : E} :
    A.leader (A.current c) = some c → A.log c = A.leaderLog (A.current c) →
    sys.term e = A.current c →
    Step sys retaining A
      (((A.setLog c (A.log c ++ [e])).setLeaderLog (A.current c) (A.log c ++ [e])).addAck c
        (A.current c) (A.log c ++ [e]))
  | rewrite {A : State S E} {s : S} {l : List E} :
    (A.leader (A.current s)).isSome → sys.base.length ≤ l.length →
    (l <+: A.leaderLog (A.current s) ∨ l <+: A.log s) →
    (retaining → ∀ shared, shared <+: A.log s → shared <+: A.leaderLog (A.current s) →
      shared <+: l) →
    Step sys retaining A (A.setLog s l)
  | acknowledge {A : State S E} {s : S} {l : List E} :
    (A.leader (A.current s)).isSome → l <+: A.leaderLog (A.current s) → l <+: A.log s →
    Step sys retaining A (A.addAck s (A.current s) l)

/-- The states a protocol reaches. -/
abbrev Reach [DecidableEq S] (retaining : Prop) :
    State S E → State S E → Prop :=
  Relation.ReflTransGen (Step sys retaining)

end Replication
