import Uavcan.Replication.Matching

/-!
# Leader completeness

When servers retain what they share with the leader of their term, a prefix that a quorum acknowledged in the
term of its last entry (`Chosen`) is part of the log of every later leader (`Chosen.sub_leaderLog`), and any
two such prefixes are comparable. The argument is the usual induction on the term of the later leader, over
durable records only. `Careful` makes it possible: a server has lost an acknowledged prefix only if some
leader of a later term lacks it, and the same holds of the log it had when it voted.
-/

namespace Replication

open List Option

variable {S E : Type} {sys : System S E} {A B : State S E}

/-- The leader of term `T` exists and does not hold `l`. -/
def State.Lacks (A : State S E) (T : ℕ) (l : List E) : Prop :=
  (A.leader T).isSome ∧ ¬ l <+: A.leaderLog T

/-- Server `v` compared its log with `l` before voting in term `T`, and had lost an acknowledged
prefix only to a leader between. -/
def State.Endorses (sys : System S E) (A : State S E) (v : S) (T : ℕ) (l : List E) : Prop :=
  ∃ own, sys.UpToDate l own ∧ A.Traced sys own ∧
    ∀ T' k p, A.ack v T' k → p <+: k → sys.EndsIn T' p → T' < T →
      p <+: own ∨ ∃ U, T' < U ∧ U < T ∧ A.Lacks U p

/-- The leader of term `T` started from a log that a quorum of voters endorsed. -/
def State.Elected (sys : System S E) (A : State S E) (T : ℕ) : Prop :=
  ∃ l, l <+: A.leaderLog T ∧ A.Traced sys l ∧ (∀ e ∈ l, sys.term e < T) ∧
    ∃ V, sys.quorum V ∧ ∀ v ∈ V, T ≤ A.current v ∧ A.Endorses sys v T l

/-- What the retaining guard adds to `Inv`. -/
structure Careful (sys : System S E) (A : State S E) : Prop where
  retained : ∀ {s T k p}, A.ack s T k → p <+: k → sys.EndsIn T p →
    p <+: A.log s ∨ ∃ U, T < U ∧ U ≤ A.current s ∧ A.Lacks U p
  pending : ∀ {v T c}, A.leader T = none → A.vote v T = some c →
    ∃ l, A.ballot c T = some l ∧ A.Endorses sys v T l
  elected : ∀ {T c}, A.leader T = some c → A.Elected sys T

/-- A quorum acknowledged `l` in the term of its last entry. -/
def State.Chosen (sys : System S E) (A : State S E) (T : ℕ) (l : List E) : Prop :=
  sys.EndsIn T l ∧ sys.quorum {s | ∃ k, A.ack s T k ∧ l <+: k}

/-! ## Last terms -/

@[simp] theorem System.lastTerm_concat (l : List E) (e : E) :
    sys.lastTerm (l ++ [e]) = sys.term e := by
  simp [System.lastTerm]

variable {l : List E} {T : ℕ}

/-- A log with a positive last term ends in that term. -/
theorem System.endsIn_lastTerm (pos : 0 < sys.lastTerm l) :
    sys.EndsIn (sys.lastTerm l) l := by
  rcases eq_nil_or_concat l with rfl | ⟨init, last, rfl⟩
  · simp [System.lastTerm] at pos
  · rw [concat_eq_append]
    exact ⟨init, last, rfl, (System.lastTerm_concat init last).symm⟩

/-- A traced log is no older than any prefix it holds. -/
theorem State.Traced.le_lastTerm {p : List E} (traced : A.Traced sys l) (ends : sys.EndsIn T p)
    (held : p <+: l) : T ≤ sys.lastTerm l := by
  rcases eq_nil_or_concat l with rfl | ⟨init, last, rfl⟩
  · obtain ⟨_, _, rfl, _⟩ := ends
    simp at held
  · rw [concat_eq_append] at traced held ⊢
    rw [System.lastTerm_concat]
    obtain ⟨earlier, e, rfl, rfl⟩ := ends
    have member : e ∈ init ++ [last] := held.subset (by simp)
    rcases mem_append.mp member with inside | final
    · exact (traced init last prefix_rfl).2.2 e inside
    · rw [mem_singleton.mp final]

/-- The voter's comparison carries a prefix that ends in term `T` to the candidate's log, when
every leader between `T` and the vote holds it. -/
theorem State.Traced.carry {N : ℕ} {own p : List E} (traced : A.Traced sys l)
    (tracedOwn : A.Traced sys own) (recent : sys.UpToDate l own) (ends : sys.EndsIn T p)
    (pos : 0 < T) (held : p <+: own) (before : ∀ e ∈ l, sys.term e < N)
    (between : ∀ U, T < U → U < N → (A.leader U).isSome → p <+: A.leaderLog U) :
    p <+: l := by
  have ownTerm : T ≤ sys.lastTerm own := tracedOwn.le_lastTerm ends held
  have lastTerm : T ≤ sys.lastTerm l := by
    rcases recent with newer | ⟨same, _⟩
    · omega
    · omega
  obtain ⟨init, last, whole, term⟩ := System.endsIn_lastTerm (l := l) (pos.trans_le lastTerm)
  have below := traced init last (by simp [whole])
  rw [← whole, term] at below
  obtain ⟨led, sub, _⟩ := below
  rcases lastTerm.lt_or_eq with newer | same
  · -- the candidate's last entry is newer: the leader that created it holds `p`
    have bound : sys.lastTerm l < N := term ▸ before last (by rw [whole]; simp)
    have some : (A.leader (sys.lastTerm l)).isSome := led.resolve_left (by omega)
    rcases prefix_or_prefix_of_prefix (between _ newer bound some) sub with shorter | longer
    · exact shorter
    · -- then `last` would be an entry of `p`, which ends in an earlier term
      have inside : last ∈ p := longer.subset (by rw [whole]; simp)
      have := tracedOwn.term_le ends held last inside
      omega
  · -- both logs end in term `T`, and the candidate's is not the shorter one
    have length : own.length ≤ l.length := by
      rcases recent with newer | ⟨_, length⟩
      · omega
      · exact length
    obtain ⟨earlier, e, rfl, rfl⟩ := ends
    have below := (tracedOwn earlier e held).2.1
    rw [← same] at sub
    exact prefix_of_prefix_length_le below sub (held.length_le.trans length)

/-! ## Chosen prefixes -/

theorem State.Chosen.leader (inv : Inv sys A) (chosen : A.Chosen sys T l) :
    (A.leader T).isSome ∧ l <+: A.leaderLog T := by
  obtain ⟨s, ⟨k, ack, held⟩, _⟩ := sys.quorum_meet chosen.2 chosen.2
  obtain ⟨-, some, sub⟩ := inv.ack ack
  exact ⟨some, held.trans sub⟩

theorem State.Chosen.pos (inv : Inv sys A) (chosen : A.Chosen sys T l) :
    0 < T := by
  obtain ⟨c, leader⟩ := isSome_iff_exists.mp (chosen.leader inv).1
  exact (inv.leader leader).pos

theorem State.Chosen.mono (chosen : A.Chosen sys T l) (le : Le A B) :
    B.Chosen sys T l := by
  refine ⟨chosen.1, sys.quorum_mono ?_ chosen.2⟩
  rintro s ⟨k, ack, held⟩
  exact ⟨k, le.ack ack, held⟩

/-- Every later leader holds a chosen prefix: the quorum that elected it met the quorum that
acknowledged the prefix. -/
theorem State.Chosen.sub_leaderLog (inv : Inv sys A) (careful : Careful sys A)
    (chosen : A.Chosen sys T l) :
    ∀ U, T ≤ U → (A.leader U).isSome → l <+: A.leaderLog U := by
  intro U
  induction U using Nat.strong_induction_on with
  | _ U ih =>
    intro later some
    rcases later.lt_or_eq with later | rfl
    · obtain ⟨c, leader⟩ := isSome_iff_exists.mp some
      obtain ⟨ballot, sub, traced, before, V, quorum, endorsed⟩ := careful.elected leader
      obtain ⟨v, voted, k, ack, held⟩ := sys.quorum_meet quorum chosen.2
      obtain ⟨own, recent, tracedOwn, kept⟩ := (endorsed v voted).2
      have between : ∀ W, T < W → W < U → (A.leader W).isSome → l <+: A.leaderLog W :=
        fun W after earlier => ih W earlier after.le
      have ownHolds : l <+: own := by
        rcases kept T k l ack held chosen.1 later with own | ⟨W, after, earlier, some, lacks⟩
        · exact own
        · exact (lacks (between W after earlier some)).elim
      exact (traced.carry tracedOwn recent chosen.1 (chosen.pos inv) ownHolds before
        between).trans sub
    · exact (chosen.leader inv).2

theorem State.Chosen.comparable (inv : Inv sys A) (careful : Careful sys A) {T' : ℕ} {l' : List E}
    (chosen : A.Chosen sys T l) (chosen' : A.Chosen sys T' l') :
    l <+: l' ∨ l' <+: l := by
  rcases le_total T T' with later | later
  · exact prefix_or_prefix_of_prefix
      (chosen.sub_leaderLog inv careful T' later (chosen'.leader inv).1) (chosen'.leader inv).2
  · exact prefix_or_prefix_of_prefix (chosen.leader inv).2
      (chosen'.sub_leaderLog inv careful T later (chosen.leader inv).1)

/-! ## The retaining guard is preserved -/

section Steps

variable [DecidableEq S]

variable {retaining : Prop} {s v : S} {T : ℕ} {l p : List E}

/-- The log of a term's leader only grows, by entries of that term. -/
theorem Step.leaderLog_cases (step : Step sys retaining A B) {U : ℕ} (some : (A.leader U).isSome) :
    B.leaderLog U = A.leaderLog U ∨
      ∃ e, sys.term e = U ∧ B.leaderLog U = A.leaderLog U ++ [e] := by
  cases step with
  | @elect c ballot vacant won =>
    have other : U ≠ A.current c := by
      rintro rfl
      rw [vacant] at some
      cases some
    exact Or.inl (by simp [other])
  | @append c e leads own term =>
    by_cases same : U = A.current c
    · subst same
      exact Or.inr ⟨e, term, by simp [own]⟩
    · exact Or.inl (by simp [same])
  | _ => exact Or.inl rfl

/-- A new acknowledgement belongs to the current term of the server that gives it. -/
theorem Step.ack_cases (step : Step sys retaining A B) (ack : B.ack s T l) :
    A.ack s T l ∨ (T = A.current s ∧ l <+: B.log s) := by
  cases step with
  | elect =>
    rcases ack with old | ⟨rfl, rfl, rfl⟩
    · exact Or.inl old
    · exact Or.inr ⟨rfl, prefix_rfl⟩
  | append =>
    rcases ack with old | ⟨rfl, rfl, rfl⟩
    · exact Or.inl old
    · exact Or.inr ⟨rfl, by simp⟩
  | acknowledge _ _ held =>
    rcases ack with old | ⟨rfl, rfl, rfl⟩
    · exact Or.inl old
    · exact Or.inr ⟨rfl, held⟩
  | _ => exact Or.inl ack

/-- A leader that lacks a prefix of an earlier term never gets it. -/
theorem State.Lacks.step (inv : Inv sys A) (step : Step sys retaining A B) {U : ℕ}
    (lacks : A.Lacks U p) (ends : sys.EndsIn T p) (later : T < U) :
    B.Lacks U p := by
  obtain ⟨c, leader⟩ := isSome_iff_exists.mp lacks.1
  refine ⟨by rw [(step.le inv).leader leader]; rfl, fun held => ?_⟩
  rcases step.leaderLog_cases lacks.1 with same | ⟨e, term, grown⟩
  · exact lacks.2 (same ▸ held)
  · rw [grown] at held
    rcases prefix_concat_iff.mp held with whole | old
    · obtain ⟨init, last, rfl, ended⟩ := ends
      obtain ⟨_, tail⟩ := append_inj' whole rfl
      obtain rfl : last = e := by simpa using tail
      omega
    · exact lacks.2 old

/-- An endorsement stays: what its server acknowledges later belongs to later terms. -/
theorem State.Endorses.step (inv : Inv sys A) (step : Step sys retaining A B)
    (reached : T ≤ A.current v) (endorses : A.Endorses sys v T l) : B.Endorses sys v T l := by
  obtain ⟨own, recent, traced, kept⟩ := endorses
  refine ⟨own, recent, traced.mono (step.le inv), fun T' k p ack sub ends earlier => ?_⟩
  rcases step.ack_cases ack with old | ⟨now, _⟩
  · rcases kept T' k p old sub ends earlier with held | ⟨U, after, before, lacks⟩
    · exact Or.inl held
    · exact Or.inr ⟨U, after, before, lacks.step inv step ends after⟩
  · omega

omit [DecidableEq S] in
/-- The voter's own log endorses what it is not newer than, as long as its term has no leader. -/
theorem Careful.endorses (inv : Inv sys A) (careful : Careful sys A)
    (recent : sys.UpToDate l (A.log v)) (apart : ∀ U, U ≤ A.current v → A.leader U ≠ none → U < T) :
    A.Endorses sys v T l := by
  refine ⟨A.log v, recent, (inv.log v).traced, fun T' k p ack sub ends _ => ?_⟩
  rcases careful.retained ack sub ends with held | ⟨U, after, bound, lacks⟩
  · exact Or.inl held
  · exact Or.inr ⟨U, after, apart U bound (isSome_iff_ne_none.mp lacks.1), lacks⟩

omit [DecidableEq S] in
theorem Careful.initial (sys : System S E) : Careful sys (State.initial sys) where
  retained h := by simp [State.initial] at h
  pending _ h := by simp [State.initial] at h
  elected h := by simp [State.initial] at h

/-- A retaining step loses a prefix only to the leader of the server's term. -/
theorem Step.log_kept (step : Step sys True A B) (held : p <+: A.log s) :
    p <+: B.log s ∨ A.Lacks (A.current s) p := by
  cases step with
  | @append c e _ _ _ =>
    by_cases same : s = c
    · subst same
      exact Or.inl (held.trans (by simp))
    · exact Or.inl (by simpa [same] using held)
  | @rewrite s' l some _ origin keeps =>
    by_cases same : s = s'
    · subst same
      by_cases shared : p <+: A.leaderLog (A.current s)
      · exact Or.inl (by simpa using keeps True.intro p held shared)
      · exact Or.inr ⟨some, shared⟩
    · exact Or.inl (by simpa [same] using held)
  | _ => exact Or.inl held

theorem Careful.retained_step (inv : Inv sys A) (careful : Careful sys A) (step : Step sys True A B)
    {k : List E} (ack : B.ack s T k) (sub : p <+: k) (ends : sys.EndsIn T p) :
    p <+: B.log s ∨ ∃ U, T < U ∧ U ≤ B.current s ∧ B.Lacks U p := by
  have current := (step.le inv).current s
  rcases step.ack_cases ack with old | ⟨_, held⟩
  · rcases careful.retained old sub ends with held | ⟨U, after, bound, lacks⟩
    · rcases step.log_kept held with kept | lacks
      · exact Or.inl kept
      · have reached := (inv.ack old).1
        have after : T < A.current s := by
          refine lt_of_le_of_ne reached fun same => lacks.2 ?_
          exact sub.trans (same ▸ (inv.ack old).2.2)
        exact Or.inr ⟨_, after, current, lacks.step inv step ends after⟩
    · exact Or.inr ⟨U, after, bound.trans current, lacks.step inv step ends after⟩
  · exact Or.inl (sub.trans held)

theorem Careful.pending_step (inv : Inv sys A) (careful : Careful sys A) (step : Step sys True A B)
    {c : S} (open_ : B.leader T = none) (vote : B.vote v T = some c) :
    ∃ l, B.ballot c T = some l ∧ B.Endorses sys v T l := by
  have vacant : A.leader T = none := by
    rcases h : A.leader T with _ | d
    · rfl
    · rw [(step.le inv).leader h] at open_
      cases open_
  have carry : A.vote v T = some c → ∃ l, B.ballot c T = some l ∧ B.Endorses sys v T l := by
    intro old
    obtain ⟨l, ballot, endorses⟩ := careful.pending vacant old
    exact ⟨l, (step.le inv).ballot ballot, endorses.step inv step (inv.vote old).1⟩
  cases step with
  | @campaign s T' later =>
    by_cases same : v = s ∧ T = T'
    · obtain ⟨rfl, rfl⟩ := same
      obtain rfl : v = c := by simpa using vote
      -- a candidate endorses its own log; its term is later than all it has seen
      have endorses : A.Endorses sys v T (A.log v) :=
        careful.endorses inv (Or.inr ⟨rfl, le_rfl⟩) fun U bound _ => bound.trans_lt later
      exact ⟨A.log v, by simp, endorses⟩
    · exact carry (by simpa [same] using vote)
  | @grant v' c' l ballot recent free =>
    by_cases same : v = v' ∧ T = A.current v'
    · obtain ⟨rfl, rfl⟩ := same
      obtain rfl : c' = c := by simpa using vote
      have endorses : A.Endorses sys v (A.current v) l :=
        careful.endorses inv recent fun U bound led =>
          lt_of_le_of_ne bound fun now => led (now ▸ vacant)
      exact ⟨l, ballot, endorses⟩
    · exact carry (by simpa [same] using vote)
  | _ => exact carry vote

theorem Careful.elected_step (inv : Inv sys A) (careful : Careful sys A) (step : Step sys True A B)
    {c : S} (leader : B.leader T = some c) :
    B.Elected sys T := by
  have le := step.le inv
  have carry : A.leader T = some c → B.Elected sys T := by
    intro old
    obtain ⟨l, sub, traced, before, V, quorum, endorsed⟩ := careful.elected old
    refine ⟨l, sub.trans (le.leaderLog (Or.inr (by rw [old]; rfl))), traced.mono le, before, V,
      quorum, fun v member => ?_⟩
    obtain ⟨reached, endorses⟩ := endorsed v member
    exact ⟨reached.trans (le.current v), endorses.step inv step reached⟩
  cases step with
  | @elect d ballot vacant won =>
    by_cases same : T = A.current d
    · subst same
      refine ⟨A.log d, by simp, (inv.log d).traced.mono le, fun e member => ?_, _, won,
        fun v vote => ?_⟩
      · -- the term had no leader, so no entry of it exists yet
        have apart : sys.term e ≠ A.current d := fun now => by
          rcases (inv.log d).traced.led_of_mem member with zero | some
          · have := (inv.ballot ballot).1
            omega
          · rw [now, vacant] at some
            cases some
        exact lt_of_le_of_ne ((inv.log d).current e member) apart
      · have reached := (inv.vote vote).1
        obtain ⟨l, stood, endorses⟩ := careful.pending vacant vote
        obtain rfl : A.log d = l := some.inj (ballot.symm.trans stood)
        exact ⟨reached,
          endorses.step inv (.elect ballot vacant won : Step sys True A _) reached⟩
    · exact carry (by simpa [same] using leader)
  | _ => exact carry leader

theorem Careful.step (inv : Inv sys A) (careful : Careful sys A) (step : Step sys True A B) :
    Careful sys B where
  retained := careful.retained_step inv step
  pending := careful.pending_step inv step
  elected := careful.elected_step inv step

theorem Careful.reach (inv : Inv sys A) (careful : Careful sys A) (keeps : retaining)
    (run : Reach sys retaining A B) : Careful sys B := by
  obtain rfl : retaining = True := eq_true keeps
  induction run with
  | refl => exact careful
  | tail run step ih => exact ih.step (inv.reach run).1 step

end Steps

end Replication
