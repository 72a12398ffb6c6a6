import Uavcan.Replication.Protocol

/-!
# Log matching

Every prefix of every log is a prefix of the log of the leader that created its last entry (`Traced`). Two
logs that hold an entry of one term at one position therefore agree below it (`Inv.matching`). Nothing of this
needs the `retaining` guard: dropping a tail keeps every prefix that is left.

`Le` collects what the durable records never lose; it carries a fact about one state of a run to every later
one.
-/

namespace Replication

open State List Option

variable {S E : Type} {sys : System S E} {A B C : State S E}

/-! ## Growing records -/

/-- `B` is later than `A`: terms and records only grow. -/
structure Le (A B : State S E) : Prop where
  current : ∀ s, A.current s ≤ B.current s
  vote : ∀ {v T c}, A.vote v T = some c → B.vote v T = some c
  ballot : ∀ {c T l}, A.ballot c T = some l → B.ballot c T = some l
  leader : ∀ {T c}, A.leader T = some c → B.leader T = some c
  leaderLog : ∀ {T}, A.Led T → A.leaderLog T <+: B.leaderLog T
  ack : ∀ {s T l}, A.ack s T l → B.ack s T l

theorem Le.refl (A : State S E) : Le A A :=
  ⟨fun _ => le_rfl, id, id, id, fun _ => prefix_rfl, id⟩

variable {T : ℕ} {l : List E} {e : E}

theorem Le.led (le : Le A B) (led : A.Led T) : B.Led T := by
  rcases led with zero | some
  · exact Or.inl zero
  · obtain ⟨c, leader⟩ := isSome_iff_exists.mp some
    exact Or.inr (by rw [le.leader leader]; rfl)

theorem Le.trans (left : Le A B) (right : Le B C) : Le A C where
  current s := (left.current s).trans (right.current s)
  vote h := right.vote (left.vote h)
  ballot h := right.ballot (left.ballot h)
  leader h := right.leader (left.leader h)
  leaderLog led := (left.leaderLog led).trans (right.leaderLog (left.led led))
  ack h := right.ack (left.ack h)

/-! ## Traced logs -/

/-- Every prefix of the log is a prefix of the log of the leader of its last entry's term, and
terms do not decrease along it. -/
def State.Traced (sys : System S E) (A : State S E) (l : List E) : Prop :=
  ∀ init last, init ++ [last] <+: l →
    A.Led (sys.term last) ∧ init ++ [last] <+: A.leaderLog (sys.term last) ∧
      ∀ e ∈ init, sys.term e ≤ sys.term last

section

variable (traced : A.Traced sys l)

include traced

theorem State.Traced.sub {l' : List E} (shorter : l' <+: l) :
    A.Traced sys l' :=
  fun init last h => traced init last (h.trans shorter)

theorem State.Traced.mono (le : Le A B) :
    B.Traced sys l := by
  intro init last h
  obtain ⟨led, below, sorted⟩ := traced init last h
  exact ⟨le.led led, below.trans (le.leaderLog led), sorted⟩

/-- Adding an entry of a leader's own term at the end of its log keeps the log traced. -/
theorem State.Traced.concat (led : A.Led (sys.term e))
    (own : l ++ [e] <+: A.leaderLog (sys.term e)) (bound : ∀ x ∈ l, sys.term x ≤ sys.term e) :
    A.Traced sys (l ++ [e]) := by
  intro init last h
  rcases prefix_concat_iff.mp h with whole | earlier
  · obtain ⟨rfl, tail⟩ := append_inj' whole rfl
    obtain rfl : last = e := by simpa using tail
    exact ⟨led, own, bound⟩
  · exact traced init last earlier

/-- Two traced logs with a prefix ending in one term agree on the shorter of the prefixes. -/
theorem State.Traced.comparable {l' p p' : List E}
    (traced' : A.Traced sys l') (ends : sys.EndsIn T p) (ends' : sys.EndsIn T p') (held : p <+: l)
    (held' : p' <+: l') :
    p <+: p' ∨ p' <+: p := by
  obtain ⟨init, last, rfl, term⟩ := ends
  obtain ⟨init', last', rfl, term'⟩ := ends'
  have below := (traced init last held).2.1
  have below' := (traced' init' last' held').2.1
  rw [term] at below
  rw [term'] at below'
  exact prefix_or_prefix_of_prefix below below'

/-- No entry of a traced log is newer than the entry a prefix of it ends with, inside it. -/
theorem State.Traced.term_le {p : List E} (ends : sys.EndsIn T p)
    (held : p <+: l) : ∀ e ∈ p, sys.term e ≤ T := by
  obtain ⟨init, last, rfl, rfl⟩ := ends
  intro e member
  rcases mem_append.mp member with earlier | final
  · exact (traced init last held).2.2 e earlier
  · rw [mem_singleton.mp final]

end

/-! ## The invariant -/

/-- What holds of the leader of a term. -/
structure State.Leads (sys : System S E) (A : State S E) (T : ℕ) (c : S) : Prop where
  pos : 0 < T
  current : T ≤ A.current c
  quorum : sys.quorum {v | A.vote v T = some c}
  ack : A.ack c T (A.leaderLog T)

theorem State.Leads.mono {c : S} (leads : A.Leads sys T c) (le : Le A B) (same : B.leaderLog T = A.leaderLog T) :
    B.Leads sys T c where
  pos := leads.pos
  current := leads.current.trans (le.current c)
  quorum := sys.quorum_mono (fun _ vote => le.vote vote) leads.quorum
  ack := same ▸ le.ack leads.ack

/-- What holds of a log in term `T`. -/
structure State.Kept (sys : System S E) (A : State S E) (T : ℕ) (l : List E) : Prop where
  traced : A.Traced sys l
  current : ∀ e ∈ l, sys.term e ≤ T
  rooted : sys.base <+: l

theorem State.Kept.mono {T' : ℕ} (kept : A.Kept sys T l) (le : Le A B) (later : T ≤ T') : B.Kept sys T' l :=
  ⟨kept.traced.mono le, fun e member => (kept.current e member).trans later, kept.rooted⟩

theorem State.Kept.sub {l' : List E} (kept : A.Kept sys T l) (shorter : l' <+: l)
    (long : sys.base.length ≤ l'.length) : A.Kept sys T l' :=
  ⟨kept.traced.sub shorter, fun e member => kept.current e (shorter.subset member),
    prefix_of_prefix_length_le kept.rooted shorter long⟩

/-- What holds in every reachable state, whether or not servers retain what they share. -/
structure Inv (sys : System S E) (A : State S E) : Prop where
  vote : ∀ {v T c}, A.vote v T = some c → T ≤ A.current v ∧ (A.ballot c T).isSome
  ballot : ∀ {c T l}, A.ballot c T = some l → 0 < T ∧ T ≤ A.current c ∧ A.vote c T = some c
  leader : ∀ {T c}, A.leader T = some c → A.Leads sys T c
  ack : ∀ {s T l}, A.ack s T l → T ≤ A.current s ∧ (A.leader T).isSome ∧ l <+: A.leaderLog T
  base_log : A.leaderLog 0 = sys.base
  log : ∀ s, A.Kept sys (A.current s) (A.log s)
  leaderLog : ∀ {T}, A.Led T → A.Kept sys T (A.leaderLog T)

/-- The entries of a traced log were created by elected leaders. -/
theorem State.Traced.led_of_mem (traced : A.Traced sys l) (member : e ∈ l) :
    A.Led (sys.term e) := by
  obtain ⟨init, rest, rfl⟩ := append_of_mem member
  exact (traced init e ⟨rest, by simp⟩).1

theorem State.base_kept (base : A.leaderLog 0 = sys.base) (T : ℕ) : A.Kept sys T sys.base where
  traced init last h := by
    have zero : ∀ e ∈ init ++ [last], sys.term e = 0 :=
      fun e member => sys.term_base e (h.subset member)
    have last_zero : sys.term last = 0 := zero last (by simp)
    refine ⟨Or.inl last_zero, by rw [last_zero, base]; exact h, fun e member => ?_⟩
    rw [zero e (mem_append_left _ member)]
    exact Nat.zero_le _
  current e member := (sys.term_base e member).le.trans (Nat.zero_le T)
  rooted := prefix_rfl

theorem Inv.initial (sys : System S E) : Inv sys (State.initial sys) where
  vote h := by simp [State.initial] at h
  ballot h := by simp [State.initial] at h
  leader h := by simp [State.initial] at h
  ack h := by simp [State.initial] at h
  base_log := rfl
  log _ := base_kept rfl _
  leaderLog {T} led := by
    rcases led with rfl | leader
    · exact base_kept rfl _
    · simp [State.initial] at leader

/-- A step that touches terms, votes and ballots only. -/
theorem Inv.of_votes (inv : Inv sys A) (le : Le A B) (leader : B.leader = A.leader)
    (leaderLog : B.leaderLog = A.leaderLog) (ack : B.ack = A.ack) (log : B.log = A.log)
    (vote : ∀ {v T c}, B.vote v T = some c → T ≤ B.current v ∧ (B.ballot c T).isSome)
    (ballot : ∀ {c T l}, B.ballot c T = some l → 0 < T ∧ T ≤ B.current c ∧ B.vote c T = some c) :
    Inv sys B where
  vote := vote
  ballot := ballot
  leader h := (inv.leader (leader ▸ h)).mono le (congrFun leaderLog _)
  ack h := by
    rw [ack] at h
    rw [leader, leaderLog]
    exact ⟨(inv.ack h).1.trans (le.current _), (inv.ack h).2⟩
  base_log := leaderLog ▸ inv.base_log
  log s := log ▸ (inv.log s).mono le (le.current s)
  leaderLog led := by
    rw [State.Led, leader] at led
    exact leaderLog ▸ (inv.leaderLog led).mono le le_rfl

/-! ## Steps only add records -/

section Steps

variable [DecidableEq S] {retaining : Prop}

/-! ## The invariant along a run -/

variable {s c : S} {l : List E}

section

variable (inv : Inv sys A)

include inv

theorem Step.le (step : Step sys retaining A B) : Le A B := by
  cases step with
  | @advance s T later =>
    refine ⟨fun s' => ?_, id, id, id, fun _ => prefix_rfl, id⟩
    by_cases same : s' = s
    · subst same; simpa using later.le
    · simp [same]
  | @campaign s T later =>
    -- the candidate has not been in term `T`, so neither record overwrites another
    have fresh : ∀ {c}, A.vote s T ≠ some c := fun h => by
      have := (inv.vote h).1; omega
    have unused : ∀ {l}, A.ballot s T ≠ some l := fun h => by
      have := (inv.ballot h).2.1; omega
    refine ⟨fun s' => ?_, fun {v T' c} h => ?_, fun {c T' l} h => ?_, id,
      fun _ => prefix_rfl, id⟩
    · by_cases same : s' = s
      · subst same; simpa using later.le
      · simp [same]
    · simp only [setBallot_vote, setVote_vote, setCurrent_vote]
      rw [if_neg, h]
      rintro ⟨rfl, rfl⟩
      exact fresh h
    · simp only [setBallot_ballot, setVote_ballot, setCurrent_ballot]
      rw [if_neg, h]
      rintro ⟨rfl, rfl⟩
      exact unused h
  | @grant v c l ballot recent free =>
    refine ⟨fun _ => le_rfl, fun {v' T' c'} h => ?_, id, id, fun _ => prefix_rfl, id⟩
    simp only [setVote_vote]
    split
    · rename_i same
      obtain ⟨rfl, rfl⟩ := same
      rcases free with none | some
      · rw [h] at none; cases none
      · exact some.symm.trans h
    · exact h
  | @elect c ballot vacant won =>
    refine ⟨fun _ => le_rfl, id, id, fun {T c'} h => ?_, fun {T} led => ?_, Or.inl⟩
    · by_cases same : T = A.current c
      · subst same; rw [vacant] at h; cases h
      · simpa [same] using h
    · by_cases same : T = A.current c
      · subst same
        rcases led with zero | some
        · have := (inv.ballot ballot).1; omega
        · rw [vacant] at some; cases some
      · simp [same]
  | @append c e leads own term =>
    refine ⟨fun _ => le_rfl, id, id, id, fun {T} led => ?_, Or.inl⟩
    by_cases same : T = A.current c
    · subst same; simp [own]
    · simp [same]
  | rewrite _ _ _ _ => exact ⟨fun _ => le_rfl, id, id, id, fun _ => prefix_rfl, id⟩
  | acknowledge _ _ _ =>
    exact ⟨fun _ => le_rfl, id, id, id, fun _ => prefix_rfl, Or.inl⟩

theorem Inv.advance {T : ℕ} (later : A.current s < T) :
    Inv sys (A.setCurrent s T) := by
  have le : Le A (A.setCurrent s T) := Step.le inv (.advance later : Step sys True A _)
  refine inv.of_votes le rfl rfl rfl rfl (fun h => ?_) fun h => ?_
  · exact ⟨(inv.vote h).1.trans (le.current _), (inv.vote h).2⟩
  · obtain ⟨pos, reached, vote⟩ := inv.ballot h
    exact ⟨pos, reached.trans (le.current _), vote⟩

theorem Inv.campaign {T : ℕ} (later : A.current s < T) :
    Inv sys (((A.setCurrent s T).setVote s T s).setBallot s T (A.log s)) := by
  have le := Step.le inv (.campaign later : Step sys True A _)
  have current : (A.setCurrent s T).current s = T := by simp
  refine inv.of_votes le rfl rfl rfl rfl (fun {v T' c} h => ?_) fun {c T' l} h => ?_
  · simp only [setBallot_vote, setVote_vote] at h
    split at h
    · rename_i same
      obtain ⟨rfl, rfl⟩ := same
      obtain rfl := some.inj h
      exact ⟨current.ge, by simp⟩
    · obtain ⟨bound, ballot⟩ := inv.vote h
      obtain ⟨l, ballot⟩ := isSome_iff_exists.mp ballot
      exact ⟨bound.trans (le.current _), by rw [le.ballot ballot]; rfl⟩
  · simp only [setBallot_ballot] at h
    split at h
    · rename_i same
      obtain ⟨rfl, rfl⟩ := same
      exact ⟨by omega, current.ge, by simp⟩
    · obtain ⟨pos, reached, vote⟩ := inv.ballot h
      exact ⟨pos, reached.trans (le.current _), le.vote vote⟩

theorem Inv.grant {v : S} (ballot : A.ballot c (A.current v) = some l)
    (recent : sys.UpToDate l (A.log v))
    (free : A.vote v (A.current v) = none ∨ A.vote v (A.current v) = some c) :
    Inv sys (A.setVote v (A.current v) c) := by
  have le := Step.le inv (.grant ballot recent free : Step sys True A _)
  refine inv.of_votes le rfl rfl rfl rfl (fun {v' T' c'} h => ?_) fun h => ?_
  · simp only [setVote_vote] at h
    split at h
    · rename_i same
      obtain ⟨rfl, rfl⟩ := same
      obtain rfl := some.inj h
      exact ⟨le_rfl, by rw [setVote_ballot, ballot]; rfl⟩
    · exact inv.vote h
  · obtain ⟨pos, reached, vote⟩ := inv.ballot h
    exact ⟨pos, reached, le.vote vote⟩

theorem Inv.elect (ballot : A.ballot c (A.current c) = some (A.log c))
    (vacant : A.leader (A.current c) = none)
    (won : sys.quorum {v | A.vote v (A.current c) = some c}) :
    Inv sys (((A.setLeader (A.current c) c).setLeaderLog (A.current c) (A.log c)).addAck c
      (A.current c) (A.log c)) := by
  have le := Step.le inv (.elect ballot vacant won : Step sys True A _)
  have pos := (inv.ballot ballot).1
  refine
  { inv with
    leader := fun {T d} h => ?_
    ack := fun {s T l} h => ?_
    base_log := ?_
    log := fun s => (inv.log s).mono le le_rfl
    leaderLog := fun {T} led => ?_ }
  · by_cases same : T = A.current c
    · subst same
      obtain rfl : c = d := by simpa using h
      exact ⟨pos, le_rfl, won, Or.inr ⟨rfl, rfl, by simp⟩⟩
    · exact (inv.leader (by simpa [same] using h)).mono le (by simp [same])
  · rcases h with old | ⟨rfl, rfl, rfl⟩
    · obtain ⟨reached, led, held⟩ := inv.ack old
      have other : T ≠ A.current c := by
        rintro rfl
        rw [vacant] at led
        cases led
      simpa [other] using And.intro reached (And.intro led held)
    · simp
  · have other : (0 : ℕ) ≠ A.current c := by omega
    simpa [other] using inv.base_log
  · by_cases same : T = A.current c
    · subst same
      simpa using (inv.log c).mono le le_rfl
    · have before : A.Led T := by simpa [State.Led, same] using led
      simpa [same] using (inv.leaderLog before).mono le le_rfl

theorem Inv.append {e : E} (leads : A.leader (A.current c) = some c)
    (own : A.log c = A.leaderLog (A.current c)) (term : sys.term e = A.current c) :
    Inv sys (((A.setLog c (A.log c ++ [e])).setLeaderLog (A.current c) (A.log c ++ [e])).addAck c
      (A.current c) (A.log c ++ [e])) := by
  have le := Step.le inv (.append leads own term : Step sys True A _)
  have pos := (inv.leader leads).pos
  -- the new entry is the only one the grown log has and the old one had not
  have grown : State.Kept sys (((A.setLog c (A.log c ++ [e])).setLeaderLog (A.current c)
      (A.log c ++ [e])).addAck c (A.current c) (A.log c ++ [e])) (A.current c) (A.log c ++ [e]) := by
    refine ⟨((inv.log c).traced.mono le).concat ?_ ?_ ?_, fun x member => ?_, (inv.log c).rooted.trans (by simp)⟩
    · rw [term]
      exact le.led (Or.inr (by rw [leads]; rfl))
    · rw [term]
      simp
    · rw [term]
      exact (inv.log c).current
    · rcases mem_append.mp member with earlier | final
      · exact (inv.log c).current x earlier
      · rw [mem_singleton.mp final, term]
  refine
  { inv with
    leader := fun {T d} h => ?_
    ack := fun {s T l} h => ?_
    base_log := ?_
    log := fun s => ?_
    leaderLog := fun {T} led => ?_ }
  · by_cases same : T = A.current c
    · subst same
      obtain rfl : c = d := some.inj (leads.symm.trans h)
      exact ⟨pos, le_rfl, (inv.leader leads).quorum, Or.inr ⟨rfl, rfl, by simp⟩⟩
    · exact (inv.leader h).mono le (by simp [same])
  · rcases h with old | ⟨rfl, rfl, rfl⟩
    · obtain ⟨reached, some, held⟩ := inv.ack old
      exact ⟨reached, some, held.trans (le.leaderLog (Or.inr some))⟩
    · exact ⟨le_rfl, by simp [leads], by simp⟩
  · have other : (0 : ℕ) ≠ A.current c := by omega
    simpa [other] using inv.base_log
  · by_cases same : s = c
    · subst same
      simpa using grown
    · simpa [same] using (inv.log s).mono le le_rfl
  · by_cases same : T = A.current c
    · subst same
      simpa using grown
    · simpa [same] using (inv.leaderLog (T := T) led).mono le le_rfl

theorem Inv.rewrite (some : (A.leader (A.current s)).isSome)
    (rooted : sys.base.length ≤ l.length) (origin : l <+: A.leaderLog (A.current s) ∨ l <+: A.log s) :
    Inv sys (A.setLog s l) := by
  have le := Step.le inv (.rewrite some rooted origin (False.elim ·) : Step sys False A _)
  have kept : A.Kept sys (A.current s) l :=
    origin.elim ((inv.leaderLog (Or.inr some)).sub · rooted) ((inv.log s).sub · rooted)
  refine
  { inv with
    leader := fun h => (inv.leader h).mono le rfl
    log := fun s' => ?_
    leaderLog := fun led => (inv.leaderLog led).mono le le_rfl }
  by_cases same : s' = s
  · subst same
    simpa using kept.mono le le_rfl
  · simpa [same] using (inv.log s').mono le le_rfl

theorem Inv.acknowledge (some : (A.leader (A.current s)).isSome)
    (held : l <+: A.leaderLog (A.current s)) (own : l <+: A.log s) :
    Inv sys (A.addAck s (A.current s) l) := by
  have le := Step.le inv (.acknowledge some held own : Step sys True A _)
  refine
  { inv with
    leader := fun h => (inv.leader h).mono le rfl
    ack := ?_
    log := fun s' => (inv.log s').mono le le_rfl
    leaderLog := fun led => (inv.leaderLog led).mono le le_rfl }
  rintro s' T l' (old | ⟨rfl, rfl, rfl⟩)
  · exact inv.ack old
  · exact ⟨le_rfl, some, held⟩

theorem Inv.step (step : Step sys retaining A B) : Inv sys B := by
  cases step with
  | advance later => exact inv.advance later
  | campaign later => exact inv.campaign later
  | grant ballot recent free => exact inv.grant ballot recent free
  | elect ballot vacant won => exact inv.elect ballot vacant won
  | append leads own term => exact inv.append leads own term
  | rewrite some rooted origin _ => exact inv.rewrite some rooted origin
  | acknowledge some held own => exact inv.acknowledge some held own

theorem Inv.reach (run : Reach sys retaining A B) : Inv sys B ∧ Le A B := by
  induction run with
  | refl => exact ⟨inv, Le.refl A⟩
  | tail _ step ih => exact ⟨ih.1.step step, ih.2.trans (step.le ih.1)⟩

end

end Steps

/-! ## Two winners of one term are one server -/

/-- Voters vote once a term, so two quorums for one term elect one candidate. -/
theorem State.winner_unique {c c' : S} (won : sys.quorum {v | A.vote v T = some c})
    (won' : sys.quorum {v | A.vote v T = some c'}) : c = c' := by
  obtain ⟨v, left, right⟩ := sys.quorum_meet won won'
  exact some.inj (left.symm.trans right)

/-- Two logs with an entry of one term at one position agree up to that position. -/
theorem Inv.matching (inv : Inv sys A) {s s' : S} {init init' : List E} {e' : E}
    (held : init ++ [e] <+: A.log s) (held' : init' ++ [e'] <+: A.log s')
    (position : init.length = init'.length) (term : sys.term e = sys.term e') :
    init ++ [e] = init' ++ [e'] := by
  have same : (init ++ [e]).length = (init' ++ [e']).length := by simp [position]
  rcases (inv.log s).traced.comparable (inv.log s').traced ⟨init, e, rfl, rfl⟩
    ⟨init', e', rfl, term.symm⟩ held held' with shorter | shorter
  · exact shorter.eq_of_length same
  · exact (shorter.eq_of_length same.symm).symm

end Replication
