import Uavcan.DynamicNodeId.Refinement

/-!
# Election safety and log matching

In every run of a cluster, whatever is lost, duplicated, delayed or not written, no server votes for two
candidates of one term, no term has two leaders, and two logs that hold an entry of one term at one
index agree up to there.  Both follow from the records of the abstract protocol.
-/

namespace Uavcan

open Replication (Inv Le)

variable {cfg : ClusterConfig} {retaining : Prop} {s : NodeID} {A : Abstract}

/-! ## Votes -/

/-- Server `v` has sent a vote for `d` in term `T`, or is the candidate `d` and counts its own vote. -/
def Cluster.Voted (c : Cluster) (v : NodeID) (T : Term) (d : NodeID) : Prop :=
  (∃ m ∈ c.sent, ∃ id, m = .requestVoteResponse d ⟨v, id⟩ ⟨T, true⟩) ∨
    (v = d ∧ (c.server v).serverState = .candidate ∧
      0 < (c.server v).numVotesReceivedInThisCampaign ∧ (c.server v).currentTerm = T)

theorem Sim.voted {c : Cluster} (sim : Sim cfg retaining c A) {v d : NodeID} {T : Term}
    (member : v ∈ cfg.members) (voted : c.Voted v T d) : A.vote v T.toNat = some d := by
  rcases voted with ⟨m, sent, id, rfl⟩ | ⟨rfl, candidate, counted, rfl⟩
  · exact (sim.messages _ sent rfl).1
  · have server := sim.server v member
    have role := server.role
    unfold RoleSim at role
    rw [candidate] at role
    obtain ⟨-, ⟨none, -⟩ | ⟨-, campaign⟩⟩ := role
    · omega
    · rw [← server.current]
      exact (sim.inv.ballot campaign.ballot).2.2

/-- No server votes for two candidates of one term, and no two servers lead one term; the votes, and the
leaders, may be seen at any two moments of a run. -/
theorem Run.election_safety {allowed : List Cluster → Action → Prop} {states : List Cluster}
    (run : Run cfg allowed states) {c c' : Cluster} (seen : c ∈ states) (seen' : c' ∈ states) :
    (∀ v ∈ cfg.members, ∀ T d d', c.Voted v T d → c'.Voted v T d' → d = d') ∧
      ∀ s ∈ cfg.members, ∀ s' ∈ cfg.members, (c.server s).serverState = .leader →
        (c'.server s').serverState = .leader →
        (c.server s).currentTerm = (c'.server s').currentTerm → s = s' := by
  obtain ⟨final, past, A, rfl, tracks⟩ := run.tracks_any
  obtain ⟨B, sim, le⟩ := tracks.earlier c seen
  obtain ⟨B', sim', le'⟩ := tracks.earlier c' seen'
  refine ⟨fun v member T d d' voted voted' => ?_, fun s member s' member' leads leads' term => ?_⟩
  · have vote := le.vote (sim.voted member voted)
    have vote' := le'.vote (sim'.voted member voted')
    exact Option.some.inj (vote.symm.trans vote')
  · have leader := le.leader ((sim.server s member).leadsTerm ⟨leads, rfl⟩).1
    have leader' := le'.leader ((sim'.server s' member').leadsTerm ⟨leads', rfl⟩).1
    rw [← term] at leader'
    exact Option.some.inj (leader.symm.trans leader')

/-! A cluster of three servers in which the first one is elected with the vote of the third. -/

namespace Trio

def config : ClusterConfig := ⟨⟨5, 1, 2000, 4000⟩, [⟨1⟩, ⟨2⟩, ⟨3⟩], by decide, by decide⟩

/-- Surroundings in which every write and every call succeeds. -/
def at_ (now : ℕ) : Env := ⟨now, 0, 0, fun _ => true, Writes.all⟩

def boot : Cluster := .boot config (at_ 0)

theorem initial : boot.Initial config := .boot (by decide +kernel)

/-- The first and the second server get to know the third one, and it them. -/
def discovery : List Action :=
  [.discoveryTimer ⟨3⟩, .deliverDiscovery ⟨3⟩ ⟨1⟩ ⟨3, [3]⟩, .deliverDiscovery ⟨3⟩ ⟨2⟩ ⟨3, [3]⟩,
    .discoveryTimer ⟨1⟩, .deliverDiscovery ⟨1⟩ ⟨3⟩ ⟨3, [1, 3]⟩, .discoveryTimer ⟨2⟩,
    .deliverDiscovery ⟨2⟩ ⟨3⟩ ⟨3, [2, 3]⟩]

/-- Server `s` times out and is elected with the vote of the third server. -/
def elect (s : NodeID) (now : ℕ) (id : ℕ) (req : RequestVoteRequest) : List Action :=
  [.timer s (at_ now), .timer s (at_ now), .deliverRequestVote s ⟨⟨3⟩, id⟩ req (at_ now),
    .deliverRequestVoteResponse s ⟨⟨3⟩, id⟩ ⟨req.term, true⟩ (at_ now), .timer s (at_ now)]

end Trio

theorem Run.election_safety_trio : ∃ c past, Run Trio.config (fun _ _ => True) (c :: past) ∧
    c.Voted ⟨3⟩ 1 ⟨1⟩ ∧ (c.server ⟨1⟩).serverState = .leader ∧
    ∀ d, c.Voted ⟨3⟩ 1 d → (⟨1⟩ : NodeID) = d := by
  obtain ⟨c, past, run, sent, leader⟩ := Run.exists_of_play (fun _ _ => True) Trio.initial
    (Trio.discovery ++ Trio.elect ⟨1⟩ 10000000 0 ⟨1, 0, 0⟩)
    (fun c => .requestVoteResponse ⟨1⟩ ⟨⟨3⟩, 0⟩ ⟨1, true⟩ ∈ c.sent ∧ (c.server ⟨1⟩).serverState = .leader)
    (by decide +kernel)
  have voted : c.Voted ⟨3⟩ 1 ⟨1⟩ := .inl ⟨_, sent, _, rfl⟩
  have safe := run.election_safety List.mem_cons_self List.mem_cons_self
  exact ⟨c, past, run, voted, leader, fun d => safe.1 ⟨3⟩ (by decide) 1 ⟨1⟩ d voted⟩

/-! ## Logs -/

theorem ServerSim.take_sub {sent : List Message} {r : RaftCore}
    (sim : ServerSim cfg retaining sent s r A) {i : ℕ} {e : Entry}
    (held : r.log.getEntryAtIndex i = some e) :
    (r.log.list.take i).length = i ∧ r.log.list.take i ++ [e] <+: A.log s := by
  have below := Log.le_of_getEntryAtIndex held
  refine ⟨by simp; omega, ?_⟩
  rw [← Log.take_list held, sim.log]
  exact List.take_prefix _ _

/-- Two servers with an entry of one term at one index have equal logs up to that index. -/
theorem Run.log_matching {allowed : List Cluster → Action → Prop} {states : List Cluster}
    (run : Run cfg allowed states) {c : Cluster} (seen : c ∈ states) {s s' : NodeID}
    (member : s ∈ cfg.members) (member' : s' ∈ cfg.members) {i : ℕ} {e e' : Entry}
    (held : (c.server s).log.getEntryAtIndex i = some e)
    (held' : (c.server s').log.getEntryAtIndex i = some e') (term : e.term = e'.term) :
    ∀ j ≤ i, (c.server s).log.getEntryAtIndex j = (c.server s').log.getEntryAtIndex j := by
  obtain ⟨final, past, A, rfl, tracks⟩ := run.tracks_any
  obtain ⟨B, sim, -⟩ := tracks.earlier c seen
  obtain ⟨known, sub⟩ := (sim.server s member).take_sub held
  obtain ⟨known', sub'⟩ := (sim.server s' member').take_sub held'
  have same := sim.inv.matching sub sub' (known.trans known'.symm) (congrArg UInt32.toNat term)
  rw [← Log.take_list held, ← Log.take_list held'] at same
  intro j below
  have at_j := congrArg (fun l => l[j]?) same
  simp only [List.getElem?_take_of_lt (Nat.lt_succ_of_le below), Log.getElem?_list] at at_j
  exact at_j

theorem Run.log_matching_trio : ∃ c past, Run Trio.config (fun _ _ => True) (c :: past) ∧
    (c.server ⟨1⟩).log.getEntryAtIndex 1 = some ⟨1, Vector.replicate 16 7, 10⟩ ∧
    ∀ j ≤ 1, (c.server ⟨1⟩).log.getEntryAtIndex j = (c.server ⟨3⟩).log.getEntryAtIndex j := by
  obtain ⟨c, past, run, first, third⟩ := Run.exists_of_play (fun _ _ => True) Trio.initial
    (Trio.discovery ++ Trio.elect ⟨1⟩ 10000000 0 ⟨1, 0, 0⟩ ++
      [.appendLog ⟨1⟩ (Vector.replicate 16 7) ⟨10⟩ (Trio.at_ 0), .timer ⟨1⟩ (Trio.at_ 0),
        .deliverAppendEntries ⟨1⟩ ⟨⟨3⟩, 2⟩ ⟨1, 0, 0, 0, [⟨1, Vector.replicate 16 7, 10⟩]⟩ (Trio.at_ 0)])
    (fun c => (c.server ⟨1⟩).log.getEntryAtIndex 1 = some ⟨1, Vector.replicate 16 7, 10⟩ ∧
      (c.server ⟨3⟩).log.getEntryAtIndex 1 = some ⟨1, Vector.replicate 16 7, 10⟩) (by decide +kernel)
  exact ⟨c, past, run, first,
    run.log_matching List.mem_cons_self (by decide) (by decide) first third rfl⟩

end Uavcan
