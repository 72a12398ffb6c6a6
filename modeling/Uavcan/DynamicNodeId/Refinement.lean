import Uavcan.DynamicNodeId.LogReplication

/-!
# A cluster refines log replication

Every action of a cluster is a sequence of moves of the abstract protocol (`Sim.exec`), so every run of a
cluster follows a run of the protocol (`Run.sim`), for any loss, delay and duplication of messages and any
failure of writes. With `retaining` it also tracks commit indices; then the two moves that the code makes
without the checks they need, cutting a log and moving a commit index, come with an obligation (`Obliged`).
-/

namespace Uavcan

open List

open Replication (Reach Inv Le Careful Local)

variable {cfg : ClusterConfig} {retaining : Prop} {s : NodeID} {A : Abstract}

/-! ## Starting a server -/

variable {size : ℕ} {env : Env} {c : Cluster} {a : Action}

/-- A started server is a follower that knows nobody, with the persistent state it found. -/
structure RaftCore.Started (cfg : ClusterConfig) (s : NodeID) (p : PersistentState)
    (r : RaftCore) : Prop where
  stored : r.persistent.Stored
  storedSize : StorageMarshaller.get r.persistent.storage .clusterSize =
    .ok (UInt32.ofNat cfg.size)
  persistent : r.persistent.currentTerm = p.currentTerm ∧ r.persistent.votedFor = p.votedFor ∧
    r.persistent.log = p.log
  cluster : ClusterSim cfg s r.cluster
  fresh : r.serverState = .follower ∧ r.requestVoteCalls = [] ∧ r.appendEntriesCalls = [] ∧
    r.commitIndex = 0 ∧ r.outbox = []

variable {r : RaftCore}

variable {p : PersistentState}

/-- A start is given the size of the cluster, or finds it in the storage. -/
theorem RaftCore.init_started {st : Storage} (run : init cfg.dsdl env s st size = .ok r)
    {st₁ : Storage}
    (restored : PersistentState.init st env.writes = (.ok p, st₁)) (stored : p.Stored)
    (known : size = cfg.size ∧ 0 < cfg.size ∨
      size = 0 ∧ StorageMarshaller.get p.storage .clusterSize = .ok (UInt32.ofNat cfg.size)) :
    Started cfg s p r := by
  obtain ⟨p, st₁, k, st₂, again, manager, rfl⟩ := init_eq run
  cases restored.symm.trans again
  obtain ⟨n, rfl, frame, outcome⟩ := ClusterManager.init_cases manager
  have size : n = cfg.size ∧ StorageMarshaller.get st₂ .clusterSize = .ok (UInt32.ofNat cfg.size) := by
    rcases outcome with ⟨rfl, rfl, value, found, -, -, rfl⟩ | ⟨rfl, given, -, found⟩
    · have stored := (known.resolve_left (by omega)).2
      cases stored.symm.trans found
      have value : (UInt32.ofNat cfg.size).toNat = cfg.size :=
        UInt32.toNat_ofNat_of_lt' (Nat.lt_trans cfg.size_lt (by decide))
      rw [value]
      exact ⟨Nat.mod_eq_of_lt cfg.size_lt, found⟩
    · obtain ⟨rfl, -⟩ := known.resolve_right (by omega)
      exact ⟨rfl, found⟩
  refine ⟨?_, size.2, ⟨rfl, rfl, rfl⟩, ⟨rfl, size.1, nodup_nil, nofun⟩, rfl, rfl, rfl, rfl, rfl⟩
  exact stored.of_log (stored.log.congr frame nofun (by simp)) (frame _ (by simp)) (frame _ (by simp))

/-- A started server is in the relation with any records that agree on its term, vote and log. -/
theorem RaftCore.Started.sim (started : Started cfg s p r)
    (sent : List Message) (current : A.current s = p.currentTerm.toNat) (log : A.log s = p.log.list)
    (vote : ∀ d, A.vote s (A.current s) = some d → d ∈ cfg.members ∧
      (p.votedFor = d ∨ p.votedFor = s)) : ServerSim cfg retaining sent s r A := by
  obtain ⟨stored, storedSize, ⟨term, voted, same⟩, cluster, follower, votes, appends, commit, -⟩ :=
    started
  refine ⟨stored, storedSize, ?_, ?_, ?_, cluster, ?_, fun _ => ?_⟩
  · rw [RaftCore.currentTerm, term, current]
  · rw [RaftCore.log, same, log]
  · rw [voted]
    exact vote
  · unfold RoleSim
    rw [follower]
    exact ⟨votes, appends⟩
  · rw [commit]
    exact .zero _ _

theorem Sim.initial (initial : c.Initial cfg) :
    Sim cfg retaining c (.initial cfg.system) := by
  have each : ∀ s ∈ cfg.members, ∃ p, RaftCore.Started cfg s p (c.server s) ∧ p.currentTerm = 0 ∧
      p.log.list = [Entry.zero] := by
    intro s member
    obtain ⟨env, run⟩ := initial.started s member
    obtain ⟨p, st₁, -, -, restored, -⟩ := RaftCore.init_eq run
    obtain ⟨stored, term, -, list⟩ := PersistentState.init_empty restored
    exact ⟨p, RaftCore.init_started run restored stored
      (.inl ⟨rfl, length_pos_of_mem member⟩), term, list⟩
  refine ⟨.refl, fun s member => ?_, fun s member => ?_, ?_, ?_, ?_⟩
  · obtain ⟨p, started, term, list⟩ := each s member
    refine started.sim _ ?_ ?_ nofun
    · rw [term]
      rfl
    · rw [list]
      rfl
  · obtain ⟨p, started, -, -⟩ := each s member
    exact started.fresh.2.2.2.2
  all_goals simp [initial.sent]

/-! ## The remaining handlers -/

variable {msg : Discovery}

theorem ClusterManager.mem_handleDiscovery {k : ClusterManager} {lastIndex : ℕ} :
    ∀ f ∈ (k.handleDiscovery lastIndex msg).servers, f ∈ k.servers ∨ f.matchIndex = 0 :=
  handleDiscovery_invariant (P := fun x => ∀ f ∈ x.servers, f ∈ k.servers ∨ f.matchIndex = 0) (fun _ => .inl)
    (fun before _ _ _ _ f known => (mem_addServer known).elim (before f) .inr) fun before => before

/-! ## One action -/

/-- What the two moves that the code makes unchecked need to be moves of the protocol: a log that is
cut keeps what it shares with the leader, and a commit index moves over a chosen entry. -/
structure Obliged (cfg : ClusterConfig) (c : Cluster) (A : Abstract) (a : Action) : Prop where
  keeps : ∀ {src call req env}, a = .deliverAppendEntries src call req env →
    .appendEntries src call req ∈ c.sent → call.serverNodeID ∈ cfg.members →
    (c.server call.serverNodeID).Retains A src req env.writes
  advance : ∀ {s env}, a = .timer s env → s ∈ cfg.members →
    (c.server s).serverState = .leader → (c.server s).commitIndex < (c.server s).log.lastIndex →
    (c.server s).cluster.getQuorumSize ≤ (c.server s).numNodesWithNextLogEntryAvailable →
    A.Committed cfg.system (A.current s) (A.log s) ((c.server s).commitIndex + 1)

variable {c' : Cluster}

section

variable (sim : Sim cfg retaining c A)

include sim

theorem Sim.restart (member : s ∈ cfg.members)
    (configured : size = cfg.size ∨ size = 0)
    (run : RaftCore.init cfg.dsdl env s (c.server s).persistent.storage size = .ok r) :
    Handled cfg retaining c s r [] A := by
  have server := sim.server s member
  obtain ⟨p, st₁, -, -, restored, -⟩ := RaftCore.init_eq run
  obtain ⟨stored, storage, term, vote, list⟩ := PersistentState.init_eq_of_stored server.stored restored
  have started := RaftCore.init_started run restored stored <| by
    rcases configured with rfl | rfl
    · exact .inl ⟨rfl, length_pos_of_mem member⟩
    · exact .inr ⟨rfl, storage ▸ server.storedSize⟩
  refine .of_silent (.refl _ _ _ _) (.of_empty started.fresh.2.2.2.2) (started.sim _ ?_ ?_ ?_)
  · rw [term]
    exact server.current
  · rw [list]
    exact server.log
  · rw [vote]
    exact server.vote

theorem Sim.handleTimerEvent (member : s ∈ cfg.members)
    (first : env.transferID = c.nextTransferID)
    (advance : retaining → (c.server s).serverState = .leader →
      (c.server s).commitIndex < (c.server s).log.lastIndex →
      (c.server s).cluster.getQuorumSize ≤ (c.server s).numNodesWithNextLogEntryAvailable →
      A.Committed cfg.system (A.current s) (A.log s) ((c.server s).commitIndex + 1)) :
    Handled cfg retaining c s ((c.server s).handleTimerEvent cfg.dsdl env) [] A := by
  unfold RaftCore.handleTimerEvent
  split
  case h_1 follower => exact sim.updateFollower member follower _ _
  case h_2 candidate => exact sim.updateCandidate member candidate first
  case h_3 leader => exact sim.updateLeader member leader first fun keeps => advance keeps leader

theorem Sim.handleDiscovery (member : s ∈ cfg.members) {src : NodeID}
    (sent : .discovery src msg ∈ c.sent) :
    Handled cfg retaining c s
      { c.server s with
        cluster := (c.server s).cluster.handleDiscovery (c.server s).log.lastIndex msg } [] A := by
  have server := sim.server s member
  have members := sim.messages _ sent
  exact .of_silent (.refl _ _ _ _) (.of_empty (sim.idle s member))
    (server.withCluster (server.cluster.handleDiscovery members _) ClusterManager.mem_handleDiscovery)

theorem Sim.broadcastDiscovery (member : s ∈ cfg.members) :
    Handled cfg retaining c s
      { c.server s with cluster := (c.server s).cluster.handleTimerEvent.1 }
      [.discovery s (c.server s).cluster.handleTimerEvent.2] A := by
  have server := sim.server s member
  have same : (c.server s).cluster.handleTimerEvent.1.servers = (c.server s).cluster.servers ∧
      ClusterSim cfg s (c.server s).cluster.handleTimerEvent.1 := by
    unfold ClusterManager.handleTimerEvent
    split
    · exact ⟨rfl, server.cluster.congr rfl rfl rfl⟩
    · exact ⟨rfl, server.cluster⟩
  refine .of_quiet (.refl _ _ _ _) (.of_empty (sim.idle s member))
    (server.withCluster same.2 fun f known => .inl (same.1 ▸ known)) ?_ ?_
  · simp only [mem_singleton, forall_eq]
    intro node known
    rcases mem_cons.mp known with rfl | other
    · rw [server.cluster.nodeId]
      exact member
    · obtain ⟨f, inside, rfl⟩ := mem_map.mp other
      exact (server.cluster.member f.nodeId (mem_map_of_mem inside)).1
  · simp only [mem_singleton, forall_eq]
    rfl

theorem Sim.callTimeout (member : s ∈ cfg.members)
    (call : ServiceCallID) :
    Handled cfg retaining c s
      { c.server s with
        requestVoteCalls := (c.server s).requestVoteCalls.erase call
        appendEntriesCalls := (c.server s).appendEntriesCalls.erase call } [] A :=
  .of_silent (.refl _ _ _ _) (.of_empty (sim.idle s member))
    (((sim.server s member).endVoteCall call).endAppendCall call)

theorem Sim.careful (keeps : retaining) :
    Careful cfg.system A :=
  (Careful.initial cfg.system).reach (.initial cfg.system) keeps sim.reach

/-- What every action guarantees of the server it happens at. -/
theorem Sim.handle (obliged : retaining → Obliged cfg c A a)
    {replies : List Message} (run : c.handle cfg a = some (s, r, replies)) :
    s ∈ cfg.members ∧ Handled cfg retaining c s r replies A := by
  have idle : ∀ s ∈ cfg.members, (c.server s).Quiet := fun s member => .of_empty (sim.idle s member)
  unfold Cluster.handle at run
  split at run <;> simp only [Option.ite_none_right_eq_some] at run <;> obtain ⟨enabled, run⟩ := run
  case h_1 s env =>
    cases run
    exact ⟨enabled, sim.handleTimerEvent enabled rfl fun keeps => (obliged keeps).advance rfl enabled⟩
  case h_2 s =>
    cases run
    exact ⟨enabled.1, sim.broadcastDiscovery enabled.1⟩
  case h_3 src call req env =>
    cases run
    obtain ⟨sent, member⟩ := enabled
    obtain ⟨B, moved, quiet, after, answered⟩ := (sim.server _ member).handleRequestVoteRequest
      sim.inv member (idle _ member) rfl sent (sim.messages _ sent) rfl
    refine ⟨member, .of_quiet moved quiet after answered fun m inside => ?_⟩
    obtain ⟨_, -, rfl⟩ := mem_map.mp inside
    rfl
  case h_4 dst call resp env =>
    cases run
    obtain ⟨sent, member, waits⟩ := enabled
    exact ⟨member, sim.handleRequestVoteResponse member waits sent⟩
  case h_5 src call req env =>
    cases run
    obtain ⟨sent, member⟩ := enabled
    obtain ⟨B, moved, quiet, after, answered⟩ := (sim.server _ member).handleAppendEntriesRequest
      sim.inv sim.careful (idle _ member) rfl sent (sim.messages _ sent)
      (fun keeps => (obliged keeps).keeps rfl sent member) rfl
    refine ⟨member, .of_quiet moved quiet after answered fun m inside => ?_⟩
    obtain ⟨_, -, rfl⟩ := mem_map.mp inside
    rfl
  case h_6 dst call resp env =>
    cases run
    obtain ⟨sent, member, waits⟩ := enabled
    exact ⟨member, sim.handleAppendEntriesResponse member waits sent⟩
  case h_7 src dst msg =>
    cases run
    exact ⟨enabled.2, sim.handleDiscovery enabled.2 enabled.1⟩
  case h_8 s call =>
    cases run
    exact ⟨enabled, sim.callTimeout enabled call⟩
  case h_9 s uniqueId nodeId env =>
    cases run
    obtain ⟨B, moved, quiet, after⟩ := (sim.server s enabled.1).appendLog sim.inv
      (idle s enabled.1) cfg.dsdl (c.fresh env) uniqueId nodeId
    exact ⟨enabled.1, .of_silent moved quiet after⟩
  case h_10 s size env =>
    split at run
    · cases run
    · rename_i r started
      cases run
      exact ⟨enabled.1, sim.restart enabled.1 enabled.2 started⟩

/-- Every action amounts to moves of the protocol. -/
theorem Sim.exec
    (obliged : retaining → Obliged cfg c A a) (run : c.exec cfg a = some c') :
    ∃ B, Reach cfg.system retaining A B ∧ Sim cfg retaining c' B ∧ Recorded cfg c' A B := by
  obtain ⟨⟨s, r, replies⟩, handled, rfl⟩ := Option.map_eq_some_iff.mp run
  obtain ⟨member, guaranteed⟩ := sim.handle obliged handled
  exact sim.settle_handled member guaranteed

end

/-! ## Whole runs -/

/-- What is known after a run: the records of every state of the run are part of the present ones, and
the log of a term's leader is what that leader held in some state of the run. -/
structure Tracks (cfg : ClusterConfig) (retaining : Prop) (c : Cluster) (past : List Cluster)
    (A : Abstract) : Prop where
  sim : Sim cfg retaining c A
  earlier : ∀ c' ∈ c :: past, ∃ A', Sim cfg retaining c' A' ∧ Le A' A
  led : ∀ v T, A.leader T = some v → ∃ c' ∈ c :: past, v ∈ cfg.members ∧
    (c'.server v).LeadsTerm T ∧ (c'.server v).log.list = A.leaderLog T

theorem ServerSim.leadsTerm {sent : List Message} (sim : ServerSim cfg retaining sent s r A) {T : ℕ}
    (leads : r.LeadsTerm T) :
    A.leader T = some s ∧ r.log.list = A.leaderLog T := by
  obtain ⟨leader, rfl⟩ := leads
  obtain ⟨-, leads⟩ := sim.leads leader
  rw [← sim.current, ← sim.log]
  exact ⟨leads.leader, leads.own⟩

theorem Tracks.start (initial : c.Initial cfg) :
    Tracks cfg retaining c [] (.initial cfg.system) := by
  refine ⟨.initial initial, ?_, nofun⟩
  simp only [mem_singleton, forall_eq]
  exact ⟨_, .initial initial, .refl _⟩

theorem Tracks.step {past : List Cluster} (tracks : Tracks cfg retaining c past A)
    (obliged : retaining → Obliged cfg c A a) (run : c.exec cfg a = some c') :
    ∃ B, Tracks cfg retaining c' (c :: past) B := by
  obtain ⟨B, reach, sim, recorded⟩ := tracks.sim.exec obliged run
  refine ⟨B, sim, fun d member => ?_, fun v T leads => ?_⟩
  · rcases mem_cons.mp member with rfl | older
    · exact ⟨B, sim, .refl B⟩
    · obtain ⟨A', before, le⟩ := tracks.earlier d older
      exact ⟨A', before, le.trans (tracks.sim.inv.reach reach).2⟩
  · rcases recorded v T leads with ⟨before, same⟩ | ⟨member, now⟩
    · obtain ⟨d, older, rest⟩ := tracks.led v T before
      exact ⟨d, mem_cons_of_mem _ older, same ▸ rest⟩
    · exact ⟨c', mem_cons_self, member, now, ((sim.server v member).leadsTerm now).2⟩

variable {allowed : List Cluster → Action → Prop} {states : List Cluster}

/-- Every run follows a run of the protocol, if its steps meet their obligations. -/
theorem Run.tracks
    (obliged : retaining → ∀ {c past A a}, Tracks cfg retaining c past A → allowed (c :: past) a →
      Obliged cfg c A a) (run : Run cfg allowed states) :
    ∃ c past A, states = c :: past ∧ Tracks cfg retaining c past A := by
  induction run with
  | start initial => exact ⟨_, _, _, rfl, .start initial⟩
  | step run permitted exec ih =>
    obtain ⟨c, past, A, same, tracks⟩ := ih
    cases same
    obtain ⟨B, after⟩ := tracks.step (fun keeps => obliged keeps tracks permitted) exec
    exact ⟨_, _, B, rfl, after⟩

theorem Run.tracks_any
    (run : Run cfg allowed states) :
    ∃ c past A, states = c :: past ∧ Tracks cfg False c past A :=
  run.tracks False.elim

end Uavcan
