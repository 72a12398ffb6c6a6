import Uavcan.DynamicNodeId.LogChanges
import Uavcan.DynamicNodeId.Membership
import Uavcan.DynamicNodeId.Safety

/-!
# The assertions of the Raft core

`RaftCore::checkInvariants` is called at the beginning of every handler. Most of what it looks at is a matter
of one server, whatever messages it gets (`RaftCore.Accounted`): a vote is counted for a call that was
pending, and calls are to known servers. The last entry and the vote need the relation to the replication
protocol, since entries come from other servers.
-/

namespace Uavcan

open List

variable {k : ClusterManager} {call : ServiceCallID}

namespace RaftCore

/-! ## The assertions -/

/-- "Term": the last entry exists, and is not of a later term than the current one. -/
def checkTerm (r : RaftCore) : Bool :=
  match r.log.getEntryAtIndex r.log.lastIndex with
  | none => false
  | some entry => entry.term ≤ r.currentTerm

/-- "Elections". -/
def checkElections (r : RaftCore) : Bool :=
  (r.serverState ≠ .candidate || r.requestVoteCalls.isEmpty || r.persistent.votedFor = r.nodeId) &&
    r.numVotesReceivedInThisCampaign ≤ r.cluster.clusterSize

/-- "Transport". -/
def checkTransport (r : RaftCore) : Bool :=
  r.appendEntriesCalls.length ≤ 1 && r.requestVoteCalls.length ≤ r.cluster.getNumKnownServers &&
    (r.serverState ≠ .candidate || r.appendEntriesCalls.isEmpty) &&
    (r.serverState ≠ .leader || r.requestVoteCalls.isEmpty) &&
    (r.serverState ≠ .follower || (r.appendEntriesCalls.isEmpty && r.requestVoteCalls.isEmpty))

/-- The state a callback finds, where only some of the calls are still pending. -/
def withCalls (r : RaftCore) (appendCalls voteCalls : List ServiceCallID) : RaftCore :=
  { r with appendEntriesCalls := appendCalls, requestVoteCalls := voteCalls }

/-! ## Calls and votes of one server -/

/-- Calls are to known servers, and belong to a role; each vote counted was asked for. -/
structure Accounted (r : RaftCore) : Prop where
  voteCalls : (r.requestVoteCalls.map fun call => call.serverNodeID).Sublist
    (r.cluster.servers.map fun f => f.nodeId)
  votes : r.numVotesReceivedInThisCampaign + r.requestVoteCalls.length ≤ r.cluster.servers.length + 1
  unasked : r.numVotesReceivedInThisCampaign = 0 → r.requestVoteCalls = []
  standing : r.serverState ≠ .candidate → r.numVotesReceivedInThisCampaign = 0
  appendCalls : ∀ call ∈ r.appendEntriesCalls, call.serverNodeID ∈ r.cluster.servers.map fun f => f.nodeId
  leading : r.serverState ≠ .leader → r.appendEntriesCalls = []
  single : r.appendEntriesCalls.length ≤ 1
  -- a leader of several servers was elected by one it knows, and its turns go over the known ones
  followers : r.serverState = .leader → 1 < r.cluster.clusterSize → r.cluster.servers ≠ []
  turn : r.nextServerIndex = 0 ∨ r.nextServerIndex < r.cluster.servers.length

namespace Accounted

variable {r r' : RaftCore}

section

variable (accounted : Accounted r)

include accounted

theorem requestVoteCalls (role : r.serverState ≠ .candidate) : r.requestVoteCalls = [] :=
  accounted.unasked (accounted.standing role)

theorem mem_turn (leader : r.serverState = .leader) (several : 1 < r.cluster.clusterSize) :
    r.cluster.getRemoteServerNodeIDAtIndex r.nextServerIndex ∈ r.cluster.servers.map fun f => f.nodeId := by
  have inside : r.nextServerIndex < r.cluster.servers.length := by
    have := length_pos_iff.mpr (accounted.followers leader several)
    rcases accounted.turn with zero | inside
    · omega
    · exact inside
  rw [ClusterManager.getRemoteServerNodeIDAtIndex, List.getElem?_eq_getElem inside]
  exact mem_map_of_mem (getElem_mem inside)

theorem withCluster (extends_ : r.cluster.Extends k) :
    Accounted { r with cluster := k } := by
  have length := extends_.ids.length_le
  rw [length_map, length_map] at length
  refine ⟨accounted.voteCalls.trans extends_.ids.sublist, Nat.le_trans accounted.votes (Nat.succ_le_succ length),
    accounted.unasked, accounted.standing, fun call waits => extends_.ids.subset (accounted.appendCalls call waits),
    accounted.leading, accounted.single, fun leader several empty => ?_, ?_⟩
  · refine accounted.followers leader (extends_.size ▸ several) (eq_nil_of_length_eq_zero ?_)
    rw [empty] at length
    exact Nat.eq_zero_of_le_zero length
  · exact accounted.turn.imp id fun inside => Nat.lt_of_lt_of_le inside length

theorem switch {newState : ServerState} {lastIndex : ℕ}
    (won : newState = .leader → r.serverState = .candidate ∧
      r.cluster.getQuorumSize ≤ r.numVotesReceivedInThisCampaign) :
    Accounted
      { r with
        serverState := newState
        cluster := r.cluster.resetAllServerIndices lastIndex
        nextServerIndex := 0
        numVotesReceivedInThisCampaign := 0
        requestVoteCalls := []
        appendEntriesCalls := [] } := by
  refine ⟨nil_sublist _, by simp, fun _ => rfl, fun _ => rfl, by simp, fun _ => rfl, Nat.zero_le _,
    fun leader several empty => ?_, .inl rfl⟩
  -- the votes of a quorum of several servers are not its own alone
  have votes := (won leader).2
  have counted := accounted.votes
  have several : 1 < r.cluster.clusterSize := several
  have none : r.cluster.servers = [] := map_eq_nil_iff.mp empty
  rw [none, length_nil] at counted
  unfold ClusterManager.getQuorumSize at votes
  omega

theorem abandon {calls votes : List ServiceCallID}
    (fewer : calls.Sublist r.appendEntriesCalls) (fewerVotes : votes.Sublist r.requestVoteCalls)
    (fields : PendingAppendEntriesFields) :
    Accounted
      { r with
        requestVoteCalls := votes
        appendEntriesCalls := calls
        pendingAppendEntriesFields := fields } := by
  have counted := accounted.votes
  have length := fewerVotes.length_le
  refine ⟨(fewerVotes.map _).trans accounted.voteCalls, by simp only; omega, fun zero => ?_, accounted.standing,
    fun call waits => accounted.appendCalls call (fewer.subset waits), fun role => ?_,
    Nat.le_trans fewer.length_le accounted.single, accounted.followers, accounted.turn⟩
  · exact sublist_nil.mp (accounted.unasked zero ▸ fewerVotes)
  · exact sublist_nil.mp (accounted.leading role ▸ fewer)

theorem count (few : r.cluster.servers.length < 255)
    (waits : call ∈ r.requestVoteCalls) :
    Accounted
      { r with
        requestVoteCalls := r.requestVoteCalls.erase call
        numVotesReceivedInThisCampaign := toIndex (r.numVotesReceivedInThisCampaign + 1) } := by
  have counted := accounted.votes
  have length := length_erase_of_mem waits
  have pos := length_pos_of_mem waits
  have index : toIndex (r.numVotesReceivedInThisCampaign + 1) = r.numVotesReceivedInThisCampaign + 1 :=
    Nat.mod_eq_of_lt (by omega)
  refine ⟨(erase_sublist.map _).trans accounted.voteCalls, ?_, fun zero => ?_, fun role => ?_,
    accounted.appendCalls, accounted.leading, accounted.single, accounted.followers, accounted.turn⟩
  · simp only [index]
    omega
  · simp only [index] at zero
    omega
  · rw [accounted.requestVoteCalls role] at waits
    cases waits

theorem advance : Accounted r.advanceNextServer := by
  refine { accounted with turn := ?_ }
  unfold advanceNextServer
  simp only
  split
  case isTrue => exact .inl rfl
  case isFalse inside => exact .inr (Nat.lt_of_not_le inside)

end

end Accounted

variable {r : RaftCore}

theorem Move.accounted {r' : RaftCore} (few : r.cluster.servers.length < 255) (accounted : Accounted r)
    (move : Move r r') : Accounted r' := by
  cases move with
  | other => exact { accounted with }
  | switch newState lastIndex changed won => exact accounted.switch won
  | enlist lastIndex unicast unknown isOpen =>
    exact accounted.withCluster (ClusterManager.extends_addServer _ _ _)
  | campaign candidate uncounted known =>
    have length := known.length_le
    rw [length_map, length_map] at length
    have none := accounted.unasked uncounted
    refine { accounted with voteCalls := ?_, votes := ?_, unasked := nofun, standing := ?_ }
    · rw [none]
      exact known
    · simp only [none, nil_append]
      omega
    · exact fun role => absurd candidate role
  | count waits => exact accounted.count few waits
  | abandon calls votes fields fewer fewerVotes => exact accounted.abandon fewer fewerVotes fields
  | query leader several idle fields single dst =>
    refine { accounted with appendCalls := fun call waits => ?_, leading := ?_, single := single }
    · rw [dst call waits]
      exact accounted.mem_turn leader several
    · exact fun role => absurd leader role
  | advance => exact accounted.advance
  | reindex nodeId size ids => exact accounted.withCluster ⟨nodeId, size, ids ▸ prefix_rfl⟩

variable {dsdl : Dsdl}

theorem Moves.accounted (small : dsdl.maxClusterSize < 256) {r' : RaftCore}
    (membership : r.cluster.Membership dsdl) (accounted : Accounted r) (moves : Moves r r') : Accounted r' := by
  refine (moves.invariant (P := fun x => x.cluster.Membership dsdl ∧ Accounted x) ⟨membership, accounted⟩
    fun {x y} before move => ⟨(move.membership before.1).1, ?_⟩).2
  have count := before.1.count
  have fits := before.1.fits
  exact move.accounted (by omega) before.2

theorem init_accounted {env : Env} {nodeId : NodeID} {st : Storage} {size : ℕ}
    (run : init dsdl env nodeId st size = .ok r) : Accounted r := by
  obtain ⟨p, st₁, k, st₂, -, -, rfl⟩ := init_eq run
  exact ⟨nil_sublist _, Nat.zero_le _, fun _ => rfl, fun _ => rfl, by simp [construct, registerActivity],
    fun _ => rfl, Nat.zero_le _, nofun, .inl rfl⟩

end RaftCore

/-! ## Servers of a cluster -/

variable {cfg : ClusterConfig} {retaining : Prop} {s : NodeID} {A : Abstract}

/-- The members a server knows are fewer than the cluster has. -/
theorem ClusterSim.membership (sim : ClusterSim cfg s k) (member : s ∈ cfg.members) :
    k.Membership { cfg.dsdl with maxClusterSize := cfg.size } := by
  have distinct : (s :: k.servers.map fun f => f.nodeId).Nodup :=
    nodup_cons.mpr ⟨fun known => (sim.member s known).2 rfl, sim.nodup⟩
  have inside : (s :: k.servers.map fun f => f.nodeId) ⊆ cfg.members :=
    cons_subset.mpr ⟨member, fun id known => (sim.member id known).1⟩
  have length := (distinct.subperm inside).length_le
  rw [length_cons, length_map] at length
  refine ⟨Nat.le_of_eq sim.size, sim.size ▸ length, sim.nodup, fun id known => ?_⟩
  obtain ⟨remote, other⟩ := sim.member id known
  exact ⟨cfg.unicast id remote, sim.nodeId ▸ other⟩

variable {c : Cluster} {r : RaftCore}

variable {a : Action}

/-- What an action does to the server at which it happens: moves, or a new start. -/
theorem Sim.moves_handle (sim : Sim cfg retaining c A) {replies : List Message}
    (run : c.handle cfg a = some (s, r, replies)) :
    RaftCore.Moves (c.server s) r ∨ ∃ env st size, RaftCore.init cfg.dsdl env s st size = .ok r := by
  obtain ⟨-, handles⟩ := sim.handles run
  cases handles with
  | calm calm => exact .inl calm.moves
  | commit calm eq => exact .inl (eq ▸ calm.moves.trans (RaftCore.moves_propagateCommitIndex _))
  | accept calm follower eq => exact .inl (eq ▸ calm.moves.trans (RaftCore.moves_acceptAppendEntries _ _ _))
  | append eq => exact .inl (eq ▸ RaftCore.moves_appendLog _ _ _ _ _)
  | restart started => exact .inr ⟨_, _, _, started⟩

/-- Every server of a cluster keeps account of its calls and votes. -/
theorem Sim.accounted_exec {c' : Cluster} (sim : Sim cfg retaining c A)
    (accounted : ∀ s ∈ cfg.members, (c.server s).Accounted) (run : c.exec cfg a = some c') :
    ∀ s ∈ cfg.members, (c'.server s).Accounted := by
  obtain ⟨⟨actor, r, replies⟩, handled, rfl⟩ := Option.map_eq_some_iff.mp run
  intro s member
  by_cases same : s = actor
  · subst same
    have after : r.Accounted := by
      rcases sim.moves_handle handled with moves | ⟨env, st, size, started⟩
      · exact moves.accounted cfg.size_lt ((sim.server s member).cluster.membership member) (accounted s member)
      · exact RaftCore.init_accounted started
    rw [Cluster.settle_self]
    exact { after with }
  · rw [Cluster.settle_other same]
    exact accounted s member

variable {allowed : List Cluster → Action → Prop}

theorem Run.accounted {past : List Cluster}
    (run : Run cfg allowed (c :: past)) : ∀ s ∈ cfg.members, (c.server s).Accounted := by
  generalize seen : c :: past = states at run
  induction run generalizing c past with
  | start initial =>
    cases seen
    intro s member
    obtain ⟨env, started⟩ := initial.started s member
    exact RaftCore.init_accounted started
  | step run _ exec ih =>
    cases seen
    obtain ⟨d, past', A, same, tracks⟩ := run.tracks_any
    cases same
    exact tracks.sim.accounted_exec (ih rfl) exec

/-! ## The assertions hold -/

variable {sent : List Message}

theorem ServerSim.checkTerm (inv : Replication.Inv cfg.system A)
    (sim : ServerSim cfg retaining sent s r A) : r.checkTerm := by
  have found : r.log.getEntryAtIndex r.log.lastIndex = some (r.log.entries r.log.lastIndex) := if_pos (Nat.le_refl _)
  have inside : r.log.entries r.log.lastIndex ∈ A.log s := by
    rw [sim.log]
    refine mem_of_getElem? (i := r.log.lastIndex) ?_
    rw [Log.getElem?_list, found]
  have bound := (inv.log s).current _ inside
  rw [sim.current] at bound
  unfold RaftCore.checkTerm
  rw [found]
  exact decide_eq_true (UInt32.le_iff_toNat_le.mpr bound)

/-- A candidate that waits for votes has voted for itself. -/
theorem ServerSim.votedForItself (inv : Replication.Inv cfg.system A)
    (sim : ServerSim cfg retaining sent s r A) (waits : call ∈ r.requestVoteCalls) :
    r.persistent.votedFor = r.nodeId := by
  obtain ⟨-, -, -, campaign⟩ := sim.campaigns waits
  rw [RaftCore.nodeId, sim.cluster.nodeId]
  obtain ⟨-, voted | voted⟩ := sim.vote s ((inv.ballot campaign.ballot).2.2)
  · exact voted
  · exact voted

theorem RaftCore.Accounted.checkTransport (accounted : r.Accounted) : r.checkTransport := by
  have known := accounted.voteCalls.length_le
  rw [length_map, length_map] at known
  have single := accounted.single
  unfold RaftCore.checkTransport
  cases role : r.serverState with
  | follower =>
    simp [accounted.requestVoteCalls (by simp [role]), accounted.leading (by simp [role])]
  | candidate =>
    have idle := accounted.leading (by simp [role])
    simp [idle, ClusterManager.getNumKnownServers, known]
  | leader =>
    have idle := accounted.requestVoteCalls (by simp [role])
    simp [idle, single]

theorem RaftCore.Accounted.checkElections (accounted : r.Accounted)
    (count : r.cluster.servers.length + 1 ≤ r.cluster.clusterSize)
    (voted : ∀ call ∈ r.requestVoteCalls, r.persistent.votedFor = r.nodeId) : r.checkElections := by
  have votes := accounted.votes
  have bound : r.numVotesReceivedInThisCampaign ≤ r.cluster.clusterSize := by omega
  unfold RaftCore.checkElections
  rcases waiting : r.requestVoteCalls with _ | ⟨call, rest⟩
  · simp [bound]
  · have own := voted call (by rw [waiting]; exact mem_cons_self)
    simp [bound, own]

theorem Run.term_monotone {states : List Cluster}
    (run : Run cfg allowed states) (member : s ∈ cfg.members) :
    states.Pairwise fun later earlier => (earlier.server s).currentTerm ≤ (later.server s).currentTerm := by
  induction run with
  | start initial => exact pairwise_singleton _ _
  | step run permitted exec ih =>
    refine pairwise_cons.mpr ⟨fun earlier seen => ?_, ih⟩
    obtain ⟨c, past, A, same, tracks⟩ := (run.step permitted exec).tracks_any
    cases same
    obtain ⟨B, sim, le⟩ := tracks.earlier earlier (mem_cons_of_mem _ seen)
    have current := le.current s
    rw [(sim.server s member).current, (tracks.sim.server s member).current] at current
    exact UInt32.le_iff_toNat_le.mpr current

/-- In every state of a run, and after any of the pending calls have ended, the assertions about the log, the votes and
the calls hold; a call waits for a leader or a candidate; and no term has ever decreased. -/
theorem Run.assertions_hold {allowed : List Cluster → Action → Prop} {c : Cluster} {past : List Cluster}
    (run : Run cfg allowed (c :: past)) (member : s ∈ cfg.members) :
    (∀ appendCalls voteCalls, appendCalls.Sublist (c.server s).appendEntriesCalls →
      voteCalls.Sublist (c.server s).requestVoteCalls →
      ((c.server s).withCalls appendCalls voteCalls).checkTerm ∧
        ((c.server s).withCalls appendCalls voteCalls).checkElections ∧
        ((c.server s).withCalls appendCalls voteCalls).checkTransport) ∧
    ((c.server s).appendEntriesCalls ≠ [] → (c.server s).serverState = .leader) ∧
    ((c.server s).requestVoteCalls ≠ [] → (c.server s).serverState = .candidate) ∧
    (c :: past).Pairwise fun later earlier => (earlier.server s).currentTerm ≤ (later.server s).currentTerm := by
  have accounted := run.accounted s member
  obtain ⟨c, past, A, same, tracks⟩ := run.tracks_any
  cases same
  have server := tracks.sim.server s member
  have term : (c.server s).checkTerm := server.checkTerm tracks.sim.inv
  have voted : ∀ call ∈ (c.server s).requestVoteCalls, (c.server s).persistent.votedFor = (c.server s).nodeId :=
    fun call => server.votedForItself tracks.sim.inv
  refine ⟨fun appendCalls voteCalls fewer fewerVotes => ?_, fun waits => ?_, fun waits => ?_,
    run.term_monotone member⟩
  · have ended : ((c.server s).withCalls appendCalls voteCalls).Accounted :=
      accounted.abandon fewer fewerVotes (c.server s).pendingAppendEntriesFields
    refine ⟨term, ?_, ended.checkTransport⟩
    exact ended.checkElections (server.cluster.membership member).count fun call waits =>
      voted call (fewerVotes.subset waits)
  · by_contra role
    exact waits (accounted.leading role)
  · by_contra role
    exact waits (accounted.requestVoteCalls role)

/-- In a cluster of three, the first server becomes a candidate and asks the third one for its vote. -/
theorem Run.assertions_hold_trio : ∃ c past, Run Trio.config (fun _ _ => True) (c :: past) ∧
    (c.server ⟨1⟩).requestVoteCalls ≠ [] ∧ (c.server ⟨1⟩).checkElections := by
  obtain ⟨c, past, run, asks⟩ := Run.exists_of_play (fun _ _ => True) Trio.initial
    (Trio.discovery ++ [.timer ⟨1⟩ (Trio.at_ 10000000), .timer ⟨1⟩ (Trio.at_ 10000000)])
    (fun c => (c.server ⟨1⟩).requestVoteCalls ≠ []) (by decide +kernel)
  have holds := (run.assertions_hold (s := ⟨1⟩) (by decide)).1 _ _ (List.Sublist.refl _) (List.Sublist.refl _)
  exact ⟨c, past, run, asks, holds.2.1⟩

end Uavcan
