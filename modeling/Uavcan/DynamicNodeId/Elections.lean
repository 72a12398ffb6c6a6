import Uavcan.DynamicNodeId.Relation

/-!
# Elections

The handlers that change roles, terms and votes, each as moves of one server of the replication
protocol: a campaign, a granted vote, a counted vote, a won election, and the retreat to follower that
every failed write of the persistent state causes.
-/

namespace Uavcan

open Replication (Reach Inv Le Careful Local)
open List
open PersistentState

variable {cfg : ClusterConfig} {retaining : Prop} {leading : ℕ → Prop} {sent : List Message} {s : NodeID}
  {r : RaftCore} {A : Abstract}

/-! ## Known servers -/

variable {k : ClusterManager} {p : PersistentState} {term : Term} {dsdl : Dsdl} {env : Env}
  {req : RequestVoteRequest} {c : Cluster}

theorem ClusterSim.congr {k' : ClusterManager} (sim : ClusterSim cfg s k) (nodeId : k'.nodeId = k.nodeId)
    (size : k'.clusterSize = k.clusterSize)
    (ids : k'.servers.map (fun f => f.nodeId) = k.servers.map (fun f => f.nodeId)) :
    ClusterSim cfg s k' :=
  ⟨nodeId.trans sim.nodeId, size.trans sim.size, ids ▸ sim.nodup, ids ▸ sim.member⟩

theorem ClusterSim.reset (sim : ClusterSim cfg s k) (lastIndex : ℕ) :
    ClusterSim cfg s (k.resetAllServerIndices lastIndex) := by
  refine sim.congr rfl rfl ?_
  simp [ClusterManager.resetAllServerIndices, ClusterManager.Server.resetIndices]

theorem ClusterManager.map_modifyServer (id : NodeID) {f : Server → Server}
    (keeps : ∀ x, (f x).nodeId = x.nodeId) (servers : List Server) :
    (modifyServer id f servers).map (fun x => x.nodeId) = servers.map fun x => x.nodeId := by
  induction servers with
  | nil => rfl
  | cons x rest ih =>
    simp only [modifyServer]
    split
    · simp [keeps]
    · simp [ih]

variable {id : NodeID}

theorem ClusterManager.not_isKnownServer (unknown : k.isKnownServer id = false) :
    id ≠ k.nodeId ∧ id ∉ k.servers.map fun x => x.nodeId := by
  simp only [isKnownServer, Bool.or_eq_false_iff, decide_eq_false_iff_not, any_eq_false,
    decide_eq_true_eq] at unknown
  refine ⟨unknown.1, fun member => ?_⟩
  obtain ⟨x, inside, same⟩ := mem_map.mp member
  exact unknown.2 x inside same

theorem ClusterSim.addServer (sim : ClusterSim cfg s k) (member : id ∈ cfg.members) (lastIndex : ℕ) :
    ClusterSim cfg s (k.addServer id lastIndex) := by
  unfold ClusterManager.addServer
  split
  case isFalse => exact sim
  case isTrue unknown =>
    simp only [Bool.and_eq_true, Bool.not_eq_true'] at unknown
    obtain ⟨other, absent⟩ := ClusterManager.not_isKnownServer unknown.1
    refine ⟨sim.nodeId, sim.size, ?_, ?_⟩
    · simp only [map_append, map_cons, map_nil]
      rw [nodup_append]
      refine ⟨sim.nodup, by simp, ?_⟩
      simp only [mem_singleton]
      rintro x inside _ rfl rfl
      exact absent inside
    · simp only [map_append, map_cons, map_nil, mem_append, mem_singleton]
      rintro x (old | rfl)
      · exact sim.member x old
      · exact ⟨member, fun own => other (own.trans sim.nodeId.symm)⟩

theorem ClusterSim.handleDiscovery (sim : ClusterSim cfg s k) {msg : Discovery}
    (known : ∀ node ∈ msg.knownNodes, ⟨node⟩ ∈ cfg.members) (lastIndex : ℕ) :
    ClusterSim cfg s (k.handleDiscovery lastIndex msg) :=
  ClusterManager.handleDiscovery_invariant sim (fun sim inside _ _ _ => sim.addServer (known _ inside) lastIndex)
    fun sim => sim.congr rfl rfl rfl

/-! ## Switching roles -/

/-- A change of role drops what the old role knew and emits nothing but a callback. -/
theorem RaftCore.switchState_cases (r : RaftCore) (newState : ServerState) :
    (r.serverState = newState ∧ r.switchState newState = r) ∨
      (r.serverState ≠ newState ∧ ∃ outs : List Output,
        (∀ out ∈ outs, ∃ leads, out = .localLeadershipChange leads) ∧
        r.switchState newState =
          { r with
            serverState := newState
            cluster := r.cluster.resetAllServerIndices r.log.lastIndex
            nextServerIndex := 0
            numVotesReceivedInThisCampaign := 0
            requestVoteCalls := []
            appendEntriesCalls := []
            outbox := r.outbox ++ outs }) := by
  unfold switchState
  by_cases same : r.serverState = newState
  · exact .inl ⟨same, if_pos same⟩
  · refine .inr ⟨same, ?_⟩
    simp only [same, if_false]
    split
    · exact ⟨[_], fun out member => ⟨_, mem_singleton.mp member⟩, rfl⟩
    · exact ⟨[], by simp, by simp⟩

theorem RaftCore.switchState_persistent (r : RaftCore) (p : PersistentState) (newState : ServerState)
    (last : p.log.lastIndex = r.log.lastIndex) :
    ({ r with persistent := p }).switchState newState =
      { r.switchState newState with persistent := p } := by
  unfold RaftCore.switchState
  simp only [RaftCore.log] at last ⊢
  split
  · rfl
  · rw [last]
    split <;> rfl

theorem RaftCore.Quiet.switchState (quiet : r.Quiet) (newState : ServerState) :
    (r.switchState newState).Quiet := by
  rcases r.switchState_cases newState with ⟨-, same⟩ | ⟨-, outs, silent, changed⟩
  · rw [same]
    exact quiet
  · rw [changed]
    intro out member
    rcases mem_append.mp member with old | new
    · exact quiet out old
    · obtain ⟨leads, rfl⟩ := silent out new
      rfl

theorem RaftCore.switchState_keeps (r : RaftCore) (newState : ServerState) :
    (r.switchState newState).serverState = newState ∧
      (r.switchState newState).persistent = r.persistent ∧
      (r.switchState newState).commitIndex = r.commitIndex := by
  rcases r.switchState_cases newState with ⟨role, same⟩ | ⟨-, outs, -, changed⟩
  · rw [same]
    exact ⟨role, rfl, rfl⟩
  · rw [changed]
    exact ⟨rfl, rfl, rfl⟩

theorem RaftCore.switchState_core {newState : ServerState} (changed : r.serverState ≠ newState) :
    (r.switchState newState).core =
      ({ r with
        serverState := newState
        cluster := r.cluster.resetAllServerIndices r.log.lastIndex
        numVotesReceivedInThisCampaign := 0
        requestVoteCalls := []
        appendEntriesCalls := [] } : RaftCore).core := by
  rcases r.switchState_cases newState with ⟨same, -⟩ | ⟨-, outs, -, eq⟩
  · exact absurd same changed
  · rw [eq]
    rfl

/-! ## Newer terms -/

variable {w : Writes} {result : Except Err Unit}

/-- What `updateTerm` does: it fails with the old term or the new one, and succeeds with the term of
the request or a later one. -/
theorem RaftCore.updateTerm_cases {p' : PersistentState}
    (run : updateTerm p term w = (result, p')) (stored : p.Stored) :
    p'.Stored ∧ p'.log = p.log ∧ p'.storage .clusterSize = p.storage .clusterSize ∧
      (p' = p ∨ (p'.currentTerm = term ∧ p.currentTerm < term)) ∧
      (result = .ok () → term ≤ p'.currentTerm) := by
  unfold updateTerm at run
  split at run
  case isFalse older =>
    cases run
    exact ⟨stored, rfl, rfl, .inl rfl, fun _ => UInt32.not_lt.mp older⟩
  case isTrue newer =>
  split at run
  case h_1 err p₁ set =>
    cases run
    obtain ⟨stored₁, log, -, size, failed, -⟩ := setCurrentTerm_cases set stored
    exact ⟨stored₁, log, size, .inl (failed nofun), nofun⟩
  case h_2 p₁ set =>
    obtain ⟨stored₁, log, -, size, -, taken⟩ := setCurrentTerm_cases set stored
    obtain ⟨stored₂, log₂, term₂, size₂, -⟩ := setVotedFor_cases run stored₁
    have now := term₂.trans (taken rfl).1
    exact ⟨stored₂, log₂.trans log, size₂.trans size, .inr ⟨now, newer⟩, fun _ => now ▸ UInt32.le_refl _⟩

/-- Switching first and storing the persistent state then gives the same. -/
theorem RaftCore.registerActivity_switchState_core (r : RaftCore) (p : PersistentState) (dsdl : Dsdl)
    (env : Env) (last : p.log.lastIndex = r.log.lastIndex) :
    ((({ r with persistent := p } : RaftCore).registerActivity dsdl env).switchState .follower).core =
      ({ r.switchState .follower with persistent := p } : RaftCore).core := by
  rw [← switchState_persistent r p .follower last]
  by_cases same : r.serverState = .follower
  · simp [switchState, registerActivity, core, same]
  · rw [switchState_core (by simpa [registerActivity] using same),
      switchState_core (by simpa using same)]
    rfl

/-- A failed write of a new term, or after it, ends in the follower state. -/
theorem RaftCore.handlePersistentStateUpdateError_core (r : RaftCore) (dsdl : Dsdl) (env : Env)
    (last : p.log.lastIndex = r.log.lastIndex) :
    (({ r with persistent := p }).handlePersistentStateUpdateError dsdl env).core =
      ({ r.switchState .follower with persistent := p } : RaftCore).core := by
  rw [handlePersistentStateUpdateError, switchState_persistent r p .follower last]
  rfl

/-! ## Voting -/

theorem ClusterConfig.lastTerm_list (cfg : ClusterConfig) (log : Log) :
    cfg.system.lastTerm log.list = (log.entries log.lastIndex).term.toNat := by
  rw [Log.list, range_succ, map_append, map_singleton,
    Replication.System.lastTerm_concat]
  rfl

theorem Log.upToDate_of_isOtherLogUpToDate (cfg : ClusterConfig) {log : Log} {l : List Entry} {index : ℕ}
    (length : l.length = index + 1) (last : cfg.system.lastTerm l = term.toNat)
    (test : log.isOtherLogUpToDate index term) :
    cfg.system.UpToDate l log.list := by
  unfold isOtherLogUpToDate at test
  unfold Replication.System.UpToDate
  rw [cfg.lastTerm_list, last, length, length_list]
  split at test
  · exact .inl (UInt32.lt_iff_toNat_lt.mp (of_decide_eq_true test))
  · rename_i same
    rw [Decidable.not_not.mp same]
    exact .inr ⟨rfl, Nat.succ_le_succ (of_decide_eq_true test)⟩

/-! ## Campaigns -/

variable {calls : List ServiceCallID} {call : ServiceCallID}

theorem not_mem_map_erase
    (nodup : (calls.map fun call => call.serverNodeID).Nodup) (member : call ∈ calls) :
    call.serverNodeID ∉ (calls.erase call).map fun call => call.serverNodeID := by
  have split := (perm_cons_erase member).map fun call => call.serverNodeID
  exact (nodup_cons.mp (split.nodup_iff.mp nodup)).1

section

variable (sim : ServerSim cfg retaining sent s r A)

include sim

/-- Retreating to follower is always possible. -/
theorem ServerSim.follow :
    ServerSim cfg retaining sent s (r.switchState .follower) A := by
  by_cases same : r.serverState = .follower
  · simpa [RaftCore.switchState, same] using sim
  · refine ServerSim.congr ?_ (RaftCore.switchState_core same)
    exact { sim with cluster := sim.cluster.reset _, role := ⟨rfl, rfl⟩ }

theorem ServerSim.stand
    (follower : r.serverState = .follower) :
    ServerSim cfg retaining sent s (r.switchState .candidate) A := by
  refine ServerSim.congr ?_ (RaftCore.switchState_core (by simp [follower]))
  exact { sim with cluster := sim.cluster.reset _, role := ⟨rfl, Or.inl ⟨rfl, rfl⟩⟩ }

/-- A follower knows nothing but its persistent state, which may be replaced. -/
theorem ServerSim.persist {B : Abstract}
    (follower : r.serverState = .follower) (stored : p.Stored)
    (size : p.storage .clusterSize = r.persistent.storage .clusterSize) (current : B.current s = p.currentTerm.toNat)
    (log : B.log s = p.log.list)
    (vote : ∀ d, B.vote s (B.current s) = some d → d ∈ cfg.members ∧ (p.votedFor = d ∨ p.votedFor = s))
    (commit : retaining → B.Committed cfg.system (B.current s) (B.log s) r.commitIndex) :
    ServerSim cfg retaining sent s { r with persistent := p } B where
  stored := stored
  storedSize := (StorageMarshaller.get_congr size).trans sim.storedSize
  current := current
  log := log
  vote := vote
  cluster := sim.cluster
  role := by
    have role := sim.role
    unfold RoleSim at role ⊢
    rw [follower] at role
    simp only [follower]
    exact role
  commit := commit

theorem ServerSim.follow_persist (stored : p.Stored)
    (size : p.storage .clusterSize = r.persistent.storage .clusterSize) (term : p.currentTerm = r.currentTerm)
    (log : p.log = r.persistent.log)
    (vote : ∀ d, A.vote s (A.current s) = some d → d ∈ cfg.members ∧ (p.votedFor = d ∨ p.votedFor = s)) :
    ServerSim cfg retaining sent s { r.switchState .follower with persistent := p } A := by
  obtain ⟨follows, persistent, commit⟩ := r.switchState_keeps .follower
  refine sim.follow.persist follows stored (persistent ▸ size) ?_ ?_ vote (commit ▸ sim.commit)
  · rw [term]
    exact sim.current
  · rw [log]
    exact sim.log

/-- The term of a follower moves on; whatever it stores as its vote, it has not voted yet. -/
theorem ServerSim.advance (inv : Inv cfg.system A)
    (follower : r.serverState = .follower) (stored : p.Stored)
    (size : p.storage .clusterSize = r.persistent.storage .clusterSize) (log : p.log = r.persistent.log)
    (later : r.currentTerm < p.currentTerm) :
    Local cfg.system retaining leading s A (A.setCurrent s p.currentTerm.toNat) ∧
      ServerSim cfg retaining sent s { r with persistent := p }
        (A.setCurrent s p.currentTerm.toNat) := by
  have later : A.current s < p.currentTerm.toNat := by
    rw [sim.current]
    exact UInt32.lt_iff_toNat_lt.mp later
  refine ⟨.advance later, sim.persist follower stored size (by simp) ?_ (fun d vote => ?_) fun keeps => ?_⟩
  · rw [log]
    exact sim.log
  · simp only [Replication.State.setCurrent_current, Function.update_self] at vote
    have := (inv.vote vote).1
    omega
  · have le : Le A (A.setCurrent s p.currentTerm.toNat) :=
      (Local.advance later : Local cfg.system retaining leading s A _).le inv
    exact ((sim.commit keeps).mono le).later (le.current s)

theorem ServerSim.updateTerm (inv : Inv cfg.system A)
    (follower : r.serverState = .follower)
    (run : RaftCore.updateTerm r.persistent term w = (result, p)) :
    ∃ B, Local cfg.system retaining leading s A B ∧ B.log = A.log ∧ B.leaderLog = A.leaderLog ∧
      B.leader = A.leader ∧ ServerSim cfg retaining sent s { r with persistent := p } B := by
  obtain ⟨stored, log, size, same | ⟨now, later⟩, -⟩ := RaftCore.updateTerm_cases run sim.stored
  · subst same
    exact ⟨A, .refl _ _ _ _, rfl, rfl, rfl, sim⟩
  · obtain ⟨moved, after⟩ := sim.advance inv follower stored size log
      (show r.currentTerm < p.currentTerm by rw [now]; exact later)
    exact ⟨_, moved, rfl, rfl, rfl, after⟩

/-- A newer term in a response ends the campaign or the leadership. -/
theorem ServerSim.tryIncrement (inv : Inv cfg.system A)
    (dsdl : Dsdl) (env : Env) (newTerm : Term) :
    ∃ B, Local cfg.system retaining leading s A B ∧
      ServerSim cfg retaining sent s (r.tryIncrementCurrentTermFromResponse dsdl env newTerm) B := by
  rcases run : r.persistent.setCurrentTerm newTerm env.writes.term with ⟨result, p⟩
  obtain ⟨stored, log, vote, size, failed, taken⟩ := setCurrentTerm_cases run sim.stored
  have last : p.log.lastIndex = r.log.lastIndex := by rw [log]; rfl
  have shape : (r.tryIncrementCurrentTermFromResponse dsdl env newTerm).core =
      ({ r.switchState .follower with persistent := p } : RaftCore).core := by
    unfold RaftCore.tryIncrementCurrentTermFromResponse
    rw [run]
    exact r.registerActivity_switchState_core p dsdl env last
  obtain ⟨follows, same_p, -⟩ := r.switchState_keeps .follower
  by_cases later : r.currentTerm < p.currentTerm
  · obtain ⟨moved, after⟩ := sim.follow.advance inv follows stored (by rw [same_p]; exact size)
      (by rw [same_p]; exact log) (by rw [RaftCore.currentTerm, same_p]; exact later)
    exact ⟨_, moved, after.congr shape⟩
  · have now : p.currentTerm = r.currentTerm := by
      by_cases ok : result = .ok ()
      · obtain ⟨rfl, upward⟩ := taken ok
        exact UInt32.le_antisymm (UInt32.not_lt.mp later) upward
      · exact congrArg PersistentState.currentTerm (failed ok)
    refine ⟨A, .refl _ _ _ _, (sim.follow_persist stored size now log ?_).congr shape⟩
    rw [vote]
    exact sim.vote

theorem ServerSim.retreat (dsdl : Dsdl) (env : Env) :
    ServerSim cfg retaining sent s (r.handlePersistentStateUpdateError dsdl env) A :=
  sim.follow.congr rfl

variable {src : NodeID} {r' : RaftCore} {resp : Option RequestVoteResponse}

theorem ServerSim.voteOnRequest (member : s ∈ cfg.members)
    (quiet : r.Quiet) (dst : call.serverNodeID = s)
    (started : .requestVote src call req ∈ sent)
    (meaning : MessageSim cfg retaining sent A (.requestVote src call req)) (bound : req.term ≤ r.currentTerm)
    (run : r.voteOnRequest dsdl env src req = (r', resp)) :
    ∃ B, Local cfg.system retaining leading s A B ∧ r'.Quiet ∧ ServerSim cfg retaining sent s r' B ∧
      ∀ m ∈ resp.toList.map (.requestVoteResponse src call), MessageSim cfg retaining sent B m := by
  unfold RaftCore.voteOnRequest at run
  simp only at run
  split at run
  case isTrue =>
    cases run
    exact ⟨A, .refl _ _ _ _, quiet, sim, .of_some nofun⟩
  case isFalse notOlder =>
  have now : req.term = r.currentTerm := UInt32.le_antisymm bound (UInt32.not_lt.mp notOlder)
  split at run
  case isFalse =>
    cases run
    exact ⟨A, .refl _ _ _ _, quiet, sim, .of_some nofun⟩
  case isTrue grants =>
  obtain ⟨canVote, recent⟩ := Bool.and_eq_true_iff.mp grants
  obtain ⟨candidate, other, l, ballot, length, last⟩ := meaning
  -- the state from which the vote is stored
  have ready : ServerSim cfg retaining sent s ((r.switchState .follower).registerActivity dsdl env) A :=
    sim.follow.congr rfl
  obtain ⟨follows, same_p, same_commit⟩ := r.switchState_keeps .follower
  have quiet' : ((r.switchState .follower).registerActivity dsdl env).Quiet :=
    quiet.switchState .follower
  split at run
  case h_1 err p store =>
    cases run
    obtain ⟨-, -, -, -, failed, -⟩ := setVotedFor_cases store ready.stored
    rw [failed nofun]
    exact ⟨A, .refl _ _ _ _, quiet', ready, by simp⟩
  case h_2 p store =>
    cases run
    obtain ⟨stored, log, term, size, -, voted⟩ := setVotedFor_cases store ready.stored
    have current : A.current s = req.term.toNat := by rw [sim.current, now]
    rw [← current] at ballot
    -- an earlier vote of this term is stored, and it is the candidate's
    have free : A.vote s (A.current s) = none ∨ A.vote s (A.current s) = some src := by
      rcases vote : A.vote s (A.current s) with _ | d
      · exact .inl rfl
      · obtain ⟨inside, voted⟩ := sim.vote d vote
        have isSet : r.persistent.isVotedForSet = true := by
          rcases voted with same | same
          · rw [isVotedForSet, same]
            exact cfg.unicast d inside
          · rw [isVotedForSet, same]
            exact cfg.unicast s member
        simp only [isSet, Bool.not_true, Bool.false_or, decide_eq_true_eq] at canVote
        rcases voted with same | same
        · exact .inr (by rw [← same, canVote])
        · exact absurd (canVote.symm.trans (same.trans dst.symm)) other
    have recent : cfg.system.UpToDate l (A.log s) := by
      rw [sim.log]
      exact Log.upToDate_of_isOtherLogUpToDate cfg length last recent
    refine ⟨_, .grant ballot recent free, quiet', ready.persist follows stored size ?_ ?_ ?_ ready.commit,
      .of_some fun _ => ⟨?_, req, started, now⟩⟩
    · rw [term]
      exact ready.current
    · rw [log]
      exact ready.log
    · intro d vote
      obtain rfl : src = d := by simpa using vote
      exact ⟨candidate, .inl (voted rfl)⟩
    · rw [dst, ← sim.current]
      simp

theorem ServerSim.handleRequestVoteRequest (inv : Inv cfg.system A) (member : s ∈ cfg.members) (quiet : r.Quiet)
    (dst : call.serverNodeID = s) (started : .requestVote src call req ∈ sent)
    (meaning : MessageSim cfg retaining sent A (.requestVote src call req))
    (run : r.handleRequestVoteRequest dsdl env src req = (r', resp)) :
    ∃ B, Local cfg.system retaining leading s A B ∧ r'.Quiet ∧ ServerSim cfg retaining sent s r' B ∧
      ∀ m ∈ resp.toList.map (.requestVoteResponse src call), MessageSim cfg retaining sent B m := by
  unfold RaftCore.handleRequestVoteRequest at run
  split at run
  case isTrue =>
    cases run
    exact ⟨A, .refl _ _ _ _, quiet, sim, by simp⟩
  case isFalse =>
  by_cases newer : req.term > r.currentTerm
  · simp only [newer] at run
    have ready := sim.follow
    have quiet' := quiet.switchState .follower
    obtain ⟨follows, -, -⟩ := r.switchState_keeps .follower
    split at run
    case h_1 err p update =>
      cases run
      obtain ⟨B, moved, -, -, -, after⟩ := ready.updateTerm inv follows update
      have quiet_p : ({ r.switchState .follower with persistent := p } : RaftCore).Quiet := quiet'
      exact ⟨B, moved, quiet_p.switchState .follower, after.retreat dsdl env, by simp⟩
    case h_2 p update =>
      obtain ⟨B, moved, -, -, -, after⟩ := ready.updateTerm inv follows update
      obtain ⟨-, -, -, -, reached⟩ := RaftCore.updateTerm_cases update ready.stored
      obtain ⟨C, moved', rest⟩ := after.voteOnRequest member quiet' dst started
        (meaning.mono (moved.le inv) (List.Subset.refl _)) (reached rfl) run
      exact ⟨C, moved.trans inv moved', rest⟩
  · have same : RaftCore.updateTerm r.persistent req.term env.writes = (.ok (), r.persistent) := by
      exact if_neg newer
    simp only [newer, if_false, same] at run
    exact sim.voteOnRequest member quiet dst started meaning (UInt32.not_lt.mp newer) run

/-- A candidate that waits for a vote is in its campaign. -/
theorem ServerSim.campaigns
    (waits : call ∈ r.requestVoteCalls) :
    r.serverState = .candidate ∧ r.appendEntriesCalls = [] ∧
      0 < r.numVotesReceivedInThisCampaign ∧ Campaigns cfg sent s r A := by
  have role := sim.role
  unfold RoleSim at role
  cases role_eq : r.serverState with
  | follower =>
    rw [role_eq] at role
    rw [role.1] at waits
    cases waits
  | candidate =>
    rw [role_eq] at role
    rcases role.2 with ⟨-, none⟩ | ⟨counted, campaign⟩
    · rw [none] at waits
      cases waits
    · exact ⟨rfl, role.1, counted, campaign⟩
  | leader =>
    rw [role_eq] at role
    rw [role.1] at waits
    cases waits

/-- Forgetting a pending vote, for a timeout or an answer, loses no knowledge. -/
theorem ServerSim.endVoteCall (call : ServiceCallID) :
    ServerSim cfg retaining sent s
      { r with requestVoteCalls := r.requestVoteCalls.erase call } A := by
  refine { sim with role := ?_ }
  refine sim.role.imp rfl rfl (fun idle => by simp [idle]) id
    (fun campaign => ⟨campaign.ballot, campaign.unled, ?_, ?_, ?_⟩) fun leads => { leads with }
  · obtain ⟨V, inside, card, voted, waiting⟩ := campaign.voters
    exact ⟨V, inside, card, voted, fun c member => waiting c (mem_of_mem_erase member)⟩
  · exact campaign.nodup.sublist (erase_sublist.map _)
  · exact fun c member => campaign.calls c (mem_of_mem_erase member)

/-- A granted vote that arrives while its call is pending is counted once. -/
theorem ServerSim.countVote
    (waits : call ∈ r.requestVoteCalls) (voted : A.vote call.serverNodeID (A.current s) = some s) :
    ServerSim cfg retaining sent s
      { r with
        requestVoteCalls := r.requestVoteCalls.erase call
        numVotesReceivedInThisCampaign := toIndex (r.numVotesReceivedInThisCampaign + 1) } A := by
  obtain ⟨candidate, idle, counted, campaign⟩ := sim.campaigns waits
  obtain ⟨V, inside, card, votes, waiting⟩ := campaign.voters
  have new : call.serverNodeID ∉ V := waiting call waits
  have inside' : insert call.serverNodeID V ⊆ cfg.members.toFinset := by
    refine Finset.insert_subset ?_ inside
    exact mem_toFinset.mpr (campaign.calls call waits).1
  have card' : (insert call.serverNodeID V).card = r.numVotesReceivedInThisCampaign + 1 := by
    rw [Finset.card_insert_of_notMem new, card]
  have bound : r.numVotesReceivedInThisCampaign + 1 < 256 := by
    have le := Finset.card_le_card inside'
    rw [card', cfg.card_members] at le
    exact Nat.lt_of_le_of_lt le cfg.size_lt
  have count : toIndex (r.numVotesReceivedInThisCampaign + 1) =
      r.numVotesReceivedInThisCampaign + 1 := Nat.mod_eq_of_lt bound
  refine { sim with role := ?_ }
  rw [candidate]
  refine ⟨idle, .inr ⟨?_, campaign.ballot, campaign.unled, ?_, ?_, ?_⟩⟩
  · rw [count]
    exact Nat.succ_pos _
  · refine ⟨insert call.serverNodeID V, inside', card'.trans count.symm, ?_, ?_⟩
    · intro v member
      rcases Finset.mem_insert.mp member with rfl | old
      · exact voted
      · exact votes v old
    · intro c member
      rw [Finset.mem_insert, not_or]
      refine ⟨fun same => ?_, waiting c (mem_of_mem_erase member)⟩
      exact not_mem_map_erase campaign.nodup waits (mem_map.mpr ⟨c, member, same⟩)
  · exact campaign.nodup.sublist (erase_sublist.map _)
  · exact fun c member => campaign.calls c (mem_of_mem_erase member)

end

theorem RaftCore.Quiet.tryIncrement (quiet : r.Quiet) (dsdl : Dsdl) (env : Env) (newTerm : Term) :
    (r.tryIncrementCurrentTermFromResponse dsdl env newTerm).Quiet := by
  have before : (({ r with
      persistent := (r.persistent.setCurrentTerm newTerm env.writes.term).2 } :
      RaftCore).registerActivity dsdl env).Quiet := quiet
  exact before.switchState .follower

theorem Sim.handleRequestVoteResponse (sim : Sim cfg retaining c A) (member : s ∈ cfg.members)
    {resp : RequestVoteResponse} (waits : call ∈ (c.server s).requestVoteCalls)
    (answered : .requestVoteResponse s call resp ∈ c.sent) :
    Handled cfg retaining c s
      (({ c.server s with
        requestVoteCalls := (c.server s).requestVoteCalls.erase call } :
        RaftCore).handleRequestVoteResponse dsdl env resp) [] A := by
  have server := sim.server s member
  have idle := RaftCore.Quiet.of_empty (sim.idle s member)
  have ended := server.endVoteCall call
  have quiet : ({ c.server s with
      requestVoteCalls := (c.server s).requestVoteCalls.erase call } : RaftCore).Quiet := idle
  unfold RaftCore.handleRequestVoteResponse
  split
  · obtain ⟨B, moved, after⟩ := ended.tryIncrement sim.inv dsdl env resp.term
    exact .of_silent moved (quiet.tryIncrement dsdl env resp.term) after
  · split
    case isFalse => exact .of_silent (.refl _ _ _ _) quiet ended
    case isTrue granted =>
      obtain ⟨-, -, -, campaign⟩ := server.campaigns waits
      obtain ⟨vote, req, started, term⟩ := sim.messages _ answered granted
      obtain ⟨-, own, started', term'⟩ := campaign.calls call waits
      -- the call has one request, so the vote was cast in the term of this campaign
      cases sim.unique _ started _ started' call rfl rfl
      rw [← term, term', ← server.current] at vote
      exact .of_silent (.refl _ _ _ _) idle (server.countVote waits vote)

theorem RaftCore.Numbered.emit {first : ℕ} (numbered : r.Numbered first) {out : Output}
    (id : ∀ call, out.startedCall = some call → call.transferID = first + r.outbox.length) :
    (r.emit out).Numbered first := by
  intro i out' call at_i started
  rcases Nat.lt_or_ge i r.outbox.length with inside | outside
  · rw [RaftCore.emit, List.getElem?_append_left inside] at at_i
    exact numbered i out' call at_i started
  · rw [RaftCore.emit, List.getElem?_append_right outside] at at_i
    have last : i - r.outbox.length < 1 := (List.getElem?_eq_some_iff.mp at_i).1
    have zero : i - r.outbox.length = 0 := by omega
    rw [zero] at at_i
    obtain rfl : out = out' := by simpa using at_i
    rw [id call started]
    omega

/-- The loop that requests votes registers calls to distinct known servers and emits one request for
each of them. -/
theorem RaftCore.requestVotes_spec (env : Env) (req : RequestVoteRequest)
    (servers : List ClusterManager.Server) (r : RaftCore) :
    ∃ calls outs, requestVotes env req servers r =
        { r with
          requestVoteCalls := r.requestVoteCalls ++ calls
          outbox := r.outbox ++ outs } ∧
      (calls.map fun call => call.serverNodeID).Sublist (servers.map fun f => f.nodeId) ∧
      (∀ call ∈ calls, .requestVote call req ∈ outs) ∧
      (∀ out ∈ outs, ∃ call, out = .requestVote call req ∧
        call.serverNodeID ∈ servers.map fun f => f.nodeId) ∧
      (r.Numbered env.transferID → (requestVotes env req servers r).Numbered env.transferID) := by
  induction servers generalizing r with
  | nil => exact ⟨[], [], by simp [requestVotes]⟩
  | cons f rest ih =>
    simp only [requestVotes]
    split
    case isFalse =>
      exact ⟨[], [], by simp⟩
    case isTrue =>
      obtain ⟨calls, outs, eq, sublist, registered, requests, numbered⟩ :=
        ih (r.callRequestVote env f.nodeId req)
      let call := r.nextCallID env f.nodeId
      have kept : r.Numbered env.transferID →
          (r.callRequestVote env f.nodeId req).Numbered env.transferID := by
        intro before
        refine RaftCore.Numbered.emit (r := { r with requestVoteCalls := _ }) before ?_
        rintro _ ⟨⟩
        rfl
      have request : ∀ out ∈ Output.requestVote call req :: outs, ∃ call, out = .requestVote call req ∧
          call.serverNodeID ∈ (f :: rest).map fun f => f.nodeId := by
        intro out member
        rcases mem_cons.mp member with rfl | later
        · exact ⟨call, rfl, by simp [call, nextCallID]⟩
        · obtain ⟨call', same, inside⟩ := requests out later
          exact ⟨call', same, mem_cons_of_mem _ inside⟩
      by_cases registers : env.callOk f.nodeId
      · refine ⟨call :: calls, .requestVote call req :: outs, ?_, sublist.cons_cons _, ?_, request,
          fun before => numbered (kept before)⟩
        · rw [eq]
          simp [callRequestVote, emit, registers, call]
        · intro c member
          rcases mem_cons.mp member with rfl | later
          · exact mem_cons_self
          · exact mem_cons_of_mem _ (registered c later)
      · refine ⟨calls, .requestVote call req :: outs, ?_, sublist.cons _, ?_, request,
          fun before => numbered (kept before)⟩
        · rw [eq]
          simp [callRequestVote, emit, registers, call]
        · exact fun c member => mem_cons_of_mem _ (registered c member)

theorem toNat_add_one (upward : term ≤ term + 1) : (term + 1).toNat = term.toNat + 1 := by
  have value := UInt32.le_iff_toNat_le.mp upward
  rw [UInt32.toNat_add] at value ⊢
  simp only [UInt32.reduceToNat] at value ⊢
  omega

/-- The start of a campaign: the new term and the vote are stored, and the request carries the log
the candidate stands with. -/
theorem ServerSim.campaign (inv : Inv cfg.system A) (member : s ∈ cfg.members)
    (sim : ServerSim cfg retaining sent s r A) (candidate : r.serverState = .candidate)
    (idle : r.requestVoteCalls = [] ∧ r.appendEntriesCalls = []) (stored : p.Stored)
    (size : p.storage .clusterSize = r.persistent.storage .clusterSize) (log : p.log = r.persistent.log)
    (voted : p.votedFor = s) (next : p.currentTerm.toNat = r.currentTerm.toNat + 1)
    (term : req.term = p.currentTerm) (nodup : (calls.map fun call => call.serverNodeID).Nodup)
    (remote : ∀ call ∈ calls, call.serverNodeID ∈ cfg.members ∧ call.serverNodeID ≠ s)
    (started : ∀ call ∈ calls, .requestVote s call req ∈ sent) (out : List Output) :
    Local cfg.system retaining leading s A (((A.setCurrent s p.currentTerm.toNat).setVote s
        p.currentTerm.toNat s).setBallot s p.currentTerm.toNat (A.log s)) ∧
      ServerSim cfg retaining sent s
        { r with
          persistent := p
          numVotesReceivedInThisCampaign := 1
          requestVoteCalls := calls
          outbox := out }
        (((A.setCurrent s p.currentTerm.toNat).setVote s p.currentTerm.toNat s).setBallot s
          p.currentTerm.toNat (A.log s)) := by
  have later : A.current s < p.currentTerm.toNat := by
    rw [sim.current]
    omega
  have moved : Local cfg.system retaining leading s A _ := .campaign later
  have le := moved.le inv
  refine ⟨moved, stored, (StorageMarshaller.get_congr size).trans sim.storedSize, ?_, ?_, ?_,
    sim.cluster, ?_, ?_⟩
  · simp [RaftCore.currentTerm]
  · rw [RaftCore.log, log]
    exact sim.log
  · intro d vote
    obtain rfl : s = d := by simpa using vote
    exact ⟨member, .inl voted⟩
  · simp only [candidate]
    refine ⟨idle.2, .inr ⟨Nat.one_pos, by simp, ?_, ?_, nodup, ?_⟩⟩
    · -- a server has led no term it has not reached
      intro leads
      simp only [Replication.State.setBallot_current, Replication.State.setVote_current,
        Replication.State.setCurrent_current, Function.update_self] at leads
      have := (inv.leader leads).current
      omega
    · refine ⟨{s}, by simpa using member, by simp, by simp, fun call waits => ?_⟩
      simpa using (remote call waits).2
    · exact fun call waits => ⟨(remote call waits).1, req, started call waits, term⟩
  · intro keeps
    exact ((sim.commit keeps).mono le).later (le.current s)

theorem Sim.startCampaign (sim : Sim cfg retaining c A) (member : s ∈ cfg.members)
    (candidate : (c.server s).serverState = .candidate)
    (idle : (c.server s).requestVoteCalls = [] ∧ (c.server s).appendEntriesCalls = [])
    (first : env.transferID = c.nextTransferID) :
    Handled cfg retaining c s ((c.server s).startCampaign cfg.dsdl env) [] A := by
  have server := sim.server s member
  have quiet := RaftCore.Quiet.of_empty (sim.idle s member)
  unfold RaftCore.startCampaign
  rcases vote : (c.server s).persistent.setVotedFor (c.server s).nodeId env.writes.vote with
    ⟨result₁, p₁⟩
  obtain ⟨stored₁, log₁, term₁, size₁, failed₁, voted⟩ := setVotedFor_cases vote server.stored
  have quiet₁ : ({ c.server s with persistent := p₁ } : RaftCore).Quiet := quiet
  cases result₁ with
  | error err =>
    obtain rfl := failed₁ nofun
    exact .of_silent (.refl _ _ _ _) (quiet.switchState .follower) (server.retreat _ _)
  | ok =>
  have voted := voted rfl
  rw [RaftCore.nodeId, server.cluster.nodeId] at voted
  rcases increment : p₁.setCurrentTerm (p₁.currentTerm + 1) env.writes.term with ⟨result₂, p₂⟩
  obtain ⟨stored₂, log₂, voted₂, size₂, failed₂, taken⟩ := setCurrentTerm_cases increment stored₁
  simp only [increment]
  cases result₂ with
  | error err =>
    -- the vote is stored without the term it was meant for
    obtain rfl := failed₂ nofun
    have last : p₂.log.lastIndex = (c.server s).log.lastIndex := by rw [log₁]; rfl
    have after := server.follow_persist stored₁ size₁ term₁ log₁ fun d vote => ⟨(server.vote d vote).1, .inr voted⟩
    exact .of_silent (.refl _ _ _ _) (quiet₁.switchState .follower)
      (after.congr ((c.server s).handlePersistentStateUpdateError_core cfg.dsdl env last))
  | ok =>
  obtain ⟨now, upward⟩ := taken rfl
  have next : p₂.currentTerm.toNat = (c.server s).currentTerm.toNat + 1 := by
    rw [now, toNat_add_one upward, term₁]
    rfl
  obtain ⟨calls, outs, eq, sublist, registered, requests, numbered⟩ :=
    RaftCore.requestVotes_spec env
      ⟨p₂.currentTerm, (p₂.log.entries p₂.log.lastIndex).term, p₂.log.lastIndex⟩
      ((c.server s).cluster.servers.take (cfg.dsdl.maxClusterSize - 1))
      { c.server s with persistent := p₂, numVotesReceivedInThisCampaign := 1 }
  have known := (take_sublist (cfg.dsdl.maxClusterSize - 1) (c.server s).cluster.servers).map
    fun f => f.nodeId
  have numbered := numbered (quiet.numbered _)
  simp only [RaftCore.currentTerm, RaftCore.log]
  rw [eq] at numbered ⊢
  simp only [idle.1, sim.idle s member] at numbered ⊢
  -- every request in the outbox is one of this campaign
  have emitted : ∀ out ∈ outs, ∃ call, out.message s = some (.requestVote s call
      ⟨p₂.currentTerm, (p₂.log.entries p₂.log.lastIndex).term, p₂.log.lastIndex⟩) ∧
      call.serverNodeID ∈ cfg.members ∧ call.serverNodeID ≠ s := by
    intro out inside
    obtain ⟨call, rfl, remote⟩ := requests out inside
    exact ⟨call, rfl, server.cluster.member _ (known.subset remote)⟩
  have known_more : ServerSim cfg retaining (c.sent ++ (outs.filterMap (Output.message s) ++ [])) s
      (c.server s) A := server.more (subset_append_left _ _)
  obtain ⟨moved, after⟩ := known_more.campaign sim.inv member candidate idle stored₂
    (size₂.trans size₁) (log₂.trans log₁) (voted₂.trans voted) next rfl
    ((sublist.trans known).nodup server.cluster.nodup)
    (fun call inside => server.cluster.member _ ((sublist.trans known).subset
      (mem_map_of_mem inside)))
    (fun call inside => mem_append_right _ (mem_append_left _
      (mem_filterMap.mpr ⟨_, registered call inside, rfl⟩))) outs
  refine ⟨_, moved, first ▸ numbered, after, fun m inside => ?_, by simp⟩
  rw [append_nil] at inside
  obtain ⟨out, inside, sends⟩ := mem_filterMap.mp inside
  obtain ⟨call, request, -, other⟩ := emitted out inside
  cases sends.symm.trans request
  have log : A.log s = p₂.log.list := by
    rw [server.log, log₂, log₁]
    rfl
  refine ⟨member, other.symm, A.log s, by simp, ?_, ?_⟩
  · rw [log, Log.length_list]
  · rw [log, cfg.lastTerm_list]

/-! ## Timer events of followers and candidates -/

/-- A won election: the votes counted are a majority, and the term has no other leader. -/
theorem ServerSim.win (inv : Inv cfg.system A) (sim : ServerSim cfg retaining sent s r A)
    (candidate : r.serverState = .candidate) (campaign : Campaigns cfg sent s r A)
    (won : r.cluster.getQuorumSize ≤ r.numVotesReceivedInThisCampaign) :
    ∃ B, Local cfg.system retaining (r.switchState .leader).LeadsTerm s A B ∧
      ServerSim cfg retaining sent s (r.switchState .leader) B := by
  obtain ⟨leads, same, -⟩ := r.switchState_keeps .leader
  obtain ⟨V, inside, card, votes, -⟩ := campaign.voters
  have quorum : cfg.system.quorum {v | A.vote v (A.current s) = some s} := by
    refine ⟨V, inside, votes, ?_⟩
    rw [cfg.card_members, card, ← sim.cluster.size]
    exact won
  have vacant : A.leader (A.current s) = none := by
    rcases led : A.leader (A.current s) with _ | d
    · rfl
    · have same := Replication.State.winner_unique ((inv.leader led).quorum) quorum
      exact absurd (same ▸ led) campaign.unled
  have may : (r.switchState .leader).LeadsTerm (A.current s) := by
    refine ⟨leads, ?_⟩
    rw [RaftCore.currentTerm, same]
    exact sim.current
  have moved : Local cfg.system retaining _ s A _ := .elect may campaign.ballot vacant quorum
  refine ⟨_, moved, ServerSim.congr ?_ (RaftCore.switchState_core (by simp [candidate]))⟩
  refine { sim with cluster := sim.cluster.reset _, role := ?_, commit := ?_ }
  · refine ⟨rfl, by simp, by simp, ?_, by simp, by simp⟩
    intro f known
    simp only [ClusterManager.resetAllServerIndices, mem_map] at known
    obtain ⟨g, -, rfl⟩ := known
    exact .inl rfl
  · exact fun keeps => (sim.commit keeps).mono (moved.le inv)

theorem Sim.updateFollower (sim : Sim cfg retaining c A) (member : s ∈ cfg.members)
    (follower : (c.server s).serverState = .follower) (dsdl : Dsdl) (env : Env) :
    Handled cfg retaining c s ((c.server s).updateFollower dsdl env) [] A := by
  have server := sim.server s member
  have quiet := RaftCore.Quiet.of_empty (sim.idle s member)
  unfold RaftCore.updateFollower
  split
  · exact .of_silent (.refl _ _ _ _) (quiet.switchState .candidate) ((server.stand follower).congr rfl)
  · exact .of_silent (.refl _ _ _ _) quiet server

theorem Sim.updateCandidate (sim : Sim cfg retaining c A) (member : s ∈ cfg.members)
    (candidate : (c.server s).serverState = .candidate) (first : env.transferID = c.nextTransferID) :
    Handled cfg retaining c s ((c.server s).updateCandidate cfg.dsdl env) [] A := by
  have server := sim.server s member
  have quiet := RaftCore.Quiet.of_empty (sim.idle s member)
  have role := server.role
  unfold RoleSim at role
  rw [candidate] at role
  unfold RaftCore.updateCandidate
  rcases role.2 with ⟨none, calls⟩ | ⟨counted, campaign⟩
  · simp only [none]
    exact sim.startCampaign member candidate ⟨calls, role.1⟩ first
  · simp only [counted, if_true]
    split
    case isTrue won =>
      obtain ⟨B, moved, after⟩ := server.win sim.inv candidate campaign won
      exact .of_silent moved (quiet.switchState .leader) after
    case isFalse => exact .of_silent (.refl _ _ _ _) (quiet.switchState .follower) server.follow

end Uavcan
