import Uavcan.DynamicNodeId.LogReplication

/-!
# What a handler does to the bookkeeping of a server

Every handler changes the role of a server, the servers it knows with their replication indices, the votes it
has counted and the calls it waits for by a sequence of a few moves (`RaftCore.Move`), so that what each move
keeps is kept by every handler (`RaftCore.Moves.invariant`). Nothing is assumed here about who sent a message,
or what is in it; only a new server must have a unicast ID.
-/

namespace Uavcan

open ClusterManager PersistentState List

namespace RaftCore

/-! ## Moves -/

/-- One change of the bookkeeping. -/
inductive Move : RaftCore → RaftCore → Prop
  /-- What is not bookkeeping may change at any time. -/
  | other (r : RaftCore) (p : PersistentState) (commitIndex lastActivity timeout : ℕ) (outbox : List Output) :
      Move r
        { r with
          persistent := p
          commitIndex := commitIndex
          lastActivityTimestamp := lastActivity
          randomizedActivityTimeout := timeout
          outbox := outbox }
  | switch (r : RaftCore) (newState : ServerState) (lastIndex : ℕ) (changed : r.serverState ≠ newState)
      (won : newState = .leader → r.serverState = .candidate ∧
        r.cluster.getQuorumSize ≤ r.numVotesReceivedInThisCampaign) :
      Move r
        { r with
          serverState := newState
          cluster := r.cluster.resetAllServerIndices lastIndex
          nextServerIndex := 0
          numVotesReceivedInThisCampaign := 0
          requestVoteCalls := []
          appendEntriesCalls := [] }
  | enlist (r : RaftCore) {src : NodeID} (lastIndex : ℕ) (unicast : src.isUnicast)
      (unknown : r.cluster.isKnownServer src = false) (isOpen : r.cluster.isClusterDiscovered = false) :
      Move r { r with cluster := r.cluster.addServer src lastIndex }
  | campaign (r : RaftCore) (candidate : r.serverState = .candidate) (uncounted : r.numVotesReceivedInThisCampaign = 0)
      {calls : List ServiceCallID}
      (known : (calls.map fun call => call.serverNodeID).Sublist (r.cluster.servers.map fun f => f.nodeId)) :
      Move r
        { r with
          numVotesReceivedInThisCampaign := 1
          requestVoteCalls := r.requestVoteCalls ++ calls }
  | count (r : RaftCore) {call : ServiceCallID} (waits : call ∈ r.requestVoteCalls) :
      Move r
        { r with
          requestVoteCalls := r.requestVoteCalls.erase call
          numVotesReceivedInThisCampaign := toIndex (r.numVotesReceivedInThisCampaign + 1) }
  | abandon (r : RaftCore) (calls votes : List ServiceCallID) (fields : PendingAppendEntriesFields)
      (fewer : calls.Sublist r.appendEntriesCalls) (fewerVotes : votes.Sublist r.requestVoteCalls) :
      Move r
        { r with
          requestVoteCalls := votes
          appendEntriesCalls := calls
          pendingAppendEntriesFields := fields }
  | query (r : RaftCore) (leader : r.serverState = .leader) (several : r.cluster.clusterSize > 1)
      (idle : r.appendEntriesCalls = []) (fields : PendingAppendEntriesFields) {calls : List ServiceCallID}
      (single : calls.length ≤ 1) (dst : ∀ call ∈ calls,
        call.serverNodeID = r.cluster.getRemoteServerNodeIDAtIndex r.nextServerIndex) :
      Move r { r with appendEntriesCalls := calls, pendingAppendEntriesFields := fields }
  | advance (r : RaftCore) : Move r r.advanceNextServer
  /-- The same servers, with other indices. -/
  | reindex (r : RaftCore) {k : ClusterManager} (nodeId : k.nodeId = r.cluster.nodeId)
      (size : k.clusterSize = r.cluster.clusterSize)
      (ids : (k.servers.map fun f => f.nodeId) = r.cluster.servers.map fun f => f.nodeId) :
      Move r { r with cluster := k }

/-- A sequence of moves. -/
def Moves : RaftCore → RaftCore → Prop := Relation.ReflTransGen Move

/-- What every move keeps is kept by a sequence of them. -/
theorem Moves.invariant {P : RaftCore → Prop} {r r' : RaftCore} (moves : Moves r r') (initial : P r)
    (kept : ∀ {r r'}, P r → Move r r' → P r') : P r' := by
  induction moves with
  | refl => exact initial
  | tail _ move ih => exact kept ih move

/-! ## Moves that keep the log -/

/-- No commit is announced. -/
def Unannounced (r : RaftCore) : Prop := ∀ entry, .logCommitOnLeader entry ∉ r.outbox

/-- Moves that keep the log and announce no commit. -/
structure Calm (r r' : RaftCore) : Prop where
  moves : Moves r r'
  log : r'.log = r.log
  silent : r.Unannounced → r'.Unannounced

section Steps

variable {r r' : RaftCore}

theorem Move.moves (move : Move r r') : Moves r r' := .single move

theorem Moves.refl (r : RaftCore) : Moves r r := Relation.ReflTransGen.refl

variable {r'' : RaftCore}

theorem Moves.trans (first : Moves r r') (second : Moves r' r'') : Moves r r'' :=
  Relation.ReflTransGen.trans first second

theorem Moves.then (first : Moves r r') (second : Move r' r'') : Moves r r'' :=
  Relation.ReflTransGen.tail first second

theorem nodeId_switchState (r : RaftCore) (newState : ServerState) : (r.switchState newState).nodeId = r.nodeId := by
  rcases r.switchState_cases newState with ⟨-, same⟩ | ⟨-, outs, -, changed⟩
  · rw [same]
  · rw [changed]
    rfl

theorem Moves.nodeId (moves : Moves r r') : r'.nodeId = r.nodeId := by
  refine moves.invariant (P := fun x => x.nodeId = r.nodeId) rfl fun {x y} same move => Eq.trans ?_ same
  cases move with
  | enlist => exact nodeId_addServer _ _ _
  | reindex nodeId => exact nodeId
  | _ => rfl

theorem Move.calm (move : Move r r') (log : r'.log = r.log) (outbox : r'.outbox = r.outbox) : Calm r r' :=
  ⟨move.moves, log, fun silent entry => outbox ▸ silent entry⟩

theorem Calm.refl (r : RaftCore) : Calm r r := ⟨.refl r, rfl, id⟩

theorem Calm.trans (first : Calm r r') (second : Calm r' r'') : Calm r r'' :=
  ⟨first.moves.trans second.moves, second.log.trans first.log, fun silent => second.silent (first.silent silent)⟩

variable (dsdl : Dsdl) (env : Env)

theorem moves_persist (r : RaftCore) (p : PersistentState) : Moves r { r with persistent := p } :=
  (Move.other r p r.commitIndex r.lastActivityTimestamp r.randomizedActivityTimeout r.outbox).moves

variable {p : PersistentState}

theorem calm_persist (r : RaftCore) (log : p.log = r.persistent.log) :
    Calm r { r with persistent := p } :=
  ⟨r.moves_persist p, log, id⟩

theorem calm_send (r : RaftCore) {outs : List Output} (other : ∀ entry, .logCommitOnLeader entry ∉ outs) :
    Calm r { r with outbox := r.outbox ++ outs } := by
  refine ⟨(Move.other r r.persistent r.commitIndex r.lastActivityTimestamp r.randomizedActivityTimeout
    _).moves, rfl, ?_⟩
  exact fun silent entry announced => (mem_append.mp announced).elim (silent entry) (other entry)

theorem calm_registerActivity (r : RaftCore) : Calm r (r.registerActivity dsdl env) :=
  (Move.other r r.persistent r.commitIndex _ _ r.outbox).calm rfl rfl

theorem calm_reindex (r : RaftCore) {k : ClusterManager} (nodeId : k.nodeId = r.cluster.nodeId)
    (size : k.clusterSize = r.cluster.clusterSize)
    (ids : (k.servers.map fun f => f.nodeId) = r.cluster.servers.map fun f => f.nodeId) :
    Calm r { r with cluster := k } :=
  (Move.reindex r nodeId size ids).calm rfl rfl

/-- A change of role needs nothing but the votes, if it is to leader. -/
theorem calm_switchState (r : RaftCore) (newState : ServerState)
    (won : newState = .leader → r.serverState = .candidate ∧
      r.cluster.getQuorumSize ≤ r.numVotesReceivedInThisCampaign) : Calm r (r.switchState newState) := by
  rcases r.switchState_cases newState with ⟨-, same⟩ | ⟨changed, outs, callbacks, eq⟩
  · rw [same]
    exact .refl r
  · rw [eq]
    refine ((Move.switch r newState r.log.lastIndex changed won).calm rfl rfl).trans (calm_send _ fun entry new => ?_)
    obtain ⟨leads, differs⟩ := callbacks _ new
    cases differs

theorem calm_follow (r : RaftCore) : Calm r (r.switchState .follower) := r.calm_switchState .follower nofun

theorem calm_retreat (r : RaftCore) : Calm r (r.handlePersistentStateUpdateError dsdl env) :=
  r.calm_follow.trans (calm_registerActivity dsdl env _)

/-! ## Timer events -/

theorem calm_updateFollower (r : RaftCore) : Calm r (r.updateFollower dsdl env) := by
  unfold updateFollower
  split
  · exact (r.calm_switchState .candidate nofun).trans (calm_registerActivity dsdl env _)
  · exact .refl r

theorem calm_startCampaign (candidate : r.serverState = .candidate)
    (uncounted : r.numVotesReceivedInThisCampaign = 0) : Calm r (r.startCampaign dsdl env) := by
  unfold startCampaign
  split
  case h_1 err p vote => exact (r.calm_persist (log_of_setVotedFor vote)).trans (calm_retreat dsdl env _)
  case h_2 p₁ vote =>
  split
  case h_1 err p term =>
    have log := (log_of_setCurrentTerm term).trans (log_of_setVotedFor vote)
    exact (r.calm_persist log).trans (calm_retreat dsdl env _)
  case h_2 p term =>
    obtain ⟨calls, outs, eq, sublist, -, requests, -⟩ := requestVotes_spec env
      ⟨p.currentTerm, (p.log.entries p.log.lastIndex).term, p.log.lastIndex⟩
      (r.cluster.servers.take (dsdl.maxClusterSize - 1))
      { r with persistent := p, numVotesReceivedInThisCampaign := 1 }
    have known := sublist.trans ((take_sublist (dsdl.maxClusterSize - 1) r.cluster.servers).map
      fun f => f.nodeId)
    have log := (log_of_setCurrentTerm term).trans (log_of_setVotedFor vote)
    simp only [currentTerm, RaftCore.log]
    rw [eq]
    refine (((Move.campaign r candidate uncounted known).calm rfl rfl).trans (calm_persist _ log)).trans
      (calm_send _ fun entry inside => ?_)
    obtain ⟨call, differs, -⟩ := requests _ inside
    cases differs

theorem calm_updateCandidate (candidate : r.serverState = .candidate) : Calm r (r.updateCandidate dsdl env) := by
  unfold updateCandidate
  split
  case isTrue =>
    split
    case isTrue won => exact r.calm_switchState .leader fun _ => ⟨candidate, won⟩
    case isFalse => exact r.calm_follow
  case isFalse uncounted => exact calm_startCampaign dsdl env candidate (Nat.eq_zero_of_not_pos uncounted)

theorem moves_propagateCommitIndex (r : RaftCore) : Moves r r.propagateCommitIndex := by
  rcases r.propagateCommitIndex_cases with same | ⟨-, -, moved⟩
  · rw [same]
    exact .refl r
  · rw [moved]
    exact (Move.other r r.persistent _ r.lastActivityTimestamp r.randomizedActivityTimeout _).moves

theorem persistent_propagateCommitIndex (r : RaftCore) : r.propagateCommitIndex.persistent = r.persistent := by
  rcases r.propagateCommitIndex_cases with same | ⟨-, -, moved⟩
  · rw [same]
  · rw [moved]
    rfl

theorem log_propagateCommitIndex (r : RaftCore) : r.propagateCommitIndex.log = r.log :=
  congrArg PersistentState.log r.persistent_propagateCommitIndex

theorem calm_sendAppendEntries {after : RaftCore} (leader : r.serverState = .leader)
    (several : r.cluster.clusterSize > 1) (idle : r.appendEntriesCalls = [])
    (query : r.sendAppendEntries dsdl env = some after) : Calm r after ∧ after.persistent = r.persistent := by
  obtain ⟨server, prevEntry, turn, -, req, -, rfl⟩ := sendAppendEntries_spec query
  refine ⟨?_, rfl⟩
  have asked : ∀ calls : List ServiceCallID, calls.length ≤ 1 → (∀ call ∈ calls, call.serverNodeID = server) →
      Calm r
        { r with
          pendingAppendEntriesFields := ⟨req.prevLogIndex, req.entries.length⟩
          appendEntriesCalls := calls
          outbox := r.outbox ++ [.appendEntries (r.nextCallID env server) req] } := fun calls single dst =>
    ((Move.query r leader several idle _ single fun call waits => (dst call waits).trans turn).calm rfl rfl).trans
      (calm_send _ (by simp))
  simp only [callAppendEntries, idle]
  cases env.callOk server with
  | true => exact asked [r.nextCallID env server] (by simp) (by simp [nextCallID])
  | false => exact asked [] (by simp) (by simp)

/-- Commits are announced at the very end. -/
theorem updateLeader_split (leader : r.serverState = .leader) : ∃ x, Calm r x ∧ x.persistent = r.persistent ∧
    (r.updateLeader dsdl env = x ∨ r.updateLeader dsdl env = x.propagateCommitIndex) := by
  have cancelled : Calm r { r with appendEntriesCalls := [] } :=
    (Move.abandon r [] r.requestVoteCalls r.pendingAppendEntriesFields (nil_sublist _)
      (List.Sublist.refl _)).calm rfl rfl
  have advanced : ∀ x : RaftCore, Calm x x.advanceNextServer := fun x => (Move.advance x).calm rfl rfl
  unfold updateLeader
  simp only
  split
  case isFalse => exact ⟨_, cancelled, rfl, .inr rfl⟩
  case isTrue several =>
  split
  case h_1 =>
    exact ⟨_, (cancelled.trans (advanced _)).trans (calm_retreat dsdl env _), (switchState_keeps _ .follower).2.1,
      .inl rfl⟩
  case h_2 sent query =>
    obtain ⟨asked, same⟩ := calm_sendAppendEntries (r := { r with appendEntriesCalls := [] }) dsdl env leader several
      rfl query
    exact ⟨_, (cancelled.trans asked).trans (advanced _), same, .inr rfl⟩

theorem handleTimerEvent_split (r : RaftCore) : ∃ x, Calm r x ∧
    (r.handleTimerEvent dsdl env = x ∨ r.handleTimerEvent dsdl env = x.propagateCommitIndex) := by
  unfold handleTimerEvent
  split
  case h_1 => exact ⟨_, calm_updateFollower dsdl env r, .inl rfl⟩
  case h_2 candidate => exact ⟨_, calm_updateCandidate dsdl env candidate, .inl rfl⟩
  case h_3 leader =>
    obtain ⟨x, calm, -, result⟩ := updateLeader_split dsdl env leader
    exact ⟨x, calm, result⟩

theorem moves_handleTimerEvent (r : RaftCore) : Moves r (r.handleTimerEvent dsdl env) := by
  obtain ⟨x, calm, same | moved⟩ := handleTimerEvent_split dsdl env r
  · exact same ▸ calm.moves
  · exact moved ▸ calm.moves.trans x.moves_propagateCommitIndex

/-! ## Requests -/

theorem log_of_updateTerm {p' : PersistentState} {term : Term} {w : Writes} {result : Except Err Unit}
    (run : updateTerm p term w = (result, p')) : p'.log = p.log := by
  unfold updateTerm at run
  split at run
  · split at run
    case h_1 set =>
      cases run
      exact log_of_setCurrentTerm set
    case h_2 set => exact (log_of_setVotedFor run).trans (log_of_setCurrentTerm set)
  · cases run
    rfl

/-- Steps 2 to 5 touch the persistent state and the commit index only. -/
theorem acceptAppendEntries_frame (r : RaftCore) (req : AppendEntriesRequest) :
    ∃ p commitIndex, (r.acceptAppendEntries env req).1 = { r with persistent := p, commitIndex := commitIndex } := by
  unfold acceptAppendEntries
  split
  case h_1 => exact ⟨_, _, rfl⟩
  case h_2 =>
  split
  case isTrue =>
    split <;> exact ⟨_, _, rfl⟩
  case isFalse =>
    split <;> exact ⟨_, _, rfl⟩

theorem moves_acceptAppendEntries (r : RaftCore) (req : AppendEntriesRequest) :
    Moves r (r.acceptAppendEntries env req).1 := by
  obtain ⟨p, commitIndex, eq⟩ := acceptAppendEntries_frame env r req
  rw [eq]
  exact (Move.other r p commitIndex r.lastActivityTimestamp r.randomizedActivityTimeout r.outbox).moves

variable {src : NodeID}

/-- The sender of a request becomes known, if the cluster is not complete. -/
theorem calm_meet (unicast : src.isUnicast)
    (admitted : r.cluster.isKnownServer src = true ∨ r.cluster.isClusterDiscovered = false) :
    Calm r { r with cluster := r.cluster.addServer src r.log.lastIndex } := by
  cases known : r.cluster.isKnownServer src with
  | true =>
    rw [addServer, known]
    exact .refl r
  | false => exact (Move.enlist r _ unicast known (admitted.resolve_left (by simp [known]))).calm rfl rfl

/-- Only a follower takes entries. -/
theorem handleAppendEntriesRequest_split (r : RaftCore) (unicast : src.isUnicast)
    (req : AppendEntriesRequest) : ∃ x, Calm r x ∧ ((r.handleAppendEntriesRequest dsdl env src req).1 = x ∨
      x.serverState = .follower ∧
        (r.handleAppendEntriesRequest dsdl env src req).1 = (x.acceptAppendEntries env req).1) := by
  unfold handleAppendEntriesRequest
  split
  case isTrue => exact ⟨r, .refl r, .inl rfl⟩
  case isFalse admitted =>
  have met := calm_meet unicast (admits_iff.mp admitted)
  rw [meet_eq]
  simp only
  split
  case h_1 update =>
    exact ⟨_, (met.trans (calm_persist _ (log_of_updateTerm update))).trans (calm_retreat dsdl env _), .inl rfl⟩
  case h_2 update =>
    have persisted := met.trans (calm_persist _ (log_of_updateTerm update))
    split
    · exact ⟨_, persisted, .inl rfl⟩
    · exact ⟨_, (persisted.trans (calm_registerActivity dsdl env _)).trans (calm_follow _),
        .inr ⟨(switchState_keeps _ .follower).1, rfl⟩⟩

theorem moves_handleAppendEntriesRequest (r : RaftCore) (unicast : src.isUnicast)
    (req : AppendEntriesRequest) : Moves r (r.handleAppendEntriesRequest dsdl env src req).1 := by
  obtain ⟨x, calm, same | ⟨-, accepted⟩⟩ := handleAppendEntriesRequest_split dsdl env r unicast req
  · exact same ▸ calm.moves
  · exact accepted ▸ calm.moves.trans (moves_acceptAppendEntries env x req)

theorem calm_voteOnRequest (r : RaftCore) (src : NodeID) (req : RequestVoteRequest) :
    Calm r (r.voteOnRequest dsdl env src req).1 := by
  unfold voteOnRequest
  simp only
  split
  case isTrue => exact .refl r
  case isFalse =>
  split
  case isFalse => exact .refl r
  case isTrue =>
    have ready := r.calm_follow.trans (calm_registerActivity dsdl env _)
    split <;> exact ready.trans (calm_persist _ (log_of_setVotedFor ‹_›))

theorem calm_handleRequestVoteRequest (r : RaftCore) (src : NodeID) (req : RequestVoteRequest) :
    Calm r (r.handleRequestVoteRequest dsdl env src req).1 := by
  unfold handleRequestVoteRequest
  split
  case isTrue => exact .refl r
  case isFalse =>
  have ready : Calm r (if req.term > r.currentTerm then r.switchState .follower else r) := by
    split
    · exact r.calm_follow
    · exact .refl r
  simp only
  split
  case h_1 update => exact (ready.trans (calm_persist _ (log_of_updateTerm update))).trans (calm_retreat dsdl env _)
  case h_2 update =>
    exact (ready.trans (calm_persist _ (log_of_updateTerm update))).trans (calm_voteOnRequest dsdl env _ src req)

/-! ## Results of calls -/

theorem calm_tryIncrement (r : RaftCore) (newTerm : Term) :
    Calm r (r.tryIncrementCurrentTermFromResponse dsdl env newTerm) :=
  ((r.calm_persist (log_of_setCurrentTerm rfl)).trans (calm_registerActivity dsdl env _)).trans (calm_follow _)

theorem calm_endCall (r : RaftCore) (call : ServiceCallID) :
    Calm r
      { r with
        requestVoteCalls := r.requestVoteCalls.erase call
        appendEntriesCalls := r.appendEntriesCalls.erase call } :=
  (Move.abandon r _ _ r.pendingAppendEntriesFields erase_sublist erase_sublist).calm rfl rfl

theorem calm_handleAppendEntriesResponse (r : RaftCore) (call : ServiceCallID) (resp : AppendEntriesResponse) :
    Calm r (({ r with appendEntriesCalls := r.appendEntriesCalls.erase call } :
      RaftCore).handleAppendEntriesResponse dsdl env call.serverNodeID resp) := by
  have ended : Calm r { r with appendEntriesCalls := r.appendEntriesCalls.erase call } :=
    (Move.abandon r _ r.requestVoteCalls r.pendingAppendEntriesFields erase_sublist
      (List.Sublist.refl _)).calm rfl rfl
  have cleared : ∀ x : RaftCore, Calm x { x with pendingAppendEntriesFields := ⟨0, 0⟩ } := fun x =>
    (Move.abandon x _ _ ⟨0, 0⟩ (List.Sublist.refl _) (List.Sublist.refl _)).calm rfl rfl
  refine Calm.trans ?_ (cleared _)
  split
  case isTrue => exact ended.trans (calm_tryIncrement dsdl env _ _)
  case isFalse =>
    refine ended.trans ?_
    split
    · refine calm_reindex _ rfl rfl ?_
      simp only [setServerMatchIndex, incrementServerNextIndexBy]
      rw [map_modifyServer _ (by simp), map_modifyServer _ (by simp)]
    · refine calm_reindex _ rfl rfl ?_
      simp only [decrementServerNextIndex]
      rw [map_modifyServer _ (by simp)]

theorem calm_handleRequestVoteResponse {call : ServiceCallID} (waits : call ∈ r.requestVoteCalls)
    (resp : RequestVoteResponse) :
    Calm r (({ r with requestVoteCalls := r.requestVoteCalls.erase call } :
      RaftCore).handleRequestVoteResponse dsdl env resp) := by
  have ended : Calm r { r with requestVoteCalls := r.requestVoteCalls.erase call } :=
    (Move.abandon r r.appendEntriesCalls _ r.pendingAppendEntriesFields (List.Sublist.refl _)
      erase_sublist).calm rfl rfl
  unfold handleRequestVoteResponse
  split
  · exact ended.trans (calm_tryIncrement dsdl env _ _)
  · split
    · exact (Move.count r waits).calm rfl rfl
    · exact ended

/-! ## Discovery and the interface -/

theorem calm_handleDiscovery (r : RaftCore) (message : Discovery) :
    Calm r { r with cluster := r.cluster.handleDiscovery r.log.lastIndex message } :=
  handleDiscovery_invariant (P := fun k => Calm r { r with cluster := k }) (.refl r)
    (fun before _ unicast unknown isOpen => before.trans ((Move.enlist _ _ unicast unknown isOpen).calm rfl rfl))
    fun before => before.trans (calm_reindex _ rfl rfl rfl)

theorem calm_handleDiscoveryTimer (r : RaftCore) :
    Calm r { r with cluster := r.cluster.handleTimerEvent.1 } := by
  unfold ClusterManager.handleTimerEvent
  split
  · exact r.calm_reindex rfl rfl rfl
  · exact .refl r

theorem moves_appendLog (r : RaftCore) (uniqueId : UniqueID) (nodeId : NodeID) :
    Moves r (r.appendLog dsdl env uniqueId nodeId) := by
  unfold appendLog
  split
  case isFalse => exact .refl r
  case isTrue =>
    simp only
    split
    · exact (r.moves_persist _).trans (calm_retreat dsdl env _).moves
    · exact r.moves_persist _

end Steps

end RaftCore

end Uavcan
