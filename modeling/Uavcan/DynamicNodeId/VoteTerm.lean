import Uavcan.DynamicNodeId.ServerMoves
import Uavcan.Machines.Guarded

/-!
# A vote belongs to its term

One server among any others: it gets any requests, responses and timer events, its writes may fail, and it may
be restarted. Beside the server we record the votes it granted and the terms in which it started a campaign.

A vote that is stored should have been given in the current term. Three places of `raft_core.hpp` can leave a
vote of another term: a response with a newer term keeps the vote; the request handlers store the term before
they reset the vote, and the reset may fail; a campaign stores the vote before the term, and the term may
fail. `Careful` excludes these.
-/

namespace Uavcan

open PersistentState

theorem PersistentState.valid_of_setVotedFor {p p' : PersistentState} {nodeId : NodeID} {effective : Bool}
    (run : p.setVotedFor nodeId effective = (.ok (), p')) : nodeId.isValid := by
  cases valid : nodeId.isValid with
  | true => rfl
  | false =>
    rw [PersistentState.setVotedFor, valid] at run
    cases run

/-- A server, the votes it has granted, and the terms in which it has started a campaign. -/
structure Voter where
  core : RaftCore
  granted : List (Term × NodeID)
  campaigns : List Term

/-- What can happen to a server.  A response comes with the call it answers. -/
inductive VoterAction
  | timer (env : Env)
  | requestVote (src : NodeID) (request : RequestVoteRequest) (env : Env)
  | requestVoteResponse (call : ServiceCallID) (response : RequestVoteResponse) (env : Env)
  | appendEntries (src : NodeID) (request : AppendEntriesRequest) (env : Env)
  | appendEntriesResponse (call : ServiceCallID) (response : AppendEntriesResponse) (env : Env)
  | appendLog (uniqueId : UniqueID) (nodeId : NodeID) (env : Env)
  | discoveryTimer
  | discovery (message : Discovery)
  | callTimeout (call : ServiceCallID)
  | restart (initClusterSize : ℕ) (env : Env)

namespace Voter

variable (dsdl : Dsdl)

/-- The server after a handler; what it sent is gone. -/
def settle (v : Voter) (r : RaftCore) : Voter := { v with core := { r with outbox := [] } }

/-- A candidate starts a campaign when it counts its own vote. -/
def startsCampaign (before after : RaftCore) : Bool :=
  before.serverState = .candidate && before.numVotesReceivedInThisCampaign = 0 &&
    after.numVotesReceivedInThisCampaign = 1

/-- The votes granted after a response to `src`. -/
def record (src : NodeID) (response : Option RequestVoteResponse) (granted : List (Term × NodeID)) :
    List (Term × NodeID) :=
  match response with
  | some ⟨term, true⟩ => (term, src) :: granted
  | _ => granted

def exec (v : Voter) : VoterAction → Option Voter
  | .timer env =>
    let r := v.core.handleTimerEvent dsdl env
    let campaigns := if startsCampaign v.core r then r.currentTerm :: v.campaigns else v.campaigns
    some { v.settle r with campaigns := campaigns }
  | .requestVote src request env =>
    let (r, response) := v.core.handleRequestVoteRequest dsdl env src request
    some { v.settle r with granted := record src response v.granted }
  | .requestVoteResponse call response env =>
    if call ∈ v.core.requestVoteCalls then
      let r := { v.core with requestVoteCalls := v.core.requestVoteCalls.erase call }
      some (v.settle (r.handleRequestVoteResponse dsdl env response))
    else none
  | .appendEntries src request env => some (v.settle (v.core.handleAppendEntriesRequest dsdl env src request).1)
  | .appendEntriesResponse call response env =>
    if call ∈ v.core.appendEntriesCalls then
      let r := { v.core with appendEntriesCalls := v.core.appendEntriesCalls.erase call }
      some (v.settle (r.handleAppendEntriesResponse dsdl env call.serverNodeID response))
    else none
  | .appendLog uniqueId nodeId env => some (v.settle (v.core.appendLog dsdl env uniqueId nodeId))
  | .discoveryTimer => some (v.settle { v.core with cluster := v.core.cluster.handleTimerEvent.1 })
  | .discovery message =>
    some (v.settle { v.core with cluster := v.core.cluster.handleDiscovery v.core.log.lastIndex message })
  | .callTimeout call =>
    some (v.settle
      { v.core with
        requestVoteCalls := v.core.requestVoteCalls.erase call
        appendEntriesCalls := v.core.appendEntriesCalls.erase call })
  | .restart initClusterSize env =>
    match RaftCore.init dsdl env v.core.nodeId v.core.persistent.storage initClusterSize with
    | .error _ => none
    | .ok r => some (v.settle r)

/-- A request that is handled raises the term while a vote is stored: the vote can be reset if the term can be
written. -/
def ResetsVote (p : PersistentState) (term : Term) (w : Writes) : Prop :=
  term > p.currentTerm → p.isVotedForSet → w.term = true → w.resetVote = true

/-- A response does not raise the term while a vote is stored. -/
def KeepsTerm (p : PersistentState) (term : Term) (w : Writes) : Prop :=
  term > p.currentTerm → p.isVotedForSet → w.term = false

/-- The steps at which the term and the vote change together. -/
def Careful (v : Voter) : VoterAction → Prop
  | .timer env =>
    v.core.serverState = .candidate → v.core.numVotesReceivedInThisCampaign = 0 →
      v.core.persistent.votedFor ≠ v.core.nodeId → env.writes.vote = true →
      env.writes.term = true ∧ v.core.currentTerm ≤ v.core.currentTerm + 1
  | .requestVote src request env =>
    v.core.cluster.isKnownServer src → ResetsVote v.core.persistent request.term env.writes
  | .appendEntries src request env =>
    (v.core.cluster.isKnownServer src ∨ ¬v.core.cluster.isClusterDiscovered) →
      ResetsVote v.core.persistent request.term env.writes
  | .requestVoteResponse _ response env => KeepsTerm v.core.persistent response.term env.writes
  | .appendEntriesResponse _ response env => KeepsTerm v.core.persistent response.term env.writes
  | _ => True

/-- The vote was given in the current term: granted to another node, or to itself by a campaign. -/
def Backed (granted : List (Term × NodeID)) (campaigns : List Term) (me : NodeID) (p : PersistentState) : Prop :=
  p.isVotedForSet →
    (p.currentTerm, p.votedFor) ∈ granted ∨ (p.votedFor = me ∧ p.currentTerm ∈ campaigns)

/-- Memory and storage agree, and the vote was given in the current term. -/
structure Sound (granted : List (Term × NodeID)) (campaigns : List Term) (me : NodeID) (r : RaftCore) : Prop where
  stored : r.persistent.Stored
  node : r.nodeId = me
  backed : Backed granted campaigns me r.persistent

section Sound

variable {granted granted' : List (Term × NodeID)} {campaigns campaigns' : List Term} {me : NodeID}
  {p p' : PersistentState} {r r' : RaftCore} {dsdl : Dsdl} {env : Env}

theorem Backed.of_eq (backed : Backed granted campaigns me p) (term : p'.currentTerm = p.currentTerm)
    (vote : p'.votedFor = p.votedFor) : Backed granted campaigns me p' := by
  unfold Backed isVotedForSet at backed ⊢
  rw [term, vote]
  exact backed

theorem Backed.of_unset (unset : ¬p.isVotedForSet) (vote : p'.votedFor = p.votedFor) :
    Backed granted campaigns me p' := by
  intro set
  rw [isVotedForSet, vote] at set
  exact absurd set unset

theorem Sound.mono (sound : Sound granted campaigns me r) (more : granted ⊆ granted')
    (more' : campaigns ⊆ campaigns') : Sound granted' campaigns' me r :=
  ⟨sound.stored, sound.node, fun set => (sound.backed set).imp (fun mem => more mem)
    fun campaign => ⟨campaign.1, more' campaign.2⟩⟩

theorem Sound.congr (sound : Sound granted campaigns me r) (same : r'.persistent = r.persistent)
    (node : r'.nodeId = r.nodeId) : Sound granted campaigns me r' :=
  ⟨same ▸ sound.stored, node.trans sound.node, same ▸ sound.backed⟩

theorem Sound.persist (sound : Sound granted campaigns me r) (stored : p.Stored)
    (backed : Backed granted campaigns me p) : Sound granted campaigns me { r with persistent := p } :=
  ⟨stored, sound.node, backed⟩

section

variable (sound : Sound granted campaigns me r)

include sound

theorem Sound.switchState (newState : ServerState) :
    Sound granted campaigns me (r.switchState newState) :=
  sound.congr (r.switchState_keeps newState).2.1 (r.nodeId_switchState newState)

theorem Sound.registerActivity :
    Sound granted campaigns me (r.registerActivity dsdl env) :=
  sound.congr rfl rfl

theorem Sound.handlePersistentStateUpdateError :
    Sound granted campaigns me (r.handlePersistentStateUpdateError dsdl env) :=
  (sound.switchState .follower).registerActivity

/-! ## Requests -/

/-- The new term has no vote, or none was stored. -/
theorem Sound.updateTerm {term : Term} {result : Except Err Unit}
    (resets : ResetsVote r.persistent term env.writes)
    (run : RaftCore.updateTerm r.persistent term env.writes = (result, p)) :
    Sound granted campaigns me { r with persistent := p } := by
  unfold RaftCore.updateTerm at run
  split at run
  case isFalse =>
    cases run
    exact sound
  case isTrue newer =>
  have writable := setCurrentTerm_ok sound.stored term env.writes.term
  split at run
  case h_1 err p₁ set =>
    cases run
    obtain ⟨stored, -, -, -, failed, -⟩ := setCurrentTerm_cases set sound.stored
    exact sound.persist stored (failed nofun ▸ sound.backed)
  case h_2 p₁ set =>
  obtain ⟨stored₁, -, vote₁, -, -⟩ := setCurrentTerm_cases set sound.stored
  have written : env.writes.term = true := by
    rw [set] at writable
    refine (writable.mp rfl).2.resolve_right fun same => ?_
    rw [same] at newer
    exact UInt32.lt_irrefl _ newer
  have resettable := setVotedFor_ok stored₁ (show NodeID.broadcast.isValid from rfl)
    env.writes.resetVote
  change p₁.setVotedFor NodeID.broadcast env.writes.resetVote = _ at run
  obtain ⟨stored₂, -, -, -, failed, voted⟩ := setVotedFor_cases run stored₁
  refine sound.persist stored₂ ?_
  by_cases ok : result = .ok ()
  · intro set
    rw [isVotedForSet, voted ok] at set
    cases set
  · -- the reset failed, so there was nothing to reset
    rw [run] at resettable
    have lost : env.writes.resetVote ≠ true := fun kept => ok (resettable.mpr (.inl kept))
    have unset : ¬r.persistent.isVotedForSet := fun set => lost (resets newer set written)
    refine Backed.of_unset unset ?_
    rw [failed ok, vote₁]

end

variable {src : NodeID} {req : RequestVoteRequest}

section

variable (sound : Sound granted campaigns me r)

include sound

theorem Sound.voteOnRequest {resp : Option RequestVoteResponse}
    (run : r.voteOnRequest dsdl env src req = (r', resp)) :
    Sound (record src resp granted) campaigns me r' := by
  unfold RaftCore.voteOnRequest at run
  simp only at run
  split at run
  case isTrue =>
    cases run
    exact sound
  case isFalse =>
  split at run
  case isFalse =>
    cases run
    exact sound
  case isTrue =>
  have waiting : Sound granted campaigns me ((r.switchState .follower).registerActivity dsdl env) :=
    (sound.switchState .follower).registerActivity
  have same : ((r.switchState .follower).registerActivity dsdl env).persistent = r.persistent :=
    (r.switchState_keeps .follower).2.1
  split at run
  case h_1 err p set =>
    cases run
    obtain ⟨stored, -, -, -, failed, -⟩ := setVotedFor_cases set waiting.stored
    exact waiting.persist stored (failed nofun ▸ waiting.backed)
  case h_2 p set =>
    cases run
    obtain ⟨stored, -, term, -, -, voted⟩ := setVotedFor_cases set waiting.stored
    refine ⟨stored, waiting.node, fun _ => .inl ?_⟩
    rw [voted rfl, term, same]
    exact List.mem_cons_self

theorem Sound.handleRequestVoteRequest {resp : Option RequestVoteResponse}
    (careful : r.cluster.isKnownServer src → ResetsVote r.persistent req.term env.writes)
    (run : r.handleRequestVoteRequest dsdl env src req = (r', resp)) :
    Sound (record src resp granted) campaigns me r' := by
  unfold RaftCore.handleRequestVoteRequest at run
  split at run
  case isTrue =>
    cases run
    exact sound
  case isFalse known =>
  have known : r.cluster.isKnownServer src := by simpa using known
  have following : Sound granted campaigns me (if req.term > r.currentTerm then r.switchState .follower else r) ∧
      (if req.term > r.currentTerm then r.switchState .follower else r).persistent = r.persistent := by
    split
    · exact ⟨sound.switchState .follower, (r.switchState_keeps .follower).2.1⟩
    · exact ⟨sound, rfl⟩
  simp only at run
  generalize (if req.term > r.currentTerm then r.switchState .follower else r) = r₁ at following run
  obtain ⟨sound₁, same⟩ := following
  have resets : ResetsVote r₁.persistent req.term env.writes := same ▸ careful known
  split at run
  case h_1 err p update =>
    cases run
    exact (sound₁.updateTerm resets update).handlePersistentStateUpdateError
  case h_2 p update => exact (sound₁.updateTerm resets update).voteOnRequest run

theorem Sound.acceptAppendEntries (req : AppendEntriesRequest) :
    Sound granted campaigns me (r.acceptAppendEntries env req).1 := by
  unfold RaftCore.acceptAppendEntries
  split
  case h_1 => exact sound
  case h_2 prevEntry found =>
  have inside : req.prevLogIndex ≤ r.persistent.log.lastIndex := Log.le_of_getEntryAtIndex found
  split
  case isTrue =>
    rcases remove : r.persistent.removeEntriesWhereIndexGreaterOrEqual req.prevLogIndex env.writes.remove with
      ⟨result, p⟩
    obtain ⟨stored, term, vote, -⟩ := remove_cases remove sound.stored (Nat.le_succ_of_le inside)
    cases result <;> exact sound.persist stored (sound.backed.of_eq term vote)
  case isFalse =>
    rcases rewrite : RaftCore.rewriteLog r.persistent req env.writes with ⟨result, p⟩
    obtain ⟨stored, term, vote, -⟩ := RaftCore.rewriteLog_cases rewrite sound.stored inside
    have persisted := sound.persist stored (sound.backed.of_eq term vote)
    cases result with
    | error err => exact persisted
    | ok => exact persisted.congr rfl rfl

theorem Sound.handleAppendEntriesRequest {req : AppendEntriesRequest}
    (careful : r.cluster.isKnownServer src ∨ ¬r.cluster.isClusterDiscovered →
      ResetsVote r.persistent req.term env.writes) :
    Sound granted campaigns me (r.handleAppendEntriesRequest dsdl env src req).1 := by
  unfold RaftCore.handleAppendEntriesRequest
  split
  case isTrue => exact sound
  case isFalse admitted =>
  have resets := careful ((ClusterManager.admits_iff.mp admitted).imp_right (by simp [·]))
  have met : Sound granted campaigns me { r with cluster := r.cluster.addServer src r.log.lastIndex } :=
    sound.congr rfl (ClusterManager.nodeId_addServer _ _ _)
  rw [RaftCore.meet_eq]
  simp only
  rcases update : RaftCore.updateTerm r.persistent req.term env.writes with ⟨result, p⟩
  have updated := met.updateTerm resets update
  cases result with
  | error err => exact updated.handlePersistentStateUpdateError
  | ok =>
    simp only
    split
    case isTrue => exact updated
    case isFalse => exact (updated.registerActivity.switchState .follower).acceptAppendEntries req

/-! ## Responses -/

/-- A response with a newer term finds no vote, or the term cannot be written. -/
theorem Sound.tryIncrementCurrentTermFromResponse {newTerm : Term}
    (newer : newTerm > r.currentTerm) (keeps : KeepsTerm r.persistent newTerm env.writes) :
    Sound granted campaigns me (r.tryIncrementCurrentTermFromResponse dsdl env newTerm) := by
  have writable := setCurrentTerm_ok sound.stored newTerm env.writes.term
  rcases set : r.persistent.setCurrentTerm newTerm env.writes.term with ⟨result, p⟩
  obtain ⟨stored, -, vote, -, failed, -⟩ := setCurrentTerm_cases set sound.stored
  rw [set] at writable
  have backed : Backed granted campaigns me p := by
    by_cases ok : result = .ok ()
    case neg => exact failed ok ▸ sound.backed
    · have written : env.writes.term = true := by
        refine (writable.mp ok).2.resolve_right fun same => ?_
        rw [← same] at newer
        exact UInt32.lt_irrefl _ newer
      have unset : ¬r.persistent.isVotedForSet := fun voted =>
        Bool.false_ne_true ((keeps newer voted).symm.trans written)
      exact .of_unset unset vote
  unfold RaftCore.tryIncrementCurrentTermFromResponse
  simp only [set]
  exact ((sound.persist stored backed).registerActivity).switchState .follower

theorem Sound.handleRequestVoteResponse {resp : RequestVoteResponse}
    (keeps : KeepsTerm r.persistent resp.term env.writes) :
    Sound granted campaigns me (r.handleRequestVoteResponse dsdl env resp) := by
  unfold RaftCore.handleRequestVoteResponse
  split
  case isTrue newer => exact sound.tryIncrementCurrentTermFromResponse newer keeps
  case isFalse =>
  split
  · exact sound.congr rfl rfl
  · exact sound

theorem Sound.handleAppendEntriesResponse {server : NodeID}
    {resp : AppendEntriesResponse} (keeps : KeepsTerm r.persistent resp.term env.writes) :
    Sound granted campaigns me (r.handleAppendEntriesResponse dsdl env server resp) := by
  unfold RaftCore.handleAppendEntriesResponse
  split
  case isTrue newer => exact (sound.tryIncrementCurrentTermFromResponse newer keeps).congr rfl rfl
  case isFalse =>
  split
  · exact sound.congr rfl rfl
  · exact sound.congr rfl rfl

/-! ## Timer events -/

/-- A campaign stores its vote together with its term. -/
theorem Sound.startCampaign (candidate : r.serverState = .candidate)
    (idle : r.numVotesReceivedInThisCampaign = 0)
    (careful : r.persistent.votedFor ≠ r.nodeId → env.writes.vote = true →
      env.writes.term = true ∧ r.currentTerm ≤ r.currentTerm + 1) :
    Sound granted
      (if startsCampaign r (r.startCampaign dsdl env) then (r.startCampaign dsdl env).currentTerm :: campaigns
        else campaigns) me (r.startCampaign dsdl env) := by
  have more : ∀ {begun : Bool} {term : Term}, campaigns ⊆ if begun then term :: campaigns else campaigns := by
    intro begun term t mem
    split
    · exact List.mem_cons_of_mem _ mem
    · exact mem
  rcases vote : r.persistent.setVotedFor r.nodeId env.writes.vote with ⟨result, p⟩
  obtain ⟨stored, -, term, -, failed, voted⟩ := setVotedFor_cases vote sound.stored
  cases result with
  | error err =>
    have fails : r.startCampaign dsdl env =
        ({ r with persistent := p } : RaftCore).handlePersistentStateUpdateError dsdl env := by
      simp only [RaftCore.startCampaign, vote]
    rw [fails]
    exact ((sound.persist stored (failed nofun ▸ sound.backed)).handlePersistentStateUpdateError).mono
      (List.Subset.refl _) more
  | ok =>
  have voted := voted rfl
  rcases raise : p.setCurrentTerm (p.currentTerm + 1) env.writes.term with ⟨result, p₂⟩
  obtain ⟨stored₂, -, vote₂, -, failed₂, -⟩ := setCurrentTerm_cases raise stored
  cases result with
  | error err =>
    have fails : r.startCampaign dsdl env =
        ({ r with persistent := p₂ } : RaftCore).handlePersistentStateUpdateError dsdl env := by
      simp only [RaftCore.startCampaign, vote, raise]
    have same₂ : p₂ = p := failed₂ nofun
    -- the vote was this one before, or the term could have been written
    have unchanged : r.persistent.votedFor = r.nodeId := by
      by_contra changed
      have valid := valid_of_setVotedFor vote
      have written := ((setVotedFor_ok sound.stored valid env.writes.vote).mp
        (congrArg Prod.fst vote)).resolve_right changed
      obtain ⟨writable, upward⟩ := careful changed written
      have raised := (setCurrentTerm_ok stored (p.currentTerm + 1) env.writes.term).mpr
        ⟨term.symm ▸ upward, .inl writable⟩
      rw [raise] at raised
      cases raised
    rw [fails]
    refine Sound.mono (Sound.handlePersistentStateUpdateError ?_) (List.Subset.refl _) more
    refine sound.persist stored₂ (sound.backed.of_eq ?_ ?_)
    · rw [same₂, term]
    · rw [same₂, voted, unchanged]
  | ok =>
    obtain ⟨calls, outs, requests, -⟩ := RaftCore.requestVotes_spec env
      ⟨p₂.currentTerm, (p₂.log.entries p₂.log.lastIndex).term, p₂.log.lastIndex⟩
      (r.cluster.servers.take (dsdl.maxClusterSize - 1))
      { r with persistent := p₂, numVotesReceivedInThisCampaign := 1 }
    have begins : r.startCampaign dsdl env =
        { r with
          persistent := p₂
          numVotesReceivedInThisCampaign := 1
          requestVoteCalls := r.requestVoteCalls ++ calls
          outbox := r.outbox ++ outs } := by
      simp only [RaftCore.startCampaign, vote, raise]
      exact requests
    have begun : startsCampaign r (r.startCampaign dsdl env) = true := by
      simp [startsCampaign, begins, candidate, idle]
    rw [if_pos begun, begins]
    refine ⟨stored₂, sound.node, fun _ => .inr ⟨?_, List.mem_cons_self⟩⟩
    rw [vote₂, voted, sound.node]

theorem Sound.updateLeader (leader : r.serverState = .leader) :
    Sound granted campaigns me (r.updateLeader dsdl env) := by
  obtain ⟨x, calm, same, result⟩ := RaftCore.updateLeader_split dsdl env leader
  have split := sound.congr same calm.moves.nodeId
  rcases result with eq | eq <;> rw [eq]
  · exact split
  · exact split.congr x.persistent_propagateCommitIndex x.moves_propagateCommitIndex.nodeId

theorem Sound.handleTimerEvent
    (careful : r.serverState = .candidate → r.numVotesReceivedInThisCampaign = 0 →
      r.persistent.votedFor ≠ r.nodeId → env.writes.vote = true →
      env.writes.term = true ∧ r.currentTerm ≤ r.currentTerm + 1) :
    Sound granted
      (if startsCampaign r (r.handleTimerEvent dsdl env) then (r.handleTimerEvent dsdl env).currentTerm :: campaigns
        else campaigns) me (r.handleTimerEvent dsdl env) := by
  cases role : r.serverState with
  | follower =>
    have same : r.handleTimerEvent dsdl env = r.updateFollower dsdl env := by rw [RaftCore.handleTimerEvent, role]
    have quiet : startsCampaign r (r.updateFollower dsdl env) = false := by
      simp [startsCampaign, role]
    rw [same, quiet, if_neg Bool.false_ne_true]
    unfold RaftCore.updateFollower
    split
    · exact (sound.switchState .candidate).registerActivity
    · exact sound
  | leader =>
    have same : r.handleTimerEvent dsdl env = r.updateLeader dsdl env := by rw [RaftCore.handleTimerEvent, role]
    have quiet : startsCampaign r (r.updateLeader dsdl env) = false := by
      simp [startsCampaign, role]
    rw [same, quiet]
    exact sound.updateLeader role
  | candidate =>
    have same : r.handleTimerEvent dsdl env = r.updateCandidate dsdl env := by rw [RaftCore.handleTimerEvent, role]
    rw [same]
    by_cases counted : r.numVotesReceivedInThisCampaign > 0
    · have quiet : startsCampaign r (r.updateCandidate dsdl env) = false := by
        simp [startsCampaign, Nat.ne_of_gt counted]
      rw [quiet, if_neg Bool.false_ne_true, RaftCore.updateCandidate, if_pos counted]
      split
      · exact sound.switchState .leader
      · exact sound.switchState .follower
    · have idle : r.numVotesReceivedInThisCampaign = 0 := Nat.eq_zero_of_not_pos counted
      have starts : r.updateCandidate dsdl env = r.startCampaign dsdl env := by
        rw [RaftCore.updateCandidate, if_neg counted]
      rw [starts]
      exact sound.startCampaign role idle (careful role idle)

/-! ## The rest -/

theorem Sound.appendLog (uniqueId : UniqueID) (nodeId : NodeID) :
    Sound granted campaigns me (r.appendLog dsdl env uniqueId nodeId) := by
  unfold RaftCore.appendLog
  split
  case isFalse => exact sound
  case isTrue =>
  simp only
  rcases append : r.persistent.appendEntry ⟨r.currentTerm, uniqueId, nodeId.value⟩
    (env.writes.append (r.log.lastIndex + 1)) with ⟨result, p⟩
  obtain ⟨stored, term, vote, -⟩ := appendEntry_cases append sound.stored
  have persisted := sound.persist stored (sound.backed.of_eq term vote)
  cases result with
  | error err => exact persisted.handlePersistentStateUpdateError
  | ok => exact persisted

end

/-- A started server has the term and the vote that the persistent state restored. -/
theorem sound_init {nodeId : NodeID} {st : Storage} {size : ℕ} (run : RaftCore.init dsdl env nodeId st size = .ok r)
    (restored : ∀ {p st'}, PersistentState.init st env.writes = (.ok p, st') →
      p.Stored ∧ Backed granted campaigns nodeId p) : Sound granted campaigns nodeId r := by
  obtain ⟨p, st₁, k, st₂, init, manager, rfl⟩ := RaftCore.init_eq run
  obtain ⟨stored, backed⟩ := restored init
  obtain ⟨n, rfl, frame, -⟩ := ClusterManager.init_cases manager
  exact ⟨stored.of_log (stored.log.congr frame nofun (by simp)) (frame _ nofun) (frame _ nofun), rfl,
    backed.of_eq rfl rfl⟩

/-- A careful step keeps the vote and its term together. -/
theorem Sound.exec {v v' : Voter} {a : VoterAction} (sound : Sound v.granted v.campaigns me v.core)
    (careful : v.Careful a) (run : v.exec dsdl a = some v') : Sound v'.granted v'.campaigns me v'.core := by
  cases a with
  | timer env =>
    cases run
    exact (sound.handleTimerEvent careful).congr rfl rfl
  | requestVote src request env =>
    rcases handled : v.core.handleRequestVoteRequest dsdl env src request with ⟨r, response⟩
    simp only [Voter.exec, handled] at run
    cases run
    exact (sound.handleRequestVoteRequest careful handled).congr rfl rfl
  | requestVoteResponse call response env =>
    obtain ⟨-, run⟩ := Option.ite_none_right_eq_some.mp run
    cases run
    have answered : Sound v.granted v.campaigns me
      { v.core with requestVoteCalls := v.core.requestVoteCalls.erase call } := sound.congr rfl rfl
    exact (answered.handleRequestVoteResponse careful).congr rfl rfl
  | appendEntries src request env =>
    cases run
    exact (sound.handleAppendEntriesRequest careful).congr rfl rfl
  | appendEntriesResponse call response env =>
    obtain ⟨-, run⟩ := Option.ite_none_right_eq_some.mp run
    cases run
    have answered : Sound v.granted v.campaigns me
      { v.core with appendEntriesCalls := v.core.appendEntriesCalls.erase call } := sound.congr rfl rfl
    exact (answered.handleAppendEntriesResponse careful).congr rfl rfl
  | appendLog uniqueId nodeId env =>
    cases run
    exact (sound.appendLog uniqueId nodeId).congr rfl rfl
  | discoveryTimer =>
    cases run
    exact sound.congr rfl (ClusterManager.nodeId_handleTimerEvent _)
  | discovery message =>
    cases run
    exact sound.congr rfl (ClusterManager.nodeId_handleDiscovery _ _ _)
  | callTimeout call =>
    cases run
    exact sound.congr rfl rfl
  | restart initClusterSize env =>
    simp only [Voter.exec] at run
    split at run
    case h_1 => cases run
    case h_2 r started =>
    cases run
    rw [sound.node] at started
    refine (sound_init started fun init => ?_).congr rfl rfl
    obtain ⟨stored, -, term, vote, -⟩ := init_eq_of_stored sound.stored init
    exact ⟨stored, sound.backed.of_eq term vote⟩

/-- A server that has not voted in its term grants its vote to the first candidate whose log is up to date. -/
theorem Sound.grants (sound : Sound granted campaigns me r) (ungranted : ∀ n, (r.currentTerm, n) ∉ granted)
    (idle : r.currentTerm ∉ campaigns) (known : r.cluster.isKnownServer src) (valid : src.isValid)
    (term : req.term = r.currentTerm) (upToDate : r.log.isOtherLogUpToDate req.lastLogIndex req.lastLogTerm)
    (written : env.writes.vote = true) :
    (r.handleRequestVoteRequest dsdl env src req).2 = some ⟨r.currentTerm, true⟩ := by
  have unset : r.persistent.isVotedForSet = false := by
    refine Bool.eq_false_iff.mpr fun set => ?_
    rcases sound.backed set with grant | ⟨-, campaign⟩
    · exact ungranted _ grant
    · exact idle campaign
  have current : ¬req.term > r.currentTerm := term ▸ UInt32.lt_irrefl _
  have stays : RaftCore.updateTerm r.persistent req.term env.writes = (.ok (), r.persistent) :=
    if_neg current
  have older : ¬req.term < r.currentTerm := term ▸ UInt32.lt_irrefl _
  have same : ((r.switchState .follower).registerActivity dsdl env).persistent = r.persistent :=
    (r.switchState_keeps .follower).2.1
  have stored := (setVotedFor_ok sound.stored valid env.writes.vote).mpr (.inl written)
  rcases set : r.persistent.setVotedFor src env.writes.vote with ⟨result, p⟩
  rw [set] at stored
  cases stored
  simp only [RaftCore.handleRequestVoteRequest, known, if_false, current, stays]
  unfold RaftCore.voteOnRequest
  simp [older, unset, upToDate, same, set]

end Sound

instance (v : Voter) (a : VoterAction) : Decidable (v.Careful a) := by
  cases a <;> dsimp only [Careful, ResetsVote, KeepsTerm] <;> infer_instance

end Voter

/-- The states of a server that was first started on an empty storage. -/
inductive VoterRun (dsdl : Dsdl) (allowed : Voter → VoterAction → Prop) : Voter → Prop
  | start {r : RaftCore} {env : Env} {nodeId : NodeID} {size : ℕ} :
    RaftCore.init dsdl env nodeId Storage.empty size = .ok r → VoterRun dsdl allowed ⟨r, [], []⟩
  | step {v v' : Voter} {a : VoterAction} : VoterRun dsdl allowed v → allowed v a → v.exec dsdl a = some v' →
    VoterRun dsdl allowed v'

namespace VoterRun

variable {dsdl : Dsdl} {allowed : Voter → VoterAction → Prop}

theorem exists_of_play (dsdl : Dsdl) (env : Env) (nodeId : NodeID) (size : ℕ)
    (allowed : Voter → VoterAction → Prop) [∀ v a, Decidable (allowed v a)] (actions : List VoterAction)
    (P : Voter → Prop) [DecidablePred P] (played : (match RaftCore.init dsdl env nodeId Storage.empty size with
      | .ok r => (Machines.play (Voter.exec dsdl) allowed actions ⟨r, [], []⟩).any (fun v => decide (P v))
      | .error _ => false) = true) : ∃ v, VoterRun dsdl allowed v ∧ P v := by
  cases started : RaftCore.init dsdl env nodeId Storage.empty size with
  | error err =>
    rw [started] at played
    cases played
  | ok r =>
    rw [started] at played
    exact Machines.exists_of_play .step (.start started) actions P played

theorem sound {v : Voter} (run : VoterRun dsdl Voter.Careful v) :
    Voter.Sound v.granted v.campaigns v.core.nodeId v.core := by
  have found : ∃ me, Voter.Sound v.granted v.campaigns me v.core := by
    induction run with
    | start started =>
      refine ⟨_, Voter.sound_init started fun init => ?_⟩
      obtain ⟨stored, -, vote, -⟩ := init_empty init
      refine ⟨stored, fun set => ?_⟩
      rw [isVotedForSet, vote] at set
      cases set
    | step _ careful exec ih =>
      obtain ⟨me, before⟩ := ih
      exact ⟨me, before.exec careful exec⟩
  obtain ⟨me, found⟩ := found
  exact found.node.symm ▸ found

/-- In every run of careful steps, a vote that is stored was given in the current term, and a server that has not
voted in its term still can. -/
theorem vote_of_current_term {v : Voter} (run : VoterRun dsdl Voter.Careful v) :
    (v.core.persistent.isVotedForSet →
      (v.core.currentTerm, v.core.persistent.votedFor) ∈ v.granted ∨
        (v.core.persistent.votedFor = v.core.nodeId ∧ v.core.currentTerm ∈ v.campaigns)) ∧
    ((∀ n, (v.core.currentTerm, n) ∉ v.granted) → v.core.currentTerm ∉ v.campaigns →
      ∀ (src : NodeID) (req : RequestVoteRequest) (env : Env), v.core.cluster.isKnownServer src → src.isValid →
        req.term = v.core.currentTerm → v.core.log.isOtherLogUpToDate req.lastLogIndex req.lastLogTerm →
        env.writes.vote = true →
        (v.core.handleRequestVoteRequest dsdl env src req).2 = some ⟨v.core.currentTerm, true⟩) :=
  ⟨run.sound.backed, fun ungranted idle _ _ _ known valid term upToDate written =>
    run.sound.grants ungranted idle known valid term upToDate written⟩

/-- Surroundings in which everything works, long after the last activity. -/
def late : Env := ⟨1000000000, 0, 0, fun _ => true, Writes.all⟩

/-- A server of three knows the others, and grants its vote. -/
theorem vote_of_current_term_sample : ∃ v, VoterRun ⟨5, 1, 2000, 4000⟩ Voter.Careful v ∧
    v.core.persistent.isVotedForSet = true ∧
    ((v.core.currentTerm, v.core.persistent.votedFor) ∈ v.granted ∨
      (v.core.persistent.votedFor = v.core.nodeId ∧ v.core.currentTerm ∈ v.campaigns)) := by
  obtain ⟨v, run, checked⟩ := exists_of_play ⟨5, 1, 2000, 4000⟩ late ⟨1⟩ 3 Voter.Careful
    [.discovery ⟨3, [2, 1, 3]⟩, .requestVote ⟨2⟩ ⟨1, 0, 0⟩ late] (fun v => v.core.persistent.isVotedForSet = true)
    (by decide +kernel)
  exact ⟨v, run, checked, run.vote_of_current_term.1 checked⟩

/-- A candidate of term one learns of term five from a response.  It keeps its vote for itself, and refuses its vote
in term five, in which it has neither voted nor stood. -/
theorem vote_of_older_term : ∃ v : Voter, VoterRun ⟨5, 1, 2000, 4000⟩ (fun _ _ => True) v ∧
    v.core.currentTerm = 5 ∧ v.core.persistent.isVotedForSet = true ∧ v.granted = [] ∧ v.campaigns = [1] ∧
    (v.core.handleRequestVoteRequest ⟨5, 1, 2000, 4000⟩ late ⟨2⟩ ⟨5, 0, 0⟩).2 = some ⟨5, false⟩ :=
  exists_of_play ⟨5, 1, 2000, 4000⟩ late ⟨1⟩ 3 _
    [.discovery ⟨3, [2, 1, 3]⟩, .timer { late with now := 2000000000 }, .timer late,
      .requestVoteResponse ⟨⟨2⟩, 0⟩ ⟨5, false⟩ late] _ (by decide +kernel)

end VoterRun

end Uavcan
