import Uavcan.DynamicNodeId.ClusterManager

/-!
# The Raft core

`RaftCore` of `distributed/raft_core.hpp`: log replication and voting of one server.  A handler maps
the state before to the state after; what it sends, and what it tells the leader monitor, is put
into `outbox` in order.  Time, random numbers, the outcome of service calls and of storage writes
come from an `Env`.
-/

namespace Uavcan

/-- Identifies a service call: the server called and the transfer ID of the request.  Transfer IDs
are never reused here, so that a response belongs to one call. -/
structure ServiceCallID where
  serverNodeID : NodeID
  transferID : ℕ
  deriving DecidableEq

/-- A request of the leader; without entries it is a heartbeat. -/
structure AppendEntriesRequest where
  term : Term
  prevLogTerm : Term
  prevLogIndex : ℕ
  leaderCommit : ℕ
  entries : List Entry
  deriving DecidableEq

structure AppendEntriesResponse where
  term : Term
  success : Bool
  deriving DecidableEq

/-- A request of a candidate, with the end of its log. -/
structure RequestVoteRequest where
  term : Term
  lastLogTerm : Term
  lastLogIndex : ℕ
  deriving DecidableEq

structure RequestVoteResponse where
  term : Term
  voteGranted : Bool
  deriving DecidableEq

inductive ServerState
  | follower
  | candidate
  | leader
  deriving DecidableEq

/-- What a handler emits: service calls, and the two callbacks of `IRaftLeaderMonitor`. -/
inductive Output
  | requestVote (call : ServiceCallID) (request : RequestVoteRequest)
  | appendEntries (call : ServiceCallID) (request : AppendEntriesRequest)
  | localLeadershipChange (localNodeIsLeader : Bool)
  | logCommitOnLeader (committedEntry : Entry)
  deriving DecidableEq

/-- What the surroundings decide during one handler.  `callOk` says whether a call to a server is
registered as pending; the request of a call that fails may have left all the same. -/
structure Env where
  now : ℕ
  rand : ℕ
  transferID : ℕ
  callOk : NodeID → Bool
  writes : Writes

/-- What the last `AppendEntries` request had, for its response. -/
structure PendingAppendEntriesFields where
  prevLogIndex : ℕ
  numEntries : ℕ
  deriving DecidableEq

/-- The state of a server.  Times are in microseconds. -/
structure RaftCore where
  persistent : PersistentState
  cluster : ClusterManager
  commitIndex : ℕ
  lastActivityTimestamp : ℕ
  randomizedActivityTimeout : ℕ
  serverState : ServerState
  nextServerIndex : ℕ
  numVotesReceivedInThisCampaign : ℕ
  pendingAppendEntriesFields : PendingAppendEntriesFields
  appendEntriesCalls : List ServiceCallID
  requestVoteCalls : List ServiceCallID
  outbox : List Output

namespace RaftCore

variable (dsdl : Dsdl) (env : Env)

/-- `getNode().getNodeID()`. -/
def nodeId (r : RaftCore) : NodeID := r.cluster.nodeId

def log (r : RaftCore) : Log := r.persistent.log

def currentTerm (r : RaftCore) : Term := r.persistent.currentTerm

variable (r : RaftCore)

/-- Outputs stand in the order in which they are made. -/
def emit (out : Output) : RaftCore := { r with outbox := r.outbox ++ [out] }

/-- The election timeout starts anew, with a random length. -/
def registerActivity : RaftCore :=
  let randomizationRangeMsec := dsdl.maxElectionTimeoutMs - dsdl.minElectionTimeoutMs
  let randomMsec := env.rand % randomizationRangeMsec + 1
  { r with
    lastActivityTimestamp := env.now
    randomizedActivityTimeout := (dsdl.minElectionTimeoutMs + randomMsec) * 1000 }

def isActivityTimedOut : Bool :=
  env.now > r.lastActivityTimestamp + r.randomizedActivityTimeout

/-- What belongs to the old state is dropped; the monitor is told of leadership. -/
def switchState (newState : ServerState) : RaftCore :=
  if r.serverState = newState then r
  else
    let oldState := r.serverState
    let r := { r with
      serverState := newState
      cluster := r.cluster.resetAllServerIndices r.log.lastIndex
      nextServerIndex := 0
      numVotesReceivedInThisCampaign := 0
      requestVoteCalls := []
      appendEntriesCalls := [] }
    if oldState = .leader ∨ newState = .leader then
      r.emit (.localLeadershipChange (newState = .leader))
    else r

/-- After a failed update the server waits as a follower. -/
def handlePersistentStateUpdateError : RaftCore :=
  (r.switchState .follower).registerActivity dsdl env

/-! ## Service calls -/

/-- The ID of the next call: the first unused one, advanced by what the handler already emitted. -/
def nextCallID (server : NodeID) : ServiceCallID :=
  ⟨server, env.transferID + r.outbox.length⟩

def callRequestVote (server : NodeID) (req : RequestVoteRequest) : RaftCore :=
  let call := r.nextCallID env server
  let calls := if env.callOk server then r.requestVoteCalls ++ [call] else r.requestVoteCalls
  ({ r with requestVoteCalls := calls }).emit (.requestVote call req)

def callAppendEntries (server : NodeID) (req : AppendEntriesRequest) : RaftCore :=
  let call := r.nextCallID env server
  let calls := if env.callOk server then r.appendEntriesCalls ++ [call] else r.appendEntriesCalls
  ({ r with appendEntriesCalls := calls }).emit (.appendEntries call req)

/-! ## Periodic updates -/

/-- A follower that hears nothing becomes a candidate. -/
def updateFollower : RaftCore :=
  if r.isActivityTimedOut env then (r.switchState .candidate).registerActivity dsdl env else r

/-- The loop of `updateCandidate` over the known servers. -/
def requestVotes (req : RequestVoteRequest) : List ClusterManager.Server → RaftCore → RaftCore
  | [], r => r
  | s :: rest, r =>
    if s.nodeId.isUnicast then requestVotes req rest (r.callRequestVote env s.nodeId req) else r

/-- The branch of `updateCandidate` that starts a campaign. -/
def startCampaign : RaftCore :=
  -- Set votedFor, abort on failure
  match r.persistent.setVotedFor r.nodeId env.writes.vote with
  | (.error _, p) => ({ r with persistent := p }).handlePersistentStateUpdateError dsdl env
  | (.ok _, p) =>
    -- Increment current term, abort on failure
    match p.setCurrentTerm (p.currentTerm + 1) env.writes.term with
    | (.error _, p) => ({ r with persistent := p }).handlePersistentStateUpdateError dsdl env
    | (.ok _, p) =>
      let r := { r with persistent := p, numVotesReceivedInThisCampaign := 1 }
      let req : RequestVoteRequest :=
        ⟨r.currentTerm, (r.log.entries r.log.lastIndex).term, r.log.lastIndex⟩
      requestVotes env req (r.cluster.servers.take (dsdl.maxClusterSize - 1)) r

/-- A candidate starts a campaign, and at the next update counts the votes. -/
def updateCandidate : RaftCore :=
  if r.numVotesReceivedInThisCampaign > 0 then
    if r.numVotesReceivedInThisCampaign ≥ r.cluster.getQuorumSize then r.switchState .leader
    else r.switchState .follower
  else r.startCampaign dsdl env

/-- The servers, the local one included, that have the next uncommitted entry. -/
def numNodesWithNextLogEntryAvailable : ℕ :=
  1 + r.cluster.servers.countP fun s => r.cluster.getServerMatchIndex s.nodeId > r.commitIndex

/-- One entry is committed at a time, once a quorum has it. -/
def propagateCommitIndex : RaftCore :=
  if r.commitIndex < r.log.lastIndex then
    if r.numNodesWithNextLogEntryAvailable ≥ r.cluster.getQuorumSize then
      let r := { r with commitIndex := toIndex (r.commitIndex + 1) }
      -- AT THIS POINT ALLOCATION IS COMPLETE
      r.emit (.logCommitOnLeader (r.log.entries r.commitIndex))
    else r
  else r

/-- The request `updateLeader` sends to a server whose `next_index` is `next`. -/
def makeAppendEntriesRequest (next : ℕ) (prevEntry : Entry) :
    AppendEntriesRequest where
  term := r.currentTerm
  prevLogTerm := prevEntry.term
  prevLogIndex := toIndex (next + 255)
  leaderCommit := r.commitIndex
  -- the loop stops at the last index or when the array is full
  entries := (r.log.list.drop next).take dsdl.entriesCapacity

/-- The part of `updateLeader` that queries one follower; `none` on the error path. -/
def sendAppendEntries : Option RaftCore :=
  let server := r.cluster.getRemoteServerNodeIDAtIndex r.nextServerIndex
  let next := r.cluster.getServerNextIndex server
  match r.log.getEntryAtIndex (toIndex (next + 255)) with
  | none => none
  | some prevEntry =>
    let req := r.makeAppendEntriesRequest dsdl next prevEntry
    let r := { r with pendingAppendEntriesFields := ⟨req.prevLogIndex, req.entries.length⟩ }
    some (r.callAppendEntries env server req)

/-- `next_server_index_++` with the wrap at the number of known servers. -/
def advanceNextServer : RaftCore :=
  let next := toIndex (r.nextServerIndex + 1)
  { r with nextServerIndex := if next ≥ r.cluster.getNumKnownServers then 0 else next }

/-- A leader sends to one follower at each update. -/
def updateLeader : RaftCore :=
  -- Refer to the response callback to learn why
  let r := { r with appendEntriesCalls := [] }
  if r.cluster.clusterSize > 1 then
    match r.sendAppendEntries dsdl env with
    | none => r.advanceNextServer.handlePersistentStateUpdateError dsdl env
    | some sent => sent.advanceNextServer.propagateCommitIndex
  else r.propagateCommitIndex

def handleTimerEvent : RaftCore :=
  match r.serverState with
  | .follower => r.updateFollower dsdl env
  | .candidate => r.updateCandidate dsdl env
  | .leader => r.updateLeader dsdl env

/-! ## AppendEntries -/

/-- The sequence with which both request handlers take over a newer term. -/
def updateTerm (p : PersistentState) (term : Term) (w : Writes) :
    Except Err Unit × PersistentState :=
  if term > p.currentTerm then
    match p.setCurrentTerm term w.term with
    | (.error err, p) => (.error err, p)
    | (.ok _, p) => p.resetVotedFor w.resetVote
  else (.ok (), p)

/-- The appending loop of step 4. -/
def appendEntries (w : Writes) : List Entry → PersistentState → Except Err Unit × PersistentState
  | [], p => (.ok (), p)
  | entry :: rest, p =>
    match p.appendEntry entry (w.append (p.log.lastIndex + 1)) with
    | (.error err, p) => (.error err, p)
    | (.ok _, p) => appendEntries w rest p

/-- Step 4: remove what follows the previous entry, then append. -/
def rewriteLog (p : PersistentState) (req : AppendEntriesRequest) (w : Writes) :
    Except Err Unit × PersistentState :=
  if req.prevLogIndex ≠ p.log.lastIndex then
    match p.removeEntriesWhereIndexGreater req.prevLogIndex w.remove with
    | (.error err, p) => (.error err, p)
    | (.ok _, p) => appendEntries w req.entries p
  else appendEntries w req.entries p

/-- Steps 2 to 5, on a server that has switched to follower. -/
def acceptAppendEntries (req : AppendEntriesRequest) :
    RaftCore × Option AppendEntriesResponse :=
  let response : AppendEntriesResponse := ⟨r.currentTerm, false⟩
  -- Step 2
  match r.log.getEntryAtIndex req.prevLogIndex with
  | none => (r, some response)
  | some prevEntry =>
    -- Step 3
    if prevEntry.term ≠ req.prevLogTerm then
      match r.persistent.removeEntriesWhereIndexGreaterOrEqual req.prevLogIndex env.writes.remove with
      | (.error _, p) => ({ r with persistent := p }, none)
      | (.ok _, p) => ({ r with persistent := p }, some response)
    else
      -- Step 4
      match rewriteLog r.persistent req env.writes with
      | (.error _, p) => ({ r with persistent := p }, none)
      | (.ok _, p) =>
        -- Step 5
        let commitIndex :=
          if req.leaderCommit > r.commitIndex then min req.leaderCommit p.log.lastIndex
          else r.commitIndex
        ({ r with persistent := p, commitIndex := commitIndex }, some { response with success := true })

/-- The handler; no response stands for a disabled one. -/
def handleAppendEntriesRequest (src : NodeID) (req : AppendEntriesRequest) :
    RaftCore × Option AppendEntriesResponse :=
  if !r.cluster.isKnownServer src && r.cluster.isClusterDiscovered then (r, none)
  else
    let r :=
      if !r.cluster.isKnownServer src then
        { r with cluster := r.cluster.addServer src r.log.lastIndex }
      else r
    match updateTerm r.persistent req.term env.writes with
    | (.error _, p) => (({ r with persistent := p }).handlePersistentStateUpdateError dsdl env, none)
    | (.ok _, p) =>
      let r := { r with persistent := p }
      -- Step 1
      if req.term < r.currentTerm then (r, some ⟨r.currentTerm, false⟩)
      else ((r.registerActivity dsdl env).switchState .follower).acceptAppendEntries env req

/-- A response of a later term; a failed write is ignored. -/
def tryIncrementCurrentTermFromResponse (newTerm : Term) : RaftCore :=
  let p := (r.persistent.setCurrentTerm newTerm env.writes.term).2
  (({ r with persistent := p }).registerActivity dsdl env).switchState .follower

/-- The callback of a successful call; the client has removed the call already. -/
def handleAppendEntriesResponse (server : NodeID) (resp : AppendEntriesResponse) :
    RaftCore :=
  let pending := r.pendingAppendEntriesFields
  let r :=
    if resp.term > r.currentTerm then r.tryIncrementCurrentTermFromResponse dsdl env resp.term
    else if resp.success then
      { r with
        cluster := (r.cluster.incrementServerNextIndexBy server pending.numEntries).setServerMatchIndex
          server (toIndex (pending.prevLogIndex + pending.numEntries)) }
    else { r with cluster := r.cluster.decrementServerNextIndex server }
  { r with pendingAppendEntriesFields := ⟨0, 0⟩ }

/-! ## RequestVote -/

/-- The decision on a request of the current term or an older one. -/
def voteOnRequest (src : NodeID) (req : RequestVoteRequest) :
    RaftCore × Option RequestVoteResponse :=
  let term := r.currentTerm
  if req.term < term then (r, some ⟨term, false⟩)
  else
    let canVote := !r.persistent.isVotedForSet || r.persistent.votedFor = src
    let logIsUpToDate := r.log.isOtherLogUpToDate req.lastLogIndex req.lastLogTerm
    if canVote && logIsUpToDate then
      -- Avoiding race condition when Candidate; the activity avoids excessive elections
      let r := (r.switchState .follower).registerActivity dsdl env
      match r.persistent.setVotedFor src env.writes.vote with
      | (.error _, p) => ({ r with persistent := p }, none)
      | (.ok _, p) => ({ r with persistent := p }, some ⟨term, true⟩)
    else (r, some ⟨term, false⟩)

/-- The term of the request is taken over before the vote. -/
def handleRequestVoteRequest (src : NodeID) (req : RequestVoteRequest) :
    RaftCore × Option RequestVoteResponse :=
  if !r.cluster.isKnownServer src then (r, none)
  else
    -- Our term is stale, so we can't serve as leader
    let r := if req.term > r.currentTerm then r.switchState .follower else r
    match updateTerm r.persistent req.term env.writes with
    | (.error _, p) => (({ r with persistent := p }).handlePersistentStateUpdateError dsdl env, none)
    | (.ok _, p) => ({ r with persistent := p }).voteOnRequest dsdl env src req

/-- A granted vote is counted, also one of an earlier term. -/
def handleRequestVoteResponse (resp : RequestVoteResponse) : RaftCore :=
  if resp.term > r.currentTerm then r.tryIncrementCurrentTermFromResponse dsdl env resp.term
  else if resp.voteGranted then
    { r with numVotesReceivedInThisCampaign := toIndex (r.numVotesReceivedInThisCampaign + 1) }
  else r

/-! ## Interface -/

def isLeader : Bool := r.serverState = .leader

/-- Only a leader appends. -/
def appendLog (uniqueId : UniqueID) (nodeId : NodeID) : RaftCore :=
  if r.isLeader then
    let entry : Entry := ⟨r.currentTerm, uniqueId, nodeId.value⟩
    match r.persistent.appendEntry entry (env.writes.append (r.log.lastIndex + 1)) with
    | (.error _, p) => ({ r with persistent := p }).handlePersistentStateUpdateError dsdl env
    | (.ok _, p) => { r with persistent := p }
  else r

structure LogEntryInfo where
  entry : Entry
  committed : Bool

/-- The loop of `traverseLogFromEndUntil`, from an index down to zero. -/
def traverseLogFrom (predicate : LogEntryInfo → Bool) (r : RaftCore) (index : ℕ) :
    Option LogEntryInfo :=
  let info : LogEntryInfo := ⟨r.log.entries index, index ≤ r.commitIndex⟩
  if predicate info then some info
  else
    match index with
    | 0 => none
    | index + 1 => traverseLogFrom predicate r index

/-- The last entry for which the predicate holds. -/
def traverseLogFromEndUntil (predicate : LogEntryInfo → Bool) :
    Option LogEntryInfo :=
  traverseLogFrom predicate r r.log.lastIndex

/-- The constructor. -/
def construct (nodeId : NodeID) (st : Storage) : RaftCore where
  persistent := ⟨st, 0, NodeID.broadcast, ⟨fun _ => Entry.zero, 0, Log.zero_lt_capacity⟩⟩
  cluster := ⟨nodeId, [], 0, false⟩
  commitIndex := 0
  lastActivityTimestamp := env.now
  randomizedActivityTimeout := dsdl.maxElectionTimeoutMs * 1000
  serverState := .follower
  nextServerIndex := 0
  numVotesReceivedInThisCampaign := 0
  pendingAppendEntriesFields := ⟨0, 0⟩
  appendEntriesCalls := []
  requestVoteCalls := []
  outbox := []

/-- The constructor followed by a successful `init`; the subscriptions and the timer are taken to
start. -/
def init (nodeId : NodeID) (st : Storage) (initClusterSize : ℕ) : Except Err RaftCore :=
  match PersistentState.init st env.writes with
  | (.error err, _) => .error err
  | (.ok p, _) =>
    match ClusterManager.init dsdl nodeId p.storage initClusterSize env.writes.clusterSize with
    | (.error err, _) => .error err
    | (.ok cluster, st) =>
      let r := (construct dsdl env nodeId st).registerActivity dsdl env
      .ok { r with persistent := { p with storage := st }, cluster := cluster }

/-- A start that succeeds has restored the persistent state and started the cluster manager. -/
theorem init_eq {dsdl : Dsdl} {env : Env} {nodeId : NodeID} {st : Storage} {size : ℕ} {r : RaftCore}
    (run : init dsdl env nodeId st size = .ok r) :
    ∃ p st₁ k st₂, PersistentState.init st env.writes = (.ok p, st₁) ∧
      ClusterManager.init dsdl nodeId p.storage size env.writes.clusterSize = (.ok k, st₂) ∧
      r = { (construct dsdl env nodeId st₂).registerActivity dsdl env with
        persistent := { p with storage := st₂ }, cluster := k } := by
  unfold init at run
  split at run
  case h_1 => cases run
  case h_2 restored =>
  split at run
  case h_1 => cases run
  case h_2 manager => exact ⟨_, _, _, _, restored, manager, (Except.ok.inj run).symm⟩

end RaftCore

end Uavcan
