import Uavcan.DynamicNodeId.Network
import Uavcan.Replication.Commit
import Uavcan.Replication.Local
import Uavcan.Replication.Majority

/-!
# How a cluster implements log replication

`Sim` relates a cluster to a state of the abstract replication protocol, which keeps what the servers forget:
who voted for whom, which logs candidates stood with, who led each term and with which log, and what was
acknowledged. A message in flight is a statement about these records (`MessageSim`), a server's volatile state
is what it knows of them (`RoleSim`).

A handler changes one server. `Local` says which records such a change may touch, so that what is known of the
other servers and of the messages stays true, and `Sim.settle` puts the pieces together.
-/

namespace Uavcan

open Replication (Reach Inv Le Careful Local)
open List

/-- The abstract counterpart of a cluster. -/
abbrev Abstract := Replication.State NodeID Entry

/-- The replication protocol of a cluster: entries carry the term of their leader, every log starts
with the zero entry, and majorities decide. -/
def ClusterConfig.system (cfg : ClusterConfig) : Replication.System NodeID Entry where
  term := fun e => e.term.toNat
  base := [Entry.zero]
  quorum := Replication.Majority cfg.members.toFinset
  term_base := by simp [Entry.zero]
  quorum_mono := Replication.Majority.mono
  quorum_meet := Replication.Majority.meet

theorem ClusterConfig.card_members (cfg : ClusterConfig) : cfg.members.toFinset.card = cfg.size :=
  toFinset_card_of_nodup cfg.nodup

theorem ClusterConfig.size_lt (cfg : ClusterConfig) : cfg.size < 256 := by
  have distinct : (cfg.members.map fun s => s.value.toNat).Nodup := by
    refine cfg.nodup.map fun a b same => ?_
    cases a
    cases b
    simpa [UInt8.toNat_inj] using same
  have bound : cfg.members.map (fun s => s.value.toNat) ⊆ (range 256).erase 0 := by
    intro n member
    obtain ⟨s, inside, rfl⟩ := mem_map.mp member
    have unicast := cfg.unicast s inside
    simp only [NodeID.isUnicast, Bool.and_eq_true, decide_eq_true_eq] at unicast
    rw [List.Nodup.mem_erase_iff nodup_range]
    refine ⟨fun zero => unicast.2 ?_, mem_range.mpr s.value.toNat_lt⟩
    exact UInt8.toNat_inj.mp zero
  have length := (distinct.subperm bound).length_le
  rw [length_map, length_erase_of_mem (by simp), length_range] at length
  unfold ClusterConfig.size
  omega

/-! ## The relation -/

section Relation

variable (cfg : ClusterConfig) (retaining : Prop)

/-- A server knows members other than itself, each once. -/
structure ClusterSim (s : NodeID) (k : ClusterManager) : Prop where
  nodeId : k.nodeId = s
  size : k.clusterSize = cfg.size
  nodup : (k.servers.map fun f => f.nodeId).Nodup
  member : ∀ id ∈ k.servers.map (fun f => f.nodeId), id ∈ cfg.members ∧ id ≠ s

/-- A candidate in its campaign: the votes it counted were cast, and no further vote is expected from
their senders. -/
structure Campaigns (sent : List Message) (s : NodeID) (r : RaftCore) (A : Abstract) : Prop where
  ballot : A.ballot s (A.current s) = some (A.log s)
  unled : A.leader (A.current s) ≠ some s
  voters : ∃ V ⊆ cfg.members.toFinset, V.card = r.numVotesReceivedInThisCampaign ∧
    (∀ v ∈ V, A.vote v (A.current s) = some s) ∧ ∀ call ∈ r.requestVoteCalls, call.serverNodeID ∉ V
  nodup : (r.requestVoteCalls.map fun call => call.serverNodeID).Nodup
  calls : ∀ call ∈ r.requestVoteCalls, call.serverNodeID ∈ cfg.members ∧
    ∃ req, .requestVote s call req ∈ sent ∧ req.term = r.currentTerm

/-- A leader: its log is the log of its term, its match indices were acknowledged, and the pending
fields are those of the request it waits for. -/
structure Leads (sent : List Message) (s : NodeID) (r : RaftCore) (A : Abstract) : Prop where
  leader : A.leader (A.current s) = some s
  own : A.log s = A.leaderLog (A.current s)
  matched : ∀ f ∈ r.cluster.servers, f.matchIndex = 0 ∨
    ∃ l, A.ack f.nodeId (A.current s) l ∧ f.matchIndex < l.length
  pending : ∀ call ∈ r.appendEntriesCalls, ∃ req, .appendEntries s call req ∈ sent ∧
    req.term = r.currentTerm ∧
    r.pendingAppendEntriesFields = ⟨req.prevLogIndex, req.entries.length⟩
  single : r.appendEntriesCalls.length ≤ 1

/-- The volatile state of a server, by its role. -/
def RoleSim (sent : List Message) (s : NodeID) (r : RaftCore) (A : Abstract) : Prop :=
  match r.serverState with
  | .follower => r.requestVoteCalls = [] ∧ r.appendEntriesCalls = []
  | .candidate => r.appendEntriesCalls = [] ∧
    (r.numVotesReceivedInThisCampaign = 0 ∧ r.requestVoteCalls = [] ∨
      0 < r.numVotesReceivedInThisCampaign ∧ Campaigns cfg sent s r A)
  | .leader => r.requestVoteCalls = [] ∧ Leads sent s r A

/-- What is known of one server. -/
structure ServerSim (sent : List Message) (s : NodeID) (r : RaftCore) (A : Abstract) : Prop where
  stored : r.persistent.Stored
  storedSize : StorageMarshaller.get r.persistent.storage .clusterSize =
    .ok (UInt32.ofNat cfg.size)
  current : A.current s = r.currentTerm.toNat
  log : A.log s = r.log.list
  -- the vote of a term may be overwritten by an attempt to start a campaign that failed
  vote : ∀ d, A.vote s (A.current s) = some d → d ∈ cfg.members ∧
    (r.persistent.votedFor = d ∨ r.persistent.votedFor = s)
  cluster : ClusterSim cfg s r.cluster
  role : RoleSim cfg sent s r A
  commit : retaining → A.Committed cfg.system (A.current s) (A.log s) r.commitIndex

/-- What a message says about the records. -/
def MessageSim (sent : List Message) (A : Abstract) : Message → Prop
  | .requestVote src call req => src ∈ cfg.members ∧ src ≠ call.serverNodeID ∧
    ∃ l, A.ballot src req.term.toNat = some l ∧ l.length = req.lastLogIndex + 1 ∧
      cfg.system.lastTerm l = req.lastLogTerm.toNat
  | .requestVoteResponse dst call resp => resp.voteGranted →
    A.vote call.serverNodeID resp.term.toNat = some dst ∧
    ∃ req, .requestVote dst call req ∈ sent ∧ req.term = resp.term
  | .appendEntries src _ req => src ∈ cfg.members ∧ A.leader req.term.toNat = some src ∧
    (∃ prev, prev.length = req.prevLogIndex + 1 ∧
      prev ++ req.entries <+: A.leaderLog req.term.toNat ∧
      cfg.system.lastTerm prev = req.prevLogTerm.toNat) ∧
    (retaining → A.Committed cfg.system req.term.toNat (A.leaderLog req.term.toNat)
      req.leaderCommit)
  | .appendEntriesResponse dst call resp => resp.success →
    ∃ req, .appendEntries dst call req ∈ sent ∧
      ∃ l, A.ack call.serverNodeID req.term.toNat l ∧
        l.length = req.prevLogIndex + req.entries.length + 1
  | .discovery _ msg => ∀ node ∈ msg.knownNodes, ⟨node⟩ ∈ cfg.members

/-- The call a request starts. -/
def Message.startedCall : Message → Option ServiceCallID
  | .requestVote _ call _ => some call
  | .appendEntries _ call _ => some call
  | _ => none

structure Sim (c : Cluster) (A : Abstract) : Prop where
  reach : Reach cfg.system retaining (.initial cfg.system) A
  server : ∀ s ∈ cfg.members, ServerSim cfg retaining c.sent s (c.server s) A
  idle : ∀ s ∈ cfg.members, (c.server s).outbox = []
  messages : ∀ m ∈ c.sent, MessageSim cfg retaining c.sent A m
  -- transfer IDs are not reused, so that a call has one request
  fresh : ∀ m ∈ c.sent, ∀ call, m.startedCall = some call → call.transferID < c.nextTransferID
  unique : ∀ m ∈ c.sent, ∀ m' ∈ c.sent, ∀ call, m.startedCall = some call →
    m'.startedCall = some call → m = m'

end Relation

variable {cfg : ClusterConfig} {retaining : Prop} {leading : ℕ → Prop}

theorem Sim.inv {c : Cluster} {A : Abstract} (sim : Sim cfg retaining c A) : Inv cfg.system A :=
  ((Inv.initial cfg.system).reach sim.reach).1

/-! ## Fields that carry no knowledge -/

/-- The state without timing, the index of the next query and the outbox. -/
def RaftCore.core (r : RaftCore) : RaftCore :=
  { r with
    lastActivityTimestamp := 0
    randomizedActivityTimeout := 0
    nextServerIndex := 0
    outbox := [] }

section Congruence

variable {sent : List Message} {s : NodeID} {r r' : RaftCore} {A : Abstract}

theorem RoleSim.imp {sent' : List Message} {B : Abstract} (role : RoleSim cfg sent s r A)
    (state : r'.serverState = r.serverState)
    (count : r'.numVotesReceivedInThisCampaign = r.numVotesReceivedInThisCampaign)
    (votes : r.requestVoteCalls = [] → r'.requestVoteCalls = [])
    (appends : r.appendEntriesCalls = [] → r'.appendEntriesCalls = [])
    (campaigns : Campaigns cfg sent s r A → Campaigns cfg sent' s r' B)
    (leads : Leads sent s r A → Leads sent' s r' B) : RoleSim cfg sent' s r' B := by
  unfold RoleSim at role ⊢
  rw [state]
  cases role_eq : r.serverState with
  | follower =>
    rw [role_eq] at role
    exact ⟨votes role.1, appends role.2⟩
  | candidate =>
    rw [role_eq] at role
    rw [count]
    exact ⟨appends role.1, role.2.imp (And.imp id votes) (And.imp id campaigns)⟩
  | leader =>
    rw [role_eq] at role
    exact ⟨votes role.1, leads role.2⟩

theorem RoleSim.core_iff : RoleSim cfg sent s r.core A ↔ RoleSim cfg sent s r A :=
  ⟨fun role => role.imp rfl rfl id id (fun campaign => { campaign with }) fun leads => { leads with },
    fun role => role.imp rfl rfl id id (fun campaign => { campaign with }) fun leads => { leads with }⟩

theorem ServerSim.congr (sim : ServerSim cfg retaining sent s r A) (same : r'.core = r.core) :
    ServerSim cfg retaining sent s r' A := by
  have core : ServerSim cfg retaining sent s r.core A := { sim with role := RoleSim.core_iff.mpr sim.role }
  rw [← same] at core
  exact { core with role := RoleSim.core_iff.mp core.role }

end Congruence

/-! ## Moves of one server leave the rest alone -/

section Frame

variable {sent sent' : List Message} {s s' : NodeID} {r : RaftCore} {A B : Abstract}

theorem RoleSim.frame (inv : Inv cfg.system A) (moved : Local cfg.system retaining leading s A B)
    (other : s' ≠ s) (more : sent ⊆ sent') (role : RoleSim cfg sent s' r A) :
    RoleSim cfg sent' s' r B := by
  have le := moved.le inv
  have current := moved.current other
  have log := moved.log other
  refine role.imp rfl rfl id id (fun campaign => ⟨?_, ?_, ?_, campaign.nodup, ?_⟩) fun leads =>
    ⟨?_, ?_, ?_, ?_, leads.single⟩
  · rw [current, log]
    exact le.ballot campaign.ballot
  · rw [current]
    exact fun leads => campaign.unled (moved.leader (absurd · other) leads)
  · obtain ⟨V, members, card, voted, waiting⟩ := campaign.voters
    exact ⟨V, members, card, fun v member => current ▸ le.vote (voted v member), waiting⟩
  · intro call member
    obtain ⟨dst, req, started, term⟩ := campaign.calls call member
    exact ⟨dst, req, more started, term⟩
  · rw [current]
    exact le.leader leads.leader
  · rw [current, log, moved.leaderLog (absurd · other) leads.leader]
    exact leads.own
  · intro f member
    rw [current]
    exact (leads.matched f member).imp id fun ⟨l, ack, below⟩ => ⟨l, le.ack ack, below⟩
  · intro call member
    obtain ⟨req, started, rest⟩ := leads.pending call member
    exact ⟨req, more started, rest⟩

/-- What is known of a server survives the moves of another one. -/
theorem ServerSim.frame (inv : Inv cfg.system A) (moved : Local cfg.system retaining leading s A B)
    (other : s' ≠ s) (more : sent ⊆ sent') (sim : ServerSim cfg retaining sent s' r A) :
    ServerSim cfg retaining sent' s' r B where
  stored := sim.stored
  storedSize := sim.storedSize
  current := (moved.current other).trans sim.current
  log := (moved.log other).trans sim.log
  vote := by
    rw [moved.current other, moved.vote other]
    exact sim.vote
  cluster := sim.cluster
  role := sim.role.frame inv moved other more
  commit := by
    intro keeps
    rw [moved.current other, moved.log other]
    exact (sim.commit keeps).mono (moved.le inv)

theorem ServerSim.more (sim : ServerSim cfg retaining sent s r A) (more : sent ⊆ sent') :
    ServerSim cfg retaining sent' s r A := by
  refine { sim with role := ?_ }
  refine sim.role.imp rfl rfl id id (fun campaign => { campaign with calls := fun call member => ?_ })
    fun leads => { leads with pending := fun call member => ?_ }
  · obtain ⟨dst, req, started, term⟩ := campaign.calls call member
    exact ⟨dst, req, more started, term⟩
  · obtain ⟨req, started, rest⟩ := leads.pending call member
    exact ⟨req, more started, rest⟩

theorem MessageSim.mono {m : Message} (le : Le A B) (more : sent ⊆ sent')
    (sim : MessageSim cfg retaining sent A m) : MessageSim cfg retaining sent' B m := by
  cases m with
  | requestVote src call req =>
    obtain ⟨member, other, l, ballot, rest⟩ := sim
    exact ⟨member, other, l, le.ballot ballot, rest⟩
  | requestVoteResponse dst call resp =>
    intro granted
    obtain ⟨vote, req, started, term⟩ := sim granted
    exact ⟨le.vote vote, req, more started, term⟩
  | appendEntries src call req =>
    obtain ⟨member, leader, ⟨prev, length, sub, term⟩, commit⟩ := sim
    have grown := le.leaderLog (T := req.term.toNat) (Or.inr (by rw [leader]; rfl))
    exact ⟨member, le.leader leader, ⟨prev, length, sub.trans grown, term⟩,
      fun keeps => ((commit keeps).mono le).extend grown⟩
  | appendEntriesResponse dst call resp =>
    intro success
    obtain ⟨req, started, l, ack, length⟩ := sim success
    exact ⟨req, more started, l, le.ack ack, length⟩
  | discovery src msg => exact sim

/-- The only answer of a handler. -/
theorem MessageSim.of_some {α : Type} {reply : α → Message} {resp : α}
    (sim : MessageSim cfg retaining sent A (reply resp)) :
    ∀ m ∈ (some resp).toList.map reply, MessageSim cfg retaining sent A m := by
  intro m inside
  rw [Option.toList_some, map_singleton, mem_singleton] at inside
  exact inside ▸ sim

end Frame

/-! ## The end of a handler -/

/-- The call an output starts. -/
def Output.startedCall : Output → Option ServiceCallID
  | .requestVote call _ => some call
  | .appendEntries call _ => some call
  | _ => none

/-- The messages in the outbox. -/
def RaftCore.emitted (r : RaftCore) (s : NodeID) : List Message :=
  r.outbox.filterMap (Output.message s)

/-- Nothing in the outbox goes on the bus. -/
def RaftCore.Quiet (r : RaftCore) : Prop := ∀ out ∈ r.outbox, out.startedCall = none

/-- The calls in the outbox are numbered by their positions, from the first unused transfer ID. -/
def RaftCore.Numbered (r : RaftCore) (first : ℕ) : Prop :=
  ∀ i out call, r.outbox[i]? = some out → out.startedCall = some call → call.transferID = first + i

theorem Output.startedCall_message {out : Output} {s : NodeID} {m : Message}
    (sent : out.message s = some m) : m.startedCall = out.startedCall := by
  cases out <;> simp_all [Output.message, Message.startedCall, Output.startedCall, eq_comm]

variable {r : RaftCore}

theorem RaftCore.Quiet.emitted (quiet : r.Quiet) (s : NodeID) : r.emitted s = [] := by
  rw [RaftCore.emitted, filterMap_eq_nil_iff]
  intro out member
  cases out with
  | localLeadershipChange _ => rfl
  | logCommitOnLeader _ => rfl
  | _ => simpa [Output.startedCall] using quiet _ member

theorem RaftCore.Quiet.numbered (quiet : r.Quiet) (first : ℕ) :
    r.Numbered first := by
  intro i out call at_i started
  rw [quiet out (mem_of_getElem? at_i)] at started
  cases started

theorem RaftCore.Quiet.of_empty (idle : r.outbox = []) : r.Quiet := by
  simp [RaftCore.Quiet, idle]

/-- A message in the outbox stands at the position its transfer ID says. -/
theorem RaftCore.Numbered.position {first : ℕ} (numbered : r.Numbered first) {s : NodeID}
    {m : Message} {call : ServiceCallID} (member : m ∈ r.emitted s)
    (started : m.startedCall = some call) :
    ∃ i out, r.outbox[i]? = some out ∧ out.message s = some m ∧ call.transferID = first + i := by
  obtain ⟨out, inside, sent⟩ := mem_filterMap.mp member
  obtain ⟨i, at_i⟩ := mem_iff_getElem?.mp inside
  exact ⟨i, out, at_i, sent, numbered i out call at_i (Output.startedCall_message sent ▸ started)⟩

section Settle

variable {c : Cluster} {s : NodeID} {r : RaftCore} {replies : List Message} {A B : Abstract}

/-- The relation after a handler of server `s`, from what the handler guarantees. -/
theorem Sim.settle (sim : Sim cfg retaining c A) (moved : Local cfg.system retaining leading s A B)
    (numbered : r.Numbered c.nextTransferID)
    (server : ServerSim cfg retaining (c.sent ++ (r.emitted s ++ replies)) s r B)
    (emitted : ∀ m ∈ r.emitted s ++ replies,
      MessageSim cfg retaining (c.sent ++ (r.emitted s ++ replies)) B m)
    (answers : ∀ m ∈ replies, m.startedCall = none) :
    Sim cfg retaining (c.settle s r replies) B := by
  have more : c.sent ⊆ c.sent ++ (r.emitted s ++ replies) := subset_append_left _ _
  -- a new request stands in the outbox
  have new : ∀ m ∈ (c.settle s r replies).sent, ∀ call, m.startedCall = some call →
      m ∈ c.sent ∨ m ∈ r.emitted s := by
    intro m member call started
    rcases mem_append.mp member with old | new
    · exact Or.inl old
    · rcases mem_append.mp new with request | answer
      · exact Or.inr request
      · rw [answers m answer] at started
        cases started
  refine ⟨sim.reach.trans moved.reach, fun s' member => ?_, fun s' member => ?_,
    fun m member => ?_, fun m member call started => ?_, fun m member m' member' call started started' => ?_⟩
  · by_cases same : s' = s
    · subst same
      rw [Cluster.settle_self]
      exact server.congr rfl
    · rw [Cluster.settle_other same]
      exact (sim.server s' member).frame sim.inv moved same more
  · by_cases same : s' = s
    · subst same
      simp [Cluster.settle]
    · simpa [Cluster.settle, same] using sim.idle s' member
  · rcases mem_append.mp member with old | new
    · exact (sim.messages m old).mono (moved.le sim.inv) more
    · exact emitted m new
  · rcases new m member call started with old | request
    · exact Nat.lt_of_lt_of_le (sim.fresh m old call started) (Nat.le_add_right _ _)
    · obtain ⟨i, out, at_i, _, id⟩ := numbered.position request started
      have bound := (List.getElem?_eq_some_iff.mp at_i).1
      simp only [Cluster.settle]
      omega
  · rcases new m member call started with old | request <;>
      rcases new m' member' call started' with old' | request'
    · exact sim.unique m old m' old' call started started'
    · obtain ⟨i, _, _, _, id⟩ := numbered.position request' started'
      have := sim.fresh m old call started
      omega
    · obtain ⟨i, _, _, _, id⟩ := numbered.position request started
      have := sim.fresh m' old' call started'
      omega
    · obtain ⟨i, out, at_i, sent, id⟩ := numbered.position request started
      obtain ⟨j, out', at_j, sent', id'⟩ := numbered.position request' started'
      obtain rfl : i = j := by omega
      obtain rfl := Option.some.inj (at_i.symm.trans at_j)
      exact Option.some.inj (sent.symm.trans sent')

/-- The server is the leader of the term. -/
def RaftCore.LeadsTerm (r : RaftCore) (T : ℕ) : Prop :=
  r.serverState = .leader ∧ T = r.currentTerm.toNat

variable (cfg retaining c s A r replies) in
/-- What a handler of server `s` guarantees: it amounts to moves of `s`, and its state, its requests
and its replies are true of the records after them. -/
def Handled : Prop :=
  ∃ B, Local cfg.system retaining r.LeadsTerm s A B ∧ r.Numbered c.nextTransferID ∧
    ServerSim cfg retaining (c.sent ++ (r.emitted s ++ replies)) s r B ∧
    (∀ m ∈ r.emitted s ++ replies,
      MessageSim cfg retaining (c.sent ++ (r.emitted s ++ replies)) B m) ∧
    ∀ m ∈ replies, m.startedCall = none

theorem Handled.of_quiet (moved : Local cfg.system retaining r.LeadsTerm s A B) (quiet : r.Quiet)
    (server : ServerSim cfg retaining c.sent s r B)
    (answered : ∀ m ∈ replies, MessageSim cfg retaining c.sent B m)
    (answers : ∀ m ∈ replies, m.startedCall = none) : Handled cfg retaining c s r replies A := by
  have more : c.sent ⊆ c.sent ++ (r.emitted s ++ replies) := subset_append_left _ _
  refine ⟨B, moved, quiet.numbered _, server.more more, fun m member => ?_, answers⟩
  rw [quiet.emitted s] at member
  exact (answered m member).mono (Le.refl B) more

theorem Handled.of_silent (moved : Local cfg.system retaining r.LeadsTerm s A B) (quiet : r.Quiet)
    (server : ServerSim cfg retaining c.sent s r B) : Handled cfg retaining c s r [] A :=
  .of_quiet moved quiet server (by simp) (by simp)

variable (cfg) in
/-- The records of a leader change only while it leads. -/
def Recorded (c : Cluster) (A B : Abstract) : Prop :=
  ∀ v T, B.leader T = some v → (A.leader T = some v ∧ B.leaderLog T = A.leaderLog T) ∨
    (v ∈ cfg.members ∧ (c.server v).LeadsTerm T)

theorem Sim.settle_handled (sim : Sim cfg retaining c A) (member : s ∈ cfg.members)
    (handled : Handled cfg retaining c s r replies A) :
    ∃ B, Reach cfg.system retaining A B ∧ Sim cfg retaining (c.settle s r replies) B ∧
      Recorded cfg (c.settle s r replies) A B := by
  obtain ⟨B, moved, numbered, server, emitted, answers⟩ := handled
  refine ⟨B, moved.reach, sim.settle moved numbered server emitted answers, fun v T leads => ?_⟩
  by_cases now : v = s ∧ r.LeadsTerm T
  · obtain ⟨rfl, now⟩ := now
    refine .inr ⟨member, ?_⟩
    rw [Cluster.settle_self]
    exact now
  · have before := moved.leader (fun same => (now ⟨same, ·⟩)) leads
    exact .inl ⟨before, moved.leaderLog (fun same => (now ⟨same, ·⟩)) before⟩

end Settle

end Uavcan
