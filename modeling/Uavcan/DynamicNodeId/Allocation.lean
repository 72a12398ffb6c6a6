import Uavcan.DynamicNodeId.Commitment
import Uavcan.DynamicNodeId.DistributedServer
import Uavcan.DynamicNodeId.LogChanges

/-!
# Allocations are unique

A leader appends an entry only for a node ID that is not in its log, and for the unique ID of a requesting
node only if that is not in its log either. So no log has a node ID twice, or a unique ID that was neither
discovered nor belongs to a server. What servers broadcast is committed, and committed entries agree in runs
of sound steps: no two broadcasts give one node ID to two nodes, or two node IDs to one node.
-/

namespace Uavcan

open Replication (Inv Le Careful)
open Function List Option
open Trio

/-! ## What the Raft core tells the server -/

variable {entry : Entry}

namespace RaftCore

/-- What a handler other than `appendLog` does: the log of a leader stays, and a commit that is
announced is the last one. -/
structure Plain (r r' : RaftCore) : Prop where
  log : r'.serverState = .leader → r'.log = r.log
  commits : ∀ entry, .logCommitOnLeader entry ∈ r'.outbox →
    r'.log.getEntryAtIndex r'.commitIndex = some entry

variable {r : RaftCore}

theorem Plain.of_unannounced {r' : RaftCore} (log : r'.serverState = .leader → r'.log = r.log)
    (silent : r'.Unannounced) : Plain r r' :=
  ⟨log, fun entry announced => absurd announced (silent entry)⟩

theorem propagateCommitIndex_commits (silent : r.Unannounced)
    (announced : .logCommitOnLeader entry ∈ r.propagateCommitIndex.outbox) :
    r.propagateCommitIndex.log.getEntryAtIndex r.propagateCommitIndex.commitIndex = some entry := by
  rcases r.propagateCommitIndex_cases with stays | ⟨uncommitted, -, moved⟩
  · rw [stays] at announced
    exact absurd announced (silent entry)
  · rw [moved] at announced ⊢
    rcases mem_append.mp announced with old | new
    · exact absurd old (silent entry)
    · cases mem_singleton.mp new
      exact if_pos (Nat.succ_le_of_lt uncommitted)

theorem appendLog_cases (silent : r.Unannounced) (stored : r.persistent.Stored) (dsdl : Dsdl) (env : Env)
    (uniqueId : UniqueID) (nodeId : NodeID) :
    Plain r (r.appendLog dsdl env uniqueId nodeId) ∨
      (r.appendLog dsdl env uniqueId nodeId).Unannounced ∧
        (r.appendLog dsdl env uniqueId nodeId).log.list =
          r.log.list ++ [⟨r.currentTerm, uniqueId, nodeId.value⟩] := by
  unfold appendLog
  split
  case isFalse => exact .inl (.of_unannounced (fun _ => rfl) silent)
  case isTrue =>
  simp only
  rcases append : r.persistent.appendEntry ⟨r.currentTerm, uniqueId, nodeId.value⟩
    (env.writes.append (r.log.lastIndex + 1)) with ⟨result, p⟩
  obtain ⟨-, -, -, -, failed, appends⟩ := PersistentState.appendEntry_cases append stored
  cases result with
  | error err =>
    have retreat := calm_retreat dsdl env { r with persistent := p }
    exact .inl (.of_unannounced (fun _ => retreat.log.trans (failed nofun)) (retreat.silent silent))
  | ok => exact .inr ⟨silent, (appends rfl).1⟩

end RaftCore

variable {cfg : ClusterConfig} {retaining : Prop} {c : Cluster} {past : List Cluster} {A : Abstract}

variable {s : NodeID} {exempt : UniqueID → Prop} {l : List Entry}

variable {replies : List Message}

/-- An action is plain, or it appends one entry. -/
theorem Sim.handle_log {a : Action} (sim : Sim cfg retaining c A) {r : RaftCore}
    (run : c.handle cfg a = some (s, r, replies)) :
    RaftCore.Plain (c.server s) r ∨ ∃ uniqueId nodeId env, a = .appendLog s uniqueId nodeId env ∧
      r.Unannounced ∧ r.log.list =
        (c.server s).log.list ++ [⟨(c.server s).currentTerm, uniqueId, nodeId.value⟩] := by
  obtain ⟨member, handles⟩ := sim.handles run
  have silent : (c.server s).Unannounced := by simp [RaftCore.Unannounced, sim.idle s member]
  cases handles with
  | calm calm => exact .inl (.of_unannounced (fun _ => calm.log) (calm.silent silent))
  | commit calm eq =>
    rw [eq]
    refine .inl ⟨fun _ => ?_, fun entry => RaftCore.propagateCommitIndex_commits (calm.silent silent)⟩
    rw [RaftCore.log_propagateCommitIndex, calm.log]
  | accept calm follower eq =>
    obtain ⟨p, commitIndex, accepted⟩ := RaftCore.acceptAppendEntries_frame _ _ _
    rw [eq, accepted]
    exact .inl (.of_unannounced (fun leads => nomatch follower.symm.trans leads) (calm.silent silent))
  | append eq =>
    rw [eq]
    exact (RaftCore.appendLog_cases silent (sim.server s member).stored _ _ _ _).imp_right fun appended =>
      ⟨_, _, _, rfl, appended⟩
  | restart started =>
    obtain ⟨p, st₁, k, st₂, -, -, rfl⟩ := RaftCore.init_eq started
    exact .inl (.of_unannounced nofun nofun)

/-! ## Searching the log -/

variable {i : ℕ} {e : Entry}

namespace RaftCore

variable {predicate : LogEntryInfo → Bool} {r : RaftCore}

variable {index : ℕ}

theorem traverseLogFrom_some {info : LogEntryInfo} (found : traverseLogFrom predicate r index = some info) :
    ∃ i ≤ index, info = ⟨r.log.entries i, i ≤ r.commitIndex⟩ := by
  induction index with
  | zero =>
    simp only [traverseLogFrom, ite_none_right_eq_some, some.injEq] at found
    exact ⟨0, le_rfl, found.2.symm⟩
  | succ index ih =>
    unfold traverseLogFrom at found
    simp only at found
    split at found
    · exact ⟨index + 1, le_rfl, (some.inj found).symm⟩
    · obtain ⟨i, below, same⟩ := ih found
      exact ⟨i, below.trans (Nat.le_succ _), same⟩

theorem traverseLogFrom_none (absent : traverseLogFrom predicate r index = none)
    (inside : i ≤ index) :
    predicate ⟨r.log.entries i, i ≤ r.commitIndex⟩ = false := by
  induction index with
  | zero =>
    obtain rfl := Nat.le_zero.mp inside
    simpa [traverseLogFrom] using absent
  | succ index ih =>
    unfold traverseLogFrom at absent
    simp only at absent
    split at absent
    · cases absent
    · rename_i other
      rcases Nat.le_succ_iff.mp inside with earlier | rfl
      · exact ih absent earlier
      · simpa using other

theorem traverseLogFromEndUntil_none (absent : r.traverseLogFromEndUntil predicate = none)
    (member : e ∈ r.log.list) :
    ∃ committed, predicate ⟨e, committed⟩ = false := by
  obtain ⟨i, inside, rfl⟩ := mem_map.mp member
  exact ⟨_, traverseLogFrom_none absent (Nat.le_of_lt_succ (mem_range.mp inside))⟩

end RaftCore

/-! ## Logs without repetitions -/

/-- No node ID occurs twice in a log, and no unique ID that is not `exempt`. -/
def Distinct (exempt : UniqueID → Prop) (l : List Entry) : Prop :=
  l.Pairwise fun e e' => e.nodeId ≠ e'.nodeId ∧ (e.uniqueId = e'.uniqueId → exempt e.uniqueId)

/-- A log may be extended by an entry with these IDs. -/
def Fresh (exempt : UniqueID → Prop) (l : List Entry) (uniqueId : UniqueID) (nodeId : NodeID) : Prop :=
  ∀ e ∈ l, e.nodeId ≠ nodeId.value ∧ (e.uniqueId = uniqueId → exempt uniqueId)

theorem Distinct.mono {exempt' : UniqueID → Prop} (distinct : Distinct exempt l) (more : ∀ u, exempt u → exempt' u) :
    Distinct exempt' l :=
  List.Pairwise.imp (fun ⟨node, unique⟩ => ⟨node, fun same => more _ (unique same)⟩) distinct

theorem Distinct.sub {l' : List Entry} (distinct : Distinct exempt l) (shorter : l' <+: l) : Distinct exempt l' :=
  List.Pairwise.sublist shorter.sublist distinct

variable {uniqueId : UniqueID} {nodeId : NodeID}

theorem Distinct.concat (distinct : Distinct exempt l) {term : Term}
    (fresh : Fresh exempt l uniqueId nodeId) :
    Distinct exempt (l ++ [⟨term, uniqueId, nodeId.value⟩]) := by
  refine pairwise_append.mpr ⟨distinct, pairwise_singleton _ _, fun e member e' last => ?_⟩
  cases mem_singleton.mp last
  exact ⟨(fresh e member).1, fun same => same ▸ (fresh e member).2 same⟩

variable {e' : Entry}

theorem Distinct.entries (distinct : Distinct exempt l) {j : ℕ} (at_i : l[i]? = some e)
    (at_j : l[j]? = some e') :
    (e.nodeId = e'.nodeId → e = e') ∧ (e.uniqueId = e'.uniqueId → ¬ exempt e.uniqueId → e = e') := by
  obtain ⟨below_i, rfl⟩ := List.getElem?_eq_some_iff.mp at_i
  obtain ⟨below_j, rfl⟩ := List.getElem?_eq_some_iff.mp at_j
  rcases Nat.lt_trichotomy i j with less | rfl | greater
  · obtain ⟨node, unique⟩ := pairwise_iff_getElem.mp distinct i j below_i below_j less
    exact ⟨fun same => absurd same node, fun same plain => absurd (unique same) plain⟩
  · exact ⟨fun _ => rfl, fun _ _ => rfl⟩
  · obtain ⟨node, unique⟩ := pairwise_iff_getElem.mp distinct j i below_j below_i greater
    exact ⟨fun same => absurd same.symm node,
      fun same plain => absurd (same ▸ unique same.symm) plain⟩

/-- The unique IDs for which entries are made without looking for them: that of nodes that do not tell
theirs, those of the nodes that were discovered, and those of the servers. -/
def ServerConfig.Exempt (cfg : ServerConfig) (reported : List UniqueID) (uniqueId : UniqueID) : Prop :=
  uniqueId = Server.noUniqueID ∨ uniqueId ∈ reported ∨
    ∃ s ∈ cfg.cluster.members, uniqueId = cfg.ownUniqueId s

/-- At some moment some server had the entry committed. -/
def CommittedIn (cfg : ClusterConfig) (states : List Cluster) (entry : Entry) : Prop :=
  ∃ c ∈ states, ∃ s ∈ cfg.members, ∃ i ≤ (c.server s).commitIndex,
    (c.server s).log.getEntryAtIndex i = some entry

theorem CommittedIn.later {states : List Cluster} (committed : CommittedIn cfg states entry)
    (c : Cluster) : CommittedIn cfg (c :: states) entry := by
  obtain ⟨c', seen, rest⟩ := committed
  exact ⟨c', mem_cons_of_mem c seen, rest⟩

/-! ## What the handlers of a server do -/

namespace Server

/-- An effect at a server with log `l` that keeps allocations unique. -/
def Effect.Fits (exempt : UniqueID → Prop) (l : List Entry) (committed : Entry → Prop) : Effect → Prop
  | .nothing => True
  | .appendLog uniqueId nodeId => Fresh exempt l uniqueId nodeId
  | .broadcastAllocationResponse uniqueId nodeId =>
    ∃ entry, committed entry ∧ uniqueId = entry.uniqueId ∧ nodeId.value = entry.nodeId

variable {exempt : UniqueID → Prop} {committed : Entry → Prop} {r : RaftCore}

theorem nodeId_absent
    (absent : r.traverseLogFromEndUntil (nodeIDLogPredicate nodeId) = none)
    (member : e ∈ r.log.list) : e.nodeId ≠ nodeId.value := by
  obtain ⟨_, other⟩ := RaftCore.traverseLogFromEndUntil_none absent member
  exact of_decide_eq_false other

theorem uniqueId_absent
    (absent : r.traverseLogFromEndUntil (uniqueIDLogPredicate uniqueId) = none)
    (member : e ∈ r.log.list) : e.uniqueId ≠ uniqueId := by
  obtain ⟨_, other⟩ := RaftCore.traverseLogFromEndUntil_none absent member
  exact of_decide_eq_false other

theorem handleAllocationRequest_fits {d : NodeDiscoverer}
    {preferredNodeId : NodeID}
    (held : ∀ i ≤ r.commitIndex, ∀ e, r.log.getEntryAtIndex i = some e → committed e) :
    (handleAllocationRequest r d uniqueId preferredNodeId).Fits exempt r.log.list committed := by
  unfold handleAllocationRequest
  split
  case h_1 result found =>
    obtain ⟨i, inside, rfl⟩ := RaftCore.traverseLogFrom_some found
    split
    · rename_i below
      exact ⟨_, held i (of_decide_eq_true below) _ (if_pos inside), rfl, rfl⟩
    · trivial
  case h_2 absent =>
    split
    case isFalse => trivial
    case isTrue =>
      unfold allocateNewNode
      simp only
      split
      · trivial
      · rename_i unicast
        have free := NodeIDSelector.findFreeNodeID_free (by simpa using unicast)
        intro e member
        refine ⟨nodeId_absent (by simpa [isNodeIDTaken] using free) member, fun same => ?_⟩
        exact absurd same (uniqueId_absent absent member)

theorem handleNewNodeDiscovery_fits {uniqueId : Option UniqueID}
    (exempted : exempt (uniqueId.getD noUniqueID)) :
    (handleNewNodeDiscovery r uniqueId nodeId).Fits exempt r.log.list committed := by
  unfold handleNewNodeDiscovery
  split
  · trivial
  · rename_i absent
    split
    · exact fun e member => ⟨nodeId_absent (by simpa using absent) member, fun _ => exempted⟩
    · trivial

theorem handleLocalLeadershipChange_fits {ownUniqueId : UniqueID} {localNodeIsLeader : Bool}
    (exempted : exempt ownUniqueId) :
    (handleLocalLeadershipChange r ownUniqueId localNodeIsLeader).Fits exempt r.log.list committed := by
  unfold handleLocalLeadershipChange
  split
  · trivial
  · split
    · rename_i absent
      exact fun e member => ⟨nodeId_absent (by simpa using absent) member, fun _ => exempted⟩
    · trivial

end Server

/-- What an action does apart from the Raft core: it broadcasts what is committed, and appends what is
new in the log. -/
structure Planned (cfg : ServerConfig) (committed : Entry → Prop) (c : ServerCluster)
    (planned : Option Action × ServerCluster) : Prop where
  raft : planned.2.raft = c.raft
  reported : c.reported ⊆ planned.2.reported
  callbacks : ∀ s, planned.2.callbacks s ⊆ c.callbacks s
  published : ∀ x ∈ planned.2.published, x ∈ c.published ∨
    ∃ entry, committed entry ∧ x = (entry.uniqueId, ⟨entry.nodeId⟩)
  appends : ∀ {s uniqueId nodeId env}, planned.1 = some (.appendLog s uniqueId nodeId env) →
    Fresh (cfg.Exempt planned.2.reported) (c.raft.server s).log.list uniqueId nodeId

variable {committed : Entry → Prop}

theorem Planned.of_silent {cfg : ServerConfig} {c c₁ : ServerCluster} {a : Option Action} (raft : c₁.raft = c.raft)
    (reported : c₁.reported = c.reported) (callbacks : ∀ s, c₁.callbacks s ⊆ c.callbacks s)
    (published : c₁.published = c.published)
    (other : ∀ s uniqueId nodeId env, a ≠ some (.appendLog s uniqueId nodeId env)) :
    Planned cfg committed c (a, c₁) where
  raft := raft
  reported := reported ▸ List.Subset.refl _
  callbacks := callbacks
  published _ member := .inl (published ▸ member)
  appends append := absurd append (other _ _ _ _)

/-- The effect of a handler, after the handler changed `c` to `c₁`. -/
theorem ServerCluster.perform_planned {cfg : ServerConfig} {c c₁ : ServerCluster} (raft : c₁.raft = c.raft)
    (reported : c.reported ⊆ c₁.reported) (callbacks : ∀ s, c₁.callbacks s ⊆ c.callbacks s)
    (published : c₁.published = c.published) {effect : Server.Effect}
    (fits : effect.Fits (cfg.Exempt c₁.reported) (c.raft.server s).log.list committed) (env : Env) :
    Planned cfg committed c (c₁.perform s env effect) := by
  cases effect with
  | nothing => exact ⟨raft, reported, callbacks, fun x member => .inl (published ▸ member), nofun⟩
  | appendLog uniqueId nodeId =>
    simp only [ServerCluster.perform]
    split
    · refine ⟨raft, reported, callbacks, fun x member => .inl (published ▸ member), fun append => ?_⟩
      cases append
      exact fits
    · exact ⟨raft, reported, callbacks, fun x member => .inl (published ▸ member), nofun⟩
  | broadcastAllocationResponse uniqueId nodeId =>
    refine ⟨raft, reported, callbacks, fun x member => ?_, nofun⟩
    rcases mem_append.mp member with old | new
    · exact .inl (published ▸ old)
    · obtain ⟨entry, held, rfl, node⟩ := fits
      refine .inr ⟨entry, held, ?_⟩
      rw [mem_singleton.mp new, ← node]

theorem ServerCluster.plan_planned {cfg : ServerConfig} {c : ServerCluster} {a : ServerAction}
    {planned : Option Action × ServerCluster} (run : c.plan cfg a = some planned)
    (held : ∀ s ∈ cfg.cluster.members, ∀ i ≤ (c.raft.server s).commitIndex, ∀ e,
      (c.raft.server s).log.getEntryAtIndex i = some e → committed e)
    (announced : ∀ s e, .logCommitOnLeader e ∈ c.callbacks s → committed e) :
    Planned cfg committed c planned := by
  cases a with
  | raft a =>
    simp only [ServerCluster.plan, ite_none_right_eq_some, some.injEq] at run
    obtain ⟨⟨protocol, -⟩, rfl⟩ := run
    refine .of_silent rfl rfl (fun _ => List.Subset.refl _) rfl fun s uniqueId nodeId env append => ?_
    cases append
    cases protocol
  | callback s env =>
    simp only [ServerCluster.plan] at run
    split at run
    · cases run
    · rename_i out rest queue
      simp only [ite_none_right_eq_some, some.injEq] at run
      obtain ⟨member, rfl⟩ := run
      have popped : ∀ s', update c.callbacks s rest s' ⊆ c.callbacks s' := by
        intro s'
        by_cases same : s' = s
        · rw [same, update_self, queue]
          exact subset_cons_self out rest
        · rw [update_of_ne same]
          exact List.Subset.refl _
      refine ServerCluster.perform_planned ?_ ?_ popped ?_ ?_ env
      · rfl
      · exact List.Subset.refl _
      · rfl
      cases out with
      | requestVote call req => trivial
      | appendEntries call req => trivial
      | localLeadershipChange leads =>
        exact Server.handleLocalLeadershipChange_fits (.inr (.inr ⟨s, member, rfl⟩))
      | logCommitOnLeader entry =>
        exact ⟨entry, announced s entry (queue ▸ mem_cons_self), rfl, rfl⟩
  | allocationRequest s uniqueId preferredNodeId env =>
    simp only [ServerCluster.plan, ite_none_right_eq_some, some.injEq] at run
    obtain ⟨⟨member, -⟩, rfl⟩ := run
    exact ServerCluster.perform_planned (c := c) rfl (List.Subset.refl _) (fun _ => List.Subset.refl _) rfl
      (Server.handleAllocationRequest_fits (held s member)) env
  | nodeStatus s src uptime slot =>
    simp only [ServerCluster.plan, ite_none_right_eq_some, some.injEq] at run
    obtain ⟨-, rfl⟩ := run
    exact .of_silent rfl rfl (fun _ => List.Subset.refl _) rfl nofun
  | discovererTimer s transferID callOk =>
    simp only [ServerCluster.plan, ite_none_right_eq_some, some.injEq] at run
    obtain ⟨-, rfl⟩ := run
    exact .of_silent rfl rfl (fun _ => List.Subset.refl _) rfl nofun
  | getNodeInfoResult s call uniqueId env =>
    simp only [ServerCluster.plan, ite_none_right_eq_some] at run
    obtain ⟨-, run⟩ := run
    split at run
    · cases run
      exact .of_silent rfl rfl (fun _ => List.Subset.refl _) rfl nofun
    · cases run
      rename_i reportedId nodeId _
      refine ServerCluster.perform_planned ?_ ?_ ?_ ?_ (Server.handleNewNodeDiscovery_fits ?_) env
      · rfl
      · exact subset_append_left _ _
      · exact fun _ => List.Subset.refl _
      · rfl
      cases reportedId with
      | none => exact .inl rfl
      | some u => exact .inr (.inl (by simp))
  | restart s initClusterSize env =>
    simp only [ServerCluster.plan] at run
    split at run
    · cases run
    · simp only [ite_none_right_eq_some, some.injEq] at run
      obtain ⟨-, rfl⟩ := run
      refine .of_silent rfl rfl (fun s' => ?_) rfl nofun
      by_cases same : s' = s
      · simp [same]
      · simp [update_of_ne same]

/-! ## Whole runs -/

/-- Every log is part of the log that a leader had, so that it is enough to know those. -/
theorem Tracks.distinct (tracks : Tracks cfg retaining c past A)
    (leaders : ∀ c' ∈ c :: past, ∀ v ∈ cfg.members, (c'.server v).serverState = .leader →
      Distinct exempt (c'.server v).log.list) (member : s ∈ cfg.members) :
    Distinct exempt (c.server s).log.list := by
  have inv := tracks.sim.inv
  rcases eq_nil_or_concat' (c.server s).log.list with empty | ⟨init, last, whole⟩
  · rw [empty]
    exact List.Pairwise.nil
  · obtain ⟨led, sub, -⟩ := (inv.log s).traced init last (by
      rw [(tracks.sim.server s member).log, whole])
    rw [whole]
    rcases led with zero | leader
    · rw [zero, inv.base_log] at sub
      exact Distinct.sub (pairwise_singleton _ Entry.zero) sub
    · obtain ⟨v, leads⟩ := isSome_iff_exists.mp leader
      obtain ⟨c', seen, voter, ⟨state, -⟩, list⟩ := tracks.led v _ leads
      exact (leaders c' seen v voter state).sub (list ▸ sub)

/-- What is known after a run of servers. -/
structure ServerTracks (cfg : ServerConfig) (retaining : Prop) (c : ServerCluster)
    (past : List Cluster) (A : Abstract) : Prop where
  tracks : Tracks cfg.cluster retaining c.raft past A
  distinct : ∀ c' ∈ c.raft :: past, ∀ s ∈ cfg.cluster.members,
    Distinct (cfg.Exempt c.reported) (c'.server s).log.list
  announced : ∀ s entry, .logCommitOnLeader entry ∈ c.callbacks s →
    CommittedIn cfg.cluster (c.raft :: past) entry
  published : ∀ x ∈ c.published, ∃ entry, CommittedIn cfg.cluster (c.raft :: past) entry ∧
    x = (entry.uniqueId, ⟨entry.nodeId⟩)

theorem ServerConfig.Exempt.mono {cfg : ServerConfig} {reported reported' : List UniqueID}
    (more : reported ⊆ reported') {u : UniqueID} (exempt : cfg.Exempt reported u) :
    cfg.Exempt reported' u :=
  exempt.imp_right (Or.imp_left (fun member => more member))

namespace ServerTracks

variable {cfg : ServerConfig} {c c₁ c' : ServerCluster}

theorem start (initial : c.Initial cfg) :
    ServerTracks cfg retaining c [] (.initial cfg.cluster.system) where
  tracks := .start initial.raft
  distinct := by
    simp only [mem_singleton, forall_eq]
    intro s member
    have sim : Sim cfg.cluster False c.raft _ := .initial initial.raft
    rw [← (sim.server s member).log]
    exact pairwise_singleton _ Entry.zero
  announced s entry announced := by
    rw [initial.callbacks s] at announced
    cases announced
  published x published := by
    rw [initial.published] at published
    cases published

variable {a : Action}

section

variable (server : ServerTracks cfg retaining c past A)

include server

theorem planned {a : ServerAction} {planned : Option Action × ServerCluster}
    (run : c.plan cfg a = some planned) :
    Planned cfg (CommittedIn cfg.cluster (c.raft :: past)) c planned :=
  ServerCluster.plan_planned run
    (fun s member i below _ held => ⟨c.raft, mem_cons_self, s, member, i, below, held⟩)
    server.announced

theorem published_of_planned {planned : Option Action × ServerCluster}
    (plan : Planned cfg (CommittedIn cfg.cluster (c.raft :: past)) c planned) {x : UniqueID × NodeID}
    (member : x ∈ planned.2.published) :
    ∃ entry, CommittedIn cfg.cluster (c.raft :: past) entry ∧ x = (entry.uniqueId, ⟨entry.nodeId⟩) :=
  (plan.published x member).elim (server.published x) id

theorem stay
    (plan : Planned cfg (CommittedIn cfg.cluster (c.raft :: past)) c (none, c')) :
    ServerTracks cfg retaining c' past A := by
  have raft : c'.raft = c.raft := plan.raft
  refine ⟨raft ▸ server.tracks, ?_, ?_, ?_⟩
  · rw [raft]
    exact fun d seen s member =>
      (server.distinct d seen s member).mono fun _ => .mono plan.reported
  · rw [raft]
    exact fun s entry announced => server.announced s entry (plan.callbacks s announced)
  · rw [raft]
    exact fun x member => server.published_of_planned plan member

/-- After an action of the Raft core, the log of a leader is what the server had, or new by one fresh
entry. -/
theorem distinct_of_leader
    (plan : Planned cfg (CommittedIn cfg.cluster (c.raft :: past)) c (some a, c₁)) {s : NodeID} {r : RaftCore}
    (handled : c.raft.handle cfg.cluster a = some (s, r, replies)) {v : NodeID}
    (voter : v ∈ cfg.cluster.members) (leads : ((c.raft.settle s r replies).server v).serverState = .leader) :
    Distinct (cfg.Exempt c₁.reported) ((c.raft.settle s r replies).server v).log.list := by
  have present : Distinct (cfg.Exempt c₁.reported) (c.raft.server v).log.list :=
    (server.distinct c.raft mem_cons_self v voter).mono fun _ => .mono plan.reported
  by_cases same : v = s
  · subst same
    rw [Cluster.settle_self] at leads ⊢
    rcases server.tracks.sim.handle_log handled with plain | ⟨u, n, env, rfl, -, longer⟩
    · exact (congrArg Log.list (plain.log leads)).symm ▸ present
    · exact longer.symm ▸ present.concat (plan.appends rfl)
  · rw [Cluster.settle_other same]
    exact present

theorem committed_of_announced
    (obliged : retaining → Obliged cfg.cluster c.raft A a) {s : NodeID} {r : RaftCore}
    (handled : c.raft.handle cfg.cluster a = some (s, r, replies))
    (announced : .logCommitOnLeader entry ∈ r.outbox) :
    CommittedIn cfg.cluster (c.raft.settle s r replies :: c.raft :: past) entry := by
  obtain ⟨member, -⟩ := server.tracks.sim.handle obliged handled
  rcases server.tracks.sim.handle_log handled with plain | ⟨-, -, -, -, silent, -⟩
  · refine ⟨_, mem_cons_self, s, member, r.commitIndex, ?_, ?_⟩
    · simp [Cluster.settle]
    · rw [Cluster.settle_self]
      exact plain.commits entry announced
  · exact absurd announced (silent entry)

theorem step
    (plan : Planned cfg (CommittedIn cfg.cluster (c.raft :: past)) c (some a, c₁))
    (obliged : retaining → Obliged cfg.cluster c.raft A a) (exec : c₁.execRaft cfg a = some c') :
    ∃ B, ServerTracks cfg retaining c' (c.raft :: past) B := by
  obtain ⟨⟨s, r, replies⟩, handled, rfl⟩ := map_eq_some_iff.mp exec
  have raft : c₁.raft = c.raft := plan.raft
  rw [raft] at handled
  have moved : c.raft.exec cfg.cluster a = some (c.raft.settle s r replies) :=
    map_eq_some_iff.mpr ⟨_, handled, rfl⟩
  obtain ⟨B, tracks⟩ := server.tracks.step obliged moved
  have older : ∀ d ∈ c.raft :: past, ∀ v ∈ cfg.cluster.members,
      Distinct (cfg.Exempt c₁.reported) (d.server v).log.list := fun d seen v voter =>
    (server.distinct d seen v voter).mono fun _ => .mono plan.reported
  refine ⟨B, ?_, ?_, ?_, ?_⟩ <;> simp only [raft]
  · exact tracks
  · intro d seen v voter
    rcases mem_cons.mp seen with rfl | before
    · refine tracks.distinct (fun d seen v voter leads => ?_) voter
      rcases mem_cons.mp seen with rfl | before
      · exact server.distinct_of_leader plan handled voter leads
      · exact older d before v voter
    · exact older d before v voter
  · intro v entry announced
    have earlier : .logCommitOnLeader entry ∈ c₁.callbacks v →
        CommittedIn cfg.cluster (c.raft.settle s r replies :: c.raft :: past) entry := fun old =>
      (server.announced v entry (plan.callbacks v old)).later _
    by_cases same : v = s
    · subst same
      rw [update_self] at announced
      rcases mem_append.mp announced with old | new
      · exact earlier old
      · exact server.committed_of_announced obliged handled (mem_filter.mp new).1
    · rw [update_of_ne same] at announced
      exact earlier announced
  · intro x published
    obtain ⟨entry, committed, same⟩ := server.published_of_planned plan published
    exact ⟨entry, committed.later _, same⟩

end

end ServerTracks

variable {raft : List Cluster} {states : List ServerCluster}

/-- Every run of servers is tracked, if its steps meet their obligations. -/
theorem ServerRun.tracks {cfg : ServerConfig} {allowed : List Cluster → Action → Prop}
    (obliged : retaining → ∀ {c past A a}, Tracks cfg.cluster retaining c past A →
      allowed (c :: past) a → Obliged cfg.cluster c A a)
    (run : ServerRun cfg allowed raft states) :
    ∃ c past rest A, states = c :: past ∧ raft = c.raft :: rest ∧
      ServerTracks cfg retaining c rest A := by
  induction run with
  | start initial => exact ⟨_, _, _, _, rfl, rfl, .start initial⟩
  | stay run plan ih =>
    obtain ⟨c, past, rest, A, same, rfl, server⟩ := ih
    cases same
    have planned := server.planned plan
    exact ⟨_, _, rest, A, rfl, congrArg (· :: rest) planned.raft.symm, server.stay planned⟩
  | step run plan permitted exec ih =>
    obtain ⟨c, past, rest, A, same, rfl, server⟩ := ih
    cases same
    obtain ⟨B, after⟩ := server.step (server.planned plan)
      (fun keeps => obliged keeps server.tracks permitted) exec
    exact ⟨_, _, _, B, rfl, rfl, after⟩

theorem ServerRun.tracks_sound {cfg : ServerConfig}
    (run : ServerRun cfg (Sound cfg.cluster) raft states) :
    ∃ c past rest A, states = c :: past ∧ raft = c.raft :: rest ∧ ServerTracks cfg True c rest A :=
  run.tracks fun _ _ _ _ _ tracks sound => tracks.obliged sound

/-- In a run of sound steps, two committed entries with one node ID, or with one unique ID that is not
exempt, are the same. -/
theorem ServerTracks.committed_unique {cfg : ServerConfig} {c : ServerCluster}
    (server : ServerTracks cfg True c past A)
    (committed : CommittedIn cfg.cluster (c.raft :: past) e)
    (committed' : CommittedIn cfg.cluster (c.raft :: past) e') :
    (e.nodeId = e'.nodeId → e = e') ∧
      (e.uniqueId = e'.uniqueId → ¬ cfg.Exempt c.reported e.uniqueId → e = e') := by
  obtain ⟨d, seen, s, member, i, below, held⟩ := committed
  obtain ⟨d', seen', s', member', i', below', held'⟩ := committed'
  -- the server with the longer committed part has both entries
  rcases Nat.le_total i i' with le | ge
  · have present : (d'.server s').log.getEntryAtIndex i = some ((d'.server s').log.entries i) :=
      if_pos (le.trans (Log.le_of_getEntryAtIndex held'))
    have same := server.tracks.committed_agree seen seen' member member' held below present
      (le.trans below')
    exact (server.distinct d' seen' s' member').entries (i := i) (j := i')
      (by rw [Log.getElem?_list, present, same]) (by rw [Log.getElem?_list, held'])
  · have present : (d.server s).log.getEntryAtIndex i' = some ((d.server s).log.entries i') :=
      if_pos (ge.trans (Log.le_of_getEntryAtIndex held))
    have same := server.tracks.committed_agree seen' seen member' member held' below' present
      (ge.trans below)
    exact (server.distinct d seen s member).entries (i := i) (j := i')
      (by rw [Log.getElem?_list, held]) (by rw [Log.getElem?_list, present, same])

/-- In a run of sound steps, no node ID is broadcast with two unique IDs, and no unique ID with two node
IDs, unless it is zero, was reported by node discovery, or belongs to a server. -/
theorem ServerRun.allocations_unique {cfg : ServerConfig} {raft : List Cluster} {c : ServerCluster}
    {past : List ServerCluster} (run : ServerRun cfg (Sound cfg.cluster) raft (c :: past)) :
    (∀ u₁ u₂ n, (u₁, n) ∈ c.published → (u₂, n) ∈ c.published → u₁ = u₂) ∧
      ∀ u n₁ n₂, u ≠ Server.noUniqueID → u ∉ c.reported →
        (∀ s ∈ cfg.cluster.members, u ≠ cfg.ownUniqueId s) →
        (u, n₁) ∈ c.published → (u, n₂) ∈ c.published → n₁ = n₂ := by
  obtain ⟨c, past, rest, A, same, rfl, server⟩ := run.tracks_sound
  cases same
  constructor
  · intro u₁ u₂ n published₁ published₂
    obtain ⟨e₁, committed₁, pair₁⟩ := server.published _ published₁
    obtain ⟨e₂, committed₂, pair₂⟩ := server.published _ published₂
    cases pair₁
    obtain ⟨rfl, node⟩ := Prod.mk.inj pair₂
    rw [(server.committed_unique committed₁ committed₂).1 (congrArg NodeID.value node)]
  · intro u n₁ n₂ nonzero undiscovered foreign published₁ published₂
    obtain ⟨e₁, committed₁, pair₁⟩ := server.published _ published₁
    obtain ⟨e₂, committed₂, pair₂⟩ := server.published _ published₂
    cases pair₁
    obtain ⟨unique, rfl⟩ := Prod.mk.inj pair₂
    rw [(server.committed_unique committed₁ committed₂).2 unique]
    rintro (zero | discovered | ⟨s, member, own⟩)
    · exact nonzero zero
    · exact undiscovered discovered
    · exact foreign s member own

namespace Trio

/-- The servers have unique IDs made of their node IDs. -/
def servers : ServerConfig := ⟨config, fun s => Vector.replicate 16 s.value⟩

theorem serversInitial : (ServerCluster.boot servers (at_ 0)).Initial servers := .boot initial

/-- The entry of a server itself, and one with the node ID that is tried first. -/
def own (s : UInt8) (T : Term) : Entry := ⟨T, Vector.replicate 16 s, s⟩

def allocated (u : UInt8) (T : Term) : Entry := ⟨T, Vector.replicate 16 u, 125⟩

def onRaft (actions : List Action) : List ServerAction := actions.map .raft

/-- A new leader appends its own entry, and then one for a node that asks for a node ID. -/
def allocate (s : NodeID) (u : UInt8) : List ServerAction :=
  [.callback s (at_ 0), .allocationRequest s (Vector.replicate 16 u) ⟨0⟩ (at_ 0)]

/-- The leader commits an entry, gets the next one to the third server and commits that too. -/
def commitTwo (s : NodeID) (id : ℕ) (req : AppendEntriesRequest) (resp : AppendEntriesResponse) :
    List ServerAction :=
  [.raft (.timer s (at_ 0)), .callback s (at_ 0), .raft (.deliverAppendEntries s ⟨⟨3⟩, id⟩ req (at_ 0)),
    .raft (.deliverAppendEntriesResponse s ⟨⟨3⟩, id⟩ resp (at_ 0)), .raft (.timer s (at_ 0)),
    .callback s (at_ 0)]

end Trio

theorem ServerRun.allocations_unique_trio : ∃ raft c past,
    ServerRun Trio.servers (Sound Trio.config) raft (c :: past) ∧
    (Vector.replicate 16 7, ⟨125⟩) ∈ c.published ∧
    (∀ u, (u, ⟨125⟩) ∈ c.published → Vector.replicate 16 7 = u) ∧
    ∀ n, (Vector.replicate 16 7, n) ∈ c.published → (⟨125⟩ : NodeID) = n := by
  obtain ⟨raft, c, past, run, published, undiscovered⟩ := ServerRun.exists_of_play (Sound config) serversInitial
    (onRaft (discovery ++ elect ⟨1⟩ 10000000 0 ⟨1, 0, 0⟩) ++ allocate ⟨1⟩ 7 ++
      onRaft (query ⟨1⟩ 2 ⟨1, 0, 0, 0, [own 1 1]⟩ ⟨1, true⟩) ++
      commitTwo ⟨1⟩ 3 ⟨1, 1, 1, 0, [allocated 7 1]⟩ ⟨1, true⟩)
    (fun c => (Vector.replicate 16 7, ⟨125⟩) ∈ c.published ∧ Vector.replicate 16 7 ∉ c.reported) (by decide +kernel)
  obtain ⟨node, unique⟩ := run.allocations_unique
  exact ⟨raft, c, past, run, published, fun u other => node _ _ _ published other,
    fun n other => unique _ _ _ (by decide) undiscovered (by decide) published other⟩

namespace Trio

/-- The first server, leader of term 1, and the second, leader of term 2, allocate one node ID to
different nodes.  The first one is elected in term 3, commits its old entries and broadcasts them; the
second one is elected in term 4 and does the same. -/
def allocateTwice : List ServerAction :=
  onRaft (discovery ++ elect ⟨1⟩ 10000000 0 ⟨1, 0, 0⟩) ++ allocate ⟨1⟩ 7 ++
    onRaft (List.replicate 3 (.timer ⟨2⟩ (at_ 10000000)) ++ elect ⟨2⟩ 20000000 3 ⟨2, 0, 0⟩) ++
    allocate ⟨2⟩ 8 ++
    onRaft (query ⟨1⟩ 5 ⟨1, 0, 0, 0, [own 1 1]⟩ ⟨2, false⟩) ++ [.callback ⟨1⟩ (at_ 0)] ++
    onRaft (elect ⟨1⟩ 30000000 7 ⟨3, 1, 2⟩) ++ [.callback ⟨1⟩ (at_ 0)] ++
    onRaft (query ⟨1⟩ 9 ⟨3, 1, 2, 0, []⟩ ⟨3, false⟩ ++
      query ⟨1⟩ 10 ⟨3, 1, 1, 0, [allocated 7 1]⟩ ⟨3, false⟩ ++
      query ⟨1⟩ 11 ⟨3, 0, 0, 0, [own 1 1]⟩ ⟨3, true⟩) ++
    commitTwo ⟨1⟩ 12 ⟨3, 1, 1, 0, [allocated 7 1]⟩ ⟨3, true⟩ ++
    onRaft (query ⟨2⟩ 16 ⟨2, 0, 0, 0, [own 2 2]⟩ ⟨3, false⟩) ++ [.callback ⟨2⟩ (at_ 0)] ++
    onRaft (elect ⟨2⟩ 40000000 18 ⟨4, 2, 2⟩) ++ [.callback ⟨2⟩ (at_ 0)] ++
    onRaft (query ⟨2⟩ 20 ⟨4, 2, 2, 0, []⟩ ⟨4, false⟩ ++
      query ⟨2⟩ 21 ⟨4, 2, 1, 0, [allocated 8 2]⟩ ⟨4, false⟩ ++
      query ⟨2⟩ 22 ⟨4, 0, 0, 0, [own 2 2]⟩ ⟨4, true⟩) ++
    commitTwo ⟨2⟩ 23 ⟨4, 2, 1, 0, [allocated 8 2]⟩ ⟨4, true⟩

end Trio

/-- The commit rule alone lets one node ID be given to two nodes. -/
theorem ServerRun.node_id_allocated_twice : ∃ raft c past,
    ServerRun Trio.servers (fun _ _ => True) raft (c :: past) ∧
    (Vector.replicate 16 7, ⟨125⟩) ∈ c.published ∧ (Vector.replicate 16 8, ⟨125⟩) ∈ c.published :=
  ServerRun.exists_of_play _ serversInitial allocateTwice _ (by decide +kernel)

/-! ## Every log by itself -/

/-- In every run, sound or not, no log has two entries with one node ID. -/
theorem ServerRun.log_node_ids_distinct {cfg : ServerConfig} {raft : List Cluster} {c : ServerCluster}
    {past : List ServerCluster} (run : ServerRun cfg (fun _ _ => True) raft (c :: past)) {s : NodeID}
    (member : s ∈ cfg.cluster.members) {i j : ℕ} (less : i < j) {e e' : Entry}
    (at_i : (c.raft.server s).log.getEntryAtIndex i = some e)
    (at_j : (c.raft.server s).log.getEntryAtIndex j = some e') : e.nodeId ≠ e'.nodeId := by
  have tracked : ∃ c' past' rest A, c :: past = c' :: past' ∧ raft = c'.raft :: rest ∧
      ServerTracks cfg False c' rest A := run.tracks fun absurd => absurd.elim
  obtain ⟨c, past, rest, A, same, -, server⟩ := tracked
  cases same
  rw [← Log.getElem?_list] at at_i at_j
  obtain ⟨below_i, rfl⟩ := List.getElem?_eq_some_iff.mp at_i
  obtain ⟨below_j, rfl⟩ := List.getElem?_eq_some_iff.mp at_j
  have distinct := server.distinct c.raft mem_cons_self s member
  exact (pairwise_iff_getElem.mp distinct i j below_i below_j less).1

/-- Two servers have given one node ID to two nodes, and each of their logs has it once. -/
theorem ServerRun.log_node_ids_distinct_trio : ∃ raft c past,
    ServerRun Trio.servers (fun _ _ => True) raft (c :: past) ∧
    (c.raft.server ⟨2⟩).log.list = [Entry.zero, Trio.own 2 2, Trio.allocated 8 2] ∧
    (Trio.own 2 2).nodeId ≠ (Trio.allocated 8 2).nodeId := by
  obtain ⟨raft, c, past, run, -, log⟩ := ServerRun.exists_of_play (fun _ _ => True) serversInitial
    (onRaft (discovery ++ elect ⟨1⟩ 10000000 0 ⟨1, 0, 0⟩) ++ allocate ⟨1⟩ 7 ++
      onRaft (replicate 3 (.timer ⟨2⟩ (at_ 10000000)) ++ elect ⟨2⟩ 20000000 3 ⟨2, 0, 0⟩) ++
      allocate ⟨2⟩ 8)
    (fun c => (c.raft.server ⟨1⟩).log.list = [Entry.zero, own 1 1, allocated 7 1] ∧
      (c.raft.server ⟨2⟩).log.list = [Entry.zero, own 2 2, allocated 8 2]) (by decide +kernel)
  have entry : ∀ k, (c.raft.server ⟨2⟩).log.getEntryAtIndex k =
      [Entry.zero, own 2 2, allocated 8 2][k]? := by
    intro k
    rw [← log, Log.getElem?_list]
  exact ⟨raft, c, past, run, log, run.log_node_ids_distinct (by decide) (Nat.lt_succ_self 1) (entry 1) (entry 2)⟩

end Uavcan
