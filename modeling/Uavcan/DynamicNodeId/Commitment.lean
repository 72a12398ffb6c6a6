import Uavcan.DynamicNodeId.Retention

/-!
# Committed entries

`propagateCommitIndex` counts the servers that hold the next entry and never looks at the term of the entry,
and step 4 of `handleAppendEntriesRequest` removes entries that the request does not contradict. Either can
undo a committed entry. In runs of `Sound` steps, which do neither, committed entries agree and commit indices
stay within the log.
-/

namespace Uavcan

open Replication (Inv Le Careful)
open List Option
open Trio

/-! ## Sound steps -/

/-- A request and its successful response, by which server `v` confirmed in term `T` to hold the log of
the leader up to index `j`. -/
def Message.confirms (v : NodeID) (T : Term) (j : ℕ) : Message → Message → Bool
  | .appendEntries src call req, .appendEntriesResponse dst call' resp =>
    src = dst && call = call' && call.serverNodeID = v && resp.success && req.term = T &&
      j ≤ req.prevLogIndex + req.entries.length
  | _, _ => false

/-- In the run so far, server `v` led term `T` with a log up to index `j`, or confirmed to the leader of
`T` to hold its log up to there. -/
def Confirmed (c : Cluster) (past : List Cluster) (T : Term) (j : ℕ) (v : NodeID) : Prop :=
  (∃ c' ∈ c :: past, (c'.server v).serverState = .leader ∧ (c'.server v).currentTerm = T ∧
    j ≤ (c'.server v).log.lastIndex) ∨
    ∃ m ∈ c.sent, ∃ m' ∈ c.sent, Message.confirms v T j m m' = true

instance (c : Cluster) (past : List Cluster) (T : Term) (j : ℕ) (v : NodeID) :
    Decidable (Confirmed c past T j v) := by
  unfold Confirmed
  infer_instance

variable (cfg : ClusterConfig)

/-- If the timer event of server `s` moves its commit index, then an entry after it was confirmed by a
majority in the term of that entry. -/
def CommitsConfirmed (c : Cluster) (past : List Cluster) (s : NodeID) : Prop :=
  (c.server s).serverState = .leader → (c.server s).commitIndex < (c.server s).log.lastIndex →
    (c.server s).cluster.getQuorumSize ≤ (c.server s).numNodesWithNextLogEntryAvailable →
    ∃ j, j ≤ (c.server s).log.lastIndex ∧ (c.server s).commitIndex < j ∧
      cfg.size / 2 + 1 ≤
        cfg.members.countP fun v => Confirmed c past ((c.server s).log.entries j).term j v

instance (cfg : ClusterConfig) (c : Cluster) (past : List Cluster) (s : NodeID) :
    Decidable (CommitsConfirmed cfg c past s) := by
  unfold CommitsConfirmed
  infer_instance

/-- In the run so far, a leader of term `T` held `l`. -/
def HeldByLeader (c : Cluster) (past : List Cluster) (T : Term)
    (l : List Entry) : Prop :=
  ∃ c' ∈ c :: past, ∃ v ∈ cfg.members, (c'.server v).serverState = .leader ∧
    (c'.server v).currentTerm = T ∧ l <+: (c'.server v).log.list

instance (cfg : ClusterConfig) (c : Cluster) (past : List Cluster) (T : Term) (l : List Entry) :
    Decidable (HeldByLeader cfg c past T l) := by
  unfold HeldByLeader
  infer_instance

/-- If step 4 removes entries of server `s` that a leader of the term of the request holds, then the
request carries them all and they are counted again one by one. -/
def KeepsShared (c : Cluster) (past : List Cluster) (src s : NodeID)
    (req : AppendEntriesRequest) (w : Writes) : Prop :=
  (c.server s).Accepts src req w → req.prevLogIndex ≠ (c.server s).log.lastIndex → w.remove = true →
    ∀ i, i ≤ (c.server s).log.lastIndex → req.prevLogIndex < i →
      HeldByLeader cfg c past req.term ((c.server s).log.list.take (i + 1)) →
      i ≤ req.prevLogIndex + req.entries.length ∧
        ∀ j, j ≤ i → req.prevLogIndex < j → (w.append j).lastIndex = true

instance (cfg : ClusterConfig) (c : Cluster) (past : List Cluster) (src s : NodeID)
    (req : AppendEntriesRequest) (w : Writes) : Decidable (KeepsShared cfg c past src s req w) := by
  unfold KeepsShared
  infer_instance

/-- The condition on a step, in terms of the run before it. -/
def Sound : List Cluster → Action → Prop
  | c :: past, .timer s _ => CommitsConfirmed cfg c past s
  | c :: past, .deliverAppendEntries src call req env =>
    KeepsShared cfg c past src call.serverNodeID req env.writes
  | _, _ => True

instance (cfg : ClusterConfig) (states : List Cluster) (a : Action) :
    Decidable (Sound cfg states a) := by
  unfold Sound
  split <;> infer_instance

variable {cfg : ClusterConfig} {retaining : Prop} {c : Cluster} {past : List Cluster} {A : Abstract}

/-! ## Sound steps meet their obligations -/

section

variable (tracks : Tracks cfg retaining c past A)

include tracks

/-- What was confirmed in a run is on record. -/
theorem Tracks.confirmed {v : NodeID}
    (member : v ∈ cfg.members) {T : Term} {j : ℕ} (confirmed : Confirmed c past T j v) :
    ∃ k, A.ack v T.toNat k ∧ j < k.length := by
  rcases confirmed with ⟨c', seen, leads, rfl, reach⟩ | ⟨m, sent, m', sent', confirms⟩
  · obtain ⟨B, sim, le⟩ := tracks.earlier c' seen
    obtain ⟨leader, list⟩ := (sim.server v member).leadsTerm ⟨leads, rfl⟩
    refine ⟨_, le.ack ((sim.inv.leader leader).ack), ?_⟩
    rw [← list, Log.length_list]
    exact Nat.lt_succ_of_le reach
  · unfold Message.confirms at confirms
    split at confirms
    case h_2 => cases confirms
    case h_1 src call req dst call' resp =>
      simp only [Bool.and_eq_true, decide_eq_true_eq] at confirms
      obtain ⟨⟨⟨⟨⟨rfl, rfl⟩, rfl⟩, success⟩, rfl⟩, reach⟩ := confirms
      obtain ⟨req', started, k, ack, length⟩ := tracks.sim.messages _ sent' success
      -- the call has one request
      have same := tracks.sim.unique _ sent _ started call rfl rfl
      cases same
      exact ⟨k, ack, by omega⟩

/-- An entry that a majority confirmed in its term is chosen, with all before it. -/
theorem Tracks.committed {s : NodeID}
    (member : s ∈ cfg.members) {j k : ℕ} (inside : j ≤ (c.server s).log.lastIndex) (below : k ≤ j)
    (majority : cfg.size / 2 + 1 ≤
      cfg.members.countP fun v => Confirmed c past ((c.server s).log.entries j).term j v) :
    A.Committed cfg.system (A.current s) (A.log s) k := by
  have server := tracks.sim.server s member
  have inv := tracks.sim.inv
  have found : (c.server s).log.getEntryAtIndex j = some ((c.server s).log.entries j) := if_pos inside
  obtain ⟨length, sub⟩ := server.take_sub found
  obtain ⟨led, traced, -⟩ := (inv.log s).traced _ _ sub
  refine .inr ⟨((c.server s).log.entries j).term.toNat,
    (c.server s).log.list.take j ++ [(c.server s).log.entries j], ?_, ⟨⟨_, _, rfl, rfl⟩, ?_⟩, ?_, ?_⟩
  · exact (inv.log s).current _ (sub.subset (by simp))
  · refine ⟨(cfg.members.filter fun v =>
      Confirmed c past ((c.server s).log.entries j).term j v).toFinset, ?_, fun v confirmed => ?_, ?_⟩
    · intro v confirmed
      simp only [List.mem_toFinset, mem_filter] at confirmed ⊢
      exact confirmed.1
    · simp only [coe_toFinset, mem_filter, decide_eq_true_eq] at confirmed
      obtain ⟨l, ack, reach⟩ := tracks.confirmed confirmed.1 confirmed.2
      refine ⟨l, ack, prefix_of_prefix_length_le traced (inv.ack ack).2.2 ?_⟩
      rw [length_append, length]
      exact reach
    · rw [cfg.card_members, toFinset_card_of_nodup (cfg.nodup.filter _), ← countP_eq_length_filter]
      exact majority
  · rw [← Log.take_list found, server.log]
    exact take_prefix_take_left (by omega)
  · rw [server.log, Log.length_list]
    omega

/-- Step 4 keeps what the server shares with the leader. -/
theorem Tracks.keeps_shared {src : NodeID}
    {call : ServiceCallID} {req : AppendEntriesRequest} {env : Env}
    (sent : .appendEntries src call req ∈ c.sent)
    (sound : KeepsShared cfg c past src call.serverNodeID req env.writes)
    {p : PersistentState} (stored : p.Stored) (log : p.log = (c.server call.serverNodeID).log)
    (accepts : (c.server call.serverNodeID).Accepts src req env.writes) {shared : List Entry}
    (held : shared <+: (c.server call.serverNodeID).log.list)
    (led : shared <+: A.leaderLog req.term.toNat) :
    shared <+: (RaftCore.rewriteLog p req env.writes).2.log.list := by
  obtain ⟨-, leader, ⟨prev, length, sub, -⟩, -⟩ := tracks.sim.messages _ sent
  have inside := accepts.2.2.2.1
  rw [← log] at held inside
  rcases Nat.lt_or_ge (req.prevLogIndex + 1) shared.length with longer | shorter
  · obtain ⟨i, last⟩ : ∃ i, shared.length = i + 1 := ⟨shared.length - 1, by omega⟩
    have below := held.length_le
    rw [Log.length_list] at below
    have whole : shared = p.log.list.take (i + 1) := by
      rw [← last]
      exact prefix_iff_eq_take.mp held
    rw [whole, RaftCore.rewriteLog_keeps_iff stored (by omega) (by omega) ?_]
    · cases removed : env.writes.remove with
      | false => exact .inl rfl
      | true =>
        refine .inr (sound accepts (by rw [← log]; omega) removed i (by rw [← log]; omega) (by omega) ?_)
        obtain ⟨c', seen, leads, ⟨state, term⟩, list⟩ := tracks.led _ _ leader
        refine ⟨c', seen, src, leads, state, (UInt32.toNat_inj.mp term).symm, ?_⟩
        rwa [list, ← log, ← whole]
    · intro j after le e at_j
      have mine := Replication.getElem?_eq_of_sub held (i := j) (by omega)
      have leaders := Replication.getElem?_eq_of_sub led (i := j) (by omega)
      have carried : (prev ++ req.entries)[j]? = some e := by
        rw [List.getElem?_append_right (by omega), length]
        rwa [show j - (req.prevLogIndex + 1) = j - req.prevLogIndex - 1 by omega]
      have bound := (List.getElem?_eq_some_iff.mp carried).1
      rw [← Replication.getElem?_eq_of_sub sub bound, leaders, ← mine, Log.getElem?_list,
        Log.getEntryAtIndex, if_pos (by omega)] at carried
      exact (some.inj carried).symm
  · rcases run : RaftCore.rewriteLog p req env.writes with ⟨result, p'⟩
    obtain ⟨-, -, -, -, ⟨-, same⟩ | ⟨done, -, list, -⟩⟩ := RaftCore.rewriteLog_cases run stored inside
    · simpa only [same] using held
    · simp only [list]
      refine (prefix_of_prefix_length_le held ( take_prefix _ _) ?_).trans
        (prefix_append _ _)
      rw [length_take, Log.length_list]
      omega

theorem Tracks.obliged {a : Action}
    (sound : Sound cfg (c :: past) a) : Obliged cfg c A a where
  keeps := by
    rintro src call req env rfl sent member p stored log admitted update recent entry found matching shared held led
    rw [log] at found held
    have taken := (RaftCore.updateTerm_ok (tracks.sim.server _ member).stored req.term env.writes).mp
      (by rw [update])
    have inside := Log.le_of_getEntryAtIndex found
    obtain rfl : (c.server call.serverNodeID).log.entries req.prevLogIndex = entry :=
      some.inj ((if_pos inside).symm.trans found)
    exact tracks.keeps_shared sent sound stored log ⟨admitted, recent, taken, inside, matching⟩
      held led
  advance := by
    rintro s env rfl member leads open_ counted
    obtain ⟨j, inside, above, majority⟩ := sound leads open_ counted
    exact tracks.committed member inside above majority

end

theorem Run.tracks_sound {states : List Cluster} (run : Run cfg (Sound cfg) states) :
    ∃ c past A, states = c :: past ∧ Tracks cfg True c past A :=
  run.tracks fun _ _ _ _ _ tracks sound => tracks.obliged sound

/-! ## Agreement on committed entries -/

theorem Sim.getEntryAtIndex_zero (sim : Sim cfg retaining c A) {s : NodeID} (member : s ∈ cfg.members)
    {e : Entry} (held : (c.server s).log.getEntryAtIndex 0 = some e) : e = Entry.zero := by
  have rooted := (sim.inv.log s).rooted
  have first := Replication.getElem?_eq_of_sub rooted (i := 0) Nat.zero_lt_one
  rw [(sim.server s member).log, Log.getElem?_list, held] at first
  exact some.inj first

/-- What two servers have committed at one index, at any two moments, is the same entry. -/
theorem Tracks.committed_agree (tracks : Tracks cfg True c past A) {c₁ c₂ : Cluster}
    (seen₁ : c₁ ∈ c :: past) (seen₂ : c₂ ∈ c :: past) {s₁ s₂ : NodeID} (member₁ : s₁ ∈ cfg.members)
    (member₂ : s₂ ∈ cfg.members) {i : ℕ} {e₁ e₂ : Entry}
    (held₁ : (c₁.server s₁).log.getEntryAtIndex i = some e₁)
    (committed₁ : i ≤ (c₁.server s₁).commitIndex)
    (held₂ : (c₂.server s₂).log.getEntryAtIndex i = some e₂)
    (committed₂ : i ≤ (c₂.server s₂).commitIndex) : e₁ = e₂ := by
  obtain ⟨B₁, sim₁, le₁⟩ := tracks.earlier c₁ seen₁
  obtain ⟨B₂, sim₂, le₂⟩ := tracks.earlier c₂ seen₂
  rcases Nat.eq_zero_or_pos i with rfl | pos
  · rw [sim₁.getEntryAtIndex_zero member₁ held₁, sim₂.getEntryAtIndex_zero member₂ held₂]
  · have server₁ := sim₁.server s₁ member₁
    have server₂ := sim₂.server s₂ member₂
    have same := ((server₁.commit trivial).mono le₁).agree tracks.sim.inv (tracks.sim.careful trivial)
      ((server₂.commit trivial).mono le₂) pos committed₁ committed₂
    rw [server₁.log, server₂.log, Log.getElem?_list, Log.getElem?_list, held₁, held₂] at same
    exact some.inj same

/-- In a run of sound steps, two servers that have index `i` committed, at any two moments, hold the same
entry there. -/
theorem Run.state_machine_safety {states : List Cluster} (run : Run cfg (Sound cfg) states)
    {c c' : Cluster} (seen : c ∈ states) (seen' : c' ∈ states) {s s' : NodeID}
    (member : s ∈ cfg.members) (member' : s' ∈ cfg.members) {i : ℕ} {e e' : Entry}
    (held : (c.server s).log.getEntryAtIndex i = some e) (committed : i ≤ (c.server s).commitIndex)
    (held' : (c'.server s').log.getEntryAtIndex i = some e')
    (committed' : i ≤ (c'.server s').commitIndex) : e = e' := by
  obtain ⟨final, past, A, rfl, tracks⟩ := run.tracks_sound
  exact tracks.committed_agree seen seen' member member' held committed held' committed'

namespace Trio

/-- The first server allocates a node ID, and the third one takes the entry over. -/
def replicate : List Action :=
  [.appendLog ⟨1⟩ (Vector.replicate 16 7) ⟨10⟩ (at_ 0), .timer ⟨1⟩ (at_ 0),
    .deliverAppendEntries ⟨1⟩ ⟨⟨3⟩, 2⟩ ⟨1, 0, 0, 0, [⟨1, Vector.replicate 16 7, 10⟩]⟩ (at_ 0),
    .deliverAppendEntriesResponse ⟨1⟩ ⟨⟨3⟩, 2⟩ ⟨1, true⟩ (at_ 0)]

end Trio

theorem Run.state_machine_safety_trio : ∃ c past, Run Trio.config (Sound Trio.config) (c :: past) ∧
    1 ≤ (c.server ⟨1⟩).commitIndex ∧ 1 ≤ (c.server ⟨3⟩).commitIndex ∧
    ∀ e, (c.server ⟨3⟩).log.getEntryAtIndex 1 = some e →
      (⟨1, Vector.replicate 16 7, 10⟩ : Entry) = e := by
  obtain ⟨c, past, run, held, committed, committed'⟩ := Run.exists_of_play (Sound config) initial
    (discovery ++ elect ⟨1⟩ 10000000 0 ⟨1, 0, 0⟩ ++ Trio.replicate ++
      [.timer ⟨1⟩ (at_ 0), .timer ⟨1⟩ (at_ 0),
        .deliverAppendEntries ⟨1⟩ ⟨⟨3⟩, 5⟩ ⟨1, 1, 1, 1, []⟩ (at_ 0)])
    (fun c => (c.server ⟨1⟩).log.getEntryAtIndex 1 = some ⟨1, Vector.replicate 16 7, 10⟩ ∧
      1 ≤ (c.server ⟨1⟩).commitIndex ∧ 1 ≤ (c.server ⟨3⟩).commitIndex) (by decide +kernel)
  exact ⟨c, past, run, committed, committed', fun e held' => run.state_machine_safety
    mem_cons_self mem_cons_self (by decide) (by decide) held committed held' committed'⟩

namespace Trio

/-- Server `s` queries the third server and gets its response. -/
def query (s : NodeID) (id : ℕ) (req : AppendEntriesRequest) (resp : AppendEntriesResponse) :
    List Action :=
  [.timer s (at_ 0), .deliverAppendEntries s ⟨⟨3⟩, id⟩ req (at_ 0),
    .deliverAppendEntriesResponse s ⟨⟨3⟩, id⟩ resp (at_ 0)]

/-- The first server, leader of term 1, and the second, leader of term 2, append an entry each that
nobody else has.  The first one is elected in term 3, gets its old entry to the third server and
commits it.  The second one is elected in term 4, because its last entry is newer, and does the same. -/
def overwrite : List Action :=
  discovery ++ elect ⟨1⟩ 10000000 0 ⟨1, 0, 0⟩ ++
    [.appendLog ⟨1⟩ (Vector.replicate 16 7) ⟨10⟩ (at_ 0)] ++
    List.replicate 3 (.timer ⟨2⟩ (at_ 10000000)) ++ elect ⟨2⟩ 20000000 3 ⟨2, 0, 0⟩ ++
    [.appendLog ⟨2⟩ (Vector.replicate 16 8) ⟨11⟩ (at_ 0)] ++
    query ⟨1⟩ 5 ⟨1, 0, 0, 0, [⟨1, Vector.replicate 16 7, 10⟩]⟩ ⟨2, false⟩ ++
    elect ⟨1⟩ 30000000 7 ⟨3, 1, 1⟩ ++ query ⟨1⟩ 9 ⟨3, 1, 1, 0, []⟩ ⟨3, false⟩ ++
    query ⟨1⟩ 10 ⟨3, 0, 0, 0, [⟨1, Vector.replicate 16 7, 10⟩]⟩ ⟨3, true⟩ ++ [.timer ⟨1⟩ (at_ 0)] ++
    query ⟨2⟩ 13 ⟨2, 0, 0, 0, [⟨2, Vector.replicate 16 8, 11⟩]⟩ ⟨3, false⟩ ++
    elect ⟨2⟩ 40000000 15 ⟨4, 2, 1⟩ ++ query ⟨2⟩ 17 ⟨4, 2, 1, 0, []⟩ ⟨4, false⟩ ++
    query ⟨2⟩ 18 ⟨4, 0, 0, 0, [⟨2, Vector.replicate 16 8, 11⟩]⟩ ⟨4, true⟩ ++ [.timer ⟨2⟩ (at_ 0)]

end Trio

/-- The commit rule alone does not make committed entries agree. -/
theorem Run.committed_entries_differ : ∃ c past, Run Trio.config (fun _ _ => True) (c :: past) ∧
    (c.server ⟨1⟩).log.getEntryAtIndex 1 = some ⟨1, Vector.replicate 16 7, 10⟩ ∧
    1 ≤ (c.server ⟨1⟩).commitIndex ∧
    (c.server ⟨2⟩).log.getEntryAtIndex 1 = some ⟨2, Vector.replicate 16 8, 11⟩ ∧
    1 ≤ (c.server ⟨2⟩).commitIndex :=
  Run.exists_of_play _ initial overwrite _ (by decide +kernel)

/-! ## Followers keep entries -/

/-- A request that agrees with the log of a follower removes none of its entries exactly if it puts back
what it removes; and in a run of sound steps every commit index stays within the log. -/
theorem Run.followers_keep_entries (cfg : ClusterConfig) :
    (∀ {allowed : List Cluster → Action → Prop} {states : List Cluster}, Run cfg allowed states →
      ∀ c ∈ states, ∀ s ∈ cfg.members, ∀ (env : Env) (src : NodeID) (req : AppendEntriesRequest),
        req.prevLogIndex ≤ (c.server s).log.lastIndex →
        ((c.server s).log.entries req.prevLogIndex).term = req.prevLogTerm →
        (∀ j, req.prevLogIndex < j → j ≤ (c.server s).log.lastIndex →
          ∀ e, req.entries[j - req.prevLogIndex - 1]? = some e → e = (c.server s).log.entries j) →
        ((∀ i e, (c.server s).log.getEntryAtIndex i = some e →
            ((c.server s).handleAppendEntriesRequest cfg.dsdl env src req).1.log.getEntryAtIndex i =
              some e) ↔
          (c.server s).PutsBack src req env.writes)) ∧
      ∀ {states : List Cluster}, Run cfg (Sound cfg) states → ∀ c ∈ states, ∀ s ∈ cfg.members,
        (c.server s).commitIndex ≤ (c.server s).log.lastIndex := by
  constructor
  · intro allowed states run c seen s member env src req inside matching agree
    obtain ⟨final, past, A, rfl, tracks⟩ := run.tracks_any
    obtain ⟨B, sim, -⟩ := tracks.earlier c seen
    rw [← Log.list_sub_iff]
    exact RaftCore.handleAppendEntriesRequest_keeps_iff (sim.server s member).stored cfg.dsdl env src
      inside matching agree
  · intro states run c seen s member
    obtain ⟨final, past, A, rfl, tracks⟩ := run.tracks_sound
    obtain ⟨B, sim, -⟩ := tracks.earlier c seen
    have server := sim.server s member
    rcases server.commit trivial with zero | ⟨-, -, -, -, -, inside⟩
    · omega
    · rw [server.log, Log.length_list] at inside
      omega

theorem Run.followers_keep_entries_trio : ∃ c past, Run Trio.config (Sound Trio.config) (c :: past) ∧
    (c.server ⟨3⟩).log.lastIndex = 1 ∧
    (∀ i e, (c.server ⟨3⟩).log.getEntryAtIndex i = some e →
      ((c.server ⟨3⟩).handleAppendEntriesRequest Trio.config.dsdl (Trio.at_ 0) ⟨1⟩
        ⟨1, 0, 0, 0, [⟨1, Vector.replicate 16 7, 10⟩]⟩).1.log.getEntryAtIndex i = some e) ∧
    (c.server ⟨3⟩).commitIndex ≤ (c.server ⟨3⟩).log.lastIndex := by
  obtain ⟨c, past, run, last, zero, entry, puts⟩ := Run.exists_of_play (Sound config) initial
    (discovery ++ elect ⟨1⟩ 10000000 0 ⟨1, 0, 0⟩ ++ Trio.replicate)
    (fun c => (c.server ⟨3⟩).log.lastIndex = 1 ∧ ((c.server ⟨3⟩).log.entries 0).term = 0 ∧
      (c.server ⟨3⟩).log.entries 1 = ⟨1, Vector.replicate 16 7, 10⟩ ∧
      (c.server ⟨3⟩).PutsBack ⟨1⟩ ⟨1, 0, 0, 0, [⟨1, Vector.replicate 16 7, 10⟩]⟩ (at_ 0).writes)
    (by decide +kernel)
  obtain ⟨keeps, bounded⟩ := Run.followers_keep_entries config
  refine ⟨c, past, run, last, (keeps run c mem_cons_self ⟨3⟩ (by decide) (at_ 0) ⟨1⟩ _
    (by rw [last]; decide) zero ?_).mpr puts, bounded run c mem_cons_self ⟨3⟩ (by decide)⟩
  intro j above below e carried
  obtain rfl : j = 1 := by
    rw [last] at below
    exact Nat.le_antisymm below above
  rw [entry]
  exact (some.inj carried).symm

namespace Trio

/-- Two entries are replicated to the third server one by one and committed there. -/
def replicateTwo : List Action :=
  discovery ++ elect ⟨1⟩ 10000000 0 ⟨1, 0, 0⟩ ++ replicate ++
    [.appendLog ⟨1⟩ (Vector.replicate 16 8) ⟨11⟩ (at_ 0)] ++
    query ⟨1⟩ 3 ⟨1, 1, 1, 0, [⟨1, Vector.replicate 16 8, 11⟩]⟩ ⟨1, true⟩ ++
    [.timer ⟨1⟩ (at_ 0), .timer ⟨1⟩ (at_ 0),
      .deliverAppendEntries ⟨1⟩ ⟨⟨3⟩, 7⟩ ⟨1, 1, 2, 2, []⟩ (at_ 0)]

/-- The first of the two requests arrives again. -/
def redeliver : Action :=
  .deliverAppendEntries ⟨1⟩ ⟨⟨3⟩, 2⟩ ⟨1, 0, 0, 0, [⟨1, Vector.replicate 16 7, 10⟩]⟩ (at_ 0)

end Trio

/-- A request that arrives twice takes away an entry that is committed. -/
theorem Run.committed_entry_removed : ∃ c past, Run Trio.config (fun _ _ => True) (c :: past) ∧
    (c.server ⟨3⟩).log.getEntryAtIndex 1 = some ⟨1, Vector.replicate 16 7, 10⟩ ∧
    (c.server ⟨3⟩).log.getEntryAtIndex 2 = some ⟨1, Vector.replicate 16 8, 11⟩ ∧
    ∃ c', c.exec Trio.config Trio.redeliver = some c' ∧
      (c'.server ⟨3⟩).log.getEntryAtIndex 2 = none ∧
      (c'.server ⟨3⟩).log.lastIndex < (c'.server ⟨3⟩).commitIndex := by
  obtain ⟨c, past, run, first, second, after⟩ := Run.exists_of_play (fun _ _ => True) initial replicateTwo
    (fun c => (c.server ⟨3⟩).log.getEntryAtIndex 1 = some ⟨1, Vector.replicate 16 7, 10⟩ ∧
      (c.server ⟨3⟩).log.getEntryAtIndex 2 = some ⟨1, Vector.replicate 16 8, 11⟩ ∧
      (c.exec config redeliver).any (fun c' : Cluster => decide (
        (c'.server ⟨3⟩).log.getEntryAtIndex 2 = none ∧
        (c'.server ⟨3⟩).log.lastIndex < (c'.server ⟨3⟩).commitIndex)) = true) (by decide +kernel)
  refine ⟨c, past, run, first, second, ?_⟩
  rcases exec : c.exec config redeliver with _ | c'
  · simp [exec] at after
  · rw [exec] at after
    exact ⟨c', rfl, of_decide_eq_true after⟩

end Uavcan
