import Uavcan.DynamicNodeId.Elections

/-!
# Replication of the log

The handlers that move entries: the follower's side of `AppendEntries`, the leader's side, and
`appendLog`.  The follower removes everything after the previous entry of a request before it appends,
so that a write that fails in between leaves a shorter log; `rewriteLog_cases` says what may be left.
-/

namespace Uavcan

open Replication (Reach Inv Le Careful Local)
open List
open ClusterManager PersistentState RaftCore

namespace RaftCore

/-! ## The follower's log -/

variable {w : Writes}

/-- The appending loop stops at the first failure; what it wrote is a part of the entries. -/
theorem appendEntries_cases {entries : List Entry} {p p' : PersistentState} {result : Except Err Unit}
    (run : appendEntries w entries p = (result, p')) (stored : p.Stored) :
    p'.Stored ∧ p'.currentTerm = p.currentTerm ∧ p'.votedFor = p.votedFor ∧
      p'.storage .clusterSize = p.storage .clusterSize ∧
      ∃ done, done <+: entries ∧ p'.log.list = p.log.list ++ done ∧
        (result = .ok () → done = entries) := by
  induction entries generalizing p with
  | nil =>
    cases run
    exact ⟨stored, rfl, rfl, rfl, [], prefix_rfl, by simp, fun _ => rfl⟩
  | cons entry rest ih =>
    simp only [appendEntries] at run
    split at run
    case h_1 err p₁ step =>
      cases run
      obtain ⟨stored₁, term, vote, frame, failed, -⟩ := appendEntry_cases step stored
      exact ⟨stored₁, term, vote, frame _ (by simp) (by simp), [], nil_prefix, by simp [failed nofun], nofun⟩
    case h_2 p₁ step =>
      obtain ⟨stored₁, term, vote, frame, -, appends⟩ := appendEntry_cases step stored
      obtain ⟨stored₂, term₂, vote₂, size₂, done, part, list₂, whole⟩ := ih run stored₁
      refine ⟨stored₂, term₂.trans term, vote₂.trans vote, size₂.trans (frame _ (by simp) (by simp)), entry :: done,
        (prefix_cons_inj entry).mpr part, ?_, fun ok => by rw [whole ok]⟩
      rw [list₂, (appends rfl).1, append_assoc, singleton_append]

/-- Step 4 leaves the log as it was, or cuts it after the previous entry and appends a part of the
request. -/
theorem rewriteLog_cases {p p' : PersistentState} {req : AppendEntriesRequest} {result : Except Err Unit}
    (run : rewriteLog p req w = (result, p')) (stored : p.Stored) (inside : req.prevLogIndex ≤ p.log.lastIndex) :
    p'.Stored ∧ p'.currentTerm = p.currentTerm ∧ p'.votedFor = p.votedFor ∧
      p'.storage .clusterSize = p.storage .clusterSize ∧
      ((result ≠ .ok () ∧ p'.log = p.log) ∨
        ∃ done, done <+: req.entries ∧
          p'.log.list = p.log.list.take (req.prevLogIndex + 1) ++ done ∧
          (result = .ok () → done = req.entries)) := by
  have bound := p.log.lastIndex_lt
  unfold rewriteLog at run
  split at run
  case isFalse same =>
    obtain ⟨stored', term, vote, size, done, part, list, whole⟩ := appendEntries_cases run stored
    refine ⟨stored', term, vote, size, .inr ⟨done, part, ?_, whole⟩⟩
    rw [list, take_of_length_le]
    rw [Log.length_list]
    omega
  case isTrue different =>
  have index : toIndex (req.prevLogIndex + 1) = req.prevLogIndex + 1 :=
    Nat.mod_eq_of_lt (by omega)
  split at run
  case h_1 err p₁ cut =>
    cases run
    obtain ⟨stored₁, term, vote, frame, -, failed, -⟩ := remove_cases cut stored (by omega)
    exact ⟨stored₁, term, vote, frame _ (by simp), .inl ⟨nofun, (failed nofun).1⟩⟩
  case h_2 p₁ cut =>
    rw [removeEntriesWhereIndexGreater, index] at cut
    obtain ⟨stored₁, term, vote, frame, -, -, removes⟩ := remove_cases cut stored (by omega)
    obtain ⟨stored₂, term₂, vote₂, size₂, done, part, list₂, whole⟩ := appendEntries_cases run stored₁
    refine ⟨stored₂, term₂.trans term, vote₂.trans vote, size₂.trans (frame _ (by simp)), .inr ⟨done, part, ?_, whole⟩⟩
    rw [list₂, (removes rfl).2.1]

/-- Re-appending entries that are still stored above the log needs nothing but the writes of the last
index. -/
theorem appendEntries_again {old : ℕ → Entry} (count : ℕ) :
    ∀ {entries : List Entry} {p : PersistentState}, p.Stored → p.log.lastIndex + count < 128 →
      (∀ j, p.log.lastIndex < j → j ≤ p.log.lastIndex + count →
        Log.EntryStored p.storage j (old j) ∧ (w.append j).lastIndex = true) →
      (∀ j < count, entries[j]? = some (old (p.log.lastIndex + 1 + j))) →
      p.log.list ++ entries.take count <+: (appendEntries w entries p).2.log.list := by
  induction count with
  | zero =>
    intro entries p stored _ _ _
    rcases run : appendEntries w entries p with ⟨result, p'⟩
    obtain ⟨-, -, -, -, done, -, list, -⟩ := appendEntries_cases run stored
    simp [list]
  | succ count ih =>
    intro entries p stored room dangling same
    rcases entries with _ | ⟨entry, rest⟩
    · simpa using same 0 (Nat.succ_pos count)
    obtain rfl : entry = old (p.log.lastIndex + 1) := by
      simpa using same 0 (Nat.succ_pos count)
    have here := dangling (p.log.lastIndex + 1) (by omega) (by omega)
    rcases step : p.appendEntry (old (p.log.lastIndex + 1)) (w.append (p.log.lastIndex + 1)) with
      ⟨result, p₁⟩
    obtain ⟨stored₁, -, -, frame, -, appends⟩ := appendEntry_cases step stored
    have ok : result = .ok () := by
      have direct : p.log.append p.storage (old (p.log.lastIndex + 1))
          (w.append (p.log.lastIndex + 1)) = (result, p₁.log, p₁.storage) := by
        unfold appendEntry at step
        rcases append : p.log.append p.storage (old (p.log.lastIndex + 1))
          (w.append (p.log.lastIndex + 1)) with ⟨result', log', st'⟩
        rw [append] at step
        cases step
        rfl
      exact Log.append_ok direct (by omega) here.2 (.inl here.1)
    obtain ⟨list, last, -⟩ := appends ok
    subst ok
    have later := @ih rest p₁ stored₁ (by omega) (fun j above below => ?_) (fun j lt => ?_)
    · simp only [appendEntries, step]
      rw [list] at later
      simpa using later
    · obtain ⟨kept, write⟩ := dangling j (by omega) (by omega)
      exact ⟨kept.congr fun _ own => frame _ (ne_of_mem_of_not_mem own (by simp))
        (Log.not_mem_entryKeys own (by omega)), write⟩
    · have entry := same (j + 1) (by omega)
      rw [show p.log.lastIndex + 1 + (j + 1) = p₁.log.lastIndex + 1 + j by omega] at entry
      simpa using entry

end RaftCore

variable {cfg : ClusterConfig} {retaining : Prop} {leading : ℕ → Prop} {sent : List Message} {s : NodeID}
  {r : RaftCore} {A : Abstract}

/-! ## Accepting a request -/

variable {log : Log} {index : ℕ} {env : Env} {call : ServiceCallID} {req : AppendEntriesRequest}
  {k : ClusterManager} {dsdl : Dsdl} {c : Cluster}

theorem Log.take_list {entry : Entry} (found : log.getEntryAtIndex index = some entry) :
    log.list.take (index + 1) = log.list.take index ++ [entry] := by
  rw [← log.getElem?_list] at found
  rw [take_add_one, found]
  rfl

theorem Log.le_of_getEntryAtIndex {entry : Entry} (found : log.getEntryAtIndex index = some entry) :
    index ≤ log.lastIndex := by
  unfold getEntryAtIndex at found
  split at found
  · assumption
  · cases found

/-- A non-empty list ends with an entry of its last term. -/
theorem ClusterConfig.eq_concat (cfg : ClusterConfig) {l : List Entry} {n : ℕ}
    (length : l.length = n + 1) :
    ∃ init last, l = init ++ [last] ∧ init.length = n ∧
      cfg.system.lastTerm l = last.term.toNat := by
  rcases eq_nil_or_concat l with rfl | ⟨init, last, rfl⟩
  · cases length
  · refine ⟨init, last, concat_eq_append, by simpa using length, ?_⟩
    rw [concat_eq_append, Replication.System.lastTerm_concat]
    rfl

/-- Where the previous entry of a request matches, the log up to it is the leader's. -/
theorem take_eq_of_match (inv : Inv cfg.system A) (own : A.log s = log.list) {T : ℕ} (led : A.Led T)
    {head : List Entry} (sub : head <+: A.leaderLog T) {entry : Entry} {term : Term}
    (length : head.length = index + 1) (lastTerm : cfg.system.lastTerm head = term.toNat)
    (found : log.getEntryAtIndex index = some entry) (same : entry.term = term) :
    log.list.take (index + 1) = head := by
  obtain ⟨init, last, rfl, -, ends⟩ := cfg.eq_concat length
  have inside := Log.le_of_getEntryAtIndex found
  have taken := Log.take_list found
  have lengths : (log.list.take (index + 1)).length = (init ++ [last]).length := by
    rw [length_take, Log.length_list]
    omega
  have held : log.list.take (index + 1) <+: A.log s := own ▸ take_prefix _ _
  have comparable := (inv.log s).traced.comparable (inv.leaderLog led).traced
    (T := term.toNat) ⟨_, _, taken, by rw [← same]; rfl⟩
    ⟨init, last, rfl, by rw [← lastTerm, ends]; rfl⟩ held sub
  rcases comparable with shorter | shorter
  · exact shorter.eq_of_length lengths
  · exact (shorter.eq_of_length lengths.symm).symm

/-- Where the previous entry does not match, nothing from it on is shared with the leader. -/
theorem sub_take_of_mismatch {leaderLog head shared : List Entry} (sub : head <+: leaderLog) {entry : Entry}
    {term : Term} (length : head.length = index + 1) (lastTerm : cfg.system.lastTerm head = term.toNat)
    (found : log.getEntryAtIndex index = some entry) (different : entry.term ≠ term) (own : shared <+: log.list)
    (leaders : shared <+: leaderLog) :
    shared <+: log.list.take index := by
  rw [prefix_take_iff]
  refine ⟨own, ?_⟩
  by_contra long
  have long : index < shared.length := Nat.lt_of_not_le long
  obtain ⟨init, last, rfl, initLength, ends⟩ := cfg.eq_concat length
  have ofOwn := Replication.getElem?_eq_of_sub own long
  have ofLeader := Replication.getElem?_eq_of_sub leaders long
  have ofHead := Replication.getElem?_eq_of_sub sub (i := index) (by simp [initLength])
  rw [log.getElem?_list, found] at ofOwn
  rw [ofHead, ← ofOwn, ← initLength, List.getElem?_concat_length] at ofLeader
  obtain rfl := Option.some.inj ofLeader
  rw [ends] at lastTerm
  exact different (UInt32.toNat_inj.mp lastTerm)

/-- The commit index after step 5 is covered by the leader's. -/
theorem committed_min {T : ℕ} {l : List Entry} {leaderCommit commit : ℕ}
    (leaders : A.Committed cfg.system T (A.leaderLog T) leaderCommit)
    (own : A.Committed cfg.system T l commit) (sub : l <+: A.leaderLog T) (nonempty : l ≠ []) :
    A.Committed cfg.system T l
      (if leaderCommit > commit then min leaderCommit (l.length - 1) else commit) := by
  have pos := length_pos_iff.mpr nonempty
  split
  · refine leaders.transfer (Nat.min_le_left _ _) (by omega) ?_
    refine (sub.take _).trans ?_
    exact take_prefix_take_left (by omega)
  · exact own

/-! ## The request handler -/

/-- Step 4 keeps what the log shares with the leader. -/
def PersistentState.Retains (p : PersistentState) (A : Abstract) (req : AppendEntriesRequest) (w : Writes) : Prop :=
  ∀ entry, p.log.getEntryAtIndex req.prevLogIndex = some entry → entry.term = req.prevLogTerm →
    ∀ shared, shared <+: p.log.list → shared <+: A.leaderLog req.term.toNat → shared <+: (rewriteLog p req w).2.log.list

/-- A server that accepts a request keeps what its log shares with the leader. -/
def RaftCore.Retains (r : RaftCore) (A : Abstract) (src : NodeID) (req : AppendEntriesRequest) (w : Writes) : Prop :=
  ∀ p : PersistentState, p.Stored → p.log = r.persistent.log →
    (r.cluster.isKnownServer src = true ∨ r.cluster.isClusterDiscovered = false) →
    RaftCore.updateTerm r.persistent req.term w = (.ok (), p) → r.currentTerm ≤ req.term → p.Retains A req w

theorem ClusterManager.mem_addServer {id : NodeID} {lastIndex : ℕ} {f : ClusterManager.Server}
    (known : f ∈ (k.addServer id lastIndex).servers) :
    f ∈ k.servers ∨ f.matchIndex = 0 := by
  unfold ClusterManager.addServer at known
  split at known
  · rcases mem_append.mp known with old | new
    · exact .inl old
    · rw [mem_singleton.mp new]
      exact .inr rfl
  · exact .inl known

theorem ClusterManager.admits_iff {src : NodeID} : ¬((!k.isKnownServer src && k.isClusterDiscovered) = true) ↔
    k.isKnownServer src = true ∨ k.isClusterDiscovered = false := by
  cases k.isKnownServer src <;> simp

/-- A server that is known already is not added again. -/
theorem RaftCore.meet_eq (r : RaftCore) (src : NodeID) :
    (if (!r.cluster.isKnownServer src) = true then
      { r with cluster := r.cluster.addServer src r.log.lastIndex } else r) =
      { r with cluster := r.cluster.addServer src r.log.lastIndex } := by
  split
  · rfl
  · simp_all [addServer]

/-! ## The leader's side -/

theorem ClusterManager.mem_modifyServer {id : NodeID} {f : Server → Server} {servers : List Server}
    {x : Server} (member : x ∈ modifyServer id f servers) :
    x ∈ servers ∨ ∃ y ∈ servers, y.nodeId = id ∧ x = f y := by
  induction servers with
  | nil => cases member
  | cons y rest ih =>
    simp only [modifyServer] at member
    split at member
    · rename_i same
      rcases mem_cons.mp member with rfl | later
      · exact .inr ⟨y, mem_cons_self, same, rfl⟩
      · exact .inl (mem_cons_of_mem _ later)
    · rcases mem_cons.mp member with rfl | later
      · exact .inl mem_cons_self
      · rcases ih later with old | ⟨z, inside, rest⟩
        · exact .inl (mem_cons_of_mem _ old)
        · exact .inr ⟨z, mem_cons_of_mem _ inside, rest⟩

section

variable (sim : ServerSim cfg retaining sent s r A)

include sim

/-- A follower's log is replaced by a part of the leader's log or of its own. -/
theorem ServerSim.rewrite (inv : Inv cfg.system A) (careful : retaining → Careful cfg.system A)
    (follower : r.serverState = .follower) (led : (A.leader (A.current s)).isSome)
    {p : PersistentState} (stored : p.Stored)
    (size : p.storage .clusterSize = r.persistent.storage .clusterSize)
    (term : p.currentTerm = r.persistent.currentTerm)
    (vote : p.votedFor = r.persistent.votedFor)
    (origin : p.log.list <+: A.leaderLog (A.current s) ∨ p.log.list <+: A.log s)
    (keeps : retaining → ∀ shared, shared <+: A.log s → shared <+: A.leaderLog (A.current s) →
      shared <+: p.log.list) :
    Local cfg.system retaining leading s A (A.setLog s p.log.list) ∧
      ServerSim cfg retaining sent s { r with persistent := p } (A.setLog s p.log.list) := by
  have rooted : cfg.system.base.length ≤ p.log.list.length := by
    rw [Log.length_list]
    exact Nat.succ_le_succ (Nat.zero_le _)
  have moved : Local cfg.system retaining leading s A _ := .rewrite led rooted origin keeps
  refine ⟨moved, sim.persist follower stored size ?_ (by simp) ?_ fun keep => ?_⟩
  · rw [term]
    exact sim.current
  · rw [vote]
    exact sim.vote
  · have kept := (sim.commit keep).rewrite inv (careful keep) led (keeps keep)
    simpa using kept.mono (moved.le inv)

theorem ServerSim.acceptAppendEntries (inv : Inv cfg.system A) (careful : retaining → Careful cfg.system A)
    (follower : r.serverState = .follower) {src : NodeID} (dst : call.serverNodeID = s)
    (started : .appendEntries src call req ∈ sent)
    (meaning : MessageSim cfg retaining sent A (.appendEntries src call req)) (now : req.term = r.currentTerm)
    (keeps : retaining → r.persistent.Retains A req env.writes) {r' : RaftCore} {resp : Option AppendEntriesResponse}
    (run : r.acceptAppendEntries env req = (r', resp)) :
    ∃ B, Local cfg.system retaining leading s A B ∧ r'.outbox = r.outbox ∧
      ServerSim cfg retaining sent s r' B ∧
      ∀ m ∈ resp.toList.map (.appendEntriesResponse src call), MessageSim cfg retaining sent B m := by
  obtain ⟨-, leader, ⟨head, length, sub, lastTerm⟩, leaderCommit⟩ := meaning
  have current : req.term.toNat = A.current s := by rw [now, sim.current]
  rw [current] at leader sub leaderCommit
  have led : (A.leader (A.current s)).isSome := by rw [leader]; rfl
  have headSub : head <+: A.leaderLog (A.current s) := (prefix_append _ _).trans sub
  unfold RaftCore.acceptAppendEntries at run
  split at run
  case h_1 =>
    cases run
    exact ⟨A, .refl _ _ _ _, rfl, sim, .of_some fun accepted => absurd accepted Bool.false_ne_true⟩
  case h_2 prevEntry found =>
  have inside : req.prevLogIndex ≤ r.persistent.log.lastIndex := Log.le_of_getEntryAtIndex found
  split at run
  case isTrue different =>
    -- step 3: nothing that is cut off is shared with the leader
    rcases cut : r.persistent.removeEntriesWhereIndexGreaterOrEqual req.prevLogIndex
      env.writes.remove with ⟨result, p⟩
    obtain ⟨stored, term, vote, frame, -, failed, removes⟩ := remove_cases cut sim.stored (by omega)
    have origin : p.log.list <+: A.log s ∧ ∀ shared, shared <+: A.log s →
        shared <+: A.leaderLog (A.current s) → shared <+: p.log.list := by
      rw [sim.log]
      by_cases ok : result = .ok ()
      · rw [(removes ok).2.1]
        refine ⟨ take_prefix _ _, fun shared own leaders => ?_⟩
        exact sub_take_of_mismatch headSub length lastTerm found different own leaders
      · rw [(failed ok).1]
        exact ⟨prefix_rfl, fun shared own _ => own⟩
    obtain ⟨moved, after⟩ := sim.rewrite inv careful follower led stored (frame _ (by simp)) term
      vote (.inr origin.1) fun _ => origin.2
    rw [cut] at run
    cases result with
    | error err =>
      cases run
      exact ⟨_, moved, rfl, after, by simp⟩
    | ok =>
      cases run
      exact ⟨_, moved, rfl, after, .of_some fun accepted => absurd accepted Bool.false_ne_true⟩
  case isFalse same =>
    have same := Decidable.not_not.mp same
    rcases write : rewriteLog r.persistent req env.writes with ⟨result, p⟩
    obtain ⟨stored, term, vote, size, outcome⟩ := rewriteLog_cases write sim.stored inside
    have matching : r.persistent.log.list.take (req.prevLogIndex + 1) = head :=
      take_eq_of_match inv sim.log (.inr led) headSub length lastTerm found same
    have origin : p.log.list <+: A.leaderLog (A.current s) ∨ p.log.list <+: A.log s := by
      rcases outcome with ⟨-, unchanged⟩ | ⟨done, part, list, -⟩
      · rw [unchanged, sim.log]
        exact .inr prefix_rfl
      · rw [list, matching]
        exact .inl (((prefix_append_right_inj head).mpr part).trans sub)
    have retains : retaining → ∀ shared, shared <+: A.log s →
        shared <+: A.leaderLog (A.current s) → shared <+: p.log.list := by
      intro keep shared own leaders
      rw [sim.log] at own
      have kept := keeps keep prevEntry found same shared own (current ▸ leaders)
      rwa [write] at kept
    obtain ⟨moved, after⟩ := sim.rewrite inv careful follower led stored size term vote origin
      retains
    rw [write] at run
    cases result with
    | error err =>
      cases run
      exact ⟨_, moved, rfl, after, by simp⟩
    | ok =>
      cases run
      -- the whole request was written, and the response says so
      have list : p.log.list = head ++ req.entries := by
        rcases outcome with ⟨failed, -⟩ | ⟨done, -, list, whole⟩
        · exact absurd rfl failed
        · rw [list, matching, whole rfl]
      have ofLeader : p.log.list <+: A.leaderLog (A.current s) := list ▸ sub
      have inv' := (inv.reach moved.reach).1
      have acked : Local cfg.system retaining leading s (A.setLog s p.log.list)
          ((A.setLog s p.log.list).addAck s (A.current s) p.log.list) :=
        .acknowledge led ofLeader (by simp)
      have nonempty : p.log.list ≠ [] := by
        intro empty
        have := congrArg List.length empty
        simp at this
      refine ⟨_, moved.trans inv acked, rfl, { after with role := ?_, commit := fun keep => ?_ },
        .of_some fun _ => ⟨req, started, p.log.list, ?_, ?_⟩⟩
      · have role := after.role
        simp only [follower] at role ⊢
        exact role
      · have own : (A.setLog s p.log.list).Committed cfg.system (A.current s) p.log.list
            r.commitIndex := by simpa using after.commit keep
        have leaders := (leaderCommit keep).mono (moved.le inv)
        have committed := committed_min leaders own ofLeader nonempty
        simpa using committed.mono (acked.le inv')
      · rw [current, dst]
        exact .inr ⟨rfl, rfl, rfl⟩
      · rw [list, length_append]
        omega

/-- Servers that become known start with nothing matched. -/
theorem ServerSim.withCluster (cluster : ClusterSim cfg s k)
    (matched : ∀ f ∈ k.servers, f ∈ r.cluster.servers ∨ f.matchIndex = 0) :
    ServerSim cfg retaining sent s { r with cluster := k } A := by
  refine { sim with cluster := cluster, role := ?_ }
  refine sim.role.imp rfl rfl id id (fun campaign => { campaign with }) fun leads =>
    { leads with matched := fun f known => ?_ }
  rcases matched f known with old | new
  · exact leads.matched f old
  · exact .inl new

theorem ServerSim.handleAppendEntriesRequest (inv : Inv cfg.system A)
    (careful : retaining → Careful cfg.system A) (quiet : r.Quiet) {src : NodeID} (dst : call.serverNodeID = s)
    (started : .appendEntries src call req ∈ sent)
    (meaning : MessageSim cfg retaining sent A (.appendEntries src call req))
    (keeps : retaining → r.Retains A src req env.writes) {r' : RaftCore}
    {resp : Option AppendEntriesResponse} (run : r.handleAppendEntriesRequest dsdl env src req = (r', resp)) :
    ∃ B, Local cfg.system retaining leading s A B ∧ r'.Quiet ∧ ServerSim cfg retaining sent s r' B ∧
      ∀ m ∈ resp.toList.map (.appendEntriesResponse src call), MessageSim cfg retaining sent B m := by
  unfold RaftCore.handleAppendEntriesRequest at run
  split at run
  case isTrue =>
    cases run
    exact ⟨A, .refl _ _ _ _, quiet, sim, by simp⟩
  case isFalse admitted =>
  have admitted := admits_iff.mp admitted
  -- the sender may have become known by this request
  have ready := sim.withCluster (sim.cluster.addServer meaning.1 r.log.lastIndex) fun f => mem_addServer
  rw [meet_eq] at run
  generalize r.cluster.addServer src r.log.lastIndex = k at run ready
  simp only at run
  rcases update : RaftCore.updateTerm r.persistent req.term env.writes with ⟨result, p⟩
  obtain ⟨stored, log, size, taken, reached⟩ := updateTerm_cases update sim.stored
  obtain ⟨follows, same_p, -⟩ := ({ r with cluster := k } : RaftCore).switchState_keeps .follower
  have last : p.log.lastIndex = ({ r with cluster := k } : RaftCore).log.lastIndex := by
    rw [log]
    rfl
  obtain ⟨B, moved, -, sameLog, -, after⟩ := ready.follow.updateTerm inv follows (same_p ▸ update)
  have quiet_p : ({ r with cluster := k, persistent := p } : RaftCore).Quiet := quiet
  rw [update] at run
  cases result with
  | error err =>
    cases run
    refine ⟨B, moved, quiet_p.switchState .follower, after.congr ?_, by simp⟩
    exact ({ r with cluster := k } : RaftCore).handlePersistentStateUpdateError_core dsdl env last
  | ok =>
  simp only at run
  split at run
  case isTrue older =>
    cases run
    have same : p = r.persistent := by
      rcases taken with same | ⟨now, -⟩
      · exact same
      · have older : req.term < p.currentTerm := older
        rw [now] at older
        exact absurd older (UInt32.lt_irrefl _)
    subst same
    exact ⟨A, .refl _ _ _ _, quiet_p, ready, .of_some nofun⟩
  case isFalse notOlder =>
    have now : req.term = p.currentTerm :=
      UInt32.le_antisymm (reached rfl) (UInt32.not_lt.mp notOlder)
    have upward : r.currentTerm ≤ req.term := by
      rcases taken with same | ⟨-, later⟩
      · rw [now, same]
        exact UInt32.le_refl _
      · exact UInt32.le_of_lt later
    have shape := ({ r with cluster := k } : RaftCore).registerActivity_switchState_core p dsdl env last
    obtain ⟨follows', persistent', -⟩ :=
      (({ r with cluster := k, persistent := p } : RaftCore).registerActivity dsdl env).switchState_keeps
        .follower
    have persistent' : ((({ r with cluster := k, persistent := p } : RaftCore).registerActivity dsdl
        env).switchState .follower).persistent = p := persistent'
    have inv' := (inv.reach moved.reach).1
    have looks := after.congr shape
    obtain ⟨C, moved', outbox, rest, replies⟩ := looks.acceptAppendEntries inv'
      (fun keep => (careful keep).reach inv keep moved.reach) follows' dst started
      (meaning.mono (moved.le inv) (List.Subset.refl _))
      (by rw [RaftCore.currentTerm, persistent']; exact now)
      (fun keep => by
        rw [persistent', PersistentState.Retains, sameLog]
        exact keeps keep p stored log admitted update upward)
      run
    refine ⟨C, moved.trans inv moved', ?_, rest, replies⟩
    rw [RaftCore.Quiet, outbox]
    exact (show (({ r with cluster := k, persistent := p } : RaftCore).registerActivity dsdl env).Quiet
      from quiet).switchState .follower

theorem ServerSim.leads (leader : r.serverState = .leader) : r.requestVoteCalls = [] ∧ Leads sent s r A := by
  have role := sim.role
  unfold RoleSim at role
  rw [leader] at role
  exact role

/-- Only a leader waits for a follower. -/
theorem ServerSim.leader_of_waits (waits : call ∈ r.appendEntriesCalls) : r.serverState = .leader := by
  have role := sim.role
  unfold RoleSim at role
  cases role_eq : r.serverState with
  | follower =>
    rw [role_eq] at role
    rw [role.2] at waits
    cases waits
  | candidate =>
    rw [role_eq] at role
    rw [role.1] at waits
    cases waits
  | leader => rfl

theorem ServerSim.endAppendCall (call : ServiceCallID) :
    ServerSim cfg retaining sent s
      { r with appendEntriesCalls := r.appendEntriesCalls.erase call } A := by
  refine { sim with role := ?_ }
  refine sim.role.imp rfl rfl id (fun idle => by simp [idle]) (fun campaign => { campaign with }) fun leads =>
    { leads with pending := fun c member => ?_, single := ?_ }
  · exact leads.pending c (mem_of_mem_erase member)
  · exact Nat.le_trans (erase_sublist.length_le) leads.single

/-- A leader's new match indices must be acknowledged; with no call pending, the pending fields are
free. -/
theorem ServerSim.updateMatch (leads : Leads sent s r A)
    (leader : r.serverState = .leader) (idle : r.requestVoteCalls = []) (cluster : ClusterSim cfg s k)
    (matched : ∀ f ∈ k.servers, f.matchIndex = 0 ∨ ∃ l, A.ack f.nodeId (A.current s) l ∧ f.matchIndex < l.length)
    (fields : PendingAppendEntriesFields) :
    ServerSim cfg retaining sent s
      { r with
        cluster := k
        appendEntriesCalls := []
        pendingAppendEntriesFields := fields } A := by
  refine { sim with cluster := cluster, role := ?_ }
  simp only [leader]
  exact ⟨idle, leads.leader, leads.own, matched, by simp, by simp⟩

end

theorem RaftCore.tryIncrement_serverState (r : RaftCore) (dsdl : Dsdl) (env : Env) (newTerm : Term) :
    (r.tryIncrementCurrentTermFromResponse dsdl env newTerm).serverState = .follower :=
  (RaftCore.switchState_keeps _ .follower).1

theorem Sim.handleAppendEntriesResponse (sim : Sim cfg retaining c A) (member : s ∈ cfg.members)
    {resp : AppendEntriesResponse} (waits : call ∈ (c.server s).appendEntriesCalls)
    (answered : .appendEntriesResponse s call resp ∈ c.sent) :
    Handled cfg retaining c s
      (({ c.server s with
        appendEntriesCalls := (c.server s).appendEntriesCalls.erase call } :
        RaftCore).handleAppendEntriesResponse dsdl env call.serverNodeID resp) [] A := by
  have server := sim.server s member
  have idle := RaftCore.Quiet.of_empty (sim.idle s member)
  have ended := server.endAppendCall call
  have leader := server.leader_of_waits waits
  obtain ⟨votes, leads⟩ := server.leads leader
  -- it was the only call
  have none : (c.server s).appendEntriesCalls.erase call = [] := by
    have length := length_erase_of_mem waits
    have := leads.single
    exact eq_nil_of_length_eq_zero (by omega)
  rw [none] at ended
  have quiet : ({ c.server s with appendEntriesCalls := [] } : RaftCore).Quiet := idle
  unfold RaftCore.handleAppendEntriesResponse
  simp only [none]
  split
  · -- a newer term
    obtain ⟨B, moved, after⟩ := ended.tryIncrement sim.inv dsdl env resp.term
    refine .of_silent moved (quiet.tryIncrement dsdl env resp.term) { after with role := ?_ }
    have role := after.role
    unfold RoleSim at role ⊢
    simp only [tryIncrement_serverState] at role ⊢
    exact role
  · split
    case isTrue success =>
      obtain ⟨req, started, l, ack, length⟩ := sim.messages _ answered success
      obtain ⟨own, started', term, fields⟩ := leads.pending call waits
      -- the call has one request, to which the pending fields belong
      cases sim.unique _ started _ started' call rfl rfl
      rw [term, show (c.server s).currentTerm.toNat = A.current s from server.current.symm] at ack
      have cluster : ClusterSim cfg s (((c.server s).cluster.incrementServerNextIndexBy
          call.serverNodeID (c.server s).pendingAppendEntriesFields.numEntries).setServerMatchIndex
          call.serverNodeID (toIndex ((c.server s).pendingAppendEntriesFields.prevLogIndex +
            (c.server s).pendingAppendEntriesFields.numEntries))) := by
        refine server.cluster.congr rfl rfl ?_
        simp only [setServerMatchIndex, incrementServerNextIndexBy]
        rw [map_modifyServer _ (by simp), map_modifyServer _ (by simp)]
      refine .of_silent (.refl _ _ _ _) idle
        (server.updateMatch leads leader votes cluster (fun f known => ?_) _)
      rcases mem_modifyServer known with old | ⟨y, inside, id, rfl⟩
      · rcases mem_modifyServer old with old | ⟨y, inside, id, rfl⟩
        · exact leads.matched f old
        · exact leads.matched y inside
      · refine .inr ⟨l, ?_, ?_⟩
        · rw [show y.nodeId = call.serverNodeID from id]
          exact ack
        · rw [length, fields]
          exact Nat.lt_succ_of_le (Nat.mod_le _ _)
    case isFalse =>
      have cluster : ClusterSim cfg s
          ((c.server s).cluster.decrementServerNextIndex call.serverNodeID) := by
        refine server.cluster.congr rfl rfl ?_
        simp only [decrementServerNextIndex]
        rw [map_modifyServer _ (by simp)]
      refine .of_silent (.refl _ _ _ _) idle
        (server.updateMatch leads leader votes cluster (fun f known => ?_) _)
      rcases mem_modifyServer known with old | ⟨y, inside, id, rfl⟩
      · exact leads.matched f old
      · exact leads.matched y inside

/-! ## The leader's timer -/

/-- The commit index moves by one, past an entry that enough servers report, or stays. -/
theorem RaftCore.propagateCommitIndex_cases (r : RaftCore) :
    r.propagateCommitIndex = r ∨
      (r.commitIndex < r.log.lastIndex ∧
        r.cluster.getQuorumSize ≤ r.numNodesWithNextLogEntryAvailable ∧
        r.propagateCommitIndex =
          ({ r with commitIndex := r.commitIndex + 1 } : RaftCore).emit
            (.logCommitOnLeader (r.log.entries (r.commitIndex + 1)))) := by
  unfold propagateCommitIndex
  split
  case isFalse => exact .inl rfl
  case isTrue uncommitted =>
  split
  case isFalse => exact .inl rfl
  case isTrue enough =>
    have index : toIndex (r.commitIndex + 1) = r.commitIndex + 1 := by
      have := r.log.lastIndex_lt
      exact Nat.mod_eq_of_lt (by omega)
    refine .inr ⟨uncommitted, enough, ?_⟩
    simp only [index]
    rfl

theorem RaftCore.emitted_emit (r : RaftCore) {out : Output} (s : NodeID)
    (silent : out.message s = none) : (r.emit out).emitted s = r.emitted s := by
  simp [RaftCore.emitted, RaftCore.emit, silent]

/-- Moving the commit index needs that the entry it moves to is committed indeed. -/
theorem ServerSim.propagateCommitIndex (sim : ServerSim cfg retaining sent s r A)
    (advance : retaining → r.commitIndex < r.log.lastIndex →
      r.cluster.getQuorumSize ≤ r.numNodesWithNextLogEntryAvailable →
      A.Committed cfg.system (A.current s) (A.log s) (r.commitIndex + 1)) :
    ServerSim cfg retaining sent s r.propagateCommitIndex A ∧
      r.propagateCommitIndex.emitted s = r.emitted s ∧
      ∀ first, r.Numbered first → r.propagateCommitIndex.Numbered first := by
  rcases r.propagateCommitIndex_cases with same | ⟨uncommitted, enough, moved⟩
  · rw [same]
    exact ⟨sim, rfl, fun _ numbered => numbered⟩
  · rw [moved]
    refine ⟨?_, emitted_emit _ s rfl, fun first numbered => ?_⟩
    · have next : ServerSim cfg retaining sent s
          ({ r with commitIndex := r.commitIndex + 1 } : RaftCore) A := by
        refine { sim with role := ?_, commit := fun keep => advance keep uncommitted enough }
        exact sim.role.imp rfl rfl id id (fun campaign => { campaign with }) fun leads => { leads with }
      exact next.congr rfl
    · exact numbered.emit nofun

/-- The request of a leader is a part of its log, which is the log of its term. -/
theorem ServerSim.makeAppendEntriesRequest (sim : ServerSim cfg retaining sent s r A)
    (member : s ∈ cfg.members) (leads : Leads sent s r A) {next : ℕ} {prevEntry : Entry}
    (found : r.log.getEntryAtIndex (toIndex (next + 255)) = some prevEntry) (dsdl : Dsdl)
    (call : ServiceCallID) :
    MessageSim cfg retaining sent A
      (.appendEntries s call (r.makeAppendEntriesRequest dsdl next prevEntry)) := by
  have current : (r.makeAppendEntriesRequest dsdl next prevEntry).term.toNat = A.current s :=
    sim.current.symm
  have inside := Log.le_of_getEntryAtIndex found
  have bound := r.log.lastIndex_lt
  have own : A.leaderLog (A.current s) = r.log.list := leads.own.symm.trans sim.log
  refine ⟨member, ?_, ⟨r.log.list.take (toIndex (next + 255) + 1), ?_, ?_, ?_⟩, fun keep => ?_⟩
  · rw [current]
    exact leads.leader
  · rw [length_take, Log.length_list]
    exact Nat.min_eq_left (by omega)
  · rw [current, own]
    have order : toIndex (next + 255) + 1 = next ∨ r.log.list.length ≤ next := by
      rw [Log.length_list]
      unfold toIndex at inside ⊢
      omega
    rcases order with follows | beyond
    · -- the entries continue the list where the previous entry ends it
      have whole : r.log.list.take next ++ (r.log.list.drop next).take dsdl.entriesCapacity <+:
          r.log.list.take next ++ r.log.list.drop next :=
        (prefix_append_right_inj _).mpr ( take_prefix _ _)
      rw [take_append_drop] at whole
      rw [follows]
      exact whole
    · have none : (r.makeAppendEntriesRequest dsdl next prevEntry).entries = [] := by
        simp [RaftCore.makeAppendEntriesRequest, drop_of_length_le beyond]
      rw [none, append_nil]
      exact take_prefix _ _
  · rw [Log.take_list found, Replication.System.lastTerm_concat]
    rfl
  · rw [current, own, ← sim.log]
    exact sim.commit keep

/-- The query goes to the next server in turn, and continues where that server is thought to stand. -/
theorem RaftCore.sendAppendEntries_spec {after : RaftCore} (query : r.sendAppendEntries dsdl env = some after) :
    ∃ server prevEntry, server = r.cluster.getRemoteServerNodeIDAtIndex r.nextServerIndex ∧
      r.log.getEntryAtIndex (toIndex (r.cluster.getServerNextIndex server + 255)) = some prevEntry ∧
      ∃ req, req = r.makeAppendEntriesRequest dsdl (r.cluster.getServerNextIndex server) prevEntry ∧
        after = ({ r with pendingAppendEntriesFields := ⟨req.prevLogIndex, req.entries.length⟩ } :
          RaftCore).callAppendEntries env server req := by
  unfold sendAppendEntries at query
  simp only at query
  split at query
  · cases query
  · exact ⟨_, _, rfl, ‹_›, _, rfl, (Option.some.inj query).symm⟩

/-- A leader sends a request and remembers what it waits for. -/
theorem ServerSim.callAppendEntries {sent' : List Message} (sim : ServerSim cfg retaining sent s r A)
    (leads : Leads sent s r A) (leader : r.serverState = .leader)
    (idle : r.requestVoteCalls = [] ∧ r.appendEntriesCalls = []) (term : req.term = r.currentTerm) (env : Env)
    (server : NodeID) (started : .appendEntries s (r.nextCallID env server) req ∈ sent') :
    ServerSim cfg retaining sent' s
      (({ r with
        pendingAppendEntriesFields := ⟨req.prevLogIndex, req.entries.length⟩ } :
        RaftCore).callAppendEntries env server req) A := by
  refine { sim with role := ?_ }
  simp only [RaftCore.callAppendEntries, emit, leader, idle.2]
  refine ⟨idle.1, leads.leader, leads.own, leads.matched, fun call waits => ?_, ?_⟩
  · have same : call = r.nextCallID env server := by
      split at waits
      · exact mem_singleton.mp waits
      · cases waits
    subst same
    exact ⟨req, started, term, rfl⟩
  · split <;> simp

/-- The query of one follower and the look at the commit index that follows it. -/
theorem ServerSim.query (sim : ServerSim cfg retaining c.sent s r A) (member : s ∈ cfg.members)
    (leader : r.serverState = .leader) (leads : Leads c.sent s r A)
    (idle : r.requestVoteCalls = [] ∧ r.appendEntriesCalls = []) (empty : r.outbox = [])
    (first : env.transferID = c.nextTransferID) (advance : retaining → r.commitIndex < r.log.lastIndex →
      r.cluster.getQuorumSize ≤ r.numNodesWithNextLogEntryAvailable →
      A.Committed cfg.system (A.current s) (A.log s) (r.commitIndex + 1)) {after : RaftCore}
    (query : r.sendAppendEntries dsdl env = some after) :
    Handled cfg retaining c s after.advanceNextServer.propagateCommitIndex [] A := by
  obtain ⟨dst, prevEntry, -, found, req, built, rfl⟩ := sendAppendEntries_spec query
  have meaning := built ▸ sim.makeAppendEntriesRequest member leads found dsdl (r.nextCallID env dst)
  have term : req.term = r.currentTerm := built ▸ rfl
  have call : r.nextCallID env dst = ⟨dst, c.nextTransferID⟩ := by
    rw [nextCallID, empty, first]
    rfl
  obtain ⟨asked, asked_eq⟩ : ∃ asked : RaftCore, asked = (({ r with
      pendingAppendEntriesFields := ⟨req.prevLogIndex, req.entries.length⟩ } :
      RaftCore).callAppendEntries env dst req).advanceNextServer := ⟨_, rfl⟩
  have outbox : asked.outbox = [.appendEntries (r.nextCallID env dst) req] := by
    rw [asked_eq]
    change r.outbox ++ [.appendEntries (r.nextCallID env dst) req] = _
    rw [empty, nil_append]
  have emitted : asked.emitted s = [.appendEntries s (r.nextCallID env dst) req] := by
    rw [RaftCore.emitted, outbox]
    rfl
  have numbered : asked.Numbered c.nextTransferID := by
    intro i out started at_i starts
    rw [outbox] at at_i
    rcases i with _ | i
    · obtain rfl : .appendEntries (r.nextCallID env dst) req = out := by simpa using at_i
      obtain rfl := Option.some.inj starts
      rw [call]
      rfl
    · simp at at_i
  have known : ServerSim cfg retaining
      (c.sent ++ ([.appendEntries s (r.nextCallID env dst) req] ++ [])) s asked A := by
    rw [asked_eq]
    refine ServerSim.congr (sim.callAppendEntries leads leader idle term env dst ?_) rfl
    simp
  have commit : asked.commitIndex = r.commitIndex := by rw [asked_eq]; rfl
  have log : asked.log = r.log := by rw [asked_eq]; rfl
  have cluster : asked.cluster = r.cluster := by rw [asked_eq]; rfl
  obtain ⟨committed, same, renumbered⟩ := known.propagateCommitIndex (by
    rw [numNodesWithNextLogEntryAvailable, commit, log, cluster]
    exact advance)
  rw [← asked_eq]
  refine ⟨A, .refl _ _ _ _, renumbered _ numbered, ?_, ?_, by simp⟩
  · rw [same, emitted]
    exact committed
  · rw [same, emitted]
    intro m inside
    obtain rfl : m = .appendEntries s (r.nextCallID env dst) req := by simpa using inside
    exact meaning.mono (Le.refl A) (subset_append_left _ _)

theorem Sim.updateLeader (sim : Sim cfg retaining c A) (member : s ∈ cfg.members)
    (leader : (c.server s).serverState = .leader) (first : env.transferID = c.nextTransferID)
    (advance : retaining → (c.server s).commitIndex < (c.server s).log.lastIndex →
      (c.server s).cluster.getQuorumSize ≤ (c.server s).numNodesWithNextLogEntryAvailable →
      A.Committed cfg.system (A.current s) (A.log s) ((c.server s).commitIndex + 1)) :
    Handled cfg retaining c s ((c.server s).updateLeader cfg.dsdl env) [] A := by
  have server := sim.server s member
  have empty := sim.idle s member
  obtain ⟨votes, leads⟩ := server.leads leader
  -- the pending calls are cancelled first
  have ready := server.updateMatch leads leader votes server.cluster leads.matched
    (c.server s).pendingAppendEntriesFields
  have quiet : ({ c.server s with appendEntriesCalls := [] } : RaftCore).Quiet := .of_empty empty
  have leads' : Leads c.sent s { c.server s with appendEntriesCalls := [] } A :=
    { leads with pending := by simp, single := by simp }
  unfold RaftCore.updateLeader
  simp only
  split
  case isFalse =>
    obtain ⟨after, emitted, numbered⟩ := ready.propagateCommitIndex advance
    refine ⟨A, .refl _ _ _ _, numbered _ (quiet.numbered _), ?_, ?_, by simp⟩
    · exact after.more (subset_append_left _ _)
    · rw [emitted, quiet.emitted]
      simp
  case isTrue =>
  split
  case h_1 =>
    have advanced : ServerSim cfg retaining c.sent s
        ({ c.server s with appendEntriesCalls := [] } : RaftCore).advanceNextServer A := ready.congr rfl
    have quiet' : ({ c.server s with appendEntriesCalls := [] } : RaftCore).advanceNextServer.Quiet :=
      quiet
    exact .of_silent (.refl _ _ _ _) (quiet'.switchState .follower) (advanced.retreat _ _)
  case h_2 after query =>
    exact ready.query member leader leads' ⟨votes, rfl⟩ empty first advance query

/-! ## New entries -/

theorem ServerSim.appendLog (inv : Inv cfg.system A) (sim : ServerSim cfg retaining sent s r A)
    (quiet : r.Quiet) (dsdl : Dsdl) (env : Env) (uniqueId : UniqueID) (nodeId : NodeID) :
    ∃ B, Local cfg.system retaining (r.appendLog dsdl env uniqueId nodeId).LeadsTerm s A B ∧
      (r.appendLog dsdl env uniqueId nodeId).Quiet ∧
      ServerSim cfg retaining sent s (r.appendLog dsdl env uniqueId nodeId) B := by
  unfold RaftCore.appendLog
  split
  case isFalse => exact ⟨A, .refl _ _ _ _, quiet, sim⟩
  case isTrue isLeader =>
  have leader : r.serverState = .leader := of_decide_eq_true isLeader
  obtain ⟨idle, leads⟩ := sim.leads leader
  simp only
  rcases append : r.persistent.appendEntry ⟨r.currentTerm, uniqueId, nodeId.value⟩
    (env.writes.append (r.log.lastIndex + 1)) with ⟨result, p⟩
  obtain ⟨stored, term, vote, frame, failed, appends⟩ := appendEntry_cases append sim.stored
  have size : p.storage .clusterSize = r.persistent.storage .clusterSize := frame _ (by simp) (by simp)
  cases result with
  | error err =>
    have log := failed (by simp)
    have last : p.log.lastIndex = r.log.lastIndex := by rw [log]; rfl
    have quiet' : ({ r with persistent := p } : RaftCore).Quiet := quiet
    refine ⟨A, .refl _ _ _ _, quiet'.switchState .follower, (sim.follow_persist stored size term log ?_).congr
      (r.handlePersistentStateUpdateError_core dsdl env last)⟩
    rw [vote]
    exact sim.vote
  | ok =>
    let entry : Entry := ⟨r.currentTerm, uniqueId, nodeId.value⟩
    have list : p.log.list = A.log s ++ [entry] := by
      rw [(appends rfl).1, sim.log]
      rfl
    have created : cfg.system.term entry = A.current s := sim.current.symm
    have may : ({ r with persistent := p } : RaftCore).LeadsTerm (A.current s) := by
      refine ⟨leader, ?_⟩
      rw [RaftCore.currentTerm, term]
      exact sim.current
    have moved : Local cfg.system retaining _ s A _ := .append may leads.leader leads.own created
    have le := moved.le inv
    refine ⟨_, moved, quiet, ?_⟩
    refine (⟨stored, ?_, ?_, ?_, ?_, sim.cluster, ?_, fun keep => ?_⟩ :
      ServerSim cfg retaining sent s { r with persistent := p } _)
    · exact (StorageMarshaller.get_congr size).trans sim.storedSize
    · rw [RaftCore.currentTerm, term]
      exact sim.current
    · simp [RaftCore.log, list]
    · rw [vote]
      exact sim.vote
    · simp only [leader]
      refine ⟨idle, leads.leader, by simp, fun f known => ?_, fun call waits => ?_, leads.single⟩
      · refine (leads.matched f known).imp id ?_
        rintro ⟨l, ack, below⟩
        exact ⟨l, le.ack ack, below⟩
      · obtain ⟨req, started, same, fields⟩ := leads.pending call waits
        refine ⟨req, started, ?_, fields⟩
        rw [same, RaftCore.currentTerm, RaftCore.currentTerm, term]
    · have extended := ((sim.commit keep).mono le).extend (prefix_append (A.log s) [entry])
      simpa using extended

end Uavcan
