import Uavcan.DynamicNodeId.Safety

/-!
# What a follower keeps of its log

Step 4 of `handleAppendEntriesRequest` removes everything after the previous entry of a request, also entries
the request does not contradict, and then appends what the request carries. This module says exactly when an
entry survives that, and when a request whose entries agree with the log removes nothing.
-/

namespace Uavcan

open PersistentState List

/-- A log up to index `i`, put together from a part of it and the entries that follow. -/
theorem Log.take_list_eq_append {log : Log} {entries : List Entry} {first i : ℕ}
    (above : first ≤ i) (below : i ≤ log.lastIndex)
    (same : ∀ j < i - first, entries[j]? = some (log.entries (first + 1 + j))) :
    log.list.take (i + 1) = log.list.take (first + 1) ++ entries.take (i - first) := by
  rw [show i + 1 = first + 1 + (i - first) by omega, take_add]
  congr 1
  refine ext_getElem? fun j => ?_
  rcases Nat.lt_or_ge j (i - first) with lt | ge
  · rw [getElem?_take_of_lt lt, getElem?_take_of_lt lt, getElem?_drop, same j lt,
      Log.getElem?_list, Log.getEntryAtIndex, if_pos (by omega)]
  · rw [getElem?_eq_none (by rw [length_take]; omega),
      getElem?_eq_none (by rw [length_take]; omega)]

theorem Log.list_sub_iff {log log' : Log} : log.list <+: log'.list ↔
    ∀ i e, log.getEntryAtIndex i = some e → log'.getEntryAtIndex i = some e := by
  rw [prefix_iff_getElem?]
  constructor
  · intro sub i e held
    rw [← Log.getElem?_list] at held ⊢
    obtain ⟨inside, rfl⟩ := List.getElem?_eq_some_iff.mp held
    exact sub i inside
  · intro kept i inside
    rw [Log.getElem?_list]
    exact kept i _ (by rw [← Log.getElem?_list, getElem?_eq_getElem inside])

namespace RaftCore

/-- The request reaches step 4: its sender is or becomes known, its term is taken over, and its
previous entry matches. -/
def Accepts (r : RaftCore) (src : NodeID) (req : AppendEntriesRequest) (w : Writes) : Prop :=
  (r.cluster.isKnownServer src = true ∨ r.cluster.isClusterDiscovered = false) ∧
    r.currentTerm ≤ req.term ∧
    (r.currentTerm < req.term →
      w.term = true ∧ (w.resetVote = true ∨ r.persistent.votedFor = NodeID.broadcast)) ∧
    req.prevLogIndex ≤ r.log.lastIndex ∧
    (r.log.entries req.prevLogIndex).term = req.prevLogTerm

instance (r : RaftCore) (src : NodeID) (req : AppendEntriesRequest) (w : Writes) :
    Decidable (r.Accepts src req w) := by
  unfold Accepts
  infer_instance

variable {p : PersistentState} {req : AppendEntriesRequest}

/-- A term is taken over when both writes succeed. -/
theorem updateTerm_ok (stored : p.Stored) (term : Term) (w : Writes) :
    (updateTerm p term w).1 = .ok () ↔ (p.currentTerm < term →
      w.term = true ∧ (w.resetVote = true ∨ p.votedFor = NodeID.broadcast)) := by
  unfold updateTerm
  split
  case isFalse older => simpa using fun later => absurd later older
  case isTrue newer =>
  have set_ok := setCurrentTerm_ok stored term w.term
  rcases set : p.setCurrentTerm term w.term with ⟨result, p₁⟩
  obtain ⟨stored₁, -, vote, -, -⟩ := setCurrentTerm_cases set stored
  rw [set] at set_ok
  have effective : result = .ok () ↔ w.term = true := by
    rw [set_ok]
    exact ⟨fun ⟨_, ok⟩ => ok.resolve_right fun same => UInt32.ne_of_lt newer same,
      fun ok => ⟨UInt32.le_of_lt newer, .inl ok⟩⟩
  cases result with
  | error err =>
    have lost : ¬ w.term = true := fun ok => nomatch effective.mpr ok
    simp [newer, lost]
  | ok =>
    have valid : NodeID.broadcast.isValid := by decide
    have reset := setVotedFor_ok stored₁ valid w.resetVote
    rw [vote] at reset
    simp only [newer, effective.mp rfl, true_and, forall_const]
    exact reset

/-! ## Step 4 -/

/-- An entry is appended only if the last index is written. -/
theorem appendEntries_written {w : Writes} {entries : List Entry} {p' : PersistentState} {result : Except Err Unit}
    (run : appendEntries w entries p = (result, p')) (stored : p.Stored) :
    ∀ j, p.log.lastIndex < j → j ≤ p'.log.lastIndex → (w.append j).lastIndex = true := by
  induction entries generalizing p with
  | nil =>
    cases run
    omega
  | cons entry rest ih =>
    simp only [appendEntries] at run
    split at run
    case h_1 err p₁ step =>
      cases run
      obtain ⟨-, -, -, -, failed, -⟩ := appendEntry_cases step stored
      intro j above below
      rw [failed (by simp)] at below
      omega
    case h_2 p₁ step =>
      obtain ⟨stored₁, -, -, -, -, appends⟩ := appendEntry_cases step stored
      obtain ⟨-, last, written⟩ := appends rfl
      intro j above below
      rcases Nat.lt_or_ge p₁.log.lastIndex j with later | here
      · exact ih run stored₁ j later below
      · obtain rfl : j = p.log.lastIndex + 1 := by omega
        exact written

/-- The entries after the previous one up to index `i`, none of them contradicted by the request,
survive step 4 exactly if the removal is not written, or the request carries them all and they are
counted again one by one. -/
theorem rewriteLog_keeps_iff {w : Writes} {i : ℕ} (stored : p.Stored) (above : req.prevLogIndex < i)
    (below : i ≤ p.log.lastIndex)
    (agree : ∀ j, req.prevLogIndex < j → j ≤ i → ∀ e, req.entries[j - req.prevLogIndex - 1]? = some e →
      e = p.log.entries j) :
    p.log.list.take (i + 1) <+: (rewriteLog p req w).2.log.list ↔
      w.remove = false ∨ (i ≤ req.prevLogIndex + req.entries.length ∧
        ∀ j, j ≤ i → req.prevLogIndex < j → (w.append j).lastIndex = true) := by
  have bound := p.log.lastIndex_lt
  have index : toIndex (req.prevLogIndex + 1) = req.prevLogIndex + 1 :=
    Nat.mod_eq_of_lt (by omega)
  unfold rewriteLog
  rw [if_pos (by omega : req.prevLogIndex ≠ p.log.lastIndex)]
  rcases cut : p.removeEntriesWhereIndexGreater req.prevLogIndex w.remove with ⟨result, p₁⟩
  rw [removeEntriesWhereIndexGreater, index] at cut
  obtain ⟨stored₁, -, -, frame, entries, failed, removes⟩ := remove_cases cut stored (by omega)
  cases result with
  | error err =>
    -- the removal is lost, so nothing happens
    obtain ⟨log, lost⟩ := failed (by simp)
    have lost : w.remove = false := by
      rcases lost with _ | _ | lost
      · omega
      · omega
      · exact lost
    simp only [lost, true_or, iff_true, log]
    exact take_prefix _ _
  | ok =>
    obtain ⟨-, list, last, kept⟩ := removes rfl
    have effective : w.remove = true := kept.resolve_right (by omega)
    have short : p₁.log.lastIndex = req.prevLogIndex := by omega
    simp only [effective, Bool.true_eq_false, false_or]
    constructor
    · intro survives
      rcases again : appendEntries w req.entries p₁ with ⟨result, p₂⟩
      rw [again] at survives
      obtain ⟨-, -, -, -, done, part, list₂, -⟩ := appendEntries_cases again stored₁
      have length := survives.length_le
      have done_le := part.length_le
      have total := congrArg List.length list₂
      simp only [length_take, length_append, Log.length_list] at length total
      refine ⟨by omega, fun j le after => appendEntries_written again stored₁ j (by omega) (by omega)⟩
    · rintro ⟨carried, written⟩
      have same : ∀ j < i - req.prevLogIndex,
          req.entries[j]? = some (p.log.entries (req.prevLogIndex + 1 + j)) := by
        intro j lt
        have found : j < req.entries.length := by omega
        have entry := agree (req.prevLogIndex + 1 + j) (by omega) (by omega) req.entries[j]
        rw [show req.prevLogIndex + 1 + j - req.prevLogIndex - 1 = j by omega] at entry
        rw [getElem?_eq_getElem found, entry (getElem?_eq_getElem found)]
      have again := @appendEntries_again w p.log.entries (i - req.prevLogIndex) req.entries p₁ stored₁
        (by omega) (fun j after le => ⟨?_, written j (by omega) (by omega)⟩)
        (fun j lt => by rw [short]; exact same j lt)
      · rwa [list, ← Log.take_list_eq_append (by omega) below same] at again
      · have there := stored.log.entries j (by omega)
        exact there.congr fun _ own => frame _ (ne_of_mem_of_not_mem own (by simp))

/-! ## The whole handler -/

/-- With a matching previous entry, the handler changes the log in step 4 only. -/
theorem handleAppendEntriesRequest_log {r : RaftCore} (stored : r.persistent.Stored) (dsdl : Dsdl) (env : Env)
    (src : NodeID) (inside : req.prevLogIndex ≤ r.log.lastIndex)
    (matching : (r.log.entries req.prevLogIndex).term = req.prevLogTerm) :
    (¬ r.Accepts src req env.writes → (r.handleAppendEntriesRequest dsdl env src req).1.log = r.log) ∧
      (r.Accepts src req env.writes → ∃ p : PersistentState, p.Stored ∧ p.log = r.log ∧
        (r.handleAppendEntriesRequest dsdl env src req).1.log =
          (rewriteLog p req env.writes).2.log) := by
  unfold handleAppendEntriesRequest Accepts
  split
  case isTrue stranger =>
    simp only [Bool.and_eq_true, Bool.not_eq_true'] at stranger
    refine ⟨fun _ => rfl, fun accepts => ?_⟩
    simp [stranger] at accepts
  case isFalse admitted =>
  have admitted := ClusterManager.admits_iff.mp admitted
  rw [meet_eq]
  generalize r.cluster.addServer src r.log.lastIndex = k
  simp only
  have taken := updateTerm_ok stored req.term env.writes
  rcases update : updateTerm r.persistent req.term env.writes with ⟨result, p⟩
  obtain ⟨stored_p, log, -, same, -⟩ := updateTerm_cases update stored
  rw [update] at taken
  cases result with
  | error err =>
    have refused : ¬ (r.currentTerm < req.term → env.writes.term = true ∧
        (env.writes.resetVote = true ∨ r.persistent.votedFor = NodeID.broadcast)) :=
      fun fine => nomatch taken.mpr fine
    refine ⟨fun _ => ?_, fun accepts => absurd accepts.2.2.1 refused⟩
    obtain ⟨-, kept, -⟩ := ({ r with cluster := k, persistent := p } : RaftCore).switchState_keeps
      .follower
    simp only [handlePersistentStateUpdateError, registerActivity] at kept ⊢
    rw [kept]
    exact log
  | ok =>
    have taken := taken.mp rfl
    simp only
    split
    case isTrue stale =>
      have stale : req.term < p.currentTerm := stale
      refine ⟨fun _ => log, fun accepts => ?_⟩
      rcases same with rfl | ⟨now, -⟩
      · exact absurd accepts.2.1 (UInt32.not_le.mpr stale)
      · rw [now] at stale
        exact absurd stale (UInt32.lt_irrefl _)
    case isFalse fresh =>
      have recent : r.currentTerm ≤ req.term := by
        rcases same with rfl | ⟨-, later⟩
        · exact UInt32.not_lt.mp fresh
        · exact UInt32.le_of_lt later
      refine ⟨fun refused => absurd ⟨admitted, recent, taken, inside, matching⟩ refused,
        fun _ => ⟨p, stored_p, log, ?_⟩⟩
      obtain ⟨-, kept, -⟩ := (registerActivity dsdl env
        { r with cluster := k, persistent := p }).switchState_keeps .follower
      generalize (registerActivity dsdl env { r with cluster := k, persistent := p }).switchState
        .follower = r' at kept ⊢
      have kept : r'.persistent = p := kept
      have found : r'.log.getEntryAtIndex req.prevLogIndex =
          some (r.log.entries req.prevLogIndex) := by
        rw [RaftCore.log, kept, log]
        exact if_pos inside
      unfold acceptAppendEntries
      simp only [found, matching, ne_eq, kept]
      rcases rewriteLog p req env.writes with ⟨result, p'⟩
      cases result with
      | error err => rfl
      | ok => rfl

/-- If the request reaches step 4 with something to remove there, and the removal is written, then it
carries all entries that are removed, and they are counted again one by one. -/
def PutsBack (r : RaftCore) (src : NodeID) (req : AppendEntriesRequest) (w : Writes) : Prop :=
  r.Accepts src req w → req.prevLogIndex ≠ r.log.lastIndex → w.remove = true →
    r.log.lastIndex ≤ req.prevLogIndex + req.entries.length ∧
      ∀ j, j ≤ r.log.lastIndex → req.prevLogIndex < j → (w.append j).lastIndex = true

instance (r : RaftCore) (src : NodeID) (req : AppendEntriesRequest) (w : Writes) :
    Decidable (r.PutsBack src req w) := by
  unfold PutsBack
  infer_instance

/-- A request whose previous entry matches and whose entries agree with the log removes no entry
exactly if it puts back what it removes. -/
theorem handleAppendEntriesRequest_keeps_iff {r : RaftCore} (stored : r.persistent.Stored) (dsdl : Dsdl) (env : Env)
    (src : NodeID) (inside : req.prevLogIndex ≤ r.log.lastIndex)
    (matching : (r.log.entries req.prevLogIndex).term = req.prevLogTerm)
    (agree : ∀ j, req.prevLogIndex < j → j ≤ r.log.lastIndex →
      ∀ e, req.entries[j - req.prevLogIndex - 1]? = some e → e = r.log.entries j) :
    r.log.list <+: (r.handleAppendEntriesRequest dsdl env src req).1.log.list ↔
      r.PutsBack src req env.writes := by
  unfold PutsBack
  obtain ⟨refused, accepted⟩ := handleAppendEntriesRequest_log stored dsdl env src inside matching
  by_cases accepts : r.Accepts src req env.writes
  case neg =>
    rw [refused accepts]
    exact ⟨fun _ yes => absurd yes accepts, fun _ => prefix_rfl⟩
  case pos =>
  obtain ⟨p, stored_p, log, after⟩ := accepted accepts
  rw [after]
  by_cases whole : req.prevLogIndex = r.log.lastIndex
  · -- nothing follows the previous entry, so the entries are only appended
    refine ⟨fun _ _ differ => absurd whole differ, fun _ => ?_⟩
    rcases run : rewriteLog p req env.writes with ⟨result, p'⟩
    obtain ⟨-, -, -, -, ⟨-, same⟩ | ⟨done, -, list, -⟩⟩ := rewriteLog_cases run stored_p
      (by rw [log]; exact inside)
    · simp only [same, log]
      exact prefix_rfl
    · have all : p.log.list.take (req.prevLogIndex + 1) = r.log.list := by
        rw [log, whole, take_of_length_le (by simp)]
      simp only [list, all]
      exact prefix_append _ _
  · have keeps := @rewriteLog_keeps_iff p req env.writes r.log.lastIndex stored_p (by omega)
      (by rw [log]) (by rw [log]; exact agree)
    rw [log, take_of_length_le (by simp)] at keeps
    rw [keeps]
    simp only [accepts, whole, ne_eq]
    cases env.writes.remove <;> simp

end RaftCore

end Uavcan
