import Uavcan.DynamicNodeId.Log

/-!
# The persistent state of one server

`PersistentState` keeps the current term, the vote and the log, each written to the storage before it
changes in memory.  A failed setter changes nothing (`setCurrentTerm_cases`, `setVotedFor_cases`), so
memory and storage agree in every state a server is in, and a restart finds what it had
(`init_eq_of_stored`).
-/

namespace Uavcan

/-- Whether the writes of one handler take effect, by the place in the code that makes them.  No
handler makes the same write twice; the appends of one request differ by their index. -/
structure Writes where
  term : Bool
  resetVote : Bool
  vote : Bool
  remove : Bool
  append : ℕ → EntryWrites
  clusterSize : Bool

/-- Every write takes effect. -/
def Writes.all : Writes := ⟨true, true, true, true, fun _ => ⟨true, true, true, true⟩, true⟩

structure PersistentState where
  storage : Storage
  currentTerm : Term
  votedFor : NodeID
  log : Log

namespace PersistentState

open StorageMarshaller

variable (p : PersistentState)

def isVotedForSet : Bool := p.votedFor.isUnicast

/-- The part of `init` that reads or initializes the current term. -/
def initCurrentTerm (st : Storage) (logIsEmpty effective : Bool) : Except Err Term × Storage :=
  if (st .currentTerm).isEmpty && logIsEmpty then
    match setAndGetBack st .currentTerm 0 effective with
    | (.error err, st) => (.error err, st)
    | (.ok currentTerm, st) => if currentTerm ≠ 0 then (.error .failure, st) else (.ok currentTerm, st)
  else (get st .currentTerm, st)

/-- The part of `init` that reads or initializes the vote. -/
def initVotedFor (st : Storage) (logIsEmpty : Bool) (currentTerm : Term) (effective : Bool) :
    Except Err NodeID × Storage :=
  if (st .votedFor).isEmpty && logIsEmpty && currentTerm = 0 then
    match setAndGetBack st .votedFor 0 effective with
    | (.error err, st) => (.error err, st)
    | (.ok storedVotedFor, st) =>
      if storedVotedFor ≠ 0 then (.error .failure, st) else (.ok NodeID.broadcast, st)
  else
    match get st .votedFor with
    | .error err => (.error err, st)
    | .ok storedVotedFor =>
      if storedVotedFor > NodeID.max.toUInt32 then (.error .invalidConfiguration, st)
      else (.ok ⟨storedVotedFor.toUInt8⟩, st)

def init (st : Storage) (w : Writes) : Except Err PersistentState × Storage :=
  match Log.init st (w.append 0) with
  | (.error err, st) => (.error err, st)
  | (.ok log, st) =>
    let lastEntry := log.entries log.lastIndex
    let logIsEmpty : Bool := log.lastIndex = 0 ∧ lastEntry.term = 0
    match initCurrentTerm st logIsEmpty w.term with
    | (.error err, st) => (.error err, st)
    | (.ok currentTerm, st) =>
      if currentTerm < lastEntry.term then (.error .logic, st)
      else
        match initVotedFor st logIsEmpty currentTerm w.vote with
        | (.error err, st) => (.error err, st)
        | (.ok votedFor, st) => (.ok ⟨st, currentTerm, votedFor, log⟩, st)

def setCurrentTerm (term : Term) (effective : Bool) :
    Except Err Unit × PersistentState :=
  if term < p.currentTerm then (.error .invalidParam, p)
  else
    match setAndGetBack p.storage .currentTerm term effective with
    | (.error err, st) => (.error err, { p with storage := st })
    | (.ok tmp, st) =>
      if tmp ≠ term then (.error .failure, { p with storage := st })
      else (.ok (), { p with storage := st, currentTerm := term })

def setVotedFor (nodeId : NodeID) (effective : Bool) :
    Except Err Unit × PersistentState :=
  if !nodeId.isValid then (.error .invalidParam, p)
  else
    match setAndGetBack p.storage .votedFor nodeId.value.toUInt32 effective with
    | (.error err, st) => (.error err, { p with storage := st })
    | (.ok tmp, st) =>
      if nodeId.value.toUInt32 ≠ tmp then (.error .failure, { p with storage := st })
      else (.ok (), { p with storage := st, votedFor := nodeId })

def resetVotedFor (effective : Bool) : Except Err Unit × PersistentState :=
  p.setVotedFor NodeID.broadcast effective

/-- `getLog().append`. -/
def appendEntry (entry : Entry) (w : EntryWrites) :
    Except Err Unit × PersistentState :=
  match p.log.append p.storage entry w with
  | (result, log, st) => (result, { p with log := log, storage := st })

/-- `getLog().removeEntriesWhereIndexGreaterOrEqual`. -/
def removeEntriesWhereIndexGreaterOrEqual (p : PersistentState) (index : ℕ) (effective : Bool) :
    Except Err Unit × PersistentState :=
  match p.log.removeEntriesWhereIndexGreaterOrEqual p.storage index effective with
  | (result, log, st) => (result, { p with log := log, storage := st })

/-- `getLog().removeEntriesWhereIndexGreater`. -/
def removeEntriesWhereIndexGreater (index : ℕ) (effective : Bool) :
    Except Err Unit × PersistentState :=
  p.removeEntriesWhereIndexGreaterOrEqual (toIndex (index + 1)) effective

/-! ## Memory and storage agree -/

/-- The storage holds what the memory holds. -/
structure Stored (p : PersistentState) : Prop where
  log : p.log.Stored p.storage
  currentTerm : get p.storage .currentTerm = .ok p.currentTerm
  votedFor : get p.storage .votedFor = .ok p.votedFor.value.toUInt32

variable {p p' : PersistentState} {effective : Bool} {result : Except Err Unit} {st st' : Storage}

variable {term : Term}

theorem log_of_setCurrentTerm (run : p.setCurrentTerm term effective = (result, p')) :
    p'.log = p.log := by
  unfold setCurrentTerm at run
  repeat' split at run
  all_goals
    cases run
    rfl

variable {nodeId : NodeID}

theorem log_of_setVotedFor (run : p.setVotedFor nodeId effective = (result, p')) :
    p'.log = p.log := by
  unfold setVotedFor at run
  repeat' split at run
  all_goals
    cases run
    rfl

/-- A setter that fails changes nothing; `setCurrentTerm` never goes back. -/
theorem setCurrentTerm_cases (run : p.setCurrentTerm term effective = (result, p'))
    (stored : p.Stored) :
    p'.Stored ∧ p'.log = p.log ∧ p'.votedFor = p.votedFor ∧
      p'.storage .clusterSize = p.storage .clusterSize ∧
      (result ≠ .ok () → p' = p) ∧ (result = .ok () → p'.currentTerm = term ∧ p.currentTerm ≤ term) := by
  unfold setCurrentTerm at run
  split at run
  case isTrue =>
    cases run
    exact ⟨stored, rfl, rfl, rfl, fun _ => rfl, nofun⟩
  case isFalse later =>
  have later : p.currentTerm ≤ term := UInt32.not_lt.mp later
  split at run
  case h_1 err st write =>
    cases run
    obtain rfl := setAndGetBack_refused write nofun
    exact ⟨stored, rfl, rfl, rfl, fun _ => rfl, nofun⟩
  case h_2 tmp st write =>
  obtain ⟨frame, -, -⟩ := setAndGetBack_cases write
  split at run
  case isTrue other =>
    cases run
    obtain rfl := setAndGetBack_refused write fun same => other (Except.ok.inj same)
    exact ⟨stored, rfl, rfl, rfl, fun _ => rfl, nofun⟩
  case isFalse wanted =>
    cases run
    obtain rfl : tmp = term := Decidable.not_not.mp wanted
    obtain ⟨-, found, -⟩ := setAndGetBack_cases write
    refine ⟨⟨stored.log.congr frame nofun (by simp), found, ?_⟩, rfl, rfl, frame _ (by simp),
      fun failed => absurd rfl failed, fun _ => ⟨rfl, later⟩⟩
    exact (get_congr (frame _ (by simp))).trans stored.votedFor

theorem setVotedFor_cases (run : p.setVotedFor nodeId effective = (result, p'))
    (stored : p.Stored) :
    p'.Stored ∧ p'.log = p.log ∧ p'.currentTerm = p.currentTerm ∧
      p'.storage .clusterSize = p.storage .clusterSize ∧
      (result ≠ .ok () → p' = p) ∧ (result = .ok () → p'.votedFor = nodeId) := by
  unfold setVotedFor at run
  split at run
  case isTrue =>
    cases run
    exact ⟨stored, rfl, rfl, rfl, fun _ => rfl, nofun⟩
  case isFalse =>
  split at run
  case h_1 err st write =>
    cases run
    obtain rfl := setAndGetBack_refused write nofun
    exact ⟨stored, rfl, rfl, rfl, fun _ => rfl, nofun⟩
  case h_2 tmp st write =>
  obtain ⟨frame, -, -⟩ := setAndGetBack_cases write
  split at run
  case isTrue other =>
    cases run
    obtain rfl := setAndGetBack_refused write fun same => other (Except.ok.inj same.symm)
    exact ⟨stored, rfl, rfl, rfl, fun _ => rfl, nofun⟩
  case isFalse wanted =>
    cases run
    obtain rfl := Decidable.not_not.mp wanted
    obtain ⟨-, found, -⟩ := setAndGetBack_cases write
    refine ⟨⟨stored.log.congr frame nofun (by simp), ?_, found⟩, rfl, rfl, frame _ (by simp),
      fun failed => absurd rfl failed, fun _ => rfl⟩
    exact (get_congr (frame _ (by simp))).trans stored.currentTerm

/-- A setter succeeds when its write takes effect, or when the value is there already. -/
theorem setCurrentTerm_ok (stored : p.Stored) (term : Term) (effective : Bool) :
    (p.setCurrentTerm term effective).1 = .ok () ↔
      p.currentTerm ≤ term ∧ (effective = true ∨ p.currentTerm = term) := by
  rcases write : setAndGetBack p.storage .currentTerm term effective with ⟨read, st⟩
  obtain ⟨-, found, effect⟩ := setAndGetBack_cases write
  unfold setCurrentTerm
  rw [write, ← UInt32.not_lt]
  by_cases older : term < p.currentTerm
  · simp [older]
  · rw [if_neg older]
    rcases effect with ⟨kept, rfl⟩ | ⟨lost, rfl⟩
    · simp [kept, older]
    · obtain rfl := stored.currentTerm.symm.trans found
      by_cases same : p.currentTerm = term
      · simp [same]
      · simp [same, lost]

theorem setVotedFor_ok (stored : p.Stored) (valid : nodeId.isValid)
    (effective : Bool) :
    (p.setVotedFor nodeId effective).1 = .ok () ↔ effective = true ∨ p.votedFor = nodeId := by
  rcases write : setAndGetBack p.storage .votedFor nodeId.value.toUInt32 effective with ⟨read, st⟩
  obtain ⟨-, found, effect⟩ := setAndGetBack_cases write
  unfold setVotedFor
  rw [write, valid]
  rcases effect with ⟨kept, rfl⟩ | ⟨lost, rfl⟩
  · simp [kept]
  · obtain rfl := stored.votedFor.symm.trans found
    have injective : nodeId.value.toUInt32 = p.votedFor.value.toUInt32 ↔ p.votedFor = nodeId := by
      constructor
      · intro same
        have value := congrArg UInt32.toUInt8 same
        rw [UInt8.toUInt8_toUInt32, UInt8.toUInt8_toUInt32] at value
        cases nodeId
        simp only at value
        rw [value]
      · rintro rfl
        rfl
    by_cases same : p.votedFor = nodeId
    · simp [same]
    · simp [same, lost, injective]

theorem Stored.of_log {log : Log} (stored : p.Stored) (logStored : log.Stored st)
    (term : st .currentTerm = p.storage .currentTerm) (vote : st .votedFor = p.storage .votedFor) :
    ({ p with log := log, storage := st } : PersistentState).Stored where
  log := logStored
  currentTerm := (get_congr term).trans stored.currentTerm
  votedFor := (get_congr vote).trans stored.votedFor

theorem appendEntry_cases {entry : Entry} {w : EntryWrites}
    (run : p.appendEntry entry w = (result, p')) (stored : p.Stored) :
    p'.Stored ∧ p'.currentTerm = p.currentTerm ∧ p'.votedFor = p.votedFor ∧
      (∀ key, key ≠ .logLastIndex → key ∉ Log.entryKeys (p.log.lastIndex + 1) →
        p'.storage key = p.storage key) ∧
      (result ≠ .ok () → p'.log = p.log) ∧
      (result = .ok () → p'.log.list = p.log.list ++ [entry] ∧ p'.log.lastIndex = p.log.lastIndex + 1 ∧
        w.lastIndex = true) := by
  unfold appendEntry at run
  rcases step : p.log.append p.storage entry w with ⟨appended, log, st⟩
  obtain ⟨logStored, frame, failed, appends⟩ := Log.append_cases step stored.log
  rw [step] at run
  cases run
  refine ⟨stored.of_log logStored (frame _ (by simp) (by simp)) (frame _ (by simp) (by simp)), rfl, rfl, frame, failed,
    fun ok => ?_⟩
  obtain ⟨list, last, written, -⟩ := appends ok
  exact ⟨list, last, written⟩

theorem remove_cases {index : ℕ}
    (run : p.removeEntriesWhereIndexGreaterOrEqual index effective = (result, p'))
    (stored : p.Stored) (inside : index ≤ p.log.lastIndex + 1) :
    p'.Stored ∧ p'.currentTerm = p.currentTerm ∧ p'.votedFor = p.votedFor ∧
      (∀ key, key ≠ .logLastIndex → p'.storage key = p.storage key) ∧
      p'.log.entries = p.log.entries ∧
      (result ≠ .ok () → p'.log = p.log ∧ (index = 0 ∨ 128 ≤ index ∨ effective = false)) ∧
      (result = .ok () → 0 < index ∧ p'.log.list = p.log.list.take index ∧ p'.log.lastIndex = index - 1 ∧
        (effective = true ∨ index = p.log.lastIndex + 1)) := by
  unfold removeEntriesWhereIndexGreaterOrEqual at run
  rcases step : p.log.removeEntriesWhereIndexGreaterOrEqual p.storage index effective with
    ⟨removed, log, st⟩
  obtain ⟨logStored, frame, same, outcome⟩ := Log.remove_cases step stored.log inside
  rw [step] at run
  cases run
  exact ⟨stored.of_log logStored (frame _ (by simp)) (frame _ (by simp)), rfl, rfl, frame, same,
    outcome⟩

/-! ## Start and restart -/

variable {w : Writes}

/-- A restart restores the term, the vote and the log, and writes nothing. -/
theorem init_eq_of_stored (stored : p.Stored) (run : init p.storage w = (.ok p', st')) :
    p'.Stored ∧ p'.storage = p.storage ∧ p'.currentTerm = p.currentTerm ∧
      p'.votedFor = p.votedFor ∧ p'.log.list = p.log.list := by
  unfold init at run
  split at run
  case h_1 => cases run
  case h_2 log st₁ restore =>
  obtain ⟨rfl, logStored, same⟩ := Log.init_eq_of_stored stored.log restore
  simp only [initCurrentTerm, present_of_get stored.currentTerm, stored.currentTerm, Bool.false_and,
    Bool.false_eq_true, if_false] at run
  split at run
  case isTrue => cases run
  case isFalse =>
  simp only [initVotedFor, present_of_get stored.votedFor, stored.votedFor, Bool.false_and,
    Bool.false_eq_true, if_false] at run
  split at run
  · cases run
  · rename_i vote st₂ read
    split at read
    · cases read
    · cases read
      cases run
      refine ⟨⟨logStored, stored.currentTerm, ?_⟩, rfl, rfl, by simp, same⟩
      simpa using stored.votedFor

theorem initCurrentTerm_missing (missing : st .currentTerm = [])
    (run : initCurrentTerm st true effective = (.ok term, st')) :
    term = 0 ∧ get st' .currentTerm = .ok 0 ∧
      ∀ key, key ≠ .currentTerm → st' key = st key := by
  simp only [initCurrentTerm, missing, List.isEmpty_nil, Bool.and_self, if_true] at run
  split at run
  case h_1 => cases run
  case h_2 read st₁ write =>
  obtain ⟨frame, found, -⟩ := setAndGetBack_cases write
  split at run
  · cases run
  · cases run
    obtain rfl : term = 0 := Decidable.not_not.mp ‹_›
    exact ⟨rfl, found, frame⟩

theorem initVotedFor_missing {vote : NodeID} (missing : st .votedFor = [])
    (run : initVotedFor st true 0 effective = (.ok vote, st')) :
    vote = NodeID.broadcast ∧ get st' .votedFor = .ok 0 ∧
      ∀ key, key ≠ .votedFor → st' key = st key := by
  simp only [initVotedFor, missing, List.isEmpty_nil, Bool.and_self, decide_true, if_true] at run
  split at run
  case h_1 => cases run
  case h_2 read st₁ write =>
  obtain ⟨frame, found, -⟩ := setAndGetBack_cases write
  split at run
  · cases run
  · cases run
    obtain rfl : read = 0 := Decidable.not_not.mp ‹_›
    exact ⟨rfl, found, frame⟩

theorem init_empty (run : init Storage.empty w = (.ok p, st')) :
    p.Stored ∧ p.currentTerm = 0 ∧ p.votedFor = NodeID.broadcast ∧ p.log.list = [Entry.zero] := by
  unfold init at run
  split at run
  case h_1 => cases run
  case h_2 log st₁ restore =>
  obtain ⟨logStored, list, zero, frame, -⟩ := Log.init_empty rfl restore
  have first : (log.entries 0).term = 0 := by
    have entry := log.getElem_list 0 (by simp)
    simp only [list] at entry
    rw [← entry]
    rfl
  simp only [zero, first] at run
  split at run
  case h_1 => cases run
  case h_2 term st₂ readTerm =>
  obtain ⟨rfl, termStored, frame₂⟩ :=
    initCurrentTerm_missing (frame _ (by simp) (by simp)) readTerm
  simp only [UInt32.lt_irrefl, if_false] at run
  split at run
  case h_1 => cases run
  case h_2 vote st₃ readVote =>
  obtain ⟨rfl, voteStored, frame₃⟩ := initVotedFor_missing
    ((frame₂ _ (by simp)).trans (frame _ (by simp) (by simp))) readVote
  cases run
  have logStored₂ := logStored.congr frame₂ nofun (by simp)
  refine ⟨⟨logStored₂.congr frame₃ nofun (by simp), ?_, voteStored⟩, rfl, rfl, list⟩
  exact (get_congr (frame₃ _ (by simp))).trans termStored

end PersistentState

end Uavcan
