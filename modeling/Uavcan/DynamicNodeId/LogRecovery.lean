import Uavcan.DynamicNodeId.Log

/-!
# What a log finds in its storage

`Log::init` restores the log from the storage. `Restorable` says that it will find exactly the log in memory.
An append writes three values of an entry that is not part of the log yet, and then the last index, so that a
process that stops anywhere leaves the old log or the new one. Stopping after some writes of a call is
modelled by losing the later ones (`LogCall.stoppedAfter`).

Two calls do not fit: removing beyond the end makes the log longer, by entries that were never stored, and a
node ID is read back as one byte, so that a lost write goes unnoticed where the storage has a number that only
ends in this byte.
-/

namespace Uavcan

open UInt32

namespace Log

open StorageMarshaller

variable {log log' : Log} {st st' : Storage}

/-- The storage agrees with the log in memory, and its node IDs are in the range that `init` accepts. -/
structure Restorable (log : Log) (st : Storage) : Prop where
  stored : log.Stored st
  range : ∀ i ≤ log.lastIndex, ∀ value, get st (.logNodeId i) = .ok value → value ≤ NodeID.max.toUInt32

/-- A restart finds this log, and writes nothing. -/
def Restores (st : Storage) (log : Log) : Prop :=
  ∀ w, ∃ log', Log.init st w = (.ok log', st) ∧ log'.list = log.list

/-! ## Reading -/

variable {entry : Entry} {index : ℕ} {w : EntryWrites}

theorem readEntryFromStorage_ok {i : ℕ} (stored : EntryStored st i entry)
    (range : ∀ value, get st (.logNodeId i) = .ok value → value ≤ NodeID.max.toUInt32) :
    readEntryFromStorage st i = .ok entry := by
  obtain ⟨term, uniqueId, nodeId, found, same⟩ := stored
  have inside := UInt32.not_lt.mpr (range nodeId found)
  simp [readEntryFromStorage, term, uniqueId, found, if_neg inside, same]

theorem entryStored_of_read {i : ℕ} (read : readEntryFromStorage st i = .ok entry) :
    EntryStored st i entry ∧ ∀ value, get st (.logNodeId i) = .ok value → value ≤ NodeID.max.toUInt32 := by
  unfold readEntryFromStorage at read
  split at read
  case h_2 => cases read
  case h_1 term uniqueId nodeId term_read uniqueId_read nodeId_read =>
    split at read
    case isTrue => cases read
    case isFalse inside =>
      cases read
      refine ⟨⟨term_read, uniqueId_read, nodeId, nodeId_read, rfl⟩, fun value found => ?_⟩
      cases nodeId_read.symm.trans found
      exact UInt32.not_lt.mp inside

theorem restoreEntries_ok {entries : ℕ → Entry} {count : ℕ}
    (read : ∀ i < count, readEntryFromStorage st i = .ok (entries i)) :
    ∃ restored, restoreEntries st count = .ok restored := by
  induction count with
  | zero => exact ⟨_, rfl⟩
  | succ count ih =>
    obtain ⟨before, loop⟩ := ih fun i lt => read i (Nat.lt_succ_of_lt lt)
    simp only [restoreEntries, loop, read count (Nat.lt_succ_self count)]
    exact ⟨_, rfl⟩

theorem Restorable.restores (restorable : log.Restorable st) : Restores st log := by
  intro w
  have small : (ofNat log.lastIndex).toNat = log.lastIndex :=
    toNat_ofNat_of_lt' (Nat.lt_trans log.lastIndex_lt (by decide))
  have bound : (ofNat log.lastIndex).toNat < capacity := by
    rw [small]
    exact log.lastIndex_lt
  have read : ∀ i < (ofNat log.lastIndex).toNat + 1, readEntryFromStorage st i = .ok (log.entries i) :=
    fun i below =>
      readEntryFromStorage_ok (restorable.stored.entries i (by omega)) (restorable.range i (by omega))
  obtain ⟨restored, loop⟩ := restoreEntries_ok read
  have run : Log.init st w = (.ok ⟨restored, (ofNat log.lastIndex).toNat, bound⟩, st) := by
    simp only [Log.init, restorable.stored.lastIndex, dif_pos bound, loop]
  exact ⟨_, run, (init_eq_of_stored restorable.stored run).2.2⟩

/-! ## Writing -/

/-- Nothing above the last entry matters. -/
theorem Restorable.of_frame (restorable : log.Restorable st)
    (last : get st' .logLastIndex = .ok (ofNat log.lastIndex))
    (frame : ∀ key, key ≠ .logLastIndex → key ∉ entryKeys (log.lastIndex + 1) → st' key = st key) :
    log.Restorable st' := by
  refine ⟨restorable.stored.of_frame last frame, fun i le value found => ?_⟩
  have other : i ≠ log.lastIndex + 1 := by omega
  have same : st' (.logNodeId i) = st (.logNodeId i) := frame _ nofun (by simp [other])
  exact restorable.range i le value ((get_congr same).symm.trans found)

/-- A node ID is written, or the old value is read back, which is at most a byte. -/
def Intact (st : Storage) (index : ℕ) (w : EntryWrites) : Prop :=
  w.nodeId = true ∨ ∀ value, get st (.logNodeId index) = .ok value → value ≤ 255

/-- The node ID in the storage after an entry is written. -/
theorem writeEntryToStorage_nodeId (run : writeEntryToStorage st index entry w = (.ok (), st')) :
    (w.nodeId = true ∧ get st' (.logNodeId index) = .ok entry.nodeId.toUInt32) ∨
      (w.nodeId = false ∧ st' (.logNodeId index) = st (.logNodeId index)) := by
  unfold writeEntryToStorage at run
  split at run
  case h_1 => cases run
  case h_2 term st₁ write₁ =>
  have same₁ : st₁ (.logNodeId index) = st (.logNodeId index) := (setAndGetBack_cases write₁).1 _ nofun
  split at run
  case h_1 => cases run
  case h_2 uniqueId st₂ write₂ =>
  have same₂ : st₂ (.logNodeId index) = st₁ (.logNodeId index) := (setAndGetBackUniqueID_cases write₂).1 _ nofun
  split at run
  case h_1 => cases run
  case h_2 nodeId st₃ write₃ =>
  obtain ⟨-, found, effect⟩ := setAndGetBack_cases write₃
  split at run
  case isFalse => cases run
  case isTrue =>
  cases run
  rcases effect with ⟨written, same⟩ | ⟨lost, rfl⟩
  · exact .inl ⟨written, same ▸ found⟩
  · exact .inr ⟨lost, same₂.trans same₁⟩

/-- A node ID in range is stored as a number in range. -/
theorem range_of_write (run : writeEntryToStorage st index entry w = (.ok (), st'))
    (small : entry.nodeId ≤ NodeID.max) (intact : Intact st index w) :
    ∀ value, get st' (.logNodeId index) = .ok value → value ≤ NodeID.max.toUInt32 := by
  obtain ⟨-, -, nodeId, found, same⟩ := (writeEntryToStorage_cases run).2 rfl
  have small : entry.nodeId.toNat ≤ 127 := UInt8.le_iff_toNat_le.mp small
  intro value read
  cases found.symm.trans read
  change nodeId.toNat ≤ 127
  rcases writeEntryToStorage_nodeId run with ⟨-, written⟩ | ⟨lost, old⟩
  · cases written.symm.trans found
    exact small
  · have bound := (intact.resolve_left fun written => Bool.noConfusion (lost.symm.trans written)) nodeId
      ((get_congr old).symm.trans found)
    have byte : nodeId.toNat ≤ 255 := le_iff_toNat_le.mp bound
    have value := congrArg UInt8.toNat same
    rw [toNat_toUInt8] at value
    omega

theorem Restorable.append (restorable : log.Restorable st) {result : Except Err Unit}
    (run : log.append st entry w = (result, log', st')) :
    (log' = log ∧ log.Restorable st') ∨
      (w.lastIndex = true ∧ log'.list = log.list ++ [entry] ∧
        (entry.nodeId ≤ NodeID.max → Intact st (log.lastIndex + 1) w → log'.Restorable st')) := by
  obtain ⟨stored, frame, failed, appends⟩ := append_cases run restorable.stored
  by_cases ok : result = .ok ()
  case neg =>
    obtain rfl := failed ok
    exact .inl ⟨rfl, restorable.of_frame stored.lastIndex frame⟩
  case pos =>
    obtain ⟨list, last, effective, st₁, write, later⟩ := appends ok
    refine .inr ⟨effective, list, fun small intact => ⟨stored, fun i le value found => ?_⟩⟩
    by_cases old : i ≤ log.lastIndex
    · have other : i ≠ log.lastIndex + 1 := by omega
      have same : st' (.logNodeId i) = st (.logNodeId i) :=
        frame _ (by simp) (by simp [other])
      exact restorable.range i old value ((get_congr same).symm.trans found)
    · obtain rfl : i = log.lastIndex + 1 := by omega
      exact range_of_write write small intact value ((get_congr (later (.logNodeId _) nofun)).symm.trans found)

theorem Restorable.remove (restorable : log.Restorable st) {effective : Bool} {result : Except Err Unit}
    (run : log.removeEntriesWhereIndexGreaterOrEqual st index effective = (result, log', st'))
    (inside : index ≤ log.lastIndex + 1) : log'.Restorable st' := by
  obtain ⟨stored, frame, -, failed, removes⟩ := remove_cases run restorable.stored inside
  refine ⟨stored, fun i le value found => restorable.range i ?_ value ?_⟩
  · by_cases ok : result = .ok ()
    · obtain ⟨positive, -, last, -⟩ := removes ok
      omega
    · obtain ⟨rfl, -⟩ := failed ok
      exact le
  · have same : st' (.logNodeId i) = st (.logNodeId i) := frame _ nofun
    exact (get_congr same).symm.trans found

theorem remove_lost (stored : log.Stored st) (index : ℕ) :
    (log.removeEntriesWhereIndexGreaterOrEqual st index false).2 = (log, st) := by
  have bound := log.lastIndex_lt
  unfold removeEntriesWhereIndexGreaterOrEqual
  split
  case isFalse => rfl
  case isTrue range =>
  split
  case isFalse => rfl
  case isTrue different =>
  rcases write : setAndGetBack st .logLastIndex (ofNat (index - 1)) false with ⟨read, st₁⟩
  obtain ⟨-, found, effect⟩ := setAndGetBack_cases write
  obtain ⟨-, rfl⟩ := effect.resolve_left fun kept => Bool.noConfusion kept.1
  obtain rfl := found.symm.trans stored.lastIndex
  have changed : ofNat log.lastIndex ≠ ofNat (index - 1) := by
    intro same
    have small : index < 128 := range.1
    have inside : index - 1 ≤ 128 := by omega
    exact different (ofNat_index_inj (by omega) inside same).symm
  simp [changed]

/-- What a start has loaded or written is restored by the next one. -/
theorem Restorable.init (run : Log.init st w = (.ok log, st')) (intact : Intact st 0 w) :
    log.Restorable st' := by
  have whole := run
  unfold Log.init at run
  split at run
  case h_1 =>
    split at run
    case isFalse => cases run
    case isTrue missing =>
    obtain ⟨stored, -, zero, -, st₁, write, later⟩ := init_empty (List.isEmpty_iff.mp missing) whole
    refine ⟨stored, fun i le value found => ?_⟩
    obtain rfl : i = 0 := by omega
    exact range_of_write write (by decide) intact value ((get_congr (later (.logNodeId _) nofun)).symm.trans found)
  case h_2 last found =>
    split at run
    case isFalse => cases run
    case isTrue bound =>
    split at run
    case h_1 => cases run
    case h_2 entries loop =>
    cases run
    have read := read_of_restoreEntries loop
    refine ⟨⟨?_, fun i le => (entryStored_of_read (read i (Nat.lt_succ_of_le le))).1⟩,
      fun i le => (entryStored_of_read (read i (Nat.lt_succ_of_le le))).2⟩
    rw [found, UInt32.ofNat_toNat]

end Log

/-! ## Calls -/

/-- A call of the log, with the effects of its writes. -/
inductive LogCall
  | append (entry : Entry) (w : EntryWrites)
  | remove (index : ℕ) (effective : Bool)

namespace LogCall

variable {log : Log} {st : Storage}

def exec (log : Log) (st : Storage) : LogCall → Log × Storage
  | .append entry w => (log.append st entry w).2
  | .remove index effective => (log.removeEntriesWhereIndexGreaterOrEqual st index effective).2

/-- The call whose writes after the first `k` are lost. -/
def stoppedAfter (k : ℕ) : LogCall → LogCall
  | .append entry w =>
    .append entry ⟨w.term && 1 ≤ k, w.uniqueId && 2 ≤ k, w.nodeId && 3 ≤ k, w.lastIndex && 4 ≤ k⟩
  | .remove index effective => .remove index (effective && 1 ≤ k)

/-- A node ID has seven bits, and a lost one is noticed; nothing is removed beyond the end of the log. -/
def Fits (log : Log) (st : Storage) : LogCall → Prop
  | .append entry w => entry.nodeId ≤ NodeID.max ∧ Log.Intact st (log.lastIndex + 1) w
  | .remove index effective => index ≤ log.lastIndex + 1 ∨ 128 ≤ index ∨ effective = false

theorem restorable (restorable : log.Restorable st) {call : LogCall} (fits : call.Fits log st) :
    (call.exec log st).1.Restorable (call.exec log st).2 := by
  cases call with
  | append entry w =>
    rcases run : log.append st entry w with ⟨result, log', st'⟩
    change (log.append st entry w).2.1.Restorable (log.append st entry w).2.2
    rw [run]
    rcases restorable.append run with ⟨rfl, kept⟩ | ⟨-, -, stored⟩
    · exact kept
    · exact stored fits.1 fits.2
  | remove index effective =>
    rcases run : log.removeEntriesWhereIndexGreaterOrEqual st index effective with ⟨result, log', st'⟩
    change (log.removeEntriesWhereIndexGreaterOrEqual st index effective).2.1.Restorable
      (log.removeEntriesWhereIndexGreaterOrEqual st index effective).2.2
    rcases fits with inside | outside | rfl
    · rw [run]
      exact restorable.remove run inside
    · have refused : ¬(index < Log.capacity ∧ 0 < index) := fun range => Nat.not_lt.mpr outside range.1
      rw [Log.removeEntriesWhereIndexGreaterOrEqual, dif_neg refused]
      exact restorable
    · rw [Log.remove_lost restorable.stored]
      exact restorable

/-- A process that stops in a call leaves the log from before the call, or from after it. -/
theorem restores_stopped (restorable : log.Restorable st) {call : LogCall} (fits : call.Fits log st) (k : ℕ) :
    Log.Restores ((call.stoppedAfter k).exec log st).2 log ∨
      Log.Restores ((call.stoppedAfter k).exec log st).2 (call.exec log st).1 := by
  have after := (LogCall.restorable restorable fits).restores
  cases call with
  | append entry w =>
    by_cases all : 4 ≤ k
    · have same : (LogCall.append entry w).stoppedAfter k = .append entry w := by
        have third : 3 ≤ k := by omega
        have second : 2 ≤ k := by omega
        have first : 1 ≤ k := by omega
        simp [stoppedAfter, first, second, third, all]
      rw [same]
      exact .inr after
    · -- the last index is not written
      left
      rcases run : log.append st entry
        ⟨w.term && 1 ≤ k, w.uniqueId && 2 ≤ k, w.nodeId && 3 ≤ k, w.lastIndex && 4 ≤ k⟩ with ⟨result, log', st'⟩
      change Log.Restores (log.append st entry _).2.2 log
      rw [run]
      rcases restorable.append run with ⟨-, kept⟩ | ⟨written, -⟩
      · exact kept.restores
      · simp only [Bool.and_eq_true, decide_eq_true_eq] at written
        exact absurd written.2 all
  | remove index effective =>
    by_cases all : 1 ≤ k
    · have same : (LogCall.remove index effective).stoppedAfter k = .remove index effective := by
        simp [stoppedAfter, all]
      rw [same]
      exact .inr after
    · left
      have lost : (LogCall.remove index effective).stoppedAfter k = .remove index false := by
        simp [stoppedAfter, all]
      rw [lost]
      change Log.Restores (log.removeEntriesWhereIndexGreaterOrEqual st index false).2.2 log
      rw [Log.remove_lost restorable.stored]
      exact restorable.restores

end LogCall

/-- The logs and storages after a start that succeeded and some allowed calls.  A start on a storage without a last
index writes the zero entry. -/
inductive LogRun (allowed : Log → Storage → LogCall → Prop) : Log → Storage → Prop
  | init {st st' : Storage} {w : EntryWrites} {log : Log} : Log.init st w = (.ok log, st') → Log.Intact st 0 w →
    LogRun allowed log st'
  | call {log : Log} {st : Storage} (call : LogCall) : LogRun allowed log st → allowed log st call →
    LogRun allowed (call.exec log st).1 (call.exec log st).2

namespace LogRun

theorem restorable {log : Log} {st : Storage} (run : LogRun (fun log st call => call.Fits log st) log st) :
    log.Restorable st := by
  induction run with
  | init start intact => exact .init start intact
  | call call _ fits ih => exact LogCall.restorable ih fits

/-- In every run of calls that fit, the storage holds the log in memory, and a process that stops anywhere in a call
finds the log from before the call or from after it. -/
theorem storage_restores_log {log : Log} {st : Storage}
    (run : LogRun (fun log st call => call.Fits log st) log st) :
    Log.Restores st log ∧ ∀ call : LogCall, call.Fits log st → ∀ k,
      Log.Restores ((call.stoppedAfter k).exec log st).2 log ∨
        Log.Restores ((call.stoppedAfter k).exec log st).2 (call.exec log st).1 :=
  ⟨run.restorable.restores, fun _ fits k => LogCall.restores_stopped run.restorable fits k⟩

/-- Every write takes effect. -/
def allWrites : EntryWrites := ⟨true, true, true, true⟩

theorem first_of_check (check : Log → Storage → Bool)
    (checked : (match Log.init Storage.empty allWrites with
      | (.ok log, st) => check log st
      | _ => false) = true) :
    ∃ log st, Log.init Storage.empty allWrites = (.ok log, st) ∧ check log st = true := by
  rcases run : Log.init Storage.empty allWrites with ⟨result, st⟩
  rw [run] at checked
  cases result with
  | ok log => exact ⟨log, st, rfl, checked⟩
  | error err => cases checked

theorem storage_restores_log_sample : ∃ log st, LogRun (fun log st call => call.Fits log st) log st ∧
    log.list = [Entry.zero, ⟨3, Vector.replicate 16 7, 125⟩] ∧ Log.Restores st log := by
  obtain ⟨log, st, start, list⟩ := first_of_check (fun log st =>
    ((LogCall.append ⟨3, Vector.replicate 16 7, 125⟩ allWrites).exec log st).1.list =
      [Entry.zero, ⟨3, Vector.replicate 16 7, 125⟩]) (by decide +kernel)
  have first : LogRun (fun log st call => call.Fits log st) log st := .init start (.inl rfl)
  have run := first.call
    (.append ⟨3, Vector.replicate 16 7, 125⟩ allWrites) ⟨by decide, .inl rfl⟩
  exact ⟨_, _, run, of_decide_eq_true list, run.storage_restores_log.1⟩

/-- The entries from index five on are removed from a log that ends at index zero.  The log then ends at index four,
and the next start fails. -/
theorem removal_extends_log : ∃ log st, LogRun (fun _ _ _ => True) log st ∧ log.lastIndex = 4 ∧
    ¬Log.Restores st log := by
  obtain ⟨log, st, start, broken⟩ := first_of_check (fun log st =>
    ((LogCall.remove 5 true).exec log st).1.lastIndex = 4 ∧
      (Log.init ((LogCall.remove 5 true).exec log st).2 allWrites).1.isOk = false) (by decide +kernel)
  obtain ⟨last, fails⟩ := of_decide_eq_true broken
  refine ⟨_, _, (LogRun.init start (.inl rfl)).call (.remove 5 true) trivial, last, fun restores => ?_⟩
  obtain ⟨log', run, -⟩ := restores allWrites
  rw [run] at fails
  cases fails

end LogRun

end Uavcan
