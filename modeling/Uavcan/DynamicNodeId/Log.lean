import Uavcan.DynamicNodeId.Storage
import Mathlib.Data.List.Basic
import Mathlib.Tactic.Cases

/-!
# The replicated log of one server

`Log` of `distributed/log.hpp`: an array of entries and the index of the last one, with a copy in
the storage that is written first.  `Log.Stored` says that the copy agrees with the memory; every
operation keeps it, whichever of its writes take effect (`append_cases`, `remove_cases`), so that a
restart finds the log the server had (`init_eq_of_stored`).
-/

namespace Uavcan

open List UInt32 Function

/-- `Term` of the Raft core; the code's `+ 1U` wraps. -/
abbrev Term := UInt32

/-- A log entry: the allocation of `nodeId` to `uniqueId`, made by the leader of `term`. -/
structure Entry where
  term : Term
  uniqueId : UniqueID
  nodeId : UInt8
  deriving DecidableEq

/-- The default-built entry that stands at index zero of every log. -/
def Entry.zero : Entry := ⟨0, Vector.replicate 16 0, 0⟩

/-- Whether each of the writes of one `append` takes effect. -/
structure EntryWrites where
  term : Bool
  uniqueId : Bool
  nodeId : Bool
  lastIndex : Bool
  deriving DecidableEq

/-- The conversion to `Log::Index`, an unsigned byte. -/
def toIndex (n : ℕ) : ℕ := n % 256

/-- The log in memory.  Slots above `lastIndex` hold dangling entries. -/
structure Log where
  entries : ℕ → Entry
  lastIndex : ℕ
  lastIndex_lt : lastIndex < 128

namespace Log

open StorageMarshaller

/-- `NodeID::Max + 1`. -/
abbrev capacity : ℕ := 128

theorem zero_lt_capacity : 0 < capacity := by decide

variable (log : Log)

/-- The entries from index zero to the last one. -/
def list : List Entry := (List.range (log.lastIndex + 1)).map log.entries

def getEntryAtIndex (index : ℕ) : Option Entry :=
  if index ≤ log.lastIndex then some (log.entries index) else none

def isOtherLogUpToDate (otherLastIndex : ℕ) (otherLastTerm : Term) : Bool :=
  -- Terms are different - the one with higher term is more up-to-date
  if otherLastTerm ≠ (log.entries log.lastIndex).term then
    otherLastTerm > (log.entries log.lastIndex).term
  -- Terms are equal - longer log wins
  else otherLastIndex ≥ log.lastIndex

def readEntryFromStorage (st : Storage) (index : ℕ) : Except Err Entry :=
  match get st (.logTerm index), getUniqueID st (.logUniqueId index), get st (.logNodeId index) with
  | .ok term, .ok uniqueId, .ok nodeId =>
    if nodeId > NodeID.max.toUInt32 then .error .failure
    else .ok ⟨term, uniqueId, nodeId.toUInt8⟩
  | _, _, _ => .error .failure

def writeEntryToStorage (st : Storage) (index : ℕ) (entry : Entry) (w : EntryWrites) :
    Except Err Unit × Storage :=
  match setAndGetBack st (.logTerm index) entry.term w.term with
  | (.error _, st) => (.error .failure, st)
  | (.ok term, st) =>
    match setAndGetBackUniqueID st (.logUniqueId index) entry.uniqueId w.uniqueId with
    | (.error _, st) => (.error .failure, st)
    | (.ok uniqueId, st) =>
      match setAndGetBack st (.logNodeId index) entry.nodeId.toUInt32 w.nodeId with
      | (.error _, st) => (.error .failure, st)
      | (.ok nodeId, st) =>
        if (⟨term, uniqueId, nodeId.toUInt8⟩ : Entry) = entry then (.ok (), st)
        else (.error .failure, st)

def initEmptyLogStorage (st : Storage) (w : EntryWrites) : Except Err Log × Storage :=
  match writeEntryToStorage st 0 Entry.zero w with
  | (.error err, st) => (.error err, st)
  | (.ok _, st) =>
    match setAndGetBack st .logLastIndex 0 w.lastIndex with
    | (.error err, st) => (.error err, st)
    | (.ok storedIndex, st) =>
      if storedIndex ≠ 0 then (.error .failure, st)
      else (.ok ⟨fun _ => Entry.zero, 0, zero_lt_capacity⟩, st)

/-- The restoring loop of `init` over the first `count` indices. -/
def restoreEntries (st : Storage) : ℕ → Except Err (ℕ → Entry)
  | 0 => .ok fun _ => Entry.zero
  | count + 1 =>
    match restoreEntries st count with
    | .error err => .error err
    | .ok entries =>
      match readEntryFromStorage st count with
      | .error err => .error err
      | .ok entry => .ok (update entries count entry)

def init (st : Storage) (w : EntryWrites) : Except Err Log × Storage :=
  match get st .logLastIndex with
  | .error _ =>
    if (st .logLastIndex).isEmpty then initEmptyLogStorage st w
    else (.error .failure, st)
  | .ok value =>
    if bound : value.toNat < capacity then
      match restoreEntries st (value.toNat + 1) with
      | .error err => (.error err, st)
      | .ok entries => (.ok ⟨entries, value.toNat, bound⟩, st)
    else (.error .failure, st)

def append (st : Storage) (entry : Entry) (w : EntryWrites) :
    Except Err Unit × Log × Storage :=
  if room : log.lastIndex + 1 < capacity then
    -- If next operations fail, we'll get a dangling entry, but it's absolutely OK.
    match writeEntryToStorage st (log.lastIndex + 1) entry w with
    | (.error err, st) => (.error err, log, st)
    | (.ok _, st) =>
      match setAndGetBack st .logLastIndex (UInt32.ofNat (log.lastIndex + 1)) w.lastIndex with
      | (.error err, st) => (.error err, log, st)
      | (.ok newLastIndex, st) =>
        if newLastIndex ≠ UInt32.ofNat (log.lastIndex + 1) then (.error .failure, log, st)
        else
          (.ok (), ⟨update log.entries (log.lastIndex + 1) entry, log.lastIndex + 1, room⟩,
            st)
  else (.error .logic, log, st)

def removeEntriesWhereIndexGreaterOrEqual (st : Storage) (index : ℕ)
    (effective : Bool) : Except Err Unit × Log × Storage :=
  if range : index < capacity ∧ 0 < index then
    if index - 1 ≠ log.lastIndex then
      match setAndGetBack st .logLastIndex (UInt32.ofNat (index - 1)) effective with
      | (.error err, st) => (.error err, log, st)
      | (.ok newLastIndex, st) =>
        if newLastIndex ≠ UInt32.ofNat (index - 1) then (.error .failure, log, st)
        else (.ok (), ⟨log.entries, index - 1, Nat.lt_of_le_of_lt (Nat.sub_le _ _) range.1⟩, st)
    -- Removal operation leaves dangling entries in storage, it's OK
    else (.ok (), log, st)
  else (.error .logic, log, st)

/-! ## The list view -/

@[simp] theorem length_list : log.list.length = log.lastIndex + 1 := by
  simp [list]

theorem getElem?_list (i : ℕ) : log.list[i]? = log.getEntryAtIndex i := by
  unfold getEntryAtIndex list
  split
  · simp [Nat.lt_succ_of_le ‹_›]
  · simpa using Nat.succ_le_of_lt (Nat.lt_of_not_le ‹_›)

theorem getElem_list (i : ℕ) (inside : i < log.list.length) :
    log.list[i] = log.entries i := by
  simp [list]

variable {log log' : Log} {st st' : Storage} {index : ℕ} {entry : Entry} {w : EntryWrites}
  {result : Except Err Unit}

theorem list_congr (last : log'.lastIndex = log.lastIndex)
    (same : ∀ i ≤ log.lastIndex, log'.entries i = log.entries i) : log'.list = log.list := by
  unfold list
  rw [last]
  exact map_congr_left fun i mem => same i (Nat.le_of_lt_succ (mem_range.mp mem))

theorem list_snoc (log : Log) (entry : Entry) (room : log.lastIndex + 1 < 128) :
    (⟨update log.entries (log.lastIndex + 1) entry, log.lastIndex + 1, room⟩ : Log).list =
      log.list ++ [entry] := by
  rw [list, range_succ, map_append]
  congr 1
  · refine map_congr_left fun i mem => ?_
    exact update_of_ne (Nat.ne_of_lt (mem_range.mp mem)) _ _
  · simp

theorem list_take (log : Log) {last : ℕ} (le : last ≤ log.lastIndex) (bound : last < 128) :
    (⟨log.entries, last, bound⟩ : Log).list = log.list.take (last + 1) := by
  rw [list, list, ← map_take, take_range, Nat.min_eq_left (Nat.succ_le_succ le)]

/-! ## The stored copy -/

/-- The storage holds `entry` under `index`; the node ID is read back as a byte. -/
def EntryStored (st : Storage) (index : ℕ) (entry : Entry) : Prop :=
  get st (.logTerm index) = .ok entry.term ∧
    getUniqueID st (.logUniqueId index) = .ok entry.uniqueId ∧
    ∃ nodeId, get st (.logNodeId index) = .ok nodeId ∧ nodeId.toUInt8 = entry.nodeId

/-- The storage agrees with the log in memory. -/
structure Stored (log : Log) (st : Storage) : Prop where
  lastIndex : get st .logLastIndex = .ok (UInt32.ofNat log.lastIndex)
  entries : ∀ i ≤ log.lastIndex, EntryStored st i (log.entries i)

/-- The keys that belong to the entry at `index`. -/
@[simp] def entryKeys (index : ℕ) : List Key := [.logTerm index, .logUniqueId index, .logNodeId index]

theorem not_mem_entryKeys {key : Key} {i j : ℕ} (own : key ∈ entryKeys i) (other : i ≠ j) : key ∉ entryKeys j := by
  simp only [entryKeys, mem_cons, not_mem_nil, or_false] at own ⊢
  rcases own with rfl | rfl | rfl <;> simp [other]

theorem EntryStored.congr (stored : EntryStored st index entry) (same : ∀ key ∈ entryKeys index, st' key = st key) :
    EntryStored st' index entry := by
  unfold EntryStored
  rw [get_congr (same _ (by simp)), getUniqueID_congr (same _ (by simp)),
    get_congr (same _ (by simp))]
  exact stored

/-- A write to another key leaves the log as it is stored. -/
theorem Stored.congr (stored : log.Stored st) {key : Key} (frame : ∀ other, other ≠ key → st' other = st other)
    (last : .logLastIndex ≠ key) (entries : ∀ i, key ∉ entryKeys i) : log.Stored st' where
  lastIndex := (get_congr (frame _ last)).trans stored.lastIndex
  entries := fun i le => (stored.entries i le).congr fun _ own => frame _ (ne_of_mem_of_not_mem own (entries i))

/-- Writing an entry touches its own keys only, and reports success only with the entry stored. -/
theorem writeEntryToStorage_cases (run : writeEntryToStorage st index entry w = (result, st')) :
    (∀ key, key ∉ entryKeys index → st' key = st key) ∧
      (result = .ok () → EntryStored st' index entry) := by
  unfold writeEntryToStorage at run
  split at run
  case h_1 st₁ write₁ =>
    obtain ⟨frame₁, -, -⟩ := setAndGetBack_cases write₁
    cases run
    refine ⟨fun key other => frame₁ key ?_, nofun⟩
    rintro rfl
    simp [entryKeys] at other
  case h_2 term st₁ write₁ =>
  obtain ⟨frame₁, read₁, -⟩ := setAndGetBack_cases write₁
  split at run
  case h_1 st₂ write₂ =>
    obtain ⟨frame₂, -, -⟩ := setAndGetBackUniqueID_cases write₂
    cases run
    refine ⟨fun key other => ?_, nofun⟩
    simp only [entryKeys, mem_cons, not_or] at other
    exact (frame₂ key other.2.1).trans (frame₁ key other.1)
  case h_2 uniqueId st₂ write₂ =>
  obtain ⟨frame₂, read₂, -⟩ := setAndGetBackUniqueID_cases write₂
  have frames : ∀ st₃ : Storage, (∀ other, other ≠ Key.logNodeId index → st₃ other = st₂ other) →
      ∀ key, key ∉ entryKeys index → st₃ key = st key := by
    intro st₃ frame₃ key other
    simp only [entryKeys, mem_cons, not_mem_nil, or_false, not_or] at other
    exact (frame₃ key other.2.2).trans ((frame₂ key other.2.1).trans (frame₁ key other.1))
  split at run
  case h_1 st₃ write₃ =>
    obtain ⟨frame₃, -, -⟩ := setAndGetBack_cases write₃
    cases run
    exact ⟨frames _ frame₃, nofun⟩
  case h_2 nodeId st₃ write₃ =>
  obtain ⟨frame₃, read₃, -⟩ := setAndGetBack_cases write₃
  split at run
  case isFalse =>
    cases run
    exact ⟨frames _ frame₃, nofun⟩
  case isTrue same =>
    cases run
    refine ⟨frames _ frame₃, fun _ => ?_⟩
    subst same
    refine ⟨?_, ?_, nodeId, read₃, rfl⟩
    · rw [get_congr (frame₃ _ (by simp)), get_congr (frame₂ _ (by simp)), read₁]
    · rw [getUniqueID_congr (frame₃ _ (by simp)), read₂]

/-- Writing an entry that is stored already, or with every write taking effect, succeeds. -/
theorem writeEntryToStorage_ok (run : writeEntryToStorage st index entry w = (result, st'))
    (fine : EntryStored st index entry ∨ (w.term ∧ w.uniqueId ∧ w.nodeId)) : result = .ok () := by
  have back : entry.nodeId.toUInt32.toUInt8 = entry.nodeId := by simp
  unfold writeEntryToStorage at run
  rcases write₁ : setAndGetBack st (.logTerm index) entry.term w.term with ⟨term, st₁⟩
  obtain ⟨frame₁, read₁, effect₁⟩ := setAndGetBack_cases write₁
  have term_eq : term = .ok entry.term := by
    rcases effect₁ with ⟨-, eq⟩ | ⟨lost, rfl⟩
    · exact eq
    · rcases fine with stored | writes
      · exact read₁.symm.trans stored.1
      · simp [lost] at writes
  subst term_eq
  rcases write₂ : setAndGetBackUniqueID st₁ (.logUniqueId index) entry.uniqueId w.uniqueId with
    ⟨uniqueId, st₂⟩
  obtain ⟨frame₂, read₂, effect₂⟩ := setAndGetBackUniqueID_cases write₂
  have uniqueId_eq : uniqueId = .ok entry.uniqueId := by
    rcases effect₂ with ⟨-, eq⟩ | ⟨lost, rfl⟩
    · exact eq
    · rcases fine with stored | writes
      · rw [← read₂, getUniqueID_congr (frame₁ _ (by simp)), stored.2.1]
      · simp [lost] at writes
  subst uniqueId_eq
  rcases write₃ : setAndGetBack st₂ (.logNodeId index) entry.nodeId.toUInt32 w.nodeId with
    ⟨nodeId, st₃⟩
  obtain ⟨frame₃, read₃, effect₃⟩ := setAndGetBack_cases write₃
  have nodeId_eq : ∃ value, nodeId = .ok value ∧ value.toUInt8 = entry.nodeId := by
    rcases effect₃ with ⟨-, eq⟩ | ⟨lost, rfl⟩
    · exact ⟨_, eq, back⟩
    · rcases fine with stored | writes
      · obtain ⟨value, read, eq⟩ := stored.2.2
        rw [get_congr (frame₂ _ (by simp)), get_congr (frame₁ _ (by simp)), read] at read₃
        exact ⟨value, read₃.symm, eq⟩
      · simp [lost] at writes
  obtain ⟨value, rfl, eq⟩ := nodeId_eq
  simp only [write₁, write₂, write₃, eq] at run
  cases run
  rfl

theorem ofNat_index_inj {a b : ℕ} (ha : a ≤ 128) (hb : b ≤ 128)
    (same : ofNat a = ofNat b) : a = b := by
  have values := congrArg UInt32.toNat same
  rw [toNat_ofNat_of_lt' (Nat.lt_of_le_of_lt ha (by decide)),
    toNat_ofNat_of_lt' (Nat.lt_of_le_of_lt hb (by decide))] at values
  exact values

/-- A key of an entry above the log is no key of the log. -/
theorem Stored.of_frame (stored : log.Stored st)
    (last : get st' .logLastIndex = .ok (ofNat log.lastIndex))
    (frame : ∀ key, key ≠ .logLastIndex → key ∉ entryKeys (log.lastIndex + 1) → st' key = st key) :
    log.Stored st' where
  lastIndex := last
  entries := by
    intro i le
    exact (stored.entries i le).congr fun _ own =>
      frame _ (ne_of_mem_of_not_mem own (by simp)) (not_mem_entryKeys own (by omega))

/-- An append leaves the log as it was or puts the entry at its end, in memory and in the storage
alike.  It cannot succeed without the write of the last index, which comes after those of the entry. -/
theorem append_cases (run : log.append st entry w = (result, log', st')) (stored : log.Stored st) :
    log'.Stored st' ∧
      (∀ key, key ≠ .logLastIndex → key ∉ entryKeys (log.lastIndex + 1) → st' key = st key) ∧
      (result ≠ .ok () → log' = log) ∧
      (result = .ok () → log'.list = log.list ++ [entry] ∧ log'.lastIndex = log.lastIndex + 1 ∧ w.lastIndex = true ∧
        ∃ st₁, writeEntryToStorage st (log.lastIndex + 1) entry w = (.ok (), st₁) ∧
          ∀ key, key ≠ .logLastIndex → st' key = st₁ key) := by
  have bound := log.lastIndex_lt
  unfold append at run
  split at run
  case isFalse =>
    cases run
    exact ⟨stored, fun _ _ _ => rfl, fun _ => rfl, nofun⟩
  case isTrue room =>
  split at run
  case h_1 err st₁ write =>
    cases run
    obtain ⟨frame, -⟩ := writeEntryToStorage_cases write
    refine ⟨stored.of_frame ?_ fun key _ => frame key, fun key _ => frame key, fun _ => rfl, nofun⟩
    exact (get_congr (frame _ (by simp))).trans stored.lastIndex
  case h_2 st₁ write =>
  obtain ⟨frame₁, written⟩ := writeEntryToStorage_cases write
  have last₁ : get st₁ .logLastIndex = .ok (ofNat log.lastIndex) :=
    (get_congr (frame₁ _ (by simp))).trans stored.lastIndex
  rcases write₂ : setAndGetBack st₁ .logLastIndex (ofNat (log.lastIndex + 1)) w.lastIndex with
    ⟨read, st₂⟩
  obtain ⟨frame₂, found, effect⟩ := setAndGetBack_cases write₂
  have frame : ∀ key, key ≠ .logLastIndex → key ∉ entryKeys (log.lastIndex + 1) →
      st₂ key = st key := fun key other outside => (frame₂ key other).trans (frame₁ key outside)
  rw [write₂] at run
  rcases effect with ⟨effective, rfl⟩ | ⟨lost, rfl⟩
  · simp only [ne_eq] at run
    cases run
    refine ⟨⟨found, fun i le => ?_⟩, frame, fun failed => absurd rfl failed,
      fun _ => ⟨list_snoc log entry room, rfl, effective, st₁, write, frame₂⟩⟩
    rcases Nat.lt_or_eq_of_le le with below | rfl
    · have other : i ≠ log.lastIndex + 1 := Nat.ne_of_lt below
      simp only [update_of_ne other]
      exact (stored.entries i (Nat.le_of_lt_succ below)).congr fun _ own =>
        frame _ (ne_of_mem_of_not_mem own (by simp)) (not_mem_entryKeys own other)
    · simp only [update_self]
      exact (written rfl).congr fun _ own => frame₂ _ (ne_of_mem_of_not_mem own (by simp))
  · -- the write of the last index is lost, so the old index is read back
    have old : read = .ok (ofNat log.lastIndex) := found.symm.trans last₁
    have different : ofNat log.lastIndex ≠ ofNat (log.lastIndex + 1) := by
      intro same
      exact absurd (ofNat_index_inj (by omega) (by omega) same) (by omega)
    rw [old] at run
    simp only [ne_eq, different] at run
    cases run
    exact ⟨stored.of_frame last₁ frame, frame, fun _ => rfl, nofun⟩

/-- An append with room succeeds when the write of the last index takes effect and the entry is
stored already or its writes take effect. -/
theorem append_ok (run : log.append st entry w = (result, log', st'))
    (room : log.lastIndex + 1 < 128) (last : w.lastIndex = true)
    (fine : EntryStored st (log.lastIndex + 1) entry ∨ (w.term ∧ w.uniqueId ∧ w.nodeId)) :
    result = .ok () := by
  rcases write : writeEntryToStorage st (log.lastIndex + 1) entry w with ⟨written, st₁⟩
  obtain rfl := writeEntryToStorage_ok write fine
  rcases write₂ : setAndGetBack st₁ .logLastIndex (ofNat (log.lastIndex + 1)) w.lastIndex with
    ⟨read, st₂⟩
  obtain ⟨-, -, ⟨-, rfl⟩ | ⟨lost, -⟩⟩ := setAndGetBack_cases write₂
  · simp only [append, room, write, write₂, ne_eq] at run
    cases run
    rfl
  · rw [last] at lost
    cases lost

/-- Removing a tail cuts the log, in memory and in the storage alike, or leaves it as it was.  It
cannot succeed without its write where there is something to remove. -/
theorem remove_cases {effective : Bool}
    (run : log.removeEntriesWhereIndexGreaterOrEqual st index effective = (result, log', st'))
    (stored : log.Stored st) (inside : index ≤ log.lastIndex + 1) :
    log'.Stored st' ∧ (∀ key, key ≠ .logLastIndex → st' key = st key) ∧
      log'.entries = log.entries ∧
      (result ≠ .ok () → log' = log ∧ (index = 0 ∨ 128 ≤ index ∨ effective = false)) ∧
      (result = .ok () → 0 < index ∧ log'.list = log.list.take index ∧ log'.lastIndex = index - 1 ∧
        (effective = true ∨ index = log.lastIndex + 1)) := by
  have bound := log.lastIndex_lt
  unfold removeEntriesWhereIndexGreaterOrEqual at run
  split at run
  case isFalse outside =>
    cases run
    refine ⟨stored, fun _ _ => rfl, rfl, fun _ => ⟨rfl, ?_⟩, nofun⟩
    simp only [capacity] at outside
    omega
  case isTrue range =>
  split at run
  case isFalse same =>
    cases run
    have last : index = log.lastIndex + 1 := by omega
    refine ⟨stored, fun _ _ => rfl, rfl, fun failed => absurd rfl failed,
      fun _ => ⟨range.2, ?_, by omega, .inr last⟩⟩
    rw [take_of_length_le (by simp [last])]
  case isTrue different =>
  rcases write : setAndGetBack st .logLastIndex (ofNat (index - 1)) effective with ⟨read, st₁⟩
  obtain ⟨frame, found, effect⟩ := setAndGetBack_cases write
  rw [write] at run
  rcases effect with ⟨kept, rfl⟩ | ⟨lost, rfl⟩
  · simp only [ne_eq] at run
    cases run
    refine ⟨⟨found, fun i le => ?_⟩, frame, rfl, fun failed => absurd rfl failed,
      fun _ => ⟨range.2, ?_, rfl, .inl kept⟩⟩
    · exact (stored.entries i (by simp only at le; omega)).congr fun _ own =>
        frame _ (ne_of_mem_of_not_mem own (by simp))
    · rw [list_take log (by omega)]
      congr 1
      omega
  · have old : read = .ok (ofNat log.lastIndex) := found.symm.trans stored.lastIndex
    have changed : ofNat log.lastIndex ≠ ofNat (index - 1) := by
      intro same
      exact different (ofNat_index_inj (by omega) (by omega) same).symm
    rw [old] at run
    simp only [ne_eq, changed] at run
    cases run
    exact ⟨stored, fun _ _ => rfl, rfl, fun _ => ⟨rfl, .inr (.inr lost)⟩, nofun⟩

/-! ## Restart -/

theorem readEntryFromStorage_eq {entry' : Entry} (stored : EntryStored st index entry)
    (read : readEntryFromStorage st index = .ok entry') :
    entry' = entry := by
  obtain ⟨term, uniqueId, nodeId, nodeId_read, nodeId_eq⟩ := stored
  simp only [readEntryFromStorage, term, uniqueId, nodeId_read] at read
  split at read
  · cases read
  · cases read
    rw [nodeId_eq]

theorem read_of_restoreEntries {entries : ℕ → Entry} {count : ℕ} (run : restoreEntries st count = .ok entries) :
    ∀ i < count, readEntryFromStorage st i = .ok (entries i) := by
  induction count generalizing entries with
  | zero => exact fun i below => absurd below (Nat.not_lt_zero i)
  | succ count ih =>
    simp only [restoreEntries] at run
    split at run
    case h_1 => cases run
    case h_2 before loop =>
    split at run
    case h_1 => cases run
    case h_2 entry last =>
    cases run
    intro i below
    rcases Nat.lt_succ_iff_lt_or_eq.mp below with below | rfl
    · rw [update_of_ne (Nat.ne_of_lt below)]
      exact ih loop i below
    · rw [update_self]
      exact last

/-- A restart that finds a stored log restores it, and writes nothing. -/
theorem init_eq_of_stored (stored : log.Stored st) (run : init st w = (.ok log', st')) :
    st' = st ∧ log'.Stored st ∧ log'.list = log.list := by
  have small : (ofNat log.lastIndex).toNat = log.lastIndex :=
    toNat_ofNat_of_lt' (Nat.lt_trans log.lastIndex_lt (by decide))
  simp only [init, stored.lastIndex] at run
  split at run
  case isFalse => cases run
  case isTrue bound =>
  split at run
  · cases run
  · rename_i entries loop
    cases run
    have same : ∀ i ≤ log.lastIndex, entries i = log.entries i := fun i le =>
      readEntryFromStorage_eq (stored.entries i le) (read_of_restoreEntries loop i (by omega))
    refine ⟨rfl, ⟨?_, fun i le => ?_⟩, list_congr small same⟩
    · simpa only [small] using stored.lastIndex
    · simp only [small] at le
      simp only [same i le]
      exact stored.entries i le

/-- The first start of a server leaves the log with the zero entry alone. -/
theorem init_empty (missing : st .logLastIndex = []) (run : init st w = (.ok log, st')) :
    log.Stored st' ∧ log.list = [Entry.zero] ∧ log.lastIndex = 0 ∧
      (∀ key, key ≠ .logLastIndex → key ∉ entryKeys 0 → st' key = st key) ∧
      ∃ st₁, writeEntryToStorage st 0 Entry.zero w = (.ok (), st₁) ∧
        ∀ key, key ≠ .logLastIndex → st' key = st₁ key := by
  have unread : get st .logLastIndex = .error .failure := by
    simp [StorageMarshaller.get, missing]
  simp only [init, unread, missing, isEmpty_nil, if_true] at run
  unfold initEmptyLogStorage at run
  split at run
  case h_1 => cases run
  case h_2 st₁ write =>
  obtain ⟨frame₁, written⟩ := writeEntryToStorage_cases write
  split at run
  case h_1 => cases run
  case h_2 storedIndex st₂ write₂ =>
  obtain ⟨frame₂, found, -⟩ := setAndGetBack_cases write₂
  split at run
  case isTrue => cases run
  case isFalse zero =>
  cases run
  obtain rfl : storedIndex = 0 := Decidable.not_not.mp zero
  refine ⟨⟨found, fun i le => ?_⟩, rfl, rfl, fun key other outside => ?_, st₁, write, frame₂⟩
  · obtain rfl := Nat.le_zero.mp le
    exact (written rfl).congr fun _ own => frame₂ _ (ne_of_mem_of_not_mem own (by simp))
  · exact (frame₂ key other).trans (frame₁ key outside)

end Log

end Uavcan
