import Uavcan.Transport.TransferSender

/-!
# The registry of outgoing transfers

The registry keeps the next transfer ID of every data type, type of transfer and destination that a node
sends to.  An entry lives for some time after the last transfer; when `cleanup` removes it, the transfer IDs
start again from zero.
-/

namespace Uavcan

/-- A time in microseconds plus a duration; the sum is kept within 64 bits. -/
def timeAdd (time : ℕ) (duration : ℤ) : ℕ :=
  if duration < 0 then
    if duration.natAbs > time then 0 else ((time + duration) % 2 ^ 64).toNat
  else if ((time + duration) % 2 ^ 64).toNat < time then 2 ^ 64 - 1
  else ((time + duration) % 2 ^ 64).toNat

/-- A time plus a positive duration: the sum, or the latest time that there is. -/
theorem timeAdd_eq_min {time : ℕ} {duration : ℤ} (bound : time < 2 ^ 64) (positive : 0 ≤ duration)
    (small : duration < 2 ^ 63) : timeAdd time duration = min (time + duration.toNat) (2 ^ 64 - 1) := by
  obtain ⟨d, rfl⟩ := Int.eq_ofNat_of_zero_le positive
  have sum : (((time : ℤ) + (d : ℤ)) % 2 ^ 64).toNat = (time + d) % 2 ^ 64 := by omega
  unfold timeAdd
  rw [if_neg (by omega)]
  split
  · omega
  · omega

structure OutgoingTransferRegistryKey where
  dataTypeId : DataTypeID
  transferType : TransferType
  destinationNodeId : NodeID
  deriving DecidableEq

/-- An entry of the registry: when it expires, and the next transfer ID. -/
structure OutgoingTransferRegistry.Value where
  deadline : ℕ
  tid : TransferID
  deriving DecidableEq

structure OutgoingTransferRegistry where
  map : OutgoingTransferRegistryKey → Option OutgoingTransferRegistry.Value

namespace OutgoingTransferRegistry

def minEntryLifetime : ℤ := 2000 * 1000

variable (reg : OutgoingTransferRegistry) (key : OutgoingTransferRegistryKey)

def put (value : Value) : OutgoingTransferRegistry := ⟨Function.update reg.map key (some value)⟩

/-- The transfer ID of an entry, which is made if need be and if `mem` says that there is memory for it. -/
def accessOrCreate (mem : Bool) (newDeadline : ℕ) : Option TransferID × OutgoingTransferRegistry :=
  match reg.map key with
  | some value => (some value.tid, reg.put key { value with deadline := newDeadline })
  | none => if mem then (some ⟨0⟩, reg.put key ⟨newDeadline, ⟨0⟩⟩) else (none, reg)

def cleanup (ts : ℕ) : OutgoingTransferRegistry :=
  ⟨fun key => (reg.map key).filter fun value => !decide (value.deadline ≤ ts)⟩

/-- `increment` through the pointer that `accessOrCreate` returns. -/
def incrementTid : OutgoingTransferRegistry :=
  match reg.map key with
  | some value => reg.put key { value with tid := value.tid.increment }
  | none => reg

end OutgoingTransferRegistry

namespace TransferSender

variable (s : TransferSender)

/-- When the entry of a transfer expires that is to be sent until `txDeadline`. -/
def otrDeadline (txDeadline : ℕ) : ℕ :=
  timeAdd txDeadline (max ((s.maxTransferInterval * 2).bmod (2 ^ 64))
    OutgoingTransferRegistry.minEntryLifetime)

/-- `send` with the next transfer ID from the registry. -/
def sendNext (reg : OutgoingTransferRegistry) (mem : Bool) (io : ℕ → Except Err ℕ)
    (perf : TransferPerfCounter) (payload : List UInt8) (txDeadline : ℕ) (transferType : TransferType)
    (dstNodeId : NodeID) :
    (Except Err ℕ × List CanFrame × TransferPerfCounter) × OutgoingTransferRegistry :=
  let otrKey : OutgoingTransferRegistryKey := ⟨s.dataTypeId, transferType, dstNodeId⟩
  match reg.accessOrCreate otrKey mem (s.otrDeadline txDeadline) with
  | (none, reg) => ((.error .memory, [], perf), reg)
  | (some tid, reg) => (s.send io perf payload transferType dstNodeId tid, reg.incrementTid otrKey)

end TransferSender

/-! ## What the functions do -/

namespace OutgoingTransferRegistry

variable {reg : OutgoingTransferRegistry} {key : OutgoingTransferRegistryKey}

/-- The transfer ID of the next transfer. -/
def nextTid (reg : OutgoingTransferRegistry) (key : OutgoingTransferRegistryKey) : TransferID :=
  ((reg.map key).map Value.tid).getD ⟨0⟩

theorem map_put (value : Value) : (reg.put key value).map key = some value := Function.update_self ..

theorem incrementTid_put (value : Value) :
    (reg.put key value).incrementTid key =
      (reg.put key value).put key { value with tid := value.tid.increment } := by
  simp only [incrementTid, map_put]

/-- An entry that is not there, or is made, has transfer ID zero. -/
theorem accessOrCreate_eq {mem : Bool} (possible : mem = true ∨ (reg.map key).isSome) (newDeadline : ℕ) :
    reg.accessOrCreate key mem newDeadline =
      (some (reg.nextTid key), reg.put key ⟨newDeadline, reg.nextTid key⟩) := by
  unfold accessOrCreate nextTid
  cases present : reg.map key with
  | some value => rfl
  | none =>
    rw [present] at possible
    simp only [Option.isSome_none, Bool.false_eq_true, or_false] at possible
    simp [possible]

/-- An entry is removed only if it has expired. -/
theorem cleanup_cases (ts : ℕ) {value : Value} (present : reg.map key = some value) :
    (reg.cleanup ts).map key = some value ∨ (reg.cleanup ts).map key = none ∧ value.deadline ≤ ts := by
  simp only [cleanup, present]
  by_cases expired : value.deadline ≤ ts
  · exact .inr ⟨by simp [expired], expired⟩
  · exact .inl (by simp [expired])

theorem cleanup_of_none (ts : ℕ) (absent : reg.map key = none) : (reg.cleanup ts).map key = none := by
  simp [cleanup, absent]

end OutgoingTransferRegistry

namespace TransferSender

variable {s : TransferSender}

/-- An entry lives two seconds at least, as long as the clock can tell. -/
theorem le_otrDeadline {time txDeadline : ℕ} (inTime : time ≤ txDeadline) (bound : txDeadline < 2 ^ 64) :
    min (time + 2000000) (2 ^ 64 - 1) ≤ s.otrDeadline txDeadline := by
  have least : (2000000 : ℤ) ≤ max ((s.maxTransferInterval * 2).bmod (2 ^ 64))
      OutgoingTransferRegistry.minEntryLifetime := le_max_right ..
  have most : max ((s.maxTransferInterval * 2).bmod (2 ^ 64)) OutgoingTransferRegistry.minEntryLifetime <
      2 ^ 63 := by
    have := Int.bmod_lt (x := s.maxTransferInterval * 2) (m := 2 ^ 64) (by decide)
    exact max_lt (by omega) (by decide)
  rw [otrDeadline, timeAdd_eq_min bound (by omega) most]
  omega

/-- The transfer goes out with the next transfer ID of its entry, which then has the one after it. -/
theorem sendNext_eq {reg : OutgoingTransferRegistry} {mem : Bool} {transferType : TransferType}
    {dstNodeId : NodeID} {key : OutgoingTransferRegistryKey}
    (own : key = ⟨s.dataTypeId, transferType, dstNodeId⟩) (possible : mem = true ∨ (reg.map key).isSome)
    (io : ℕ → Except Err ℕ) (perf : TransferPerfCounter) (payload : List UInt8) (txDeadline : ℕ) :
    (s.sendNext reg mem io perf payload txDeadline transferType dstNodeId).1 =
        s.send io perf payload transferType dstNodeId (reg.nextTid key) ∧
      (s.sendNext reg mem io perf payload txDeadline transferType dstNodeId).2.map key =
        some ⟨s.otrDeadline txDeadline, (reg.nextTid key).increment⟩ := by
  subst own
  simp [sendNext, OutgoingTransferRegistry.accessOrCreate_eq possible,
    OutgoingTransferRegistry.incrementTid_put, OutgoingTransferRegistry.map_put]

theorem sendNext_of_none {reg : OutgoingTransferRegistry} {transferType : TransferType} {dstNodeId : NodeID}
    (absent : reg.map ⟨s.dataTypeId, transferType, dstNodeId⟩ = none) (io : ℕ → Except Err ℕ)
    (perf : TransferPerfCounter) (payload : List UInt8) (txDeadline : ℕ) :
    s.sendNext reg false io perf payload txDeadline transferType dstNodeId =
      ((.error .memory, [], perf), reg) := by
  simp [sendNext, OutgoingTransferRegistry.accessOrCreate, absent]

end TransferSender

end Uavcan
