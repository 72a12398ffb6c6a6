import Mathlib.Algebra.GroupWithZero.Nat

/-!
# Transfer identifiers

The small value types of `uavcan/transport/transfer.hpp`: node IDs, transfer IDs, transfer types
and priorities, and the counters of transfers.  Every other module of the development builds on them.
-/

namespace Uavcan

/-- The error codes of `uavcan/error.hpp` that the modelled functions return. -/
inductive Err
  | failure
  | invalidParam
  | memory
  | driver
  | logic
  | transferTooLong
  | invalidConfiguration
  | passiveMode
  deriving DecidableEq

/-- A CAN node ID: zero is the broadcast address, `0xFF` the value of a default-built ID. -/
@[ext] structure NodeID where
  value : UInt8
  deriving DecidableEq

namespace NodeID

def max : UInt8 := 127

def maxRecommendedForRegularNodes : UInt8 := max - 2

def broadcast : NodeID := ⟨0⟩

def invalid : NodeID := ⟨0xFF⟩

def isValid (n : NodeID) : Bool := n.value ≤ max

def isBroadcast (n : NodeID) : Bool := n.value = 0

def isUnicast (n : NodeID) : Bool := n.value ≤ max && n.value ≠ 0

variable {n : NodeID}

theorem isValid_of_isUnicast (unicast : n.isUnicast) : n.isValid := by
  simp only [isUnicast, Bool.and_eq_true] at unicast ⊢
  exact unicast.1

theorem isBroadcast_eq_false (unicast : n.isUnicast) : n.isBroadcast = false := by
  simp_all [isUnicast, isBroadcast]

theorem toNat_ne_zero (unicast : n.isUnicast) : n.value.toNat ≠ 0 := fun zero =>
  of_decide_eq_false (isBroadcast_eq_false unicast) (UInt8.toNat_inj.mp zero)

theorem toNat_le (valid : n.isValid) : n.value.toNat ≤ 127 :=
  UInt8.le_iff_toNat_le.mp (of_decide_eq_true valid)

end NodeID

/-! ## Transfers -/

inductive TransferType
  | serviceResponse
  | serviceRequest
  | messageBroadcast
  | numTransferTypes
  deriving DecidableEq

structure TransferPriority where
  value : UInt8
  deriving DecidableEq

def TransferPriority.isValid (priority : TransferPriority) : Bool := priority.value < 32

theorem TransferPriority.toNat_lt {priority : TransferPriority} (valid : priority.isValid) :
    priority.value.toNat < 32 :=
  UInt8.lt_iff_toNat_lt.mp (of_decide_eq_true valid)

/-- A transfer ID has five bits. -/
structure TransferID where
  value : Fin 32
  deriving DecidableEq

namespace TransferID

-- `0` and `1` of `Fin 32` find it under this name in every module
instance instNeZero : NeZero 32 := ⟨by decide⟩

def half : ℤ := 16

/-- The constructor keeps the lower five bits of a byte. -/
def ofByte (byte : UInt8) : TransferID := ⟨⟨byte.toNat % 32, Nat.mod_lt _ (by decide)⟩⟩

def get (tid : TransferID) : UInt8 := UInt8.ofNat tid.value

def increment (tid : TransferID) : TransferID := ⟨tid.value + 1⟩

def computeForwardDistance (tid rhs : TransferID) : ℤ :=
  let d : ℤ := (rhs.value.val : ℤ) - tid.value.val
  if d < 0 then d + 32 else d

@[simp] theorem val_increment (tid : TransferID) :
    (tid.increment.value : ℕ) = (tid.value.val + 1) % 32 := rfl

theorem increment_ne (tid : TransferID) : tid.increment ≠ tid := by
  intro same
  have values := congrArg (fun tid => (tid.value : ℕ)) same
  simp only [val_increment] at values
  omega

theorem computeForwardDistance_eq (tid rhs : TransferID) :
    tid.computeForwardDistance rhs = ((rhs.value.val : ℤ) - tid.value.val) % 32 := by
  unfold computeForwardDistance
  simp only
  split <;> omega

end TransferID

inductive DataTypeKind
  | service
  | message
  deriving DecidableEq

def getDataTypeKindForTransferType : TransferType → DataTypeKind
  | .serviceResponse => .service
  | .serviceRequest => .service
  | .messageBroadcast => .message
  | .numTransferTypes => .service

/-- A data type ID has 16 bits; a default-built one has a value beyond them. -/
@[ext] structure DataTypeID where
  value : UInt32
  deriving DecidableEq

namespace DataTypeID

def ofUInt16 (id : UInt16) : DataTypeID := ⟨id.toUInt32⟩

def getMaxValueForDataTypeKind : DataTypeKind → UInt32
  | .service => 255
  | .message => 65535

def isValidForDataTypeKind (id : DataTypeID) (kind : DataTypeKind) : Bool :=
  id.value ≤ getMaxValueForDataTypeKind kind

def get (id : DataTypeID) : UInt16 := id.value.toUInt16

end DataTypeID

/-- The counters of transfers and errors that a dispatcher and its listeners share. -/
structure TransferPerfCounter where
  transfersTx : UInt64
  transfersRx : UInt64
  errors : UInt64

namespace TransferPerfCounter

variable (perf : TransferPerfCounter)

def addTxTransfer : TransferPerfCounter := { perf with transfersTx := perf.transfersTx + 1 }

def addRxTransfer : TransferPerfCounter := { perf with transfersRx := perf.transfersRx + 1 }

def addError : TransferPerfCounter := { perf with errors := perf.errors + 1 }

def addErrors (errors : ℕ) : TransferPerfCounter :=
  { perf with errors := perf.errors + UInt64.ofNat errors }

end TransferPerfCounter

end Uavcan
