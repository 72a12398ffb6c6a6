import Uavcan.Transport.Frame

/-!
# Arbitration of CAN frames

When two nodes send at the same time, the bus decides by the identifiers which frame goes first.
`priorityHigherThan` compares frames of both formats in this way.
-/

namespace Uavcan

namespace CanFrame

/-- Whether a frame wins against another one on the bus. -/
def priorityHigherThan (f rhs : CanFrame) : Bool :=
  let cleanId := f.id &&& maskExtID
  let rhsCleanId := rhs.id &&& maskExtID
  let ext := f.isExtended
  let rhsExt := rhs.isExtended
  if ext ≠ rhsExt then
    -- if the 11 most significant bits are the same, the extended frame loses
    let arb11 := if ext then cleanId >>> 18 else cleanId
    let rhsArb11 := if rhsExt then rhsCleanId >>> 18 else rhsCleanId
    if arb11 ≠ rhsArb11 then arb11 < rhsArb11 else rhsExt
  else
    let rtr := f.isRemoteTransmissionRequest
    let rhsRtr := rhs.isRemoteTransmissionRequest
    -- if the identifiers are the same, the remote frame loses
    if cleanId = rhsCleanId && rtr ≠ rhsRtr then rhsRtr
    else cleanId < rhsCleanId

def priorityLowerThan (f rhs : CanFrame) : Bool := rhs.priorityHigherThan f

/-- The bits by which the bus decides, as a number; the lowest wins. -/
def arbitration (f : CanFrame) : ℕ :=
  let cleanId := (f.id &&& maskExtID).toNat
  let rtr := if f.isRemoteTransmissionRequest then 1 else 0
  if f.isExtended then ((cleanId / 2 ^ 18 * 2 + 1) * 2 ^ 18 + cleanId % 2 ^ 18) * 2 + rtr
  else cleanId * 2 * 2 ^ 18 * 2 + rtr

theorem priorityHigherThan_iff (f rhs : CanFrame) :
    f.priorityHigherThan rhs ↔ f.arbitration < rhs.arbitration := by
  simp only [priorityHigherThan, arbitration]
  generalize f.isExtended = ext, rhs.isExtended = rhsExt
  generalize f.isRemoteTransmissionRequest = rtr, rhs.isRemoteTransmissionRequest = rhsRtr
  cases ext <;> cases rhsExt <;> cases rtr <;> cases rhsRtr <;>
    simp [← UInt32.toNat_inj, UInt32.lt_iff_toNat_lt] <;> omega

theorem isStrictWeakOrder_priorityHigherThan :
    IsStrictWeakOrder CanFrame fun f rhs => f.priorityHigherThan rhs where
  irrefl f := by simp [priorityHigherThan_iff]
  trans f g h := by
    simp only [priorityHigherThan_iff]
    exact Nat.lt_trans
  incomp_trans f g h := by
    simp only [priorityHigherThan_iff]
    omega

end CanFrame

end Uavcan
