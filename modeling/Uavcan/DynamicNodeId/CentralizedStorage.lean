import Uavcan.DynamicNodeId.NodeDiscoverer

/-!
# The storage of the centralized server

`centralized::Storage` keeps a node ID for each unique ID and, in one more value, a mask of the node IDs that
are taken. The mask in memory is always the stored one (`Loaded`). `add` writes the node ID before the mask: a
stored node ID is in the mask only if no `add` lost its second write alone.
-/

namespace Uavcan

/-- Which node IDs are taken, by their values. -/
abbrev OccupationMask := Vector Bool 128

namespace OccupationMask

/-- The byte with these bits. -/
def byteOf (bits : List Bool) : UInt8 :=
  bits.zipIdx.foldl (fun byte (set, bit) => if set then byte ||| (1 <<< UInt8.ofNat bit) else byte) 0

def bitOf (byte : UInt8) (bit : ℕ) : Bool := byte &&& (1 <<< UInt8.ofNat bit) ≠ 0

variable (mask : OccupationMask)

def isSet (index : ℕ) : Bool := mask[index]?.getD false

def maskFromArray (array : UniqueID) : OccupationMask :=
  Vector.ofFn fun i => bitOf (array.toList.getD (i.val / 8) 0) (i.val % 8)

def maskToArray : UniqueID :=
  Vector.ofFn fun byte => byteOf ((List.range 8).map fun bit => mask.isSet (byte.val * 8 + bit))

/-- The mask with one more node ID. -/
def mark (index : ℕ) : OccupationMask := mask.setIfInBounds index true

theorem bitOf_byteOf : ∀ b₀ b₁ b₂ b₃ b₄ b₅ b₆ b₇ : Bool, ∀ n < 8,
    bitOf (byteOf [b₀, b₁, b₂, b₃, b₄, b₅, b₆, b₇]) n = [b₀, b₁, b₂, b₃, b₄, b₅, b₆, b₇].getD n false := by
  decide +kernel

theorem bitOf_byteOf_map (f : ℕ → Bool) {n : ℕ} (below : n < 8) : bitOf (byteOf ((List.range 8).map f)) n = f n := by
  have eight : (List.range 8).map f = [f 0, f 1, f 2, f 3, f 4, f 5, f 6, f 7] := rfl
  rw [eight, bitOf_byteOf _ _ _ _ _ _ _ _ n below, ← eight]
  simp [below]

/-- A mask is read back as it was written. -/
theorem maskFromArray_maskToArray : maskFromArray (maskToArray mask) = mask := by
  ext i inside
  have byte : (maskToArray mask).toList.getD (i / 8) 0 =
      byteOf ((List.range 8).map fun bit => mask.isSet (i / 8 * 8 + bit)) := by
    have below : i / 8 < (maskToArray mask).toList.length := by
      rw [Vector.length_toList]
      omega
    rw [List.getD, List.getElem?_eq_getElem below, Option.getD_some, Vector.getElem_toList]
    unfold maskToArray
    rw [Vector.getElem_ofFn]
  rw [maskFromArray, Vector.getElem_ofFn]
  rw [byte, bitOf_byteOf_map _ (Nat.mod_lt _ (by decide)), Nat.div_add_mod' i 8, isSet,
    Vector.getElem?_eq_getElem inside, Option.getD_some]

theorem isSet_mark {mask : OccupationMask} {index other : ℕ} (inside : index < 128) :
    (mask.mark index).isSet other = (decide (other = index) || mask.isSet other) := by
  unfold isSet mark
  by_cases same : other = index
  · subst same
    simp [inside]
  · simp [same, Ne.symm same]

end OccupationMask

/-- Whether the two writes of `add` take effect. -/
structure AddWrites where
  nodeId : Bool
  mask : Bool
  deriving DecidableEq

def AddWrites.all : AddWrites := ⟨true, true⟩

structure CentralizedStorage where
  storage : Storage
  occupationMask : OccupationMask

namespace CentralizedStorage

open StorageMarshaller OccupationMask

/-- The mask that `init` finds; without a valid value it is empty. -/
def storedMask (st : Storage) : OccupationMask :=
  match getUniqueID st .occupationMask with
  | .ok array => maskFromArray array
  | .error _ => maskFromArray (Vector.replicate 16 0)

/-- This method reads only the occupation mask from the storage. -/
def init (st : Storage) : CentralizedStorage := ⟨st, storedMask st⟩

def add (s : CentralizedStorage) (nodeId : NodeID) (uniqueId : UniqueID) (w : AddWrites) :
    Except Err Unit × CentralizedStorage :=
  if !nodeId.isUnicast then (.error .invalidParam, s)
  else
    -- If next operations fail, we'll get a dangling entry, but it's absolutely OK
    match setAndGetBack s.storage (.nodeIdOf uniqueId) nodeId.value.toUInt32 w.nodeId with
    | (.error err, st) => (.error err, { s with storage := st })
    | (.ok nodeIdInt, st) =>
      if nodeIdInt ≠ nodeId.value.toUInt32 then (.error .failure, { s with storage := st })
      else
        let newOccupationMask := s.occupationMask.mark nodeId.value.toNat
        match setAndGetBackUniqueID st .occupationMask (maskToArray newOccupationMask) w.mask with
        | (.error err, st) => (.error err, { s with storage := st })
        | (.ok occupationArray, st) =>
          if occupationArray ≠ maskToArray newOccupationMask then (.error .failure, { s with storage := st })
          else (.ok (), ⟨st, newOccupationMask⟩)

/-- The node ID that is stored for a unique ID, which may be out of range. -/
def getNodeIDForUniqueID (s : CentralizedStorage) (uniqueId : UniqueID) : NodeID :=
  match get s.storage (.nodeIdOf uniqueId) with
  | .ok nodeId => if nodeId > 0 ∧ nodeId ≤ NodeID.max.toUInt32 then ⟨nodeId.toUInt8⟩ else NodeID.invalid
  | .error _ => NodeID.invalid

def isNodeIDOccupied (s : CentralizedStorage) (nodeId : NodeID) : Bool :=
  s.occupationMask.isSet nodeId.value.toNat

/-! ## What `add` does -/

variable {s s' : CentralizedStorage} {nodeId other : NodeID} {uniqueId u : UniqueID} {w : AddWrites}
  {result : Except Err Unit}

theorem getNodeIDForUniqueID_congr (same : s'.storage (.nodeIdOf u) = s.storage (.nodeIdOf u)) :
    s'.getNodeIDForUniqueID u = s.getNodeIDForUniqueID u := by
  unfold getNodeIDForUniqueID
  rw [get_congr same]

theorem getNodeIDForUniqueID_of_get (unicast : nodeId.isUnicast)
    (found : get s.storage (.nodeIdOf u) = .ok nodeId.value.toUInt32) : s.getNodeIDForUniqueID u = nodeId := by
  have range : nodeId.value.toUInt32 > 0 ∧ nodeId.value.toUInt32 ≤ NodeID.max.toUInt32 := by
    simp only [NodeID.isUnicast, Bool.and_eq_true, decide_eq_true_eq] at unicast
    have positive : nodeId.value.toNat ≠ 0 := fun zero => unicast.2 (UInt8.toNat_inj.mp zero)
    have below := UInt8.le_iff_toNat_le.mp unicast.1
    exact ⟨Nat.pos_of_ne_zero positive, below⟩
  unfold getNodeIDForUniqueID
  simp only [found, if_pos range, UInt8.toUInt8_toUInt32]

theorem isNodeIDOccupied_mark (unicast : nodeId.isUnicast)
    (mask : s'.occupationMask = s.occupationMask.mark nodeId.value.toNat) :
    s'.isNodeIDOccupied other = (decide (other = nodeId) || s.isNodeIDOccupied other) := by
  have below := NodeID.toNat_le (NodeID.isValid_of_isUnicast unicast)
  have same : other.value.toNat = nodeId.value.toNat ↔ other = nodeId := by
    rw [UInt8.toNat_inj]
    cases other
    cases nodeId
    simp
  unfold isNodeIDOccupied
  rw [mask, isSet_mark (by omega), decide_eq_decide.mpr same]

theorem isNodeIDOccupied_of_mask (mask : s'.occupationMask = s.occupationMask) :
    s'.isNodeIDOccupied other = s.isNodeIDOccupied other := by
  unfold isNodeIDOccupied
  rw [mask]

/-- What `add` does: nothing, or only its first half, or all of it. -/
inductive Added (s : CentralizedStorage) (nodeId : NodeID) (uniqueId : UniqueID) (w : AddWrites) :
    Except Err Unit × CentralizedStorage → Prop
  | failed {err : Err} {s' : CentralizedStorage} (mask : s'.occupationMask = s.occupationMask)
      (ids : ∀ u, s'.getNodeIDForUniqueID u = s.getNodeIDForUniqueID u) : Added s nodeId uniqueId w (.error err, s')
  | dangling {err : Err} {s' : CentralizedStorage} (written : w.nodeId = true) (lost : w.mask = false)
      (unicast : nodeId.isUnicast) (mask : s'.occupationMask = s.occupationMask)
      (own : s'.getNodeIDForUniqueID uniqueId = nodeId)
      (others : ∀ u, u ≠ uniqueId → s'.getNodeIDForUniqueID u = s.getNodeIDForUniqueID u) :
      Added s nodeId uniqueId w (.error err, s')
  | stored {s' : CentralizedStorage} (unicast : nodeId.isUnicast)
      (mask : s'.occupationMask = s.occupationMask.mark nodeId.value.toNat)
      (own : s'.getNodeIDForUniqueID uniqueId = nodeId)
      (others : ∀ u, u ≠ uniqueId → s'.getNodeIDForUniqueID u = s.getNodeIDForUniqueID u) :
      Added s nodeId uniqueId w (.ok (), s')

variable {st : Storage}

/-- The second half of `add` fails. -/
theorem Added.of_half {err : Err} (unicast : nodeId.isUnicast) (lost : w.mask = false)
    (frame : ∀ key, key ≠ .nodeIdOf uniqueId → st key = s.storage key)
    (found : get st (.nodeIdOf uniqueId) = .ok nodeId.value.toUInt32) (effect : w.nodeId = true ∨ st = s.storage) :
    Added s nodeId uniqueId w (.error err, { s with storage := st }) := by
  rcases effect with written | same
  · refine .dangling written lost unicast rfl (getNodeIDForUniqueID_of_get unicast found) fun u different => ?_
    exact getNodeIDForUniqueID_congr (frame _ fun key => different (Key.nodeIdOf.inj key))
  · exact .failed rfl fun u => getNodeIDForUniqueID_congr (congrFun same _)

/-- The mask in memory is the stored one. -/
def Loaded (s : CentralizedStorage) : Prop := s.occupationMask = storedMask s.storage

theorem Loaded.init_eq (loaded : s.Loaded) : init s.storage = s := by
  unfold init
  rw [← loaded]

theorem storedMask_congr {st' : Storage} (same : st' .occupationMask = st .occupationMask) :
    storedMask st' = storedMask st := by
  unfold storedMask
  rw [getUniqueID_congr same]

theorem storedMask_of_get {mask : OccupationMask} (found : getUniqueID st .occupationMask = .ok (maskToArray mask)) :
    storedMask st = mask := by
  unfold storedMask
  rw [found]
  exact maskFromArray_maskToArray mask

/-- What `add` does; the mask in memory stays the stored one. -/
theorem add_cases (s : CentralizedStorage) (nodeId : NodeID) (uniqueId : UniqueID) (w : AddWrites) :
    Added s nodeId uniqueId w (s.add nodeId uniqueId w) ∧ (s.Loaded → (s.add nodeId uniqueId w).2.Loaded) := by
  unfold add
  split
  case isTrue => exact ⟨.failed rfl fun _ => rfl, id⟩
  case isFalse unicast =>
  have unicast : nodeId.isUnicast := by simpa using unicast
  rcases first : setAndGetBack s.storage (.nodeIdOf uniqueId) nodeId.value.toUInt32 w.nodeId with ⟨read, st⟩
  obtain ⟨frame, found, effect⟩ := setAndGetBack_cases first
  have unchanged : read ≠ .ok nodeId.value.toUInt32 → st = s.storage := setAndGetBack_refused first
  have half (loaded : s.Loaded) : ({ s with storage := st } : CentralizedStorage).Loaded :=
    loaded.trans (storedMask_congr (frame _ nofun)).symm
  cases read with
  | error err => exact ⟨.failed rfl fun u => getNodeIDForUniqueID_congr (congrFun (unchanged nofun) _), half⟩
  | ok nodeIdInt =>
    simp only
    split
    case isTrue other =>
      refine ⟨.failed rfl fun u => getNodeIDForUniqueID_congr (congrFun (unchanged fun same => ?_) _), half⟩
      exact other (Except.ok.inj same)
    case isFalse wanted =>
    obtain rfl := Decidable.not_not.mp wanted
    have effect := effect.imp And.left And.right
    rcases second : setAndGetBackUniqueID st .occupationMask
      (maskToArray (s.occupationMask.mark nodeId.value.toNat)) w.mask with ⟨read, st₂⟩
    obtain ⟨frame₂, found₂, effect₂⟩ := setAndGetBackUniqueID_cases second
    cases read with
    | error err =>
      obtain ⟨lost, rfl⟩ := effect₂.resolve_left fun kept => nomatch kept.2
      exact ⟨.of_half unicast lost frame found effect, half⟩
    | ok occupationArray =>
      simp only
      split
      case isTrue other =>
        obtain ⟨lost, rfl⟩ := effect₂.resolve_left fun kept => other (Except.ok.inj kept.2)
        exact ⟨.of_half unicast lost frame found effect, half⟩
      case isFalse wanted =>
        obtain rfl := Decidable.not_not.mp wanted
        have ids : ∀ u, st₂ (.nodeIdOf u) = st (.nodeIdOf u) := fun u => frame₂ _ nofun
        refine ⟨.stored unicast rfl (getNodeIDForUniqueID_of_get unicast ?_) fun u different => ?_,
          fun _ => (storedMask_of_get found₂).symm⟩
        · exact (get_congr (ids uniqueId)).trans found
        · refine getNodeIDForUniqueID_congr ((ids u).trans (frame _ fun key => ?_))
          exact different (Key.nodeIdOf.inj key)

theorem add_all (s : CentralizedStorage) (unicast : nodeId.isUnicast) (uniqueId : UniqueID) :
    (s.add nodeId uniqueId .all).1 = .ok () := by
  rcases first : setAndGetBack s.storage (.nodeIdOf uniqueId) nodeId.value.toUInt32 true with ⟨read, st⟩
  obtain ⟨-, -, effect⟩ := setAndGetBack_cases first
  obtain ⟨-, rfl⟩ := effect.resolve_right fun lost => nomatch lost.1
  rcases second : setAndGetBackUniqueID st .occupationMask
    (maskToArray (s.occupationMask.mark nodeId.value.toNat)) true with ⟨read, st₂⟩
  obtain ⟨-, -, effect₂⟩ := setAndGetBackUniqueID_cases second
  obtain ⟨-, rfl⟩ := effect₂.resolve_right fun lost => nomatch lost.1
  simp only [add, unicast, AddWrites.all, first, second, Bool.not_true, Bool.false_eq_true, if_false, ne_eq,
    not_true_eq_false]

end CentralizedStorage

end Uavcan
