import Uavcan.DynamicNodeId.NodeDiscoverer
import Mathlib.Order.Bounds.Basic

/-!
# The search for a free node ID

`NodeIDSelector::findFreeNodeID` runs two loops over an eight-bit candidate, one upwards from the preferred
node ID and one downwards. The loops are taken as they stand, with the wrap of the counter; they end, and are
the search over lists with which the servers are modelled (`findFreeNodeIDByLoops_eq`).
-/

namespace Uavcan

open UInt8

namespace NodeIDSelector

variable {candidate : UInt8} {first last : ℕ}

theorem toNat_succ (small : candidate ≤ NodeID.maxRecommendedForRegularNodes) :
    candidate.toNat ≤ 125 ∧ (candidate + 1).toNat = candidate.toNat + 1 := by
  have bound : candidate.toNat ≤ 125 := le_iff_toNat_le.mp small
  refine ⟨bound, ?_⟩
  exact Nat.mod_eq_of_lt (by simp; omega)

theorem toNat_pred (positive : candidate > 0) :
    0 < candidate.toNat ∧ (candidate - 1).toNat = candidate.toNat - 1 := by
  have bound : 0 < candidate.toNat := lt_iff_toNat_lt.mp positive
  refine ⟨bound, ?_⟩
  exact UInt8.toNat_sub_of_le candidate 1 (le_iff_toNat_le.mpr bound)

variable (isNodeIDTaken : NodeID → Bool)

/-- The loop upwards. -/
def up (candidate : UInt8) : Option NodeID :=
  if candidate ≤ NodeID.maxRecommendedForRegularNodes then
    if !isNodeIDTaken ⟨candidate⟩ then some ⟨candidate⟩ else up (candidate + 1)
  else none
termination_by 126 - candidate.toNat
decreasing_by
  obtain ⟨bound, next⟩ := toNat_succ ‹_›
  omega

/-- The loop downwards. -/
def down (candidate : UInt8) : Option NodeID :=
  if candidate > 0 then
    if !isNodeIDTaken ⟨candidate⟩ then some ⟨candidate⟩ else down (candidate - 1)
  else none
termination_by candidate.toNat
decreasing_by
  obtain ⟨bound, next⟩ := toNat_pred ‹_›
  omega

/-- Where both loops begin. -/
def firstCandidate (preferred : NodeID) : UInt8 :=
  if preferred.isUnicast then preferred.value else NodeID.maxRecommendedForRegularNodes

def findFreeNodeIDByLoops (preferred : NodeID) : NodeID :=
  match up isNodeIDTaken (firstCandidate preferred) with
  | some id => id
  | none =>
    match down isNodeIDTaken (firstCandidate preferred) with
    | some id => id
    | none => NodeID.invalid

variable {isNodeIDTaken}

/-! ## What the loops find -/

/-- The free node IDs from `first` to `last`. -/
def freeFrom (isNodeIDTaken : NodeID → Bool) (first last : ℕ) : Set ℕ :=
  {n | first ≤ n ∧ n ≤ last ∧ isNodeIDTaken ⟨UInt8.ofNat n⟩ = false}

theorem mem_freeFrom : candidate.toNat ∈ freeFrom isNodeIDTaken first last ↔
    first ≤ candidate.toNat ∧ candidate.toNat ≤ last ∧ isNodeIDTaken ⟨candidate⟩ = false := by
  simp [freeFrom]

/-- A taken candidate at the lower end can be left out. -/
theorem freeFrom_succ (taken : isNodeIDTaken ⟨ofNat first⟩ = true) :
    freeFrom isNodeIDTaken (first + 1) last = freeFrom isNodeIDTaken first last := by
  ext n
  constructor
  · rintro ⟨above, rest⟩
    exact ⟨Nat.le_of_succ_le above, rest⟩
  · rintro ⟨above, below, free⟩
    refine ⟨Nat.lt_of_le_of_ne above fun same => ?_, below, free⟩
    rw [same, free] at taken
    cases taken

theorem freeFrom_pred (taken : isNodeIDTaken ⟨ofNat (last + 1)⟩ = true) :
    freeFrom isNodeIDTaken first last = freeFrom isNodeIDTaken first (last + 1) := by
  ext n
  constructor
  · rintro ⟨above, below, free⟩
    exact ⟨above, Nat.le_succ_of_le below, free⟩
  · rintro ⟨above, below, free⟩
    refine ⟨above, Nat.le_of_lt_succ (Nat.lt_of_le_of_ne below fun same => ?_), free⟩
    have same : n = last + 1 := same
    rw [← same, free] at taken
    cases taken

theorem up_spec (candidate : UInt8) :
    match up isNodeIDTaken candidate with
    | some id => IsLeast (freeFrom isNodeIDTaken candidate.toNat 125) id.value.toNat
    | none => freeFrom isNodeIDTaken candidate.toNat 125 = ∅ := by
  fun_induction up isNodeIDTaken candidate with
  | case1 candidate small free =>
    refine ⟨mem_freeFrom.mpr ⟨Nat.le_refl _, (toNat_succ small).1, by simpa using free⟩, ?_⟩
    exact fun n member => member.1
  | case2 candidate small taken ih =>
    have taken : isNodeIDTaken ⟨ofNat candidate.toNat⟩ = true := by simpa using taken
    rw [(toNat_succ small).2, freeFrom_succ taken] at ih
    exact ih
  | case3 candidate large =>
    have large : 125 < candidate.toNat := lt_iff_toNat_lt.mp (UInt8.not_le.mp large)
    refine Set.eq_empty_of_forall_notMem ?_
    rintro n ⟨above, below, -⟩
    omega

theorem down_spec (candidate : UInt8) :
    match down isNodeIDTaken candidate with
    | some id => IsGreatest (freeFrom isNodeIDTaken 1 candidate.toNat) id.value.toNat
    | none => freeFrom isNodeIDTaken 1 candidate.toNat = ∅ := by
  fun_induction down isNodeIDTaken candidate with
  | case1 candidate positive free =>
    refine ⟨mem_freeFrom.mpr ⟨(toNat_pred positive).1, Nat.le_refl _, by simpa using free⟩, ?_⟩
    exact fun n member => member.2.1
  | case2 candidate positive taken ih =>
    obtain ⟨bound, before⟩ := toNat_pred positive
    have last : candidate.toNat - 1 + 1 = candidate.toNat := Nat.sub_add_cancel bound
    have taken : isNodeIDTaken ⟨ofNat (candidate.toNat - 1 + 1)⟩ = true := by
      rw [last]
      simpa using taken
    rw [before, freeFrom_pred taken, last] at ih
    exact ih
  | case3 candidate zero =>
    have zero : candidate.toNat ≤ 0 := le_iff_toNat_le.mp (UInt8.not_lt.mp zero)
    refine Set.eq_empty_of_forall_notMem ?_
    rintro n ⟨above, below, -⟩
    omega

/-! ## The search over lists -/

theorem up_eq (candidate : UInt8) : up isNodeIDTaken candidate =
    firstFree isNodeIDTaken (List.range' candidate.toNat (126 - candidate.toNat)) := by
  fun_induction up isNodeIDTaken candidate with
  | case1 candidate small free =>
    obtain ⟨bound, -⟩ := toNat_succ small
    rw [show 126 - candidate.toNat = 125 - candidate.toNat + 1 by omega, List.range'_succ]
    simp [firstFree, free]
  | case2 candidate small taken ih =>
    obtain ⟨bound, next⟩ := toNat_succ small
    rw [show 126 - candidate.toNat = 126 - (candidate.toNat + 1) + 1 by omega, List.range'_succ]
    simp only [firstFree, UInt8.ofNat_toNat, taken, Bool.false_eq_true, if_false]
    rw [ih, next]
  | case3 candidate large =>
    have large : 125 < candidate.toNat := lt_iff_toNat_lt.mp (UInt8.not_le.mp large)
    rw [show 126 - candidate.toNat = 0 by omega]
    rfl

theorem down_eq (candidate : UInt8) : down isNodeIDTaken candidate =
    firstFree isNodeIDTaken (List.range' 1 candidate.toNat).reverse := by
  fun_induction down isNodeIDTaken candidate with
  | case1 candidate positive free =>
    have last : candidate.toNat - 1 + 1 = candidate.toNat := Nat.sub_add_cancel (toNat_pred positive).1
    rw [← last, reverse_range_succ, last]
    simp [firstFree, free]
  | case2 candidate positive taken ih =>
    obtain ⟨bound, before⟩ := toNat_pred positive
    have last : candidate.toNat - 1 + 1 = candidate.toNat := Nat.sub_add_cancel bound
    rw [← last, reverse_range_succ, last]
    simp only [firstFree, UInt8.ofNat_toNat, taken, Bool.false_eq_true, if_false]
    rw [ih, before]
  | case3 candidate zero =>
    have zero : candidate.toNat = 0 := Nat.le_zero.mp (le_iff_toNat_le.mp (UInt8.not_lt.mp zero))
    rw [zero]
    rfl

/-- The loops find what the servers are modelled with. -/
theorem findFreeNodeIDByLoops_eq (preferred : NodeID) :
    findFreeNodeIDByLoops isNodeIDTaken preferred = findFreeNodeID isNodeIDTaken preferred := by
  have start : (if preferred.isUnicast = true then preferred.value.toNat
      else NodeID.maxRecommendedForRegularNodes.toNat) = (firstCandidate preferred).toNat := by
    unfold firstCandidate
    split <;> rfl
  have count : NodeID.maxRecommendedForRegularNodes.toNat + 1 = 126 := by decide
  unfold findFreeNodeIDByLoops findFreeNodeID
  simp only [start, count, up_eq, down_eq]
  cases firstFree isNodeIDTaken (List.range' (firstCandidate preferred).toNat _) with
  | some id => rfl
  | none => cases firstFree isNodeIDTaken (List.range' 1 (firstCandidate preferred).toNat).reverse <;> rfl

/-! ## The node ID that is found -/

theorem firstCandidate_bounds (preferred : NodeID) :
    1 ≤ (firstCandidate preferred).toNat ∧ (firstCandidate preferred).toNat ≤ 127 := by
  unfold firstCandidate
  split
  case isTrue unicast =>
    exact ⟨Nat.pos_of_ne_zero (NodeID.toNat_ne_zero unicast), NodeID.toNat_le (NodeID.isValid_of_isUnicast unicast)⟩
  case isFalse => decide

theorem unicast_of_mem {id : NodeID} (positive : 1 ≤ first) (bounded : last ≤ 127)
    (member : id.value.toNat ∈ freeFrom isNodeIDTaken first last) :
    id.isUnicast = true ∧ isNodeIDTaken id = false := by
  obtain ⟨above, below, free⟩ := mem_freeFrom.mp member
  refine ⟨?_, free⟩
  have valid : id.value ≤ NodeID.max := le_iff_toNat_le.mpr (Nat.le_trans below bounded)
  have other : id.value ≠ 0 := fun zero => by
    rw [zero] at above
    exact absurd (Nat.le_trans positive above) (by decide)
  simp [NodeID.isUnicast, valid, other]

theorem freeFrom_mono {first' last' : ℕ} (lower : first' ≤ first) (upper : last ≤ last') :
    freeFrom isNodeIDTaken first last ⊆ freeFrom isNodeIDTaken first' last' := by
  rintro n ⟨above, below, free⟩
  exact ⟨Nat.le_trans lower above, Nat.le_trans below upper, free⟩

theorem findFreeNodeIDByLoops_cases (isNodeIDTaken : NodeID → Bool) (preferred : NodeID) :
    IsLeast (freeFrom isNodeIDTaken (firstCandidate preferred).toNat 125)
        (findFreeNodeIDByLoops isNodeIDTaken preferred).value.toNat ∨
      (freeFrom isNodeIDTaken (firstCandidate preferred).toNat 125 = ∅ ∧
        IsGreatest (freeFrom isNodeIDTaken 1 (firstCandidate preferred).toNat)
          (findFreeNodeIDByLoops isNodeIDTaken preferred).value.toNat) ∨
      (freeFrom isNodeIDTaken (firstCandidate preferred).toNat 125 = ∅ ∧
        freeFrom isNodeIDTaken 1 (firstCandidate preferred).toNat = ∅ ∧
        findFreeNodeIDByLoops isNodeIDTaken preferred = NodeID.invalid) := by
  have upwards := @up_spec isNodeIDTaken (firstCandidate preferred)
  have downwards := @down_spec isNodeIDTaken (firstCandidate preferred)
  unfold findFreeNodeIDByLoops
  cases loop : up isNodeIDTaken (firstCandidate preferred) with
  | some id =>
    rw [loop] at upwards
    exact .inl upwards
  | none =>
    rw [loop] at upwards
    cases back : down isNodeIDTaken (firstCandidate preferred) with
    | some id =>
      rw [back] at downwards
      exact .inr (.inl ⟨upwards, downwards⟩)
    | none =>
      rw [back] at downwards
      exact .inr (.inr ⟨upwards, downwards, rfl⟩)

/-- The node ID that is found: the smallest free one from the first candidate to the last recommended ID, or else the
largest free one up to the first candidate; and none only if there is none at all. -/
theorem findFreeNodeID_spec (isNodeIDTaken : NodeID → Bool) (preferred : NodeID) :
    ((freeFrom isNodeIDTaken (firstCandidate preferred).toNat 125).Nonempty →
      IsLeast (freeFrom isNodeIDTaken (firstCandidate preferred).toNat 125)
        (findFreeNodeIDByLoops isNodeIDTaken preferred).value.toNat) ∧
    (freeFrom isNodeIDTaken (firstCandidate preferred).toNat 125 = ∅ →
      (freeFrom isNodeIDTaken 1 (firstCandidate preferred).toNat).Nonempty →
        IsGreatest (freeFrom isNodeIDTaken 1 (firstCandidate preferred).toNat)
          (findFreeNodeIDByLoops isNodeIDTaken preferred).value.toNat) ∧
    ((findFreeNodeIDByLoops isNodeIDTaken preferred).isValid = false ↔
      freeFrom isNodeIDTaken 1 (max (firstCandidate preferred).toNat 125) = ∅) ∧
    ((findFreeNodeIDByLoops isNodeIDTaken preferred).isValid = true →
      (findFreeNodeIDByLoops isNodeIDTaken preferred).isUnicast = true ∧
        isNodeIDTaken (findFreeNodeIDByLoops isNodeIDTaken preferred) = false) ∧
    findFreeNodeIDByLoops isNodeIDTaken preferred = findFreeNodeID isNodeIDTaken preferred := by
  obtain ⟨positive, bounded⟩ := firstCandidate_bounds preferred
  have outcome := findFreeNodeIDByLoops_cases isNodeIDTaken preferred
  rw [← and_assoc, ← and_assoc, ← and_assoc]
  refine ⟨?_, findFreeNodeIDByLoops_eq preferred⟩
  generalize findFreeNodeIDByLoops isNodeIDTaken preferred = id at outcome ⊢
  -- a free ID that is found lies in the whole range
  have found : ∀ {first last : ℕ}, 1 ≤ first → last ≤ max (firstCandidate preferred).toNat 125 →
      id.value.toNat ∈ freeFrom isNodeIDTaken first last →
      (id.isValid = false ↔ freeFrom isNodeIDTaken 1 (max (firstCandidate preferred).toNat 125) = ∅) ∧
        (id.isValid = true → id.isUnicast = true ∧ isNodeIDTaken id = false) := by
    intro first last lower upper member
    have unicast := unicast_of_mem lower (by omega) member
    have valid := NodeID.isValid_of_isUnicast unicast.1
    refine ⟨⟨fun invalid => absurd valid (by simp [invalid]), fun empty => ?_⟩, fun _ => unicast⟩
    exact absurd (freeFrom_mono lower upper member) (by simp [empty])
  rw [and_assoc, and_assoc]
  rcases outcome with least | ⟨noneAbove, greatest⟩ | ⟨noneAbove, noneBelow, rfl⟩
  · refine ⟨fun _ => least, fun empty => ?_, found positive (Nat.le_max_right _ _) least.1⟩
    exact absurd least.1 (by simp [empty])
  · refine ⟨fun occupied => ?_, fun _ _ => greatest, found (Nat.le_refl 1) (Nat.le_max_left _ _) greatest.1⟩
    rw [noneAbove] at occupied
    exact absurd occupied Set.not_nonempty_empty
  · refine ⟨fun occupied => ?_, fun _ occupied => ?_, iff_of_true rfl ?_, nofun⟩
    · rw [noneAbove] at occupied
      exact absurd occupied Set.not_nonempty_empty
    · rw [noneBelow] at occupied
      exact absurd occupied Set.not_nonempty_empty
    · refine Set.eq_empty_of_forall_notMem ?_
      rintro n ⟨above, below, free⟩
      rcases Nat.lt_or_ge (firstCandidate preferred).toNat n with high | low
      · refine Set.eq_empty_iff_forall_notMem.mp noneAbove n ⟨Nat.le_of_lt high, ?_, free⟩
        omega
      · exact Set.eq_empty_iff_forall_notMem.mp noneBelow n ⟨above, low, free⟩

/-- With only node ID 3 free, a node that prefers 5 gets 3: upwards nothing is free. -/
theorem findFreeNodeID_spec_sample : IsGreatest (freeFrom (fun id => id ≠ ⟨3⟩) 1 5) 3 ∧
    findFreeNodeIDByLoops (fun id => id ≠ ⟨3⟩) ⟨5⟩ = ⟨3⟩ := by
  have spec := findFreeNodeID_spec (fun id => id ≠ ⟨3⟩) ⟨5⟩
  have found : findFreeNodeIDByLoops (fun id => id ≠ ⟨3⟩) ⟨5⟩ = ⟨3⟩ := spec.2.2.2.2.trans (by decide)
  rw [found] at spec
  refine ⟨spec.2.1 ?_ ⟨3, by decide, by decide, by decide⟩, found⟩
  refine Set.eq_empty_of_forall_notMem ?_
  rintro n ⟨above, below, free⟩
  have three : ofNat n = 3 := by simpa using free
  have above : 5 ≤ n := above
  have same : n % 256 = 3 := congrArg UInt8.toNat three
  omega

end NodeIDSelector

end Uavcan
