import Uavcan.Containers.ChunkedMultiset
import Uavcan.Containers.Search
import Uavcan.Transport.Frame

/-!
# Hardware acceptance filters

`CanAcceptanceFilterConfigurator` computes the configuration of the hardware filters of a CAN controller: one
filter per message listener, one for services and one for anonymous messages.  If there are more than the
hardware has, the two that have most in common are merged into one, again and again.
-/

namespace Uavcan

open Containers (ChunkedMultiset)
open List Option

/-- A filter accepts the identifiers that agree with its own in the bits of the mask. -/
structure CanFilterConfig where
  id : UInt32
  mask : UInt32
  deriving DecidableEq

namespace CanFilterConfig

def accepts (c : CanFilterConfig) (x : UInt32) : Bool := (x ^^^ c.id) &&& c.mask = 0

end CanFilterConfig

/-- The configurator; `ifaces` has, for each interface of the driver, the number of its filters. -/
structure CanAcceptanceFilterConfigurator where
  filtersNumber : UInt16
  ifaces : List (Option UInt16)
  multisetConfigs : ChunkedMultiset CanFilterConfig
  deriving DecidableEq

namespace CanAcceptanceFilterConfigurator

def maxCanAcceptanceFilters : UInt16 := 32

def defaultFilterMsgMask : UInt32 := 0xFFFF80

def defaultFilterServiceMask : UInt32 := 0x7F80

def defaultFilterServiceID : UInt32 := 0x80

def defaultAnonMsgMask : UInt32 := 0xFF

def defaultAnonMsgID : UInt32 := 0x0

/-! ## Merging -/

/-- The bits in which two filters agree. -/
def mergeFilters (a b : CanFilterConfig) : CanFilterConfig :=
  let mask := a.mask &&& b.mask &&& ~~~(a.id ^^^ b.id)
  ⟨a.id &&& mask, mask⟩

/-- The loop of `countBits`. -/
def countBitsLoop : (rounds : ℕ) → UInt32 → UInt8 → UInt8
  | 0, _, c => c
  | rounds + 1, n, c =>
    if n = 0 then c
    -- clear the least significant bit that is set
    else countBitsLoop rounds (n &&& (n - 1)) (c + 1)

/-- A number of 32 bits takes at most as many rounds. -/
def countBits (n : UInt32) : UInt8 := countBitsLoop 32 n 0

variable (s : ChunkedMultiset CanFilterConfig)

/-- What `getByIndex` points to; the indices are below the size. -/
def config (i : ℕ) : CanFilterConfig := (s.getByIndex i).getD ⟨0, 0⟩

/-- How much two entries have in common. -/
def rank (pair : ℕ × ℕ) : ℕ :=
  (countBits (mergeFilters (config s pair.1) (config s pair.2)).mask).toNat

/-- The inner loop of the search; it starts after `i`, as a number of eight bits. -/
def searchFrom (size i : ℕ) (best : ℕ × ℕ × ℕ) : ℕ × ℕ × ℕ :=
  let start := (i + 1) % 2 ^ 8
  (range' start (size - start)).foldl (fun best j => Containers.consider (rank s) best (i, j)) best

/-- The pair of entries that has most in common, with its rank. -/
def search (size : ℕ) : ℕ × ℕ × ℕ :=
  (range (size - 1)).foldl (fun best i => searchFrom s size i best) (0, 0, 0)

/-- One round of the loop of `mergeConfigurations`: one entry becomes the merge, and the other one is removed. -/
def mergeRound : ChunkedMultiset CanFilterConfig :=
  let multisetArraySize := s.getSize % 2 ^ 16
  let (_, i, j) := search s multisetArraySize
  let s := s.setByIndex j (mergeFilters (config s i) (config s j))
  s.removeFirst (config s i)

/-- The loop of `mergeConfigurations`; without a result if it takes more rounds. -/
def mergeLoop (acceptanceFiltersNumber : ℕ) :
    (rounds : ℕ) → ChunkedMultiset CanFilterConfig → Option (ChunkedMultiset CanFilterConfig)
  | 0, _ => none
  | rounds + 1, s =>
    if acceptanceFiltersNumber < s.getSize then mergeLoop acceptanceFiltersNumber rounds (mergeRound s)
    else some s

/-- The loop of `getNumFilters` over the interfaces. -/
def minNumFilters : List (Option UInt16) → UInt16 → UInt16
  | [], out => out
  | none :: _, _ => 0
  | some num :: rest, out => minNumFilters rest (min (min out num) maxCanAcceptanceFilters)

variable (c : CanAcceptanceFilterConfigurator)

def getNumFilters : UInt16 :=
  if c.filtersNumber = 0 then
    let invalidOut := 0xFFFF
    let out := minNumFilters c.ifaces invalidOut
    if out = invalidOut then 0 else out
  else c.filtersNumber

def mergeConfigurations (rounds : ℕ) : Option (Except Err Unit × CanAcceptanceFilterConfigurator) :=
  if c.getNumFilters = 0 then some (.error .driver, c)
  else (mergeLoop c.getNumFilters.toNat rounds c.multisetConfigs).map fun s => (.ok (), { c with multisetConfigs := s })

/-- `alloc` says whether there is memory for a new chunk of `numItems` entries. -/
def addFilterConfig (numItems : ℕ) (alloc : Bool) (cfg : CanFilterConfig) :
    Except Err Unit × CanAcceptanceFilterConfigurator :=
  match c.multisetConfigs.emplace numItems alloc cfg with
  | none => (.error .memory, c)
  | some s => (.ok (), { c with multisetConfigs := s })

end CanAcceptanceFilterConfigurator

/-! ## The input -/

namespace CanAcceptanceFilterConfigurator

inductive AnonymousMessages
  | acceptAnonymousMessages
  | ignoreAnonymousMessages
  deriving DecidableEq

def flagsMask : UInt32 := CanFrame.flagEFF ||| CanFrame.flagRTR ||| CanFrame.flagERR

/-- The filter for all anonymous messages. -/
def anonFrameCfg : CanFilterConfig := ⟨defaultAnonMsgID ||| CanFrame.flagEFF, defaultAnonMsgMask ||| flagsMask⟩

/-- The filter for all services of a node. -/
def serviceCfg (nodeId : NodeID) : CanFilterConfig :=
  ⟨defaultFilterServiceID ||| (nodeId.value.toUInt32 <<< 8 ||| CanFrame.flagEFF),
    defaultFilterServiceMask ||| flagsMask⟩

/-- The filter for the messages of a data type. -/
def messageCfg (dataTypeId : DataTypeID) : CanFilterConfig :=
  ⟨dataTypeId.get.toUInt32 <<< 8 ||| CanFrame.flagEFF, defaultFilterMsgMask ||| flagsMask⟩

/-- The filters of a node, in the order in which they are put in. -/
def inputConfiguration (nodeId : NodeID) (listeners : List DataTypeID) (loadMode : AnonymousMessages) :
    List CanFilterConfig :=
  (if loadMode = .acceptAnonymousMessages then [anonFrameCfg] else []) ++ serviceCfg nodeId :: listeners.map messageCfg

/-- Filters are put in until there is no memory; `alloc` says, for each of them, whether there is memory for a new
chunk. -/
def emplaceAll (numItems : ℕ) : List CanFilterConfig → (alloc : List Bool) → ChunkedMultiset CanFilterConfig →
    Except Err Unit × ChunkedMultiset CanFilterConfig
  | [], _, s => (.ok (), s)
  | cfg :: rest, alloc, s =>
    match s.emplace numItems (alloc.headD false) cfg with
    | none => (.error .memory, s)
    | some s => emplaceAll numItems rest alloc.tail s

variable (c : CanAcceptanceFilterConfigurator)

/-- `listeners` are the data types of the message listeners. -/
def loadInputConfiguration (numItems : ℕ) (alloc : List Bool) (nodeId : NodeID) (listeners : List DataTypeID)
    (loadMode : AnonymousMessages) : Except Err Unit × CanAcceptanceFilterConfigurator :=
  match emplaceAll numItems (inputConfiguration nodeId listeners loadMode) alloc c.multisetConfigs.clear with
  | (.error e, s) => (.error e, { c with multisetConfigs := s })
  | (.ok _, s) => (if s.getSize = 0 then .error .logic else .ok (), { c with multisetConfigs := s })

def computeConfiguration (rounds numItems : ℕ) (alloc : List Bool) (nodeId : NodeID) (listeners : List DataTypeID)
    (mode : AnonymousMessages) : Option (Except Err Unit × CanAcceptanceFilterConfigurator) :=
  if c.getNumFilters = 0 then some (.error .driver, c)
  else
    match c.loadInputConfiguration numItems alloc nodeId listeners mode with
    | (.error e, c) => some (.error e, c)
    | (.ok _, c) => c.mergeConfigurations rounds

end CanAcceptanceFilterConfigurator

/-! ## Bits -/

variable {x : UInt32}

theorem CanFilterConfig.accepts_iff {c : CanFilterConfig} : c.accepts x ↔
    ∀ k, c.mask.toBitVec.getLsbD k = true → x.toBitVec.getLsbD k = c.id.toBitVec.getLsbD k := by
  rw [accepts, decide_eq_true_eq, ← UInt32.toBitVec_inj]
  constructor
  · intro agree k masked
    have bit := congrArg (BitVec.getLsbD · k) agree
    simpa [masked] using bit
  · intro agree
    apply BitVec.eq_of_getLsbD_eq
    intro k small
    have bit := agree k
    cases masked : c.mask.toBitVec.getLsbD k with
    | false => simp [masked]
    | true => simp [bit masked]

namespace CanAcceptanceFilterConfigurator

theorem getLsbD_mask_mergeFilters (a b : CanFilterConfig) (k : ℕ) :
    (mergeFilters a b).mask.toBitVec.getLsbD k = true ↔ a.mask.toBitVec.getLsbD k = true ∧
      b.mask.toBitVec.getLsbD k = true ∧ a.id.toBitVec.getLsbD k = b.id.toBitVec.getLsbD k := by
  by_cases small : k < 32
  · simp [mergeFilters, small, and_assoc]
  · have above (x : UInt32) : x.toBitVec.getLsbD k = false := BitVec.getLsbD_of_ge _ k (Nat.not_lt.mp small)
    simp [above]

variable {a b : CanFilterConfig} {n rounds i j : ℕ} {s : ChunkedMultiset CanFilterConfig}

theorem getLsbD_id_mergeFilters {k : ℕ} (masked : (mergeFilters a b).mask.toBitVec.getLsbD k = true) :
    (mergeFilters a b).id.toBitVec.getLsbD k = a.id.toBitVec.getLsbD k := by
  have : (mergeFilters a b).id = a.id &&& (mergeFilters a b).mask := rfl
  rw [this, UInt32.toBitVec_and, BitVec.getLsbD_and, masked, Bool.and_true]

theorem accepts_mergeFilters (accepted : a.accepts x ∨ b.accepts x) :
    (mergeFilters a b).accepts x := by
  rw [CanFilterConfig.accepts_iff]
  intro k masked
  obtain ⟨inA, inB, same⟩ := (getLsbD_mask_mergeFilters a b k).mp masked
  rw [getLsbD_id_mergeFilters masked]
  rcases accepted with first | second
  · exact CanFilterConfig.accepts_iff.mp first k inA
  · exact (CanFilterConfig.accepts_iff.mp second k inB).trans same.symm

/-- The number of bits that are set among the lowest ones. -/
def ones : (width : ℕ) → ℕ → ℕ
  | 0, _ => 0
  | width + 1, n => n % 2 + ones width (n / 2)

theorem ones_le (w n : ℕ) : ones w n ≤ w := by
  induction w generalizing n with
  | zero => exact Nat.le_refl 0
  | succ w ih =>
    have rest := ih (n / 2)
    simp only [ones]
    omega

variable {w : ℕ}

theorem ones_eq_zero (bound : n < 2 ^ w) : ones w n = 0 ↔ n = 0 := by
  induction w generalizing n with
  | zero =>
    simp only [ones, true_iff]
    omega
  | succ w ih =>
    have rest := ih (n := n / 2) (by omega)
    simp only [ones]
    omega

/-- Clearing the lowest bit that is set leaves one less. -/
theorem ones_and_pred (bound : n < 2 ^ w) (pos : 0 < n) : ones w (n &&& (n - 1)) + 1 = ones w n := by
  induction w generalizing n with
  | zero => omega
  | succ w ih =>
    have low : (n &&& (n - 1)) % 2 = 0 := by
      have both := Nat.and_mod_two_eq_one (a := n) (b := n - 1)
      omega
    simp only [ones, Nat.and_div_two]
    rcases Nat.mod_two_eq_zero_or_one n with even | odd
    · rw [show (n - 1) / 2 = n / 2 - 1 by omega]
      have := ih (n := n / 2) (by omega) (by omega)
      omega
    · rw [show (n - 1) / 2 = n / 2 by omega, Nat.and_self]
      omega


theorem toNat_countBitsLoop {n : UInt32} {c : UInt8} (enough : ones 32 n.toNat ≤ rounds)
    (small : c.toNat + ones 32 n.toNat < 2 ^ 8) :
    (countBitsLoop rounds n c).toNat = c.toNat + ones 32 n.toNat := by
  induction rounds generalizing n c with
  | zero => simp [countBitsLoop, Nat.le_zero.mp enough]
  | succ rounds ih =>
    unfold countBitsLoop
    by_cases zero : n = 0
    · rw [if_pos zero, (ones_eq_zero n.toNat_lt).mpr (by rw [zero]; rfl)]
      rfl
    · have pos : 0 < n.toNat := Nat.pos_of_ne_zero fun none => zero (UInt32.toNat_inj.mp none)
      have pred : (n - 1).toNat = n.toNat - 1 :=
        UInt32.toNat_sub_of_le n 1 (UInt32.le_iff_toNat_le.mpr pos)
      have less := ones_and_pred n.toNat_lt pos
      rw [← pred, ← UInt32.toNat_and] at less
      have next : (c + 1).toNat = c.toNat + 1 := by
        rw [UInt8.toNat_add, UInt8.toNat_one]
        exact Nat.mod_eq_of_lt (by omega)
      rw [if_neg zero, ih (by omega) (by omega)]
      omega

/-- `countBits` counts the bits that are set. -/
theorem toNat_countBits (n : UInt32) : (countBits n).toNat = ones 32 n.toNat := by
  have bound := ones_le 32 n.toNat
  rw [countBits, toNat_countBitsLoop bound (by rw [UInt8.toNat_zero]; omega), UInt8.toNat_zero, Nat.zero_add]

/-! ## The search -/

/-- The pairs in the order in which they are compared. -/
def candidates (size : ℕ) : List (ℕ × ℕ) :=
  (range (size - 1)).flatMap fun i =>
    (range' ((i + 1) % 2 ^ 8) (size - (i + 1) % 2 ^ 8)).map fun j => (i, j)

variable (s)

theorem search_eq (size : ℕ) :
    search s size = (candidates size).foldl (Containers.consider (rank s)) (0, 0, 0) := by
  simp only [search, searchFrom, candidates, foldl_flatMap, foldl_map]

variable {size : ℕ}

theorem lt_of_mem_candidates {pair : ℕ × ℕ} (member : pair ∈ candidates size) :
    pair.1 + 1 < size ∧ pair.2 < size ∧ (pair.1 < 2 ^ 8 - 1 → pair.1 < pair.2) := by
  obtain ⟨i, outer, compared⟩ := mem_flatMap.mp member
  obtain ⟨j, inner, rfl⟩ := mem_map.mp compared
  rw [mem_range] at outer
  rw [mem_range'_1] at inner
  omega

theorem mem_candidates (small : i + 1 < 2 ^ 8) (lt : i < j) (inside : j < size) :
    (i, j) ∈ candidates size := by
  refine mem_flatMap.mpr ⟨i, mem_range.mpr (by omega), mem_map.mpr ⟨j, ?_, rfl⟩⟩
  rw [mem_range'_1]
  omega

/-- The first of the pairs that have most in common is a pair of two different entries, and they have something
in common. -/
def Mergeable : Prop :=
  ∃ before pair after, candidates (s.getSize % 2 ^ 16) = before ++ pair :: after ∧ pair.1 ≠ pair.2 ∧
    0 < rank s pair ∧ (∀ other ∈ before, rank s other < rank s pair) ∧
    ∀ other ∈ after, rank s other ≤ rank s pair

/-- Two different entries are merged exactly if there are such. -/
theorem mergeable_iff :
    Mergeable s ↔ (search s (s.getSize % 2 ^ 16)).2.1 ≠ (search s (s.getSize % 2 ^ 16)).2.2 := by
  rw [search_eq]
  constructor
  · rintro ⟨before, pair, after, split, differ, pos, below, notAbove⟩
    rw [split, Containers.foldl_consider_of_best (rank s) below notAbove pos]
    exact differ
  · intro differ
    rcases Containers.foldl_consider_cases (rank s) (0, 0, 0) (candidates (s.getSize % 2 ^ 16)) with
      ⟨-, same⟩ | ⟨before, pair, after, split, below, notAbove, pos, found⟩
    · rw [same] at differ
      exact absurd rfl differ
    · rw [found] at differ
      exact ⟨before, pair, after, split, differ, pos, below, notAbove⟩

variable {s}

/-- In a small multiset, two entries that have something in common are enough. -/
theorem mergeable_of_small (small : s.getSize ≤ 2 ^ 8) (lt : i < j) (inside : j < s.getSize)
    (common : (mergeFilters (config s i) (config s j)).mask ≠ 0) : Mergeable s := by
  have size : s.getSize % 2 ^ 16 = s.getSize := Nat.mod_eq_of_lt (by omega)
  rcases Containers.foldl_consider_cases (rank s) (0, 0, 0) (candidates s.getSize) with
    ⟨nothing, -⟩ | ⟨before, pair, after, split, below, notAbove, pos, -⟩
  · have zero := nothing (i, j) (mem_candidates (by omega) lt inside)
    rw [rank, toNat_countBits, Nat.le_zero, ones_eq_zero (UInt32.toNat_lt _)] at zero
    exact absurd (UInt32.toNat_inj.mp zero) common
  · have bounds := lt_of_mem_candidates (split ▸ mem_append_right before mem_cons_self)
    refine ⟨before, pair, after, by rw [size, split], ?_, pos, below, notAbove⟩
    omega

/-! ## A round -/

theorem config_eq (inside : i < s.items.length) :
    config s i = s.items[i] := by
  rw [config, ChunkedMultiset.getByIndex_eq, getElem?_eq_getElem inside, getD_some]

theorem search_lt (pos : 0 < s.getSize) :
    (search s (s.getSize % 2 ^ 16)).2.1 < s.items.length ∧ (search s (s.getSize % 2 ^ 16)).2.2 < s.items.length := by
  rw [← ChunkedMultiset.getSize_eq, search_eq]
  rcases Containers.foldl_consider_cases (rank s) (0, 0, 0) (candidates (s.getSize % 2 ^ 16)) with
    ⟨-, same⟩ | ⟨before, pair, after, split, -, -, -, found⟩
  · rw [same]
    exact ⟨pos, pos⟩
  · rw [found]
    have bounds := lt_of_mem_candidates (split ▸ mem_append_right before mem_cons_self)
    dsimp only
    omega

/-- What a round does: the entry at `j` becomes a merge, and an entry like the one that is then at `i` is
removed. -/
theorem mergeRound_cases (pos : 0 < s.getSize) :
    ∃ (i j : ℕ) (first : i < s.items.length) (second : j < s.items.length), (Mergeable s → i ≠ j) ∧
      (mergeRound s).items = (s.items.set j (mergeFilters s.items[i] s.items[j])).erase
        (if i = j then mergeFilters s.items[i] s.items[j] else s.items[i]) := by
  obtain ⟨first, second⟩ := search_lt pos
  have differ := (mergeable_iff s).mp
  rcases found : search s (s.getSize % 2 ^ 16) with ⟨_, i, j⟩
  rw [found] at first second differ
  refine ⟨i, j, first, second, differ, ?_⟩
  simp only [mergeRound, found]
  rw [ChunkedMultiset.items_removeFirst, ChunkedMultiset.items_setByIndex, config_eq first, config_eq second]
  rw [config_eq (by rw [ChunkedMultiset.items_setByIndex, length_set]; exact first)]
  simp only [ChunkedMultiset.items_setByIndex, getElem_set, eq_comm]

theorem getSize_mergeRound (pos : 0 < s.getSize) :
    (mergeRound s).getSize + 1 = s.getSize := by
  obtain ⟨i, j, first, second, -, items⟩ := mergeRound_cases pos
  have member : (if i = j then mergeFilters s.items[i] s.items[j] else s.items[i]) ∈
      s.items.set j (mergeFilters s.items[i] s.items[j]) := by
    rw [mem_iff_getElem]
    refine ⟨i, by rwa [length_set], ?_⟩
    simp only [getElem_set, eq_comm]
  rw [ChunkedMultiset.getSize_eq, ChunkedMultiset.getSize_eq, items, length_erase_of_mem member, length_set]
  omega

/-- The filters accept whatever one of the others accepts. -/
def Covers (l l' : List CanFilterConfig) : Prop :=
  ∀ x, (∃ c ∈ l, c.accepts x) → ∃ c ∈ l', c.accepts x

variable {l : List CanFilterConfig}

theorem Covers.trans {l' l'' : List CanFilterConfig} (first : Covers l l') (second : Covers l' l'') :
    Covers l l'' :=
  fun x accepted => second x (first x accepted)

/-- If an entry is removed, an entry at another place is left, or one that is equal to it. -/
theorem mem_erase_of_getElem? (differ : i ≠ j) (first : l[i]? = some a)
    (second : l[j]? = some b) : b ∈ l.erase a := by
  induction l generalizing i j with
  | nil => cases first
  | cons c l ih =>
    by_cases same : c = a
    · rw [same, erase_cons_head]
      cases j with
      | succ j => exact mem_of_getElem? second
      | zero =>
        -- then the entry that is removed is the other one
        cases i with
        | zero => exact absurd rfl differ
        | succ i =>
          rw [same] at second
          cases second
          exact mem_of_getElem? first
    · rw [erase_cons_tail (by simpa using same)]
      cases j with
      | zero =>
        cases second
        exact mem_cons_self
      | succ j =>
        cases i with
        | zero => exact absurd (some_inj.mp first) same
        | succ i => exact mem_cons_of_mem c (ih (fun equal => differ (congrArg _ equal)) first second)

/-- A round that merges two different entries loses nothing. -/
theorem covers_mergeRound (pos : 0 < s.getSize) (mergeable : Mergeable s) :
    Covers s.items (mergeRound s).items := by
  obtain ⟨i, j, first, second, differ, items⟩ := mergeRound_cases pos
  have differ := differ mergeable
  rw [if_neg differ] at items
  rw [items]
  have merged : mergeFilters s.items[i] s.items[j] ∈
      (s.items.set j (mergeFilters s.items[i] s.items[j])).erase s.items[i] := by
    refine mem_erase_of_getElem? differ ?_ ?_
    · rw [getElem?_set_ne differ.symm, getElem?_eq_getElem first]
    · rw [getElem?_set_self second]
  rintro x ⟨c, member, accepted⟩
  by_cases chosen : c = s.items[i] ∨ c = s.items[j]
  · refine ⟨_, merged, accepts_mergeFilters ?_⟩
    rcases chosen with rfl | rfl
    · exact .inl accepted
    · exact .inr accepted
  · -- all other entries stay
    obtain ⟨notFirst, notSecond⟩ := not_or.mp chosen
    obtain ⟨k, here, rfl⟩ := mem_iff_getElem.mp member
    refine ⟨_, (mem_erase_of_ne notFirst).mpr ?_, accepted⟩
    have other : k ≠ j := by
      rintro rfl
      exact notSecond rfl
    refine mem_of_getElem? (i := k) ?_
    rw [getElem?_set_ne (Ne.symm other), getElem?_eq_getElem here]

/-! ## The loop -/

/-- What the loop reaches with rounds that start with more than `n` entries. -/
inductive Merges (n : ℕ) (s : ChunkedMultiset CanFilterConfig) : ChunkedMultiset CanFilterConfig → Prop
  | refl : Merges n s s
  | round {s' : ChunkedMultiset CanFilterConfig} : Merges n s s' → n < s'.getSize → Merges n s (mergeRound s')

variable {s' : ChunkedMultiset CanFilterConfig}

theorem Merges.getSize_le (merges : Merges n s s') :
    s'.getSize ≤ s.getSize := by
  induction merges with
  | refl => exact Nat.le_refl _
  | round _ more ih =>
    have less := getSize_mergeRound (Nat.zero_lt_of_lt more)
    omega

/-- The loop ends, with not more entries than filters. -/
theorem Merges.mergeLoop {start : ChunkedMultiset CanFilterConfig} (merges : Merges n start s)
    (enough : s.getSize < rounds) :
    ∃ s', CanAcceptanceFilterConfigurator.mergeLoop n rounds s = some s' ∧ s'.getSize ≤ n ∧ Merges n start s' := by
  induction rounds generalizing s with
  | zero => cases enough
  | succ rounds ih =>
    unfold CanAcceptanceFilterConfigurator.mergeLoop
    split
    case isTrue more =>
      have less := getSize_mergeRound (Nat.zero_lt_of_lt more)
      exact ih (merges.round more) (by omega)
    case isFalse few => exact ⟨s, rfl, Nat.not_lt.mp few, merges⟩

/-- If every round merges two different entries, nothing is lost. -/
theorem Merges.covers (merges : Merges n s s')
    (mergeable : ∀ between, Merges n s between → n < between.getSize → Mergeable between) :
    Covers s.items s'.items := by
  induction merges with
  | refl => exact fun _ accepted => accepted
  | round merges more ih =>
    exact ih.trans (covers_mergeRound (Nat.zero_lt_of_lt more) (mergeable _ merges more))

/-! ### A bit that all filters look at -/

/-- A filter that accepts only identifiers with this value of a bit. -/
def Shares (k : ℕ) (v : Bool) (c : CanFilterConfig) : Prop :=
  c.mask.toBitVec.getLsbD k = true ∧ c.id.toBitVec.getLsbD k = v

instance (k : ℕ) (v : Bool) (c : CanFilterConfig) : Decidable (Shares k v c) := inferInstanceAs (Decidable (_ ∧ _))

section

variable {k : ℕ} {v : Bool}

theorem Shares.mergeFilters (first : Shares k v a) (second : Shares k v b) :
    Shares k v (mergeFilters a b) := by
  have mask := (getLsbD_mask_mergeFilters a b k).mpr ⟨first.1, second.1, first.2.trans second.2.symm⟩
  exact ⟨mask, (getLsbD_id_mergeFilters mask).trans first.2⟩

theorem Merges.shares (merges : Merges n s s')
    (shares : ∀ c ∈ s.items, Shares k v c) : ∀ c ∈ s'.items, Shares k v c := by
  induction merges with
  | refl => exact shares
  | round _ more ih =>
    obtain ⟨i, j, first, second, -, items⟩ := mergeRound_cases (Nat.zero_lt_of_lt more)
    intro c member
    rw [items] at member
    rcases mem_or_eq_of_mem_set (mem_of_mem_erase member) with old | rfl
    · exact ih c old
    · exact (ih _ (getElem_mem first)).mergeFilters (ih _ (getElem_mem second))

/-- As long as there are at most 256 filters that share a bit, two of them can be merged. -/
theorem Merges.mergeable (merges : Merges n s s') (small : s.getSize ≤ 2 ^ 8)
    (shares : ∀ c ∈ s.items, Shares k v c) (positive : 0 < n) (more : n < s'.getSize) : Mergeable s' := by
  have shares := merges.shares shares
  have size := merges.getSize_le
  have length := ChunkedMultiset.getSize_eq s'
  refine mergeable_of_small (by omega) (i := 0) (j := 1) (by decide) (by omega) fun zero => ?_
  rw [config_eq (by omega), config_eq (by omega)] at zero
  have common : Shares k v (CanAcceptanceFilterConfigurator.mergeFilters s'.items[0] s'.items[1]) :=
    (shares _ (getElem_mem _)).mergeFilters (shares _ (getElem_mem _))
  rw [Shares, zero] at common
  simp at common

end

theorem merges_mergeConfigurations (c : CanAcceptanceFilterConfigurator) (available : c.getNumFilters ≠ 0)
    (enough : c.multisetConfigs.getSize < rounds) :
    ∃ s, c.mergeConfigurations rounds = some (.ok (), { c with multisetConfigs := s }) ∧
      s.getSize ≤ c.getNumFilters.toNat ∧ Merges c.getNumFilters.toNat c.multisetConfigs s := by
  obtain ⟨s, loop, few, merges⟩ := (Merges.refl (n := c.getNumFilters.toNat)).mergeLoop enough
  refine ⟨s, ?_, few, merges⟩
  rw [mergeConfigurations, if_neg available, loop]
  rfl

/-- `mergeConfigurations` ends with at most as many filters as there are, and if every round merges two different
entries, they accept whatever one of the original ones accepts.  That is so for at most 256 filters that look at
one bit and want the same value of it.  The converses fail: an entry that is merged with itself, and lost, may have
accepted nothing that the others do not accept, and filters of which no bit is common to all may be merged in pairs. -/
theorem merged_filters_cover (c : CanAcceptanceFilterConfigurator) (available : c.getNumFilters ≠ 0) {rounds : ℕ}
    (enough : c.multisetConfigs.getSize < rounds) :
    ∃ s, c.mergeConfigurations rounds = some (.ok (), { c with multisetConfigs := s }) ∧
      s.getSize ≤ c.getNumFilters.toNat ∧
      ((∀ between, Merges c.getNumFilters.toNat c.multisetConfigs between →
          c.getNumFilters.toNat < between.getSize → Mergeable between) →
        Covers c.multisetConfigs.items s.items) ∧
      ∀ k v, c.multisetConfigs.getSize ≤ 2 ^ 8 → (∀ f ∈ c.multisetConfigs.items, Shares k v f) →
        Covers c.multisetConfigs.items s.items := by
  obtain ⟨s, merged, few, merges⟩ := c.merges_mergeConfigurations available enough
  have positive : 0 < c.getNumFilters.toNat := Nat.pos_of_ne_zero fun zero => available (UInt16.toNat_inj.mp zero)
  exact ⟨s, merged, few, merges.covers, fun k v small shares =>
    merges.covers fun _ between => between.mergeable small shares positive⟩

/-- A controller with one filter, and two filters that are wanted. -/
def Sample.pair (a b : CanFilterConfig) : CanAcceptanceFilterConfigurator :=
  (((⟨1, [], .empty⟩ : CanAcceptanceFilterConfigurator).addFilterConfig 2 true a).2.addFilterConfig 2 true b).2

/-- Filters that differ in one bit are merged to one without that bit. -/
theorem merged_filters_cover_sample : ∃ s,
    (Sample.pair ⟨16, 255⟩ ⟨17, 255⟩).mergeConfigurations 3 = some (.ok (), ⟨1, [], s⟩) ∧
      s.items = [⟨16, 254⟩] ∧ s.getSize ≤ 1 ∧ Covers [⟨16, 255⟩, ⟨17, 255⟩] s.items := by
  obtain ⟨s, merged, few, covers, -⟩ :=
    merged_filters_cover (Sample.pair ⟨16, 255⟩ ⟨17, 255⟩) (by decide) (show _ < 3 by decide)
  have items : some s.items = some [⟨16, 254⟩] := by
    have result := congrArg (Option.map fun p => p.2.multisetConfigs.items) merged
    exact result.symm.trans (by decide +kernel)
  refine ⟨s, merged, some_inj.mp items, few, covers fun between merges => ?_⟩
  exact merges.mergeable (k := 4) (v := true) (by decide) (by decide) (by decide)

/-- Two filters for the two values of one bit have nothing in common: the entry at index zero is merged with itself
and removed, and what it accepts is lost. -/
theorem filter_lost : ∃ c', (Sample.pair ⟨0, 1⟩ ⟨1, 1⟩).mergeConfigurations 3 = some (.ok (), c') ∧
    (Sample.pair ⟨0, 1⟩ ⟨1, 1⟩).getNumFilters = 1 ∧
    (∃ f ∈ (Sample.pair ⟨0, 1⟩ ⟨1, 1⟩).multisetConfigs.items, f.accepts 0) ∧
    ∀ f ∈ c'.multisetConfigs.items, ¬ f.accepts 0 :=
  ⟨⟨1, [], ⟨[[none, some ⟨1, 1⟩]]⟩⟩, rfl, rfl, by decide +kernel, by decide +kernel⟩

end CanAcceptanceFilterConfigurator

end Uavcan
