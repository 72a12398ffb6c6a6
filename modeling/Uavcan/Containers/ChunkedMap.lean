import Uavcan.Containers.ChunkedMultiset
import Uavcan.Queues.Insertion

/-!
# Maps in chunks

A map keeps its pairs in the slots of a `ChunkedMultiset`, each key once. A sweep over the slots removes all
pairs for which a predicate holds; the predicate may change a state on the way, and if its verdict does not
depend on that state the sweep is `ChunkedMultiset.removeAllWhere` and a fold over the items (`sweep_eq`).
What a map holds is said by `access` alone: each operation has one equation for it.
-/

namespace Containers

open List Option Function

universe u v

namespace ChunkedMultiset

variable {α : Type u}

/-- The items are changed where they are. -/
def mapItems (f : α → α) (s : ChunkedMultiset α) : ChunkedMultiset α :=
  ⟨s.chunks.map fun slots => slots.map (Option.map f)⟩

theorem items_mapItems (f : α → α) (s : ChunkedMultiset α) : (s.mapItems f).items = s.items.map f := by
  simp only [mapItems, items, flatMap_map, map_flatMap, present_map]

/-! ## A sweep over the slots -/

section Sweep

variable {σ : Type v} (predicate : σ → α → Bool × σ)

/-- The slots after the sweep, the state, and how many items were removed up to now. -/
def sweepSlots : List (Slot α) → σ → ℕ → List (Slot α) × σ × ℕ
  | [], state, numRemoved => ([], state, numRemoved)
  | none :: rest, state, numRemoved =>
    let (rest, state, numRemoved) := sweepSlots rest state numRemoved
    (none :: rest, state, numRemoved)
  | some a :: rest, state, numRemoved =>
    let (wanted, state) := predicate state a
    let (rest, state, numRemoved) := sweepSlots rest state (if wanted then numRemoved + 1 else numRemoved)
    ((if wanted then none else some a) :: rest, state, numRemoved)

def sweepChunks : List (List (Slot α)) → σ → ℕ → List (List (Slot α)) × σ × ℕ
  | [], state, numRemoved => ([], state, numRemoved)
  | slots :: rest, state, numRemoved =>
    let (slots, state, numRemoved) := sweepSlots predicate slots state numRemoved
    let (rest, state, numRemoved) := sweepChunks rest state numRemoved
    (slots :: rest, state, numRemoved)

/-- The items for which the predicate holds are removed; chunks are given back only if some were. -/
def sweep (s : ChunkedMultiset α) (state : σ) : ChunkedMultiset α × σ :=
  let (chunks, state, numRemoved) := sweepChunks predicate s.chunks state 0
  (if numRemoved > 0 then compact ⟨chunks⟩ else ⟨chunks⟩, state)

theorem sweepSlots_sublist (slots : List (Slot α)) (state : σ) (numRemoved : ℕ) :
    (present (sweepSlots predicate slots state numRemoved).1).Sublist (present slots) := by
  induction slots generalizing state numRemoved with
  | nil => exact .refl _
  | cons slot rest ih =>
    cases slot with
    | none => exact ih state numRemoved
    | some a =>
      simp only [sweepSlots]
      cases (predicate state a).1 with
      | false => exact (ih _ _).cons_cons a
      | true => exact (ih _ _).cons a

theorem sweepChunks_sublist (chunks : List (List (Slot α))) (state : σ) (numRemoved : ℕ) :
    (items ⟨(sweepChunks predicate chunks state numRemoved).1⟩).Sublist (items ⟨chunks⟩) := by
  induction chunks generalizing state numRemoved with
  | nil => exact .refl _
  | cons slots rest ih => exact (sweepSlots_sublist predicate slots state numRemoved).append (ih _ _)

/-- Whatever the predicate does, the sweep leaves some of the items. -/
theorem sweep_sublist (s : ChunkedMultiset α) (state : σ) : (sweep predicate s state).1.items.Sublist s.items := by
  simp only [sweep]
  split
  · rw [items_compact]
    exact sweepChunks_sublist predicate s.chunks state 0
  · exact sweepChunks_sublist predicate s.chunks state 0

variable {predicate} {wanted : α → Bool} (verdict : ∀ state a, (predicate state a).1 = wanted a)
include verdict

theorem sweepSlots_eq (slots : List (Slot α)) (state : σ) (numRemoved : ℕ) :
    (sweepSlots predicate slots state numRemoved).1 = (slots.map fun slot => slot.filter fun a => !wanted a) ∧
      (sweepSlots predicate slots state numRemoved).2.1 =
        (present slots).foldl (fun state a => (predicate state a).2) state := by
  induction slots generalizing state numRemoved with
  | nil => exact ⟨rfl, rfl⟩
  | cons slot rest ih =>
    cases slot with
    | none =>
      obtain ⟨slots, final⟩ := ih state numRemoved
      exact ⟨congrArg (none :: ·) slots, final⟩
    | some a =>
      obtain ⟨slots, final⟩ := ih (predicate state a).2 (if wanted a then numRemoved + 1 else numRemoved)
      simp only [sweepSlots, verdict]
      refine ⟨?_, final⟩
      rw [slots, map_cons, filter_some]
      cases wanted a with
      | false => rfl
      | true => rfl

theorem sweepChunks_eq (chunks : List (List (Slot α))) (state : σ) (numRemoved : ℕ) :
    items ⟨(sweepChunks predicate chunks state numRemoved).1⟩ = ((items ⟨chunks⟩).filter fun a => !wanted a) ∧
      (sweepChunks predicate chunks state numRemoved).2.1 =
        (items ⟨chunks⟩).foldl (fun state a => (predicate state a).2) state := by
  induction chunks generalizing state numRemoved with
  | nil => exact ⟨rfl, rfl⟩
  | cons slots rest ih =>
    rcases first : sweepSlots predicate slots state numRemoved with ⟨slots', state', n⟩
    obtain ⟨filtered, between⟩ := sweepSlots_eq verdict slots state numRemoved
    rw [first] at filtered between
    simp only at filtered between
    obtain ⟨others, final⟩ := ih state' n
    simp only [sweepChunks, first, items_cons, filter_append, foldl_append]
    refine ⟨?_, ?_⟩
    · rw [filtered, present_map_filter, others]
    · rw [final, ← between]

/-- The sweep of a predicate whose verdict does not depend on the state. -/
theorem sweep_eq (s : ChunkedMultiset α) (state : σ) :
    (sweep predicate s state).1.items = (s.items.filter fun a => !wanted a) ∧
      (sweep predicate s state).2 = s.items.foldl (fun state a => (predicate state a).2) state := by
  obtain ⟨left, final⟩ := sweepChunks_eq verdict s.chunks state 0
  refine ⟨?_, final⟩
  simp only [sweep]
  split
  · rw [items_compact, left]
  · exact left

end Sweep

end ChunkedMultiset

/-! ## Maps -/

/-- The pairs of a map have distinct keys. -/
structure ChunkedMap (κ ν : Type u) where
  store : ChunkedMultiset (κ × ν)
  distinct : (store.items.map Prod.fst).Nodup

namespace ChunkedMap

variable {κ ν : Type u} [DecidableEq κ]

def empty : ChunkedMap κ ν := ⟨.empty, nodup_nil⟩

variable (m : ChunkedMap κ ν)

def access (key : κ) : Option ν := (m.store.items.find? fun kv => kv.1 = key).map Prod.snd

def isEmpty : Bool := (m.store.items.find? fun _ => true).isNone

def remove (key : κ) : ChunkedMap κ ν where
  store := m.store.removeFirstWhere fun kv => kv.1 = key
  distinct := by
    rw [ChunkedMultiset.items_removeFirstWhere]
    exact m.distinct.sublist (eraseP_sublist.map _)

theorem items_remove (key : κ) :
    (m.remove key).store.items = m.store.items.filter fun kv => kv.1 ≠ key := by
  rw [remove, ChunkedMultiset.items_removeFirstWhere, Queues.eraseP_eq_filter m.distinct]

variable {m : ChunkedMap κ ν}

/-- A pair whose key the map does not have any more keeps the keys distinct. -/
theorem distinct_emplace {key : κ} {value : ν} {numItems : ℕ} {alloc : Bool} {s : ChunkedMultiset (κ × ν)}
    (emplaced : (m.remove key).store.emplace numItems alloc (key, value) = some s) :
    (s.items.map Prod.fst).Nodup := by
  rw [((ChunkedMultiset.perm_emplace emplaced).map Prod.fst).nodup_iff, map_cons, nodup_cons]
  refine ⟨?_, (m.remove key).distinct⟩
  rw [items_remove, List.mem_map]
  rintro ⟨kv, mem, same⟩
  exact absurd same (of_decide_eq_true (mem_filter.mp mem).2)

/-- Whether there was room for the pair, and the map then.  A pair with the key is removed first. -/
def insert (numItems : ℕ) (alloc : Bool) (key : κ) (value : ν) (m : ChunkedMap κ ν) : Bool × ChunkedMap κ ν :=
  match emplaced : (m.remove key).store.emplace numItems alloc (key, value) with
  | some s => (true, ⟨s, distinct_emplace emplaced⟩)
  | none => (false, m.remove key)

/-- The value of a key is changed where it is. -/
def set (m : ChunkedMap κ ν) (key : κ) (value : ν) : ChunkedMap κ ν where
  store := m.store.mapItems fun kv => if kv.1 = key then (key, value) else kv
  distinct := by
    rw [ChunkedMultiset.items_mapItems, List.map_map]
    convert m.distinct using 2
    funext kv
    rw [comp_apply]
    split
    · rename_i same
      exact same.symm
    · rfl

/-- The pairs for which the predicate holds are removed; the predicate may change a state. -/
def removeAllWhere {σ : Type v} (predicate : σ → κ × ν → Bool × σ) (m : ChunkedMap κ ν) (state : σ) :
    ChunkedMap κ ν × σ :=
  (⟨(m.store.sweep predicate state).1,
      m.distinct.sublist ((ChunkedMultiset.sweep_sublist predicate m.store state).map _)⟩,
    (m.store.sweep predicate state).2)

/-! ## What a map holds -/

omit [DecidableEq κ] in
theorem eq_of_mem {key : κ} {value value' : ν} (mem : (key, value) ∈ m.store.items)
    (mem' : (key, value') ∈ m.store.items) : value = value' :=
  congrArg Prod.snd (inj_on_of_nodup_map m.distinct mem mem' rfl)

theorem access_eq_some_iff {key : κ} {value : ν} :
    m.access key = some value ↔ (key, value) ∈ m.store.items := by
  rw [access, map_eq_some_iff]
  constructor
  · rintro ⟨⟨key', value'⟩, found, rfl⟩
    obtain rfl : key' = key := by simpa using find?_some found
    exact mem_of_find?_eq_some found
  · intro mem
    cases found : m.store.items.find? fun kv => kv.1 = key with
    | none => exact absurd (find?_eq_none.mp found _ mem) (by simp)
    | some kv =>
      obtain ⟨key', value'⟩ := kv
      obtain rfl : key' = key := by simpa using find?_some found
      exact ⟨_, rfl, eq_of_mem (mem_of_find?_eq_some found) mem⟩

theorem isEmpty_iff : m.isEmpty = true ↔ ∀ key, m.access key = none := by
  rw [isEmpty, isNone_iff_eq_none, find?_eq_none]
  constructor
  · intro none key
    rw [eq_none_iff_forall_not_mem]
    intro value found
    exact none _ (access_eq_some_iff.mp found) rfl
  · rintro absent ⟨key, value⟩ mem
    rw [← access_eq_some_iff, absent key] at mem
    cases mem

/-- What holds of some pair with the key holds of the value of the key. -/
theorem any_access (m : ChunkedMap κ ν) (key : κ) (p : ν → Bool) :
    (m.access key).any p = m.store.items.any fun kv => kv.1 = key && p kv.2 := by
  rw [Bool.eq_iff_iff, Option.any_eq_true, List.any_eq_true]
  constructor
  · rintro ⟨value, found, holds⟩
    exact ⟨_, access_eq_some_iff.mp found, by simp [holds]⟩
  · rintro ⟨⟨key', value⟩, mem, holds⟩
    obtain ⟨rfl, here⟩ : key' = key ∧ p value = true := by simpa using holds
    exact ⟨value, access_eq_some_iff.mpr mem, here⟩

theorem access_remove (m : ChunkedMap κ ν) (key : κ) : (m.remove key).access = update m.access key none := by
  funext key'
  refine ext fun value => ?_
  rw [access_eq_some_iff, items_remove, mem_filter, decide_eq_true_eq, ← access_eq_some_iff]
  by_cases same : key' = key
  · subst same
    simp
  · simp [same]

/-- What `insert` does; without memory the key is gone. -/
theorem access_insert {m' : ChunkedMap κ ν} {numItems : ℕ} {alloc inserted : Bool} {key : κ} {value : ν}
    (run : m.insert numItems alloc key value = (inserted, m')) :
    m'.access = update m.access key (if inserted then some value else none) := by
  unfold insert at run
  split at run
  case h_2 =>
    cases run
    exact access_remove m key
  case h_1 s emplaced =>
    cases run
    funext key'
    refine ext fun value' => ?_
    rw [access_eq_some_iff, (ChunkedMultiset.perm_emplace emplaced).mem_iff, mem_cons,
      ← access_eq_some_iff, access_remove]
    by_cases same : key' = key
    · subst same
      simp [eq_comm]
    · simp [same]

theorem access_set {key : κ} {old : ν} (present : m.access key = some old) (value : ν) :
    (m.set key value).access = update m.access key (some value) := by
  funext key'
  refine ext fun value' => ?_
  rw [access_eq_some_iff, set, ChunkedMultiset.items_mapItems, List.mem_map]
  by_cases same : key' = key
  · subst same
    rw [update_self, some_inj]
    constructor
    · rintro ⟨kv, mem, changed⟩
      split at changed
      · exact congrArg Prod.snd changed
      · rename_i other
        exact absurd (congrArg Prod.fst changed) other
    · rintro rfl
      exact ⟨_, access_eq_some_iff.mp present, if_pos rfl⟩
  · rw [update_of_ne same, access_eq_some_iff]
    constructor
    · rintro ⟨kv, mem, changed⟩
      split at changed
      · exact absurd (congrArg Prod.fst changed).symm same
      · exact changed ▸ mem
    · intro mem
      exact ⟨_, mem, if_neg same⟩

/-- The sweep of a predicate whose verdict does not depend on the state. -/
theorem access_removeAllWhere {σ : Type v} {predicate : σ → κ × ν → Bool × σ} {wanted : κ × ν → Bool}
    (verdict : ∀ state kv, (predicate state kv).1 = wanted kv) (m : ChunkedMap κ ν) (state : σ) (key : κ) :
    (m.removeAllWhere predicate state).1.access key = (m.access key).filter fun value => !wanted (key, value) := by
  refine ext fun value => ?_
  rw [access_eq_some_iff, removeAllWhere, (ChunkedMultiset.sweep_eq verdict m.store state).1, mem_filter,
    filter_eq_some_iff, access_eq_some_iff]

omit [DecidableEq κ] in
theorem removeAllWhere_snd {σ : Type v} {predicate : σ → κ × ν → Bool × σ} {wanted : κ × ν → Bool}
    (verdict : ∀ state kv, (predicate state kv).1 = wanted kv) (m : ChunkedMap κ ν) (state : σ) :
    (m.removeAllWhere predicate state).2 = m.store.items.foldl (fun state kv => (predicate state kv).2) state :=
  (ChunkedMultiset.sweep_eq verdict m.store state).2

end ChunkedMap

end Containers
