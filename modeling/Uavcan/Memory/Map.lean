import Uavcan.Containers.ChunkedMap

/-!
# Maps

`Map` of `uavcan/util/map.hpp` keeps its pairs in groups of `NumKV` slots from the pool. A slot with the default
key is empty. With the empty slots marked otherwise a `Map` is a `Containers.ChunkedMap` (`toChunked`), so that a
map behaves like a partial function whatever calls it gets (`refines_run`). What it does not do is keep a pair
until its replacement is stored: if a key was the only one of its group, `insert` has given the group back before
it asks for another one.
-/

namespace Uavcan

open List Containers Function

universe u

/-- The groups, the one that was added last first. -/
structure Map (κ ν : Type u) where
  groups : List (List (κ × ν))

namespace Map

variable {κ ν : Type u} [DecidableEq κ] [Inhabited κ] [Inhabited ν]

def empty : Map κ ν := ⟨[]⟩

variable (m : Map κ ν)

/-- The slot has a pair. -/
def holds (kv : κ × ν) : Bool := kv.1 ≠ default

def findKey (key : κ) : Option (κ × ν) := m.groups.findSome? fun kvs => kvs.find? fun kv => kv.1 = key

/-- The slot that `findKey` finds is overwritten. -/
def overwrite (key : κ) (pair : κ × ν) : Option (List (List (κ × ν))) :=
  updateFirst (updateFirst fun kv => if kv.1 = key then some pair else none) m.groups

def compact : Map κ ν := ⟨m.groups.filter fun kvs => kvs.any holds⟩

def access (key : κ) : Option ν := (m.findKey key).map Prod.snd

def remove (key : κ) : Map κ ν :=
  match m.overwrite key (default, default) with
  | some groups => compact ⟨groups⟩
  | none => m

/-- Whether the result is not null, and the map then; `alloc` says whether there is memory for a new group. -/
def insert (numKV : ℕ) (alloc : Bool) (key : κ) (value : ν) (m : Map κ ν) : Bool × Map κ ν :=
  let m := m.remove key
  match m.overwrite default (key, value) with
  | some groups => (true, ⟨groups⟩)
  | none =>
    if alloc then (true, ⟨((key, value) :: replicate (numKV - 1) (default, default)) :: m.groups⟩)
    else (false, m)

variable (predicate : κ × ν → Bool)

def removeAllWhere : Map κ ν :=
  let numRemoved := m.groups.flatten.countP fun kv => holds kv && predicate kv
  if numRemoved > 0 then
    compact ⟨m.groups.map fun kvs => kvs.map fun kv => if holds kv && predicate kv then (default, default) else kv⟩
  else m

def find : Option κ :=
  (m.groups.findSome? fun kvs => kvs.find? fun kv => holds kv && predicate kv).map Prod.fst

/-- The pair that comes after so many others. -/
def getInSlots : ℕ → List (κ × ν) → Option (κ × ν)
  | _, [] => none
  | index, kv :: rest =>
    if holds kv then
      match index with
      | 0 => some kv
      | index + 1 => getInSlots index rest
    else getInSlots index rest

def getByIndex (index : ℕ) : Option (κ × ν) := getInSlots index m.groups.flatten

def getSize : ℕ := m.groups.foldl (fun num kvs => num + kvs.countP holds) 0

/-- The calls that change a map. -/
inductive Call (κ ν : Type u)
  | insert (alloc : Bool) (key : κ) (value : ν)
  | remove (key : κ)
  | removeAllWhere (predicate : κ × ν → Bool)

/-- The default key is not given to a map. -/
def Call.NonDefault : Call κ ν → Prop
  | .insert _ key _ | .remove key => key ≠ default
  | .removeAllWhere _ => True

def invoke (numKV : ℕ) (m : Map κ ν) : Call κ ν → Map κ ν
  | .insert alloc key value => (m.insert numKV alloc key value).2
  | .remove key => m.remove key
  | .removeAllWhere predicate => m.removeAllWhere predicate

/-! ## Maps in chunks -/

def toSlot (kv : κ × ν) : Slot (κ × ν) := if holds kv then some kv else none

def toChunked : ChunkedMultiset (κ × ν) := ⟨m.groups.map (map toSlot)⟩

/-- The pairs in the order of their slots. -/
def pairs : List (κ × ν) := m.groups.flatten.filter holds

omit [Inhabited ν] in
theorem items_toChunked : m.toChunked.items = m.pairs := by
  rw [ChunkedMultiset.items_eq, toChunked, ← map_flatten, ChunkedMultiset.present, filterMap_map, pairs,
    ← filterMap_eq_filter]
  rfl

omit [Inhabited ν] in
theorem toChunked_compact : m.compact.toChunked = m.toChunked.compact := by
  simp only [toChunked, compact, ChunkedMultiset.compact, filter_map]
  congr 3
  funext kvs
  rw [comp_apply, any_map]
  congr 1
  funext kv
  rw [comp_apply, toSlot]
  cases holds kv with
  | false => rfl
  | true => rfl

omit [Inhabited ν] in
/-- To overwrite a slot is to update what it holds. -/
theorem toChunked_overwrite {key : κ} {pair : κ × ν} {f : Slot (κ × ν) → Option (Slot (κ × ν))}
    (commutes : ∀ kv, (if kv.1 = key then some pair else none).map toSlot = f (toSlot kv)) :
    updateFirst (updateFirst f) m.toChunked.chunks = (m.overwrite key pair).map (map (map toSlot)) :=
  (updateFirst_map (updateFirst_map commutes) m.groups).symm

theorem toChunked_remove {key : κ} (key_ne : key ≠ default) :
    (m.remove key).toChunked = m.toChunked.removeFirstWhere fun kv => kv.1 = key := by
  have slot (kv : κ × ν) : (if kv.1 = key then some (default, default) else none).map toSlot =
      ChunkedMultiset.destroy (fun kv => kv.1 = key) (toSlot kv) := by
    by_cases same : kv.1 = key
    · simp [toSlot, holds, ChunkedMultiset.destroy, same, key_ne]
    · by_cases free : kv.1 = default
      · simp [toSlot, holds, ChunkedMultiset.destroy, free, Ne.symm key_ne]
      · simp [toSlot, holds, ChunkedMultiset.destroy, free, same]
  simp only [remove, ChunkedMultiset.removeFirstWhere, toChunked_overwrite m slot]
  cases m.overwrite key (default, default) with
  | none => rfl
  | some groups => exact toChunked_compact ⟨groups⟩

/-- A pair goes where a chunked multiset puts it. -/
theorem toChunked_insert {numKV : ℕ} {alloc inserted : Bool} {key : κ} {value : ν} {m' : Map κ ν}
    (key_ne : key ≠ default) (inserting : m.insert numKV alloc key value = (inserted, m')) :
    (m.remove key).toChunked.emplace numKV alloc (key, value) = (if inserted then some m'.toChunked else none) ∧
      (inserted = false → m' = m.remove key) := by
  have slot (kv : κ × ν) : (if kv.1 = default then some (key, value) else none).map toSlot =
      ChunkedMultiset.fill (key, value) (toSlot kv) := by
    by_cases free : kv.1 = default
    · simp [toSlot, holds, ChunkedMultiset.fill, free, key_ne]
    · simp [toSlot, holds, ChunkedMultiset.fill, free]
  simp only [ChunkedMultiset.emplace, toChunked_overwrite _ slot]
  unfold insert at inserting
  rcases found : (m.remove key).overwrite default (key, value) with _ | groups
  · simp only [found] at inserting
    cases alloc with
    | false =>
      cases inserting
      exact ⟨rfl, fun _ => rfl⟩
    | true =>
      cases inserting
      simp [toChunked, toSlot, holds, key_ne]
  · simp only [found] at inserting
    cases inserting
    refine ⟨rfl, fun absent => ?_⟩
    cases absent

theorem toChunked_removeAllWhere :
    (m.removeAllWhere predicate).toChunked = m.toChunked.removeAllWhere predicate := by
  unfold removeAllWhere ChunkedMultiset.removeAllWhere
  rw [items_toChunked, pairs, any_filter]
  simp only [gt_iff_lt, countP_pos_iff, any_eq_true]
  split
  · rw [toChunked_compact, toChunked, toChunked, map_map, map_map]
    congr 3
    funext kvs
    rw [comp_apply, comp_apply, map_map, map_map]
    congr 1
    funext kv
    rw [comp_apply, comp_apply, toSlot, toSlot]
    cases here : holds kv with
    | false => simp [here]
    | true =>
      cases wanted : predicate kv with
      | false => simp [here, Option.filter_some, wanted]
      | true => simp [holds, Option.filter_some, wanted]
  · rfl

/-! ## What a map shows -/

omit [Inhabited ν] in
theorem getInSlots_eq (index : ℕ) (slots : List (κ × ν)) : getInSlots index slots = (slots.filter holds)[index]? := by
  induction slots generalizing index with
  | nil => rfl
  | cons kv rest ih =>
    rw [filter_cons]
    cases index with
    | zero =>
      rw [getInSlots]
      split
      · rfl
      · exact ih 0
    | succ index =>
      rw [getInSlots]
      split
      · exact ih index
      · exact ih (index + 1)

omit [Inhabited ν] in
theorem getByIndex_eq (index : ℕ) : m.getByIndex index = m.pairs[index]? := getInSlots_eq index _

omit [Inhabited ν] in
theorem getSize_eq : m.getSize = m.pairs.length := by
  have total (groups : List (List (κ × ν))) (num : ℕ) :
      groups.foldl (fun num kvs => num + kvs.countP holds) num = num + (groups.flatten.filter holds).length := by
    induction groups generalizing num with
    | nil => rfl
    | cons kvs rest ih =>
      rw [foldl_cons, ih, flatten_cons, filter_append, length_append, countP_eq_length_filter, Nat.add_assoc]
  exact (total m.groups 0).trans (Nat.zero_add _)

omit [Inhabited ν] in
theorem find_eq : m.find predicate = (m.pairs.find? predicate).map Prod.fst := by
  simp only [find, pairs, find?_filter, ← find?_flatten, Bool.decide_and, Bool.decide_eq_true]

/-- The map with its empty slots marked otherwise. -/
def toMap (distinct : (m.pairs.map Prod.fst).Nodup) : ChunkedMap κ ν :=
  ⟨m.toChunked, (items_toChunked m).symm ▸ distinct⟩

omit [Inhabited ν] in
theorem access_eq {key : κ} (key_ne : key ≠ default) (distinct : (m.pairs.map Prod.fst).Nodup) :
    m.access key = (m.toMap distinct).access key := by
  rw [access, ChunkedMap.access, toMap, items_toChunked, pairs, find?_filter, findKey, ← find?_flatten]
  congr 2
  funext kv
  by_cases same : kv.1 = key
  · simp [holds, same, key_ne]
  · simp [same]

/-- What holds of a map between its calls. -/
structure Inv : Prop where
  distinct : (m.pairs.map Prod.fst).Nodup
  packed : m.toChunked.Packed

/-- What a map shows is a partial function from keys to values, and the calls change it as they should.  A failed
`insert` leaves the map as it was, unless the key was there: then the pair is gone, and a group has been given back. -/
structure Refines (numKV : ℕ) : Prop where
  enumerates {key : κ} {value : ν} (key_ne : key ≠ default) :
    m.access key = some value ↔ ∃ i, m.getByIndex i = some (key, value)
  once {i j : ℕ} {kv kv' : κ × ν} (first : m.getByIndex i = some kv) (second : m.getByIndex j = some kv')
    (same : kv.1 = kv'.1) : i = j
  size (i : ℕ) : (m.getByIndex i).isSome ↔ i < m.getSize
  finds (predicate : κ × ν → Bool) (key : κ) (found : m.find predicate = some key) :
    key ≠ default ∧ ∃ value, m.access key = some value ∧ predicate (key, value)
  misses (predicate : κ × ν → Bool) (missed : m.find predicate = none) {key : κ} {value : ν} (key_ne : key ≠ default)
    (present : m.access key = some value) : predicate (key, value) = false
  packed {kvs : List (κ × ν)} (group : kvs ∈ m.groups) : ∃ kv ∈ kvs, kv.1 ≠ default
  remove {key key' : κ} (key_ne : key ≠ default) (key_ne' : key' ≠ default) :
    (m.remove key).access key' = if key' = key then none else m.access key'
  removeAllWhere (predicate : κ × ν → Bool) {key : κ} (key_ne : key ≠ default) :
    (m.removeAllWhere predicate).access key = (m.access key).filter fun value => !predicate (key, value)
  insert (alloc : Bool) {key : κ} (value : ν) {inserted : Bool} {m' : Map κ ν} (key_ne : key ≠ default)
    (inserting : m.insert numKV alloc key value = (inserted, m')) :
    (∀ key', key' ≠ default →
      m'.access key' = if key' = key then (if inserted then some value else none) else m.access key') ∧
    (inserted = false → alloc = false ∧
      if m.access key = none then m' = m else m'.groups.length < m.groups.length)

variable {m}

omit [Inhabited ν] in
theorem mem_pairs (kv : κ × ν) : kv ∈ m.pairs ↔ ∃ i, m.getByIndex i = some kv := by
  simp only [getByIndex_eq, mem_iff_getElem?]

omit [Inhabited ν] in
theorem Inv.access_eq_some_iff (inv : m.Inv) {key : κ} {value : ν} (key_ne : key ≠ default) :
    m.access key = some value ↔ (key, value) ∈ m.pairs := by
  rw [access_eq m key_ne inv.distinct, ChunkedMap.access_eq_some_iff, toMap, items_toChunked]

theorem Inv.remove (inv : m.Inv) {key : κ} (key_ne : key ≠ default) : (m.remove key).Inv where
  distinct := by
    rw [← items_toChunked, toChunked_remove m key_ne]
    exact ((m.toMap inv.distinct).remove key).distinct
  packed := by
    rw [toChunked_remove m key_ne]
    exact inv.packed.removeFirstWhere _

theorem toMap_remove (inv : m.Inv) {key : κ} (key_ne : key ≠ default) :
    (m.remove key).toMap (inv.remove key_ne).distinct = (m.toMap inv.distinct).remove key := by
  simp only [toMap, ChunkedMap.remove, toChunked_remove m key_ne]

variable {numKV : ℕ} {alloc inserted : Bool} {key : κ} {value : ν} {m' : Map κ ν}

theorem Inv.insert (inv : m.Inv) (key_ne : key ≠ default)
    (inserting : m.insert numKV alloc key value = (inserted, m')) :
    ∃ inv' : m'.Inv,
      (m.toMap inv.distinct).insert numKV alloc key value = (inserted, m'.toMap inv'.distinct) := by
  have removed := inv.remove key_ne
  obtain ⟨emplaced, failed⟩ := toChunked_insert m key_ne inserting
  have store : ((m.toMap inv.distinct).remove key).store = (m.remove key).toChunked :=
    congrArg ChunkedMap.store (toMap_remove inv key_ne).symm
  rw [← store] at emplaced
  cases inserted with
  | false =>
    obtain rfl := failed rfl
    refine ⟨removed, ?_⟩
    unfold ChunkedMap.insert
    split
    · rename_i s stored
      cases stored.symm.trans emplaced
    · rw [toMap_remove inv key_ne]
  | true =>
    have distinct := ChunkedMap.distinct_emplace emplaced
    rw [items_toChunked] at distinct
    refine ⟨⟨distinct, removed.packed.emplace (store ▸ emplaced)⟩, ?_⟩
    unfold ChunkedMap.insert
    split
    · rename_i s stored
      cases stored.symm.trans emplaced
      rfl
    · rename_i stuck
      cases stuck.symm.trans emplaced

theorem Inv.removeAllWhere (inv : m.Inv) : (m.removeAllWhere predicate).Inv where
  distinct := by
    rw [← items_toChunked, toChunked_removeAllWhere, ChunkedMultiset.items_removeAllWhere, items_toChunked]
    exact inv.distinct.sublist (filter_sublist.map _)
  packed := by
    rw [toChunked_removeAllWhere]
    exact inv.packed.removeAllWhere predicate

theorem Inv.access_remove (inv : m.Inv) {key' : κ} (key_ne : key ≠ default) (key_ne' : key' ≠ default) :
    (m.remove key).access key' = if key' = key then none else m.access key' := by
  rw [access_eq _ key_ne' (inv.remove key_ne).distinct, toMap_remove inv key_ne, ChunkedMap.access_remove,
    access_eq m key_ne' inv.distinct, update_apply]

theorem Inv.access_removeAllWhere (inv : m.Inv) (key_ne : key ≠ default) :
    (m.removeAllWhere predicate).access key = (m.access key).filter fun value => !predicate (key, value) := by
  refine Option.ext fun value => ?_
  rw [(inv.removeAllWhere predicate).access_eq_some_iff key_ne, ← items_toChunked, toChunked_removeAllWhere,
    ChunkedMultiset.items_removeAllWhere, items_toChunked, mem_filter, Option.filter_eq_some_iff,
    inv.access_eq_some_iff key_ne]

theorem Inv.access_insert (inv : m.Inv) {key' : κ} (key_ne : key ≠ default) (key_ne' : key' ≠ default)
    (inserting : m.insert numKV alloc key value = (inserted, m')) :
    m'.access key' = if key' = key then (if inserted then some value else none) else m.access key' := by
  obtain ⟨inv', chunked⟩ := inv.insert key_ne inserting
  rw [access_eq _ key_ne' inv'.distinct, ChunkedMap.access_insert chunked, update_apply,
    access_eq m key_ne' inv.distinct]

/-- A key that was there has left a free slot, unless its group was given back. -/
theorem Inv.insert_eq_false (inv : m.Inv) (key_ne : key ≠ default)
    (failing : m.insert numKV alloc key value = (false, m')) :
    alloc = false ∧ if m.access key = none then m' = m else m'.groups.length < m.groups.length := by
  obtain ⟨emplaced, failed⟩ := toChunked_insert m key_ne failing
  obtain ⟨noMemory, full⟩ := ChunkedMultiset.emplace_eq_none.mp emplaced
  obtain rfl := failed rfl
  refine ⟨noMemory, ?_⟩
  split
  · rename_i absent
    rw [access, Option.map_eq_none_iff, findKey, ← find?_flatten, find?_eq_none] at absent
    rw [Map.remove]
    split
    · rename_i groups overwritten
      rcases updateFirst_flatten_cases (fun kv => if kv.1 = key then some (default, default) else none) m.groups with
        ⟨stuck, -⟩ | ⟨_, before, kv, _, after, -, same, -, changed, -⟩
      · cases stuck.symm.trans overwritten
      · obtain ⟨here, -⟩ := Option.ite_none_right_eq_some.mp changed
        exact absurd (decide_eq_true here) (absent kv (by simp [same]))
    · rfl
  · rename_i present
    obtain ⟨old, present⟩ := Option.ne_none_iff_exists'.mp present
    rw [inv.access_eq_some_iff key_ne, ← items_toChunked] at present
    rw [toChunked_remove m key_ne] at full
    rcases ChunkedMultiset.free_removeFirstWhere (fun kv => kv.1 = key)
      (any_eq_true.mpr ⟨_, present, decide_eq_true rfl⟩) with free | fewer
    · exact absurd free full
    · rw [← toChunked_remove m key_ne] at fewer
      simpa [toChunked] using fewer

theorem Inv.refines (inv : m.Inv) : m.Refines numKV where
  enumerates key_ne := (inv.access_eq_some_iff key_ne).trans (mem_pairs _)
  once {i j kv kv'} first second same := by
    rw [getByIndex_eq] at first second
    have inside := (List.getElem?_eq_some_iff.mp first).1
    refine (getElem?_inj (by rwa [length_map]) inv.distinct).mp ?_
    rw [getElem?_map, getElem?_map, first, second, Option.map_some, Option.map_some, same]
  size i := by rw [getByIndex_eq, getSize_eq, isSome_getElem?]
  finds predicate key found := by
    rw [find_eq, Option.map_eq_some_iff] at found
    obtain ⟨⟨key', value⟩, found, rfl⟩ := found
    have member := mem_of_find?_eq_some found
    have key_ne : key' ≠ default := of_decide_eq_true (mem_filter.mp member).2
    exact ⟨key_ne, value, (inv.access_eq_some_iff key_ne).mpr member, find?_some found⟩
  misses predicate missed key value key_ne present := by
    rw [find_eq, Option.map_eq_none_iff, find?_eq_none] at missed
    simpa using missed _ ((inv.access_eq_some_iff key_ne).mp present)
  packed {kvs} group := by
    have item := inv.packed _ (mem_map_of_mem group)
    rw [any_map, any_eq_true] at item
    obtain ⟨kv, here, item⟩ := item
    refine ⟨kv, here, fun free => ?_⟩
    simp [toSlot, holds, free] at item
  remove key_ne key_ne' := inv.access_remove key_ne key_ne'
  removeAllWhere predicate _ key_ne := inv.access_removeAllWhere predicate key_ne
  insert alloc _ value inserted m' key_ne inserting :=
    ⟨fun key' key_ne' => inv.access_insert key_ne key_ne' inserting,
      fun failed => inv.insert_eq_false key_ne (failed ▸ inserting)⟩

theorem Inv.invoke {call : Call κ ν} (inv : m.Inv) (nonDefault : call.NonDefault) : (m.invoke numKV call).Inv := by
  cases call with
  | insert alloc key value => exact (inv.insert nonDefault rfl).1
  | remove key => exact inv.remove nonDefault
  | removeAllWhere predicate => exact inv.removeAllWhere predicate

/-- After any calls a map behaves like a partial function. -/
theorem refines_run (numKV : ℕ) (calls : List (Call κ ν)) (nonDefault : ∀ call ∈ calls, call.NonDefault) :
    (calls.foldl (invoke numKV) empty).Refines numKV := by
  have start : (empty : Map κ ν).Inv := ⟨nodup_nil, nofun⟩
  have inv : (calls.foldl (invoke numKV) empty).Inv := by
    generalize (empty : Map κ ν) = m at start
    induction calls generalizing m with
    | nil => exact start
    | cons call calls ih =>
      obtain ⟨here, later⟩ := forall_mem_cons.mp nonDefault
      exact ih later _ (start.invoke here)
  exact inv.refines

/-- Two keys in one group of three slots, one of which is inserted again without memory. -/
theorem refines_two_keys :
    (([.insert true 1 10, .insert false 2 20, .insert false 1 11] : List (Call ℕ ℕ)).foldl
      (invoke 3) empty).Refines 3 :=
  refines_run 3 _ (by simp [Call.NonDefault])

/-- The only key is inserted again without memory: its pair is lost. -/
theorem insert_loses_pair :
    (((empty : Map ℕ ℕ).insert 2 true 1 10).2.access 1 = some 10) ∧
      ((((empty : Map ℕ ℕ).insert 2 true 1 10).2.insert 2 false 1 11).1 = false) ∧
        (((empty : Map ℕ ℕ).insert 2 true 1 10).2.insert 2 false 1 11).2.access 1 = none := by
  decide

end Map

end Uavcan
