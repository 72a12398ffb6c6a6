import Uavcan.Containers.ChunkedMultiset

/-!
# Multisets in pool memory

`Multiset` over a pool whose allocations may fail. Every item that is constructed gets a serial number here, and the
items that are destroyed are recorded, so that their lifetimes can be followed through a run.
-/

namespace Uavcan

open List Containers

/-- The container, how many items have been constructed, and the items that have been destroyed. -/
structure Multiset (α : Type) where
  slots : ChunkedMultiset (ℕ × α)
  constructed : ℕ
  destroyed : List (ℕ × α)

inductive MultisetCall (α : Type)
  | emplace (alloc : Bool) (a : α)
  | removeFirstWhere (predicate : α → Bool)
  | removeAllWhere (predicate : α → Bool)
  | clear
  | find (predicate : α → Bool)
  | getByIndex (index : ℕ)
  | getSize

inductive MultisetAnswer (α : Type)
  | done
  | item (a : Option α)
  | size (n : ℕ)

namespace Multiset

variable {α : Type} (s : Multiset α) (predicate : α → Bool)

def empty : Multiset α := ⟨.empty, 0, []⟩

/-- The items without their numbers. -/
def content : List α := s.slots.items.map Prod.snd

/-- No slot is free. -/
def Full : Prop := none ∉ s.slots.chunks.flatten

def emplace (numItems : ℕ) (alloc : Bool) (a : α) : Option α × Multiset α :=
  match s.slots.emplace numItems alloc (s.constructed, a) with
  | none => (none, s)
  | some slots => (some a, { s with slots := slots, constructed := s.constructed + 1 })

/-- The search stops at the first item, in the order of the slots. -/
def findItem : Option (ℕ × α) :=
  s.slots.chunks.flatten.findSome? fun slot => slot.filter fun item => predicate item.2

def find : Option α := (s.findItem predicate).map Prod.snd

def removeFirstWhere : Multiset α :=
  { s with
    slots := s.slots.removeFirstWhere fun item => predicate item.2
    destroyed := (s.findItem predicate).toList ++ s.destroyed }

def removeAllWhere : Multiset α :=
  { s with
    slots := s.slots.removeAllWhere fun item => predicate item.2
    destroyed := (s.slots.items.filter fun item => predicate item.2) ++ s.destroyed }

def clear : Multiset α := s.removeAllWhere fun _ => true

def getByIndex (index : ℕ) : Option α := (s.slots.getByIndex index).map Prod.snd

def step (numItems : ℕ) : MultisetCall α → MultisetAnswer α × Multiset α
  | .emplace alloc a => (.item (s.emplace numItems alloc a).1, (s.emplace numItems alloc a).2)
  | .removeFirstWhere predicate => (.done, s.removeFirstWhere predicate)
  | .removeAllWhere predicate => (.done, s.removeAllWhere predicate)
  | .clear => (.done, s.clear)
  | .find predicate => (.item (s.find predicate), s)
  | .getByIndex index => (.item (s.getByIndex index), s)
  | .getSize => (.size s.slots.getSize, s)

end Multiset

/-- The states that calls lead to. -/
inductive MultisetRun {α : Type} (numItems : ℕ) : Multiset α → Prop
  | empty : MultisetRun numItems .empty
  | step {s : Multiset α} (call : MultisetCall α) : MultisetRun numItems s →
      MultisetRun numItems (s.step numItems call).2

/-- What a finite multiset may answer, and what it is afterwards; lists stand for multisets. An item is refused exactly
if no slot is free (`full`) and there is no memory for a chunk. Which items the indices stand for is left open, but each
item has one index. -/
def MultisetCall.Meets {α : Type} (call : MultisetCall α) (full : Prop) (answer : MultisetAnswer α) (old new : List α) :
    Prop :=
  match call, answer with
  | .emplace alloc _, .item none => (alloc = false ∧ full) ∧ new = old
  | .emplace alloc a, .item (some b) => ¬(alloc = false ∧ full) ∧ b = a ∧ new.Perm (a :: old)
  | .removeFirstWhere predicate, .done =>
    (∃ a, predicate a = true ∧ old.Perm (a :: new)) ∨ (∀ a ∈ old, predicate a = false) ∧ new = old
  | .removeAllWhere predicate, .done => new.Perm (old.filter fun a => !predicate a)
  | .clear, .done => new = []
  | .find predicate, .item none => (∀ a ∈ old, predicate a = false) ∧ new = old
  | .find predicate, .item (some a) => a ∈ old ∧ predicate a = true ∧ new = old
  | .getByIndex index, .item answer => (answer = none ↔ old.length ≤ index) ∧ new = old
  | .getSize, .size n => n = old.length ∧ new = old
  | _, _ => False

namespace Multiset

variable {α : Type} {numItems : ℕ} {s : Multiset α}

theorem findItem_eq (predicate : α → Bool) :
    s.findItem predicate = s.slots.items.find? fun item => predicate item.2 := by
  rw [findItem, ChunkedMultiset.items_eq, ChunkedMultiset.present]
  induction s.slots.chunks.flatten with
  | nil => rfl
  | cons slot rest ih =>
    cases slot with
    | none => simpa using ih
    | some item =>
      cases wanted : predicate item.2 with
      | true => simp [wanted]
      | false => simpa [wanted] using ih

/-- Every item that was constructed is in its slot or was destroyed, once; and no chunk is empty. -/
structure Inv (s : Multiset α) : Prop where
  lives : ((s.destroyed ++ s.slots.items).map Prod.fst).Perm (range s.constructed)
  packed : s.slots.Packed

theorem inv_empty : (empty : Multiset α).Inv := ⟨.nil, nofun⟩

/-- Some items move from their slots to the destroyed ones. -/
theorem Inv.remove (inv : s.Inv) {slots : ChunkedMultiset (ℕ × α)} {removed : List (ℕ × α)} (packed : slots.Packed)
    (split : (removed ++ slots.items).Perm s.slots.items) :
    Inv { s with slots := slots, destroyed := removed ++ s.destroyed } := by
  refine ⟨?_, packed⟩
  have moved : (removed ++ s.destroyed ++ slots.items).Perm (s.destroyed ++ s.slots.items) := by
    rw [append_assoc]
    refine (perm_append_comm_assoc ..).trans ?_
    exact split.append_left s.destroyed
  exact (moved.map Prod.fst).trans inv.lives

theorem perm_removeFirstWhere (predicate : α → Bool) :
    ((s.findItem predicate).toList ++ (s.removeFirstWhere predicate).slots.items).Perm s.slots.items := by
  rw [findItem_eq, removeFirstWhere, ChunkedMultiset.items_removeFirstWhere]
  generalize s.slots.items = items
  cases found : items.find? fun item => predicate item.2 with
  | none =>
    rw [eraseP_of_forall_not fun item here => find?_eq_none.mp found item here]
    exact .refl _
  | some item =>
    obtain ⟨wanted, before, after, rfl, others⟩ := find?_eq_some_iff_append.mp found
    rw [eraseP_append_right _ (fun item here => by simpa using others item here),
      eraseP_cons_of_pos (p := fun item : ℕ × α => predicate item.2) wanted]
    rw [Option.toList_some, singleton_append]
    exact perm_middle.symm

theorem perm_removeAllWhere (predicate : α → Bool) :
    ((s.slots.items.filter fun item => predicate item.2) ++ (s.removeAllWhere predicate).slots.items).Perm
      s.slots.items := by
  rw [removeAllWhere, ChunkedMultiset.items_removeAllWhere]
  exact filter_append_perm _ _

theorem Inv.emplace (inv : s.Inv) (alloc : Bool) (a : α) : (s.emplace numItems alloc a).2.Inv := by
  unfold Multiset.emplace
  split
  · exact inv
  · rename_i slots emplaced
    refine ⟨?_, inv.packed.emplace emplaced⟩
    have put := (ChunkedMultiset.perm_emplace emplaced).append_left s.destroyed
    have numbers := (put.trans perm_middle).map Prod.fst
    rw [map_cons] at numbers
    rw [range_succ]
    exact numbers.trans ((inv.lives.cons _).trans (perm_append_singleton ..).symm)

theorem Inv.step (inv : s.Inv) (call : MultisetCall α) : (s.step numItems call).2.Inv := by
  cases call with
  | emplace alloc a => exact inv.emplace alloc a
  | removeFirstWhere predicate => exact inv.remove (inv.packed.removeFirstWhere _) (perm_removeFirstWhere predicate)
  | removeAllWhere predicate => exact inv.remove (inv.packed.removeAllWhere _) (perm_removeAllWhere predicate)
  | clear => exact inv.remove (inv.packed.removeAllWhere _) (perm_removeAllWhere (s := s) fun _ => true)
  | find predicate => exact inv
  | getByIndex index => exact inv
  | getSize => exact inv

theorem inv_of_run (run : MultisetRun numItems s) : s.Inv := by
  induction run with
  | empty => exact inv_empty
  | step call _ ih => exact ih.step call

/-- Every call does what it does to a finite multiset. -/
theorem step_meets (s : Multiset α) (call : MultisetCall α) :
    call.Meets s.Full (s.step numItems call).1 s.content (s.step numItems call).2.content := by
  cases call with
  | emplace alloc a =>
    have refused : s.slots.emplace numItems alloc (s.constructed, a) = none ↔ alloc = false ∧ s.Full :=
      ChunkedMultiset.emplace_eq_none
    simp only [step, emplace]
    cases emplaced : s.slots.emplace numItems alloc (s.constructed, a) with
    | none => exact ⟨refused.mp emplaced, rfl⟩
    | some slots =>
      refine ⟨fun refuses => ?_, rfl, (ChunkedMultiset.perm_emplace emplaced).map Prod.snd⟩
      cases emplaced.symm.trans (refused.mpr refuses)
  | removeFirstWhere predicate =>
    have moved := perm_removeFirstWhere (s := s) predicate
    cases found : s.findItem predicate with
    | none =>
      refine .inr ⟨fun a here => ?_, ?_⟩
      · obtain ⟨item, listed, rfl⟩ := mem_map.mp here
        rw [findItem_eq] at found
        simpa using find?_eq_none.mp found item listed
      · rw [findItem_eq] at found
        rw [step, content, removeFirstWhere, ChunkedMultiset.items_removeFirstWhere,
          eraseP_of_forall_not fun item here => find?_eq_none.mp found item here, content]
    | some item =>
      rw [found] at moved
      rw [findItem_eq] at found
      have wanted := find?_some found
      exact .inl ⟨item.2, wanted, (moved.map Prod.snd).symm⟩
  | removeAllWhere predicate =>
    show (content (s.removeAllWhere predicate)).Perm _
    rw [content, removeAllWhere, ChunkedMultiset.items_removeAllWhere, content, filter_map]
    exact .refl _
  | clear =>
    show content s.clear = []
    rw [content, clear, removeAllWhere, ← ChunkedMultiset.clear, ChunkedMultiset.items_clear, map_nil]
  | find predicate =>
    simp only [step, find]
    cases found : s.findItem predicate with
    | none =>
      refine ⟨fun a here => ?_, rfl⟩
      obtain ⟨item, listed, rfl⟩ := mem_map.mp here
      rw [findItem_eq] at found
      simpa using find?_eq_none.mp found item listed
    | some item =>
      rw [findItem_eq] at found
      have wanted := find?_some found
      exact ⟨mem_map_of_mem (mem_of_find?_eq_some found), wanted, rfl⟩
  | getByIndex index =>
    refine ⟨?_, rfl⟩
    rw [getByIndex, ChunkedMultiset.getByIndex_eq, Option.map_eq_none_iff,
      List.getElem?_eq_none_iff, content, length_map]
  | getSize => exact ⟨by rw [ChunkedMultiset.getSize_eq, content, length_map], rfl⟩

theorem getByIndex_content (index : ℕ) : s.getByIndex index = s.content[index]? := by
  rw [getByIndex, ChunkedMultiset.getByIndex_eq, content, getElem?_map]

/-- In every run each call does what it does to a finite multiset, the indices enumerate the items, every item that was
constructed is in its slot or was destroyed, exactly once, and no chunk is without an item. -/
theorem multiset_refines (run : MultisetRun numItems s) :
    (∀ call : MultisetCall α,
      call.Meets s.Full (s.step numItems call).1 s.content (s.step numItems call).2.content) ∧
      (range s.slots.getSize).map s.getByIndex = s.content.map some ∧
      ((s.destroyed ++ s.slots.items).map Prod.fst).Perm (range s.constructed) ∧
      ∀ slots ∈ s.slots.chunks, slots.any Option.isSome := by
  have inv := inv_of_run run
  refine ⟨step_meets s, ?_, inv.lives, inv.packed⟩
  apply ext_getElem
  · simp [ChunkedMultiset.getSize_eq, content]
  · intro i inside inside'
    rw [length_map] at inside'
    simp [getByIndex_content, inside']

/-- With one slot a chunk: the second item gets a chunk of its own, the first one leaves, and then a third one is
refused since there is no memory. -/
def sample : Multiset ℕ :=
  ((((empty : Multiset ℕ).step 1 (.emplace true 5)).2.step 1 (.emplace true 6)).2.step 1 (.removeFirstWhere (· = 5))).2

theorem multiset_refines_sample : sample.Full ∧ sample.destroyed = [(0, 5)] ∧
    (MultisetCall.emplace false 7).Meets sample.Full (.item none) sample.content sample.content ∧
      (range 1).map sample.getByIndex = [some 6] := by
  have run : MultisetRun 1 sample :=
    .step (.removeFirstWhere (· = 5)) (.step (.emplace true 6) (.step (.emplace true 5) .empty))
  obtain ⟨meets, indices, -⟩ := multiset_refines run
  have full : none ∉ sample.slots.chunks.flatten := by decide
  exact ⟨full, by decide, meets (.emplace false 7), indices⟩

end Multiset

end Uavcan
