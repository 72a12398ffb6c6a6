import Mathlib.Data.List.Basic

/-!
# Multisets in chunks

An unordered collection whose items live in chunks of a fixed number of slots. A new item takes the first free
slot, or the first slot of a new chunk in front of the others; chunks without items are given back. Items
never move, so they can be visited, and counted off, in the order of their slots.
-/

namespace Containers

open List Option

universe u

/-- A slot that may hold an item. -/
abbrev Slot (α : Type u) := Option α

structure ChunkedMultiset (α : Type u) where
  chunks : List (List (Slot α))
  deriving DecidableEq

/-- The first element that can be changed is changed. -/
def updateFirst {σ : Type u} (f : σ → Option σ) : List σ → Option (List σ)
  | [] => none
  | x :: rest =>
    match f x with
    | some y => some (y :: rest)
    | none => (updateFirst f rest).map (x :: ·)

variable {σ : Type u}

variable (f : σ → Option σ)

theorem updateFirst_cases (l : List σ) :
    (updateFirst f l = none ∧ ∀ x ∈ l, f x = none) ∨
      ∃ before x y after, l = before ++ x :: after ∧ (∀ z ∈ before, f z = none) ∧ f x = some y ∧
        updateFirst f l = some (before ++ y :: after) := by
  induction l with
  | nil => exact .inl ⟨rfl, nofun⟩
  | cons x rest ih =>
    unfold updateFirst
    cases changed : f x with
    | some y => exact .inr ⟨[], x, y, rest, rfl, nofun, changed, rfl⟩
    | none =>
      rcases ih with ⟨stuck, unchanged⟩ | ⟨before, z, y, after, same, unchanged, found, result⟩
      · refine .inl ⟨by simp [stuck], ?_⟩
        exact forall_mem_cons.mpr ⟨changed, unchanged⟩
      · refine .inr ⟨x :: before, z, y, after, by rw [same]; rfl, ?_, found, ?_⟩
        · exact forall_mem_cons.mpr ⟨changed, unchanged⟩
        · simp [result]

theorem updateFirst_eq_some {f : σ → Option σ} {l l' : List σ} (updated : updateFirst f l = some l') :
    ∃ before x y after, l = before ++ x :: after ∧ (∀ z ∈ before, f z = none) ∧ f x = some y ∧
      l' = before ++ y :: after := by
  rcases updateFirst_cases f l with ⟨stuck, -⟩ | ⟨before, x, y, after, same, unchanged, found, result⟩
  · rw [stuck] at updated
    cases updated
  · exact ⟨before, x, y, after, same, unchanged, found, some.inj (updated.symm.trans result)⟩

theorem updateFirst_append (l l' : List σ) :
    updateFirst f (l ++ l') =
      ((updateFirst f l).map (· ++ l')).or ((updateFirst f l').map (l ++ ·)) := by
  induction l with
  | nil => simp [updateFirst]
  | cons x rest ih =>
    simp only [cons_append, updateFirst]
    cases f x with
    | some y => rfl
    | none =>
      rw [ih]
      cases updateFirst f rest with
      | some changed => rfl
      | none => simp [Function.comp_def]

theorem updateFirst_flatten (l : List (List σ)) :
    (updateFirst (updateFirst f) l).map flatten = updateFirst f l.flatten := by
  induction l with
  | nil => rfl
  | cons slots rest ih =>
    rw [flatten_cons, updateFirst_append, ← ih]
    simp only [updateFirst]
    cases updateFirst f slots with
    | some changed => rfl
    | none => simp [Function.comp_def]

/-- What becomes of the elements of a list of lists. -/
theorem updateFirst_flatten_cases (l : List (List σ)) :
    (updateFirst (updateFirst f) l = none ∧ ∀ x ∈ l.flatten, f x = none) ∨
      ∃ l' before x y after, updateFirst (updateFirst f) l = some l' ∧ l.flatten = before ++ x :: after ∧
        (∀ z ∈ before, f z = none) ∧ f x = some y ∧ l'.flatten = before ++ y :: after := by
  have flat := updateFirst_flatten f l
  rcases updateFirst_cases f l.flatten with ⟨stuck, unchanged⟩ | ⟨before, x, y, after, same, unchanged, found, result⟩
  · rw [stuck, map_eq_none_iff] at flat
    exact .inl ⟨flat, unchanged⟩
  · rw [result, map_eq_some_iff] at flat
    obtain ⟨l', changed, elements⟩ := flat
    exact .inr ⟨l', before, x, y, after, changed, same, unchanged, found, elements⟩

theorem updateFirst_map {τ : Type u} {f : σ → Option σ} {f' : τ → Option τ} {g : σ → τ}
    (commutes : ∀ x, (f x).map g = f' (g x)) (l : List σ) :
    (updateFirst f l).map (map g) = updateFirst f' (l.map g) := by
  induction l with
  | nil => rfl
  | cons x rest ih =>
    rw [map_cons, updateFirst, updateFirst, ← commutes x]
    cases f x with
    | some y => rfl
    | none => simp [← ih, Function.comp_def]

namespace ChunkedMultiset

variable {α : Type u}

def empty : ChunkedMultiset α := ⟨[]⟩

/-- The items of some slots, in order. -/
def present (slots : List (Slot α)) : List α := slots.filterMap id

variable (s : ChunkedMultiset α)

/-- The items in the order in which they are visited. -/
def items : List α := s.chunks.flatMap present

/-- A free slot is filled. -/
def fill (a : α) : Slot α → Option (Slot α)
  | none => some (some a)
  | some _ => none

/-- A new item is put in; `alloc` says whether there is memory for a new chunk. -/
def emplace (numItems : ℕ) (alloc : Bool) (a : α) (s : ChunkedMultiset α) : Option (ChunkedMultiset α) :=
  match updateFirst (updateFirst (fill a)) s.chunks with
  | some chunks => some ⟨chunks⟩
  | none => if alloc then some ⟨(some a :: List.replicate (numItems - 1) none) :: s.chunks⟩ else none

/-- Chunks without items are given back. -/
def compact : ChunkedMultiset α :=
  ⟨s.chunks.filter fun slots => slots.any isSome⟩

variable (predicate : α → Bool)

/-- An item that is looked for leaves its slot. -/
def destroy : Slot α → Option (Slot α)
  | none => none
  | some a => if predicate a then some none else none

theorem fill_eq_some {a : α} {x y : Slot α} (filled : fill a x = some y) : x = none ∧ y = some a := by
  cases x with
  | none => exact ⟨rfl, (some.inj filled).symm⟩
  | some b => cases filled

theorem destroy_eq_some {predicate : α → Bool} {x y : Slot α} (destroyed : destroy predicate x = some y) :
    ∃ a, x = some a ∧ predicate a = true ∧ y = none := by
  cases x with
  | none => cases destroyed
  | some a =>
    obtain ⟨wanted, emptied⟩ := ite_none_right_eq_some.mp destroyed
    exact ⟨a, rfl, wanted, (some.inj emptied).symm⟩

def removeFirstWhere (s : ChunkedMultiset α) : ChunkedMultiset α :=
  match updateFirst (updateFirst (destroy predicate)) s.chunks with
  | some chunks => compact ⟨chunks⟩
  | none => s

def removeFirst [DecidableEq α] (reference : α) (s : ChunkedMultiset α) : ChunkedMultiset α :=
  s.removeFirstWhere fun sample => reference = sample

def removeAllWhere (s : ChunkedMultiset α) : ChunkedMultiset α :=
  -- nothing is given back if nothing was removed
  if s.items.any predicate then
    compact ⟨s.chunks.map fun slots => slots.map fun slot => slot.filter fun a => !predicate a⟩
  else s

def clear : ChunkedMultiset α := s.removeAllWhere fun _ => true

def getSize : ℕ :=
  s.chunks.foldl (fun num slots => num + slots.countP isSome) 0

/-- The item that comes after so many others. -/
def getInSlots : ℕ → List (Slot α) → Option α
  | _, [] => none
  | i, none :: rest => getInSlots i rest
  | 0, some a :: _ => some a
  | i + 1, some _ :: rest => getInSlots i rest

def getByIndex (index : ℕ) : Option α := getInSlots index s.chunks.flatten

def setInSlots (a : α) : ℕ → List (Slot α) → List (Slot α)
  | _, [] => []
  | i, none :: rest => none :: setInSlots a i rest
  | 0, some _ :: rest => some a :: rest
  | i + 1, some b :: rest => some b :: setInSlots a i rest

def setInChunks (a : α) : ℕ → List (List (Slot α)) → List (List (Slot α))
  | _, [] => []
  | i, slots :: rest =>
    if i < (present slots).length then setInSlots a i slots :: rest
    else slots :: setInChunks a (i - (present slots).length) rest

/-- The item that `getByIndex` finds is overwritten. -/
def setByIndex (index : ℕ) (a : α) : ChunkedMultiset α := ⟨setInChunks a index s.chunks⟩

/-! ## The items -/

@[simp] theorem present_nil : present ([] : List (Slot α)) = [] := rfl

@[simp] theorem present_cons_none (slots : List (Slot α)) : present (none :: slots) = present slots := rfl

@[simp] theorem present_cons_some (a : α) (slots : List (Slot α)) :
    present (some a :: slots) = a :: present slots := rfl

@[simp] theorem present_append (l l' : List (Slot α)) : present (l ++ l') = present l ++ present l' :=
  filterMap_append

@[simp] theorem present_replicate (n : ℕ) : present (replicate n (none : Slot α)) = [] := by
  simp [present]

theorem present_map_filter (p : α → Bool) (slots : List (Slot α)) :
    present (slots.map fun slot => slot.filter p) = (present slots).filter p := by
  induction slots with
  | nil => rfl
  | cons slot rest ih =>
    cases slot with
    | none => exact ih
    | some a =>
      rw [map_cons, filter_some]
      cases wanted : p a with
      | false => simp [wanted, ih]
      | true => simp [wanted, ih]

theorem present_map (f : α → α) (slots : List (Slot α)) :
    present (slots.map (Option.map f)) = (present slots).map f := by
  induction slots with
  | nil => rfl
  | cons slot rest ih =>
    cases slot with
    | none => exact ih
    | some a => exact congrArg (f a :: ·) ih

theorem items_eq : s.items = present s.chunks.flatten := by
  obtain ⟨chunks⟩ := s
  induction chunks with
  | nil => rfl
  | cons slots rest ih =>
    rw [flatten_cons, present_append, ← ih]
    rfl

theorem items_cons (slots : List (Slot α)) (l : List (List (Slot α))) :
    items ⟨slots :: l⟩ = present slots ++ items ⟨l⟩ := rfl

theorem items_compact : s.compact.items = s.items := by
  obtain ⟨chunks⟩ := s
  induction chunks with
  | nil => rfl
  | cons slots rest ih =>
    unfold compact at ih ⊢
    rw [items_cons, ← ih, filter_cons]
    split
    case isTrue => rfl
    case isFalse none_left =>
      have nothing : present slots = [] := by
        rw [present]
        simpa using none_left
      rw [nothing]
      rfl

variable {numItems : ℕ} {alloc : Bool}

theorem items_emplace {a : α} {s s' : ChunkedMultiset α}
    (emplaced : s.emplace numItems alloc a = some s') :
    ∃ before after, s.items = before ++ after ∧ s'.items = before ++ a :: after := by
  rcases updateFirst_flatten_cases (fill a) s.chunks with
    ⟨full, -⟩ | ⟨chunks, before, x, y, after, filled, same, -, changed, result⟩
  · cases alloc with
    | false => simp [emplace, full] at emplaced
    | true =>
      simp only [emplace, full, if_true, some_inj] at emplaced
      refine ⟨[], s.items, rfl, ?_⟩
      rw [← emplaced, items_cons]
      simp
  · simp only [emplace, filled, some_inj] at emplaced
    rw [← emplaced, items_eq, items_eq, result, same]
    -- only a free slot is filled
    obtain ⟨rfl, rfl⟩ := fill_eq_some changed
    exact ⟨present before, present after, by simp, by simp⟩

theorem perm_emplace {a : α} {s s' : ChunkedMultiset α}
    (emplaced : s.emplace numItems alloc a = some s') : s'.items.Perm (a :: s.items) := by
  obtain ⟨before, after, old, new⟩ := items_emplace emplaced
  rw [old, new]
  exact perm_middle

theorem items_removeFirstWhere (s : ChunkedMultiset α) :
    (s.removeFirstWhere predicate).items = s.items.eraseP predicate := by
  have other {l : List (Slot α)} (kept : ∀ x ∈ l, destroy predicate x = none) : ∀ a ∈ present l, ¬predicate a := by
    intro a member wanted
    obtain ⟨slot, here, rfl⟩ := mem_filterMap.mp member
    simpa [destroy, wanted] using kept (some a) here
  unfold removeFirstWhere
  rcases updateFirst_flatten_cases (destroy predicate) s.chunks with
    ⟨absent, kept⟩ | ⟨chunks, before, x, y, after, removed, same, kept, changed, result⟩
  · simp only [absent]
    rw [eraseP_of_forall_not]
    rw [items_eq]
    exact other kept
  · simp only [removed]
    rw [items_compact, items_eq, items_eq, result, same]
    obtain ⟨a, rfl, wanted, rfl⟩ := destroy_eq_some changed
    rw [present_append, present_append, eraseP_append_right _ (other kept), present_cons_none,
      present_cons_some, eraseP_cons_of_pos wanted]

theorem items_removeFirst [DecidableEq α] (a : α) (s : ChunkedMultiset α) :
    (s.removeFirst a).items = s.items.erase a := by
  rw [removeFirst, items_removeFirstWhere, erase_eq_eraseP]
  rfl

theorem items_removeAllWhere (s : ChunkedMultiset α) :
    (s.removeAllWhere predicate).items = s.items.filter fun a => !predicate a := by
  unfold removeAllWhere
  split
  case isTrue =>
    rw [items_compact]
    simp only [items, flatMap_map, filter_flatMap, present_map_filter]
  case isFalse absent =>
    symm
    simpa using absent

theorem items_clear : s.clear.items = [] := by
  rw [clear, items_removeAllWhere, filter_eq_nil_iff]
  exact fun _ _ => Bool.false_ne_true

theorem getInSlots_eq (i : ℕ) (slots : List (Slot α)) : getInSlots i slots = (present slots)[i]? := by
  induction slots generalizing i with
  | nil => rfl
  | cons slot rest ih =>
    cases slot with
    | none => exact ih i
    | some a =>
      cases i with
      | zero => rfl
      | succ i => exact ih i

theorem getByIndex_eq (i : ℕ) : s.getByIndex i = s.items[i]? := by
  rw [getByIndex, getInSlots_eq, items_eq]

theorem present_setInSlots (a : α) (i : ℕ) (slots : List (Slot α)) :
    present (setInSlots a i slots) = (present slots).set i a := by
  induction slots generalizing i with
  | nil => rfl
  | cons slot rest ih =>
    cases slot with
    | none => exact ih i
    | some b =>
      cases i with
      | zero => rfl
      | succ i => exact congrArg (b :: ·) (ih i)

theorem items_setByIndex (i : ℕ) (a : α) : (s.setByIndex i a).items = s.items.set i a := by
  obtain ⟨chunks⟩ := s
  unfold setByIndex
  induction chunks generalizing i with
  | nil => rfl
  | cons slots rest ih =>
    dsimp only [setInChunks] at ih ⊢
    split
    case isTrue inside =>
      rw [items_cons, items_cons, present_setInSlots, set_append_left _ _ inside]
    case isFalse outside =>
      rw [items_cons, items_cons, ih, set_append_right _ _ (Nat.not_lt.mp outside)]

theorem getSize_eq : s.getSize = s.items.length := by
  have count (slots : List (Slot α)) : slots.countP isSome = (present slots).length := by
    induction slots with
    | nil => rfl
    | cons slot rest ih => cases slot <;> simp [ih]
  have total (chunks : List (List (Slot α))) (num : ℕ) :
      chunks.foldl (fun num slots => num + slots.countP isSome) num = num + (items ⟨chunks⟩).length := by
    induction chunks generalizing num with
    | nil => rfl
    | cons slots rest ih => rw [foldl_cons, ih, items_cons, length_append, count, Nat.add_assoc]
  exact (total s.chunks 0).trans (Nat.zero_add _)

/-! ## Chunks -/

/-- Every chunk has an item. -/
def Packed : Prop := ∀ slots ∈ s.chunks, slots.any isSome

theorem packed_compact : s.compact.Packed := fun _ kept => (mem_filter.mp kept).2

variable {s}

theorem Packed.emplace {a : α} {s' : ChunkedMultiset α} (packed : s.Packed)
    (emplaced : s.emplace numItems alloc a = some s') : s'.Packed := by
  unfold ChunkedMultiset.emplace at emplaced
  split at emplaced
  · rename_i chunks filled
    cases emplaced
    obtain ⟨before, slots, slots', after, same, -, changed, rfl⟩ := updateFirst_eq_some filled
    obtain ⟨_, x, y, _, -, -, put, rfl⟩ := updateFirst_eq_some changed
    obtain ⟨-, rfl⟩ := fill_eq_some put
    intro kept here
    rcases mem_append.mp here with early | late
    · exact packed kept (by simp [same, early])
    · rcases mem_cons.mp late with rfl | late
      · simp
      · exact packed kept (by simp [same, late])
  · obtain ⟨-, new⟩ := ite_none_right_eq_some.mp emplaced
    cases new
    exact forall_mem_cons.mpr ⟨rfl, packed⟩

theorem Packed.removeFirstWhere (packed : s.Packed) : (s.removeFirstWhere predicate).Packed := by
  unfold ChunkedMultiset.removeFirstWhere
  split
  · exact packed_compact _
  · exact packed

theorem Packed.removeAllWhere (packed : s.Packed) : (s.removeAllWhere predicate).Packed := by
  unfold ChunkedMultiset.removeAllWhere
  split
  · exact packed_compact _
  · exact packed

/-- There is no room exactly if no slot is free and there is no memory. -/
theorem emplace_eq_none {a : α} :
    s.emplace numItems alloc a = none ↔ alloc = false ∧ none ∉ s.chunks.flatten := by
  unfold emplace
  rcases updateFirst_flatten_cases (fill a) s.chunks with ⟨full, taken⟩ | ⟨_, _, x, y, _, filled, same, -, put, -⟩
  · have full' : none ∉ s.chunks.flatten := fun free => by cases taken none free
    simp [full, full']
  · obtain ⟨rfl, -⟩ := fill_eq_some put
    simp [filled, same]

/-- Where an item was removed there is a free slot, or a chunk was given back. -/
theorem free_removeFirstWhere (predicate : α → Bool) (found : s.items.any predicate) :
    none ∈ (s.removeFirstWhere predicate).chunks.flatten ∨
      (s.removeFirstWhere predicate).chunks.length < s.chunks.length := by
  unfold removeFirstWhere
  split
  · rename_i chunks removed
    obtain ⟨before, slots, slots', after, same, -, changed, rfl⟩ := updateFirst_eq_some removed
    obtain ⟨_, x, y, _, -, -, emptied, rfl⟩ := updateFirst_eq_some changed
    obtain ⟨_, -, -, rfl⟩ := destroy_eq_some emptied
    rw [same, compact]
    rcases Nat.lt_or_eq_of_le (length_filter_le (·.any isSome) (before ++ _ :: after)) with fewer | all
    · exact .inr (by simpa using fewer)
    · simp only [filter_eq_self.mpr (length_filter_eq_length_iff.mp all)]
      exact .inl (by simp)
  · rename_i absent
    rw [List.any_eq_true, items_eq] at found
    obtain ⟨a, member, wanted⟩ := found
    obtain ⟨slot, here, rfl⟩ := mem_filterMap.mp member
    rcases updateFirst_flatten_cases (destroy predicate) s.chunks with ⟨-, kept⟩ | ⟨_, _, _, _, _, removed, -⟩
    · simpa [destroy, wanted] using kept _ here
    · cases absent.symm.trans removed

end ChunkedMultiset

end Containers
