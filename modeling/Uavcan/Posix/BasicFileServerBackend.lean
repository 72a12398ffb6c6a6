import Uavcan.Machines.Guarded
import Mathlib

/-!
# The file server

`BasicFileServerBackend` reads pieces of files. Between the requests it keeps the descriptors of the files open in a
cache, until a file was read to its end or was not read for some time. A descriptor that is used or closed when it is
not open is a fault of the model: the step has no result. So that a run has no fault means that no descriptor is closed
twice, or used when it was closed (`descriptors_kept`).
-/

namespace Uavcan

open Function List

namespace BasicFileServerBackend

/-- A C string. -/
abbrev Path := List UInt8

/-- The string that an array of bytes begins with. -/
def cStr (path : List UInt8) : Path := path.takeWhile (· ≠ 0)

/-- A file that is open, and the place in it. -/
structure Descriptor where
  path : Path
  position : ℕ

structure FDCacheItem where
  lastAccess : ℤ
  fd : ℕ
  oflags : ℕ
  path : Path

def maxAgeSeconds : ℤ := 7

def FDCacheItem.expired (item : FDCacheItem) (now : ℤ) : Bool :=
  0 = item.lastAccess || now - item.lastAccess > maxAgeSeconds

def FDCacheItem.equals (item : FDCacheItem) (path : Path) (oflags : ℕ) : Bool :=
  item.oflags = oflags && item.path = path

/-- `fdcache_`: null, the address of `fallback_`, or a cache with its items. -/
inductive Cache
  | null
  | fallback
  | items (items : List FDCacheItem)

end BasicFileServerBackend

open BasicFileServerBackend in
/-- The backend, and the descriptors that it has open. -/
structure BasicFileServerBackend where
  fdcache : Cache
  descriptors : ℕ → Option Descriptor

namespace BasicFileServerBackend

def start : BasicFileServerBackend := ⟨.null, fun _ => none⟩

variable (b : BasicFileServerBackend)

/-- The items of the cache. -/
def items : List FDCacheItem :=
  match b.fdcache with
  | .items items => items
  | _ => []

/-- `::close`. -/
def closeDescriptor (fd : ℕ) (descriptors : ℕ → Option Descriptor) : Option (ℕ → Option Descriptor) :=
  (descriptors fd).map fun _ => update descriptors fd none

/-- The clock is read for every item. -/
def removeExpired : (ℕ → ℤ) → List FDCacheItem → (ℕ → Option Descriptor) →
    Option (List FDCacheItem × (ℕ → Option Descriptor))
  | _, [], descriptors => some ([], descriptors)
  | now, item :: rest, descriptors =>
    if item.expired (now 0) then
      (closeDescriptor item.fd descriptors).bind (removeExpired (fun i => now (i + 1)) rest)
    else (removeExpired (fun i => now (i + 1)) rest descriptors).map
      fun (items, descriptors) => (item :: items, descriptors)

/-- What the system says during a request.  A read that does not fail gives one byte more than `more`, if there are so
many; `staleErrno` is the value of `errno` if no call has failed. -/
inductive ReadAnswer
  | failed (errno : ℤ)
  | short (more : ℕ)

structure Answers where
  cacheAllocated : Bool
  opened : Except ℤ ℕ
  itemAllocated : Bool
  accessTime : ℤ
  seekFailed : Option ℤ
  staleErrno : ℤ
  reads : ℕ → ReadAnswer
  closeTime : ℕ → ℤ

def getFDCache (allocated : Bool) : BasicFileServerBackend :=
  match b.fdcache with
  | .null => { b with fdcache := if allocated then .items [] else .fallback }
  | _ => b

/-- `open` of the cache: `errno` or the descriptor. -/
def openFile (path : Path) (oflags : ℕ) (answers : Answers) : Except ℤ ℕ × BasicFileServerBackend :=
  match b.items.find? (·.equals path oflags) with
  | some found =>
    (.ok found.fd, { b with fdcache := .items (b.items.map fun item =>
      if item.equals path oflags then { item with lastAccess := answers.accessTime } else item) })
  | none =>
    match answers.opened with
    | .error errno => (.error errno, b)
    | .ok fd =>
      let b := { b with descriptors := update b.descriptors fd (some ⟨path, 0⟩) }
      match b.fdcache with
      | .items items =>
        (.ok fd,
          if answers.itemAllocated then { b with fdcache := .items (⟨answers.accessTime, fd, oflags, path⟩ :: items) }
          else b)
      | _ => (.ok fd, b)

/-- `close` of the cache. -/
def closeFile (fd : ℕ) (done : Bool) (now : ℕ → ℤ) : Option BasicFileServerBackend :=
  if b.items.any (·.fd = fd) then
    let items := b.items.map fun item => if item.fd = fd ∧ done then { item with lastAccess := 0 } else item
    (removeExpired now items b.descriptors).map fun (items, descriptors) => ⟨.items items, descriptors⟩
  else (closeDescriptor fd b.descriptors).map fun descriptors => { b with descriptors }

/-- The loop of `read`, from a position of the file: the error and the bytes.  `turns` bounds the number of turns; each
but the last one reads a byte. -/
def readLoop (content : List UInt8) : ℕ → (ℕ → ReadAnswer) → ℕ → ℕ → ℤ × List UInt8
  | 0, _, _, _ => (0, [])
  | turns + 1, answers, position, remaining =>
    match answers 0 with
    | .failed errno => (errno, [])
    | .short more =>
      let bytes := (content.drop position).take (min (more + 1) remaining)
      if bytes.length > 0 ∧ remaining - bytes.length > 0 then
        let (rv, rest) := readLoop content turns (fun i => answers (i + 1)) (position + bytes.length)
          (remaining - bytes.length)
        (rv, bytes ++ rest)
      else (0, bytes)

/-- The result of `lseek` is stored in an `int`. -/
def toInt (x : ℤ) : ℤ := Int.bmod x (2 ^ 32)

/-- `protocol::file::Error::INVALID_VALUE`. -/
def invalidValue : ℤ := 22

def oRdonly : ℕ := 0

variable (files : Path → List UInt8)

/-- `lseek` and the loop: the error and the bytes. -/
def readAt (path : Path) (offset size : ℕ) (answers : Answers) : ℤ × List UInt8 :=
  match answers.seekFailed with
  | some errno => (errno, [])
  | none =>
    if toInt offset < 0 then (answers.staleErrno, [])
    else readLoop (files path) size answers.reads offset size

/-- The value that is returned as an `int16_t`, the new value of `inout_size`, and the bytes. -/
structure ReadResult where
  rv : ℤ
  size : ℕ
  bytes : List UInt8

def read (path : List UInt8) (offset size : ℕ) (answers : Answers) : Option (ReadResult × BasicFileServerBackend) :=
  if path ≠ [] ∧ size ≠ 0 then
    let b := b.getFDCache answers.cacheAllocated
    match b.openFile (cStr path) oRdonly answers with
    | (.error errno, b) => some (⟨Int.bmod errno (2 ^ 16), size, []⟩, b)
    | (.ok fd, b) => do
      let descriptor ← b.descriptors fd
      let (rv, bytes) := readAt files descriptor.path offset size answers
      let position := if answers.seekFailed = none then offset + bytes.length else descriptor.position
      let b := { b with descriptors := update b.descriptors fd (some ⟨descriptor.path, position⟩) }
      let b ← b.closeFile fd (rv ≠ 0 || bytes.length ≠ size) answers.closeTime
      some (⟨Int.bmod rv (2 ^ 16), bytes.length, bytes⟩, b)
  else some (⟨invalidValue, size, []⟩, b)

/-- The garbage collection of a cache. -/
def handleTimerEvent (now : ℕ → ℤ) : Option BasicFileServerBackend :=
  match b.fdcache with
  | .items items => (removeExpired now items b.descriptors).map fun (items, descriptors) => ⟨.items items, descriptors⟩
  | _ => some b

/-- The destructor. -/
def destroy : Option BasicFileServerBackend :=
  (b.items.foldlM (fun descriptors item => closeDescriptor item.fd descriptors) b.descriptors).map fun descriptors =>
    ⟨.null, descriptors⟩

/-- The files may be others at every request. -/
inductive Action
  | read (files : Path → List UInt8) (path : List UInt8) (offset size : ℕ) (answers : Answers)
  | timer (now : ℕ → ℤ)

def exec : Action → Option BasicFileServerBackend
  | .read files path offset size answers => (b.read files path offset size answers).map Prod.snd
  | .timer now => b.handleTimerEvent now

/-- A descriptor that the system gives is not open. -/
def Possible : Action → Prop
  | .read _ _ _ _ answers => ∀ fd, answers.opened = .ok fd → b.descriptors fd = none
  | .timer _ => True

/-! ## The ledger -/

/-- The descriptor of an item, with its flags and path. -/
def FDCacheItem.entry (item : FDCacheItem) : ℕ × Option (ℕ × Path) := (item.fd, some (item.oflags, item.path))

/-- The open descriptors are those of a ledger, each once; one that is in the cache has its flags and path, which no
other one has, and is of the path. -/
structure Holds (ledger : List (ℕ × Option (ℕ × Path))) (descriptors : ℕ → Option Descriptor) : Prop where
  fds : (ledger.map Prod.fst).Nodup
  names : (ledger.filterMap Prod.snd).Nodup
  opened : ∀ fd, descriptors fd ≠ none ↔ fd ∈ ledger.map Prod.fst
  paths : ∀ fd oflags path, (fd, some (oflags, path)) ∈ ledger → (descriptors fd).map Descriptor.path = some path

/-- What holds between the requests: only the descriptors of the items are open. -/
def Inv (b : BasicFileServerBackend) : Prop := Holds (b.items.map FDCacheItem.entry) b.descriptors

variable {b} {files} {ledger ledger' : List (ℕ × Option (ℕ × Path))} {descriptors : ℕ → Option Descriptor} {fd : ℕ}
  {name : Option (ℕ × Path)} {path : Path}

theorem Holds.perm (holds : Holds ledger descriptors) (perm : ledger.Perm ledger') : Holds ledger' descriptors where
  fds := (perm.map _).nodup_iff.mp holds.fds
  names := (perm.filterMap _).nodup_iff.mp holds.names
  opened fd := (holds.opened fd).trans (perm.map _).mem_iff
  paths fd oflags path mem := holds.paths fd oflags path (perm.mem_iff.mpr mem)

/-- A descriptor of the ledger can be closed. -/
theorem Holds.close (holds : Holds ((fd, name) :: ledger) descriptors) :
    closeDescriptor fd descriptors = some (update descriptors fd none) ∧ Holds ledger (update descriptors fd none) := by
  obtain ⟨fds, names, opened, paths⟩ := holds
  rw [map_cons, nodup_cons] at fds
  have others {fd' : ℕ} (mem : fd' ∈ ledger.map Prod.fst) : fd' ≠ fd := fun same => fds.1 (same ▸ mem)
  refine ⟨?_, fds.2, names.sublist ((sublist_cons_self ..).filterMap _), fun fd' => ?_, fun fd' oflags path mem => ?_⟩
  · obtain ⟨descriptor, here⟩ := Option.ne_none_iff_exists'.mp ((opened fd).mpr (by simp))
    rw [closeDescriptor, here]
    rfl
  · by_cases same : fd' = fd
    · subst same
      simp [fds.1]
    · rw [update_of_ne same, opened, map_cons, mem_cons, or_iff_right same]
  · rw [update_of_ne (others (mem_map_of_mem mem))]
    exact paths fd' oflags path (mem_cons_of_mem _ mem)

/-- A descriptor that was not open is opened. -/
theorem Holds.open (holds : Holds ledger descriptors) (closed : descriptors fd = none)
    (new : ∀ oflags path', name = some (oflags, path') → path' = path ∧ (oflags, path') ∉ ledger.filterMap Prod.snd) :
    Holds ((fd, name) :: ledger) (update descriptors fd (some ⟨path, 0⟩)) := by
  have absent : fd ∉ ledger.map Prod.fst := fun mem => (holds.opened fd).mpr mem closed
  refine ⟨nodup_cons.mpr ⟨absent, holds.fds⟩, ?_, fun fd' => ?_, fun fd' oflags path' mem => ?_⟩
  · cases name with
    | none => exact holds.names
    | some name => exact nodup_cons.mpr ⟨(new name.1 name.2 rfl).2, holds.names⟩
  · by_cases same : fd' = fd
    · subst same
      simp
    · rw [update_of_ne same, holds.opened, map_cons, mem_cons, or_iff_right same]
  · rcases mem_cons.mp mem with same | mem
    · obtain ⟨rfl, rfl⟩ := Prod.mk.inj same
      rw [update_self, (new oflags path' rfl).1]
      rfl
    · have other : fd' ≠ fd := fun same => absent (same ▸ mem_map_of_mem mem)
      rw [update_of_ne other]
      exact holds.paths fd' oflags path' mem

/-- A file is read further on. -/
theorem Holds.seek {position : ℕ} (holds : Holds ledger descriptors)
    (here : (descriptors fd).map Descriptor.path = some path) :
    Holds ledger (update descriptors fd (some ⟨path, position⟩)) := by
  refine ⟨holds.fds, holds.names, fun fd' => ?_, fun fd' oflags path' mem => ?_⟩
  · rw [← holds.opened]
    by_cases same : fd' = fd
    · subst same
      obtain ⟨descriptor, opened, -⟩ := Option.map_eq_some_iff.mp here
      simp [opened]
    · rw [update_of_ne same]
  · by_cases same : fd' = fd
    · subst same
      rw [update_self, ← holds.paths fd' oflags path' mem, here]
      rfl
    · rw [update_of_ne same]
      exact holds.paths fd' oflags path' mem

/-- The expired items can be removed; `ledger` are those that the loop has passed. -/
theorem Holds.removeExpired {items : List FDCacheItem} (now : ℕ → ℤ)
    (holds : Holds (ledger ++ items.map FDCacheItem.entry) descriptors) :
    ∃ items' descriptors', BasicFileServerBackend.removeExpired now items descriptors = some (items', descriptors') ∧
      Holds (ledger ++ items'.map FDCacheItem.entry) descriptors' := by
  induction items generalizing now ledger descriptors with
  | nil => exact ⟨[], descriptors, rfl, holds⟩
  | cons item items ih =>
    rw [BasicFileServerBackend.removeExpired]
    split
    · obtain ⟨closed, rest⟩ := (holds.perm perm_middle).close
      obtain ⟨items', descriptors', removed, holds'⟩ := ih (fun i => now (i + 1)) rest
      exact ⟨items', descriptors', by rw [closed]; exact removed, holds'⟩
    · have passed : Holds ((ledger ++ [item.entry]) ++ items.map FDCacheItem.entry) descriptors := by simpa using holds
      obtain ⟨items', descriptors', removed, holds'⟩ := ih (fun i => now (i + 1)) passed
      exact ⟨item :: items', descriptors', by rw [removed]; rfl, by simpa using holds'⟩

/-- The destructor closes what is open. -/
theorem Inv.destroy (inv : b.Inv) : ∃ b', b.destroy = some b' ∧ ∀ fd, b'.descriptors fd = none := by
  suffices closed : ∀ (items : List FDCacheItem) (descriptors : ℕ → Option Descriptor),
      Holds (items.map FDCacheItem.entry) descriptors →
        ∃ descriptors', items.foldlM (fun descriptors item => closeDescriptor item.fd descriptors) descriptors =
          some descriptors' ∧ ∀ fd, descriptors' fd = none by
    obtain ⟨descriptors', done, none⟩ := closed b.items b.descriptors inv
    exact ⟨_, by rw [BasicFileServerBackend.destroy, done]; rfl, none⟩
  intro items
  induction items with
  | nil => exact fun descriptors holds => ⟨descriptors, rfl, fun fd => by simpa using holds.opened fd⟩
  | cons item items ih =>
    intro descriptors holds
    obtain ⟨closed, rest⟩ := holds.close
    obtain ⟨descriptors', done, none⟩ := ih _ rest
    exact ⟨descriptors', by rw [foldlM_cons, closed]; exact done, none⟩

theorem items_getFDCache (allocated : Bool) : (b.getFDCache allocated).items = b.items := by
  unfold getFDCache
  split
  · rename_i null
    cases allocated with
    | false => simp [items, null]
    | true => simp [items, null]
  · rfl

theorem descriptors_getFDCache (allocated : Bool) : (b.getFDCache allocated).descriptors = b.descriptors := by
  unfold getFDCache
  split
  · rfl
  · rfl

/-- An access changes no entry. -/
theorem map_entry {p : FDCacheItem → Prop} [DecidablePred p] (time : ℤ) (items : List FDCacheItem) :
    (items.map fun item => if p item then { item with lastAccess := time } else item).map FDCacheItem.entry =
      items.map FDCacheItem.entry := by
  rw [map_map]
  refine map_congr_left fun item _ => ?_
  rw [comp_apply]
  split
  · rfl
  · rfl

/-- A request has a descriptor of its file, which is in the cache or is the only one that is not. -/
structure Busy (b : BasicFileServerBackend) (fd : ℕ) (path : Path) : Prop where
  holds : b.Inv ∨ Holds ((fd, none) :: b.items.map FDCacheItem.entry) b.descriptors
  path : (b.descriptors fd).map Descriptor.path = some path

theorem Inv.openFile {answers : Answers} (inv : b.Inv) (path : Path) (oflags : ℕ)
    (possible : ∀ fd, answers.opened = .ok fd → b.descriptors fd = none) :
    (∃ errno, answers.opened = .error errno ∧ b.openFile path oflags answers = (.error errno, b)) ∨
      ∃ fd b', b.openFile path oflags answers = (.ok fd, b') ∧ b'.Busy fd path := by
  unfold BasicFileServerBackend.openFile
  split
  · rename_i found here
    have same := find?_some here
    simp only [FDCacheItem.equals, Bool.and_eq_true, decide_eq_true_eq] at same
    refine .inr ⟨found.fd, _, rfl, .inl ?_, ?_⟩
    · change Holds ((b.items.map _).map _) b.descriptors
      rw [map_entry]
      exact inv
    · exact same.2 ▸ inv.paths found.fd found.oflags found.path (mem_map_of_mem (mem_of_find?_eq_some here))
  · rename_i absent
    cases opened : answers.opened with
    | error errno => exact .inl ⟨errno, rfl, rfl⟩
    | ok fd =>
      obtain ⟨fdcache, descriptors⟩ := b
      have closed := possible fd opened
      have path_eq : (update descriptors fd (some ⟨path, 0⟩) fd).map Descriptor.path = some path := by
        rw [update_self]
        rfl
      refine .inr ⟨fd, ?_⟩
      cases fdcache with
      | items items =>
        cases answers.itemAllocated with
        | false => exact ⟨_, rfl, .inr (Holds.open inv closed nofun), path_eq⟩
        | true =>
          refine ⟨_, rfl, .inl (Holds.open inv closed fun oflags' path' same => ?_), path_eq⟩
          obtain ⟨rfl, rfl⟩ := Prod.mk.inj (Option.some.inj same)
          rw [find?_eq_none] at absent
          simpa [FDCacheItem.entry, FDCacheItem.equals, BasicFileServerBackend.items] using absent
      | null => exact ⟨_, rfl, .inr (Holds.open inv closed nofun), path_eq⟩
      | fallback => exact ⟨_, rfl, .inr (Holds.open inv closed nofun), path_eq⟩

theorem Busy.seek (busy : b.Busy fd path) (position : ℕ) :
    Busy { b with descriptors := update b.descriptors fd (some ⟨path, position⟩) } fd path where
  holds := busy.holds.imp (Holds.seek · busy.path) (Holds.seek · busy.path)
  path := by simp

theorem Busy.closeFile (busy : b.Busy fd path) (done : Bool) (now : ℕ → ℤ) :
    ∃ b', b.closeFile fd done now = some b' ∧ b'.Inv := by
  unfold BasicFileServerBackend.closeFile
  rcases busy.holds with inv | holds
  · have cached : b.items.any (·.fd = fd) = true := by
      have opened : fd ∈ (b.items.map FDCacheItem.entry).map Prod.fst := by
        rw [← inv.opened]
        intro none
        simpa [none] using busy.path
      simpa [FDCacheItem.entry] using opened
    rw [if_pos cached]
    have entries : Holds ([] ++ (b.items.map fun item =>
        if item.fd = fd ∧ done then { item with lastAccess := 0 } else item).map FDCacheItem.entry) b.descriptors := by
      rw [map_entry]
      exact inv
    obtain ⟨items', descriptors', removed, holds⟩ := entries.removeExpired now
    exact ⟨⟨.items items', descriptors'⟩, by simp only [removed, Option.map_some], holds⟩
  · have uncached : b.items.any (·.fd = fd) = false := by
      have absent := (nodup_cons.mp holds.fds).1
      simpa [FDCacheItem.entry] using absent
    obtain ⟨closed, rest⟩ := holds.close
    rw [uncached, if_neg (by simp), closed]
    exact ⟨_, rfl, rest⟩

/-- A request has a result, which is what the seek and the loop give if the file could be opened. -/
theorem Inv.read {answers : Answers} (inv : b.Inv) (files : Path → List UInt8) (path : List UInt8) (offset size : ℕ)
    (possible : ∀ fd, answers.opened = .ok fd → b.descriptors fd = none) :
    ∃ result b', b.read files path offset size answers = some (result, b') ∧ b'.Inv ∧
      (path ≠ [] ∧ size ≠ 0 → (∀ errno, answers.opened ≠ .error errno) →
        result = ⟨Int.bmod (readAt files (cStr path) offset size answers).1 (2 ^ 16),
          (readAt files (cStr path) offset size answers).2.length,
          (readAt files (cStr path) offset size answers).2⟩) := by
  unfold BasicFileServerBackend.read
  split
  · have inv' : (b.getFDCache answers.cacheAllocated).Inv := by
      rw [Inv, items_getFDCache, descriptors_getFDCache]
      exact inv
    rw [← descriptors_getFDCache (b := b) answers.cacheAllocated] at possible
    rcases inv'.openFile (cStr path) oRdonly possible with ⟨errno, failed, eq⟩ | ⟨fd, b', eq, busy⟩
    · simp only [eq]
      exact ⟨_, _, rfl, inv', fun _ opened => absurd failed (opened errno)⟩
    · obtain ⟨descriptor, here, path_eq⟩ := Option.map_eq_some_iff.mp busy.path
      obtain ⟨closed, eq', inv''⟩ := (busy.seek (if answers.seekFailed = none then
        offset + (readAt files (cStr path) offset size answers).2.length else descriptor.position)).closeFile
          ((readAt files (cStr path) offset size answers).1 ≠ 0 ||
            (readAt files (cStr path) offset size answers).2.length ≠ size) answers.closeTime
      simp only [eq, here, path_eq, bind, Option.bind_some, eq']
      exact ⟨_, closed, rfl, inv'', fun _ _ => rfl⟩
  · exact ⟨_, b, rfl, inv, fun made => absurd made ‹_›⟩

theorem Inv.handleTimerEvent (inv : b.Inv) (now : ℕ → ℤ) : ∃ b', b.handleTimerEvent now = some b' ∧ b'.Inv := by
  obtain ⟨fdcache, descriptors⟩ := b
  cases fdcache with
  | items items =>
    have entries : Holds ([] ++ items.map FDCacheItem.entry) descriptors := inv
    obtain ⟨items', descriptors', removed, holds⟩ := entries.removeExpired now
    exact ⟨⟨.items items', descriptors'⟩, congrArg (Option.map _) removed, holds⟩
  | null => exact ⟨_, rfl, inv⟩
  | fallback => exact ⟨_, rfl, inv⟩

theorem Inv.exec {action : Action} (inv : b.Inv) (possible : b.Possible action) :
    ∃ b', b.exec action = some b' ∧ b'.Inv := by
  cases action with
  | read files path offset size answers =>
    obtain ⟨result, b', eq, inv', -⟩ := inv.read files path offset size possible
    exact ⟨b', congrArg (Option.map _) eq, inv'⟩
  | timer now => exact inv.handleTimerEvent now

theorem inv_start : start.Inv := ⟨.nil, .nil, fun _ => by simp [start, items], nofun⟩

theorem inv_of_reach (reach : Machines.Reach exec Possible start b) : b.Inv :=
  reach.invariant inv_start fun inv possible taken => by
    obtain ⟨b', eq, inv'⟩ := inv.exec possible
    rw [taken] at eq
    exact Option.some.inj eq ▸ inv'

/-- Between the requests the open descriptors are those in the cache, which has one item for a descriptor and for a path
and flags; whatever happens next, no descriptor that is not open is used or closed; and the destructor closes all. -/
theorem descriptors_kept (reach : Machines.Reach exec Possible start b) :
    (b.items.map FDCacheItem.fd).Nodup ∧ (b.items.map fun item => (item.oflags, item.path)).Nodup ∧
      (∀ fd, b.descriptors fd ≠ none ↔ fd ∈ b.items.map FDCacheItem.fd) ∧
      (∀ action, b.Possible action → ∃ b', b.exec action = some b') ∧
      ∃ b', b.destroy = some b' ∧ ∀ fd, b'.descriptors fd = none := by
  have inv := inv_of_reach reach
  have fds : (b.items.map FDCacheItem.entry).map Prod.fst = b.items.map FDCacheItem.fd := by simp [FDCacheItem.entry]
  have names : (b.items.map FDCacheItem.entry).filterMap Prod.snd =
      b.items.map fun item => (item.oflags, item.path) := by
    rw [filterMap_map]
    exact congrFun filterMap_eq_map b.items
  refine ⟨fds ▸ inv.fds, names ▸ inv.names, fds ▸ inv.opened, fun action possible => ?_, inv.destroy⟩
  obtain ⟨b', eq, -⟩ := inv.exec possible
  exact ⟨b', eq⟩

/-- The file is opened as descriptor 3, and the system gives a byte at a time. -/
def sampleAnswers : Answers where
  cacheAllocated := true
  opened := .ok 3
  itemAllocated := true
  accessTime := 1000
  seekFailed := none
  staleErrno := 5
  reads _ := .short 0
  closeTime _ := 1000

theorem possible_sample {files : Path → List UInt8} {path : List UInt8} {offset size : ℕ} :
    start.Possible (.read files path offset size sampleAnswers) := fun _ _ => rfl

/-- A request for two bytes of a longer file leaves its descriptor in the cache. -/
theorem descriptors_kept_one_file :
    ∃ b, start.exec (.read (fun _ => [1, 2, 3]) [97] 0 2 sampleAnswers) = some b ∧ b.items.map FDCacheItem.fd = [3] ∧
      ∃ b', b.destroy = some b' ∧ ∀ fd, b'.descriptors fd = none := by
  obtain ⟨b, taken, fds⟩ : ∃ b, start.exec (.read (fun _ => [1, 2, 3]) [97] 0 2 sampleAnswers) = some b ∧
      b.items.map FDCacheItem.fd = [3] := ⟨_, rfl, by decide⟩
  exact ⟨b, taken, fds, (descriptors_kept (Machines.Reach.start.step possible_sample taken)).2.2.2.2⟩

/-! ## The bytes that are read -/

/-- The loop reads what is there, whatever the lengths of the single reads. -/
theorem readLoop_eq {content : List UInt8} {turns remaining : ℕ} {answers : ℕ → ReadAnswer} (position : ℕ)
    (short : ∀ i, ∃ more, answers i = .short more) (some : 0 < remaining) (enough : remaining ≤ turns) :
    readLoop content turns answers position remaining = (0, (content.drop position).take remaining) := by
  induction turns generalizing answers position remaining with
  | zero => omega
  | succ turns ih =>
    obtain ⟨more, first⟩ := short 0
    rw [readLoop, first]
    simp only
    generalize bytes_eq : (content.drop position).take (min (more + 1) remaining) = bytes
    have length_eq : bytes.length = min (min (more + 1) remaining) (content.drop position).length := by
      rw [← bytes_eq, length_take]
    have rest_eq : (content.drop position).take remaining =
        bytes ++ (content.drop (position + bytes.length)).take (remaining - bytes.length) := by
      have prefix_eq : bytes = (content.drop position).take bytes.length := by
        rw [← bytes_eq, take_eq_take_iff, bytes_eq]
        omega
      conv => rhs; lhs; rw [prefix_eq]
      rw [← drop_drop, ← take_add]
      congr 1
      omega
    split
    · rw [ih _ (fun i => short (i + 1)) (by omega) (by omega), rest_eq]
    · -- the last turn: all was read, or the end of the file
      have last : (content.drop (position + bytes.length)).take (remaining - bytes.length) = [] := by
        rw [take_eq_nil_iff, drop_eq_nil_iff]
        rw [length_drop] at length_eq
        omega
      rw [rest_eq, last, append_nil]

/-- The system calls of a request succeed; a read may be short. -/
structure Answers.Succeed (answers : Answers) (b : BasicFileServerBackend) : Prop where
  opened : ∃ fd, answers.opened = .ok fd ∧ b.descriptors fd = none
  seek : answers.seekFailed = none
  reads : ∀ i, ∃ more, answers.reads i = .short more

/-- The request gives zero and the bytes from the offset on, as many as were asked for or up to the end of the file. -/
def ReadsExactly (b : BasicFileServerBackend) (files : Path → List UInt8) (path : List UInt8) (offset size : ℕ)
    (answers : Answers) : Prop :=
  ∃ b', b.read files path offset size answers =
    some (⟨0, (((files (cStr path)).drop offset).take size).length, ((files (cStr path)).drop offset).take size⟩, b')

theorem toInt_neg_iff {offset : ℕ} : toInt offset < 0 ↔ 2 ^ 31 ≤ offset % 2 ^ 32 := by
  rw [toInt, Int.bmod]
  omega

/-- The requests that are exact: the result of `lseek` may be negative as an `int`. -/
theorem readsExactly_iff {answers : Answers} {path : List UInt8} {offset size : ℕ}
    (reach : Machines.Reach exec Possible start b) (succeed : answers.Succeed b) :
    b.ReadsExactly files path offset size answers ↔ path ≠ [] ∧ size ≠ 0 ∧ (offset % 2 ^ 32 < 2 ^ 31 ∨
      Int.bmod answers.staleErrno (2 ^ 16) = 0 ∧ (files (cStr path)).length ≤ offset) := by
  obtain ⟨fd, opened, closed⟩ := succeed.opened
  have possible (fd' : ℕ) (opened' : answers.opened = .ok fd') : b.descriptors fd' = none := by
    rw [opened] at opened'
    exact Except.ok.inj opened' ▸ closed
  obtain ⟨result, b', done, -, result_eq⟩ := (inv_of_reach reach).read files path offset size possible
  have exactly_iff : b.ReadsExactly files path offset size answers ↔
      result = ⟨0, (((files (cStr path)).drop offset).take size).length,
        ((files (cStr path)).drop offset).take size⟩ := by
    simp [ReadsExactly, done]
  rw [exactly_iff, ← and_assoc]
  by_cases made : path ≠ [] ∧ size ≠ 0
  · rw [result_eq made (by simp [opened]), and_iff_right made, readAt, succeed.seek]
    by_cases negative : toInt offset < 0
    · have high := toInt_neg_iff.mp negative
      have beyond : ((files (cStr path)).drop offset).take size = [] ↔ (files (cStr path)).length ≤ offset := by
        rw [take_eq_nil_iff, drop_eq_nil_iff, or_iff_right made.2]
      rw [or_iff_right (by omega), ← beyond, if_pos negative, ReadResult.mk.injEq]
      refine and_congr_right fun _ => ⟨fun eq => eq.2.symm, fun eq => ?_⟩
      rw [eq]
      exact ⟨rfl, rfl⟩
    · have low : offset % 2 ^ 32 < 2 ^ 31 := by
        rw [toInt_neg_iff] at negative
        omega
      simp only [if_neg negative, low, true_or, iff_true]
      rw [readLoop_eq offset succeed.reads (Nat.pos_of_ne_zero made.2) (Nat.le_refl size)]
      rfl
  · refine iff_of_false (fun eq => ?_) fun ⟨made', _⟩ => made made'
    rw [BasicFileServerBackend.read, if_neg made] at done
    obtain ⟨rfl, -⟩ := Prod.mk.inj (Option.some.inj done)
    have rv : invalidValue = 0 := congrArg ReadResult.rv eq
    exact absurd rv (by decide)

theorem succeed_sample : sampleAnswers.Succeed start := ⟨⟨3, rfl, rfl⟩, rfl, fun _ => ⟨0, rfl⟩⟩

theorem readsExactly_second_byte : start.ReadsExactly (fun _ => [1, 2, 3]) [97] 1 1 sampleAnswers :=
  (readsExactly_iff .start succeed_sample).mpr (by decide)

/-- A request for the byte at two gigabytes gives the value of `errno` and no byte. -/
theorem not_readsExactly_two_gigabytes :
    ¬ start.ReadsExactly (fun _ => replicate (2 ^ 31 + 1) 7) [97] (2 ^ 31) 1 sampleAnswers := by
  rintro ⟨b', done⟩
  have rv := congrArg (Option.map fun answer => answer.1.rv) done
  have same : some (5 : ℤ) = some 0 := rv
  exact absurd same (by decide)

end BasicFileServerBackend

end Uavcan
