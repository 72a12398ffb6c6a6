import Mathlib.Data.List.Basic
import Mathlib.Algebra.Order.Group.Nat

/-!
# Looking for the descriptor of a firmware image

`FirmwareVersionChecker::getFileInfo` reads a file into an array of 64 words and compares the words with the
signature of the application descriptor. The array is a window into a `Memory` that goes on behind it, and
what an earlier read left stays where a short read does not reach. Every access is recorded with the number of
bytes that the last read delivered.
-/

namespace Uavcan

open List

namespace FirmwareVersionChecker

/-- `sizeof(uint64_t)`. -/
def wordSize : ℕ := 8

/-- `sizeof(chunk)`. -/
def chunkSize : ℕ := 512

/-- The number of words of `chunk`. -/
def maxChunk : ℕ := chunkSize / wordSize

/-- `sizeof(AppDescriptor)`. -/
def descriptorSize : ℕ := 32

/-- The characters of `APDesc00`. -/
def signature : List UInt8 := [0x41, 0x50, 0x44, 0x65, 0x73, 0x63, 0x30, 0x30]

def enoent : ℕ := 2

/-- The bytes from the start of `chunk` on; those from `chunkSize` on do not belong to the array. -/
abbrev Memory := ℕ → UInt8

variable (memory : Memory)

def Memory.window (start size : ℕ) : List UInt8 := (range size).map fun i => memory (start + i)

/-- A read stores the bytes that it delivers at the start of the array and leaves the others. -/
def Memory.deliver (piece : List UInt8) : Memory := fun i => piece[i]?.getD (memory i)

/-- What a read returns; no bytes at the end of the file. -/
structure Piece where
  bytes : List UInt8
  length_le : bytes.length ≤ chunkSize

inductive Read
  | failed (errno : ℕ)
  | delivered (piece : Piece)

/-- An access to the memory, `delivered` being what the last read returned. -/
structure Access where
  delivered : ℕ
  start : ℕ
  size : ℕ
  deriving DecidableEq

def Access.inside (a : Access) : Prop := a.start + a.size ≤ a.delivered

instance (a : Access) : Decidable a.inside := inferInstanceAs (Decidable (_ ≤ _))

/-- The word at `p` is compared. -/
def wordAccess (delivered p : ℕ) : Access := ⟨delivered, wordSize * p, wordSize⟩

/-- The descriptor at `p` is copied. -/
def descriptorAccess (delivered p : ℕ) : Access := ⟨delivered, wordSize * p, descriptorSize⟩

def matchesAt (p : ℕ) : Prop := memory.window (wordSize * p) wordSize = signature

instance (memory : Memory) (p : ℕ) : Decidable (matchesAt memory p) := inferInstanceAs (Decidable (_ = _))

/-- The bound of the loop over the words. -/
def lastWord : ℕ := maxChunk - descriptorSize / wordSize

/-- The loop over the words from `p` on.  The bound is compared with `p` before it is advanced, so that the body also
runs for the word behind the bound. -/
def scan (memory : Memory) (delivered p : ℕ) : List Access × Option ℕ :=
  if matchesAt memory p then
    ([wordAccess delivered p, descriptorAccess delivered p], some p)
  else if p ≤ lastWord then
    let (accesses, found) := scan memory delivered (p + 1)
    (wordAccess delivered p :: accesses, found)
  else
    ([wordAccess delivered p], none)
termination_by lastWord + 1 - p

/-- The descriptor that is returned, and where it stood in the file. -/
structure Found where
  offset : ℕ
  descriptor : List UInt8
  deriving DecidableEq

/-- The loop over the reads, `offset` bytes of the file being behind it. -/
def readLoop (memory : Memory) (offset : ℕ) : List Read → List Access × Except ℕ Found
  | [] => ([], .error enoent)
  | .failed errno :: _ => ([], .error errno)
  | .delivered piece :: reads =>
    if piece.bytes = [] then
      ([], .error enoent)
    else
      let memory := memory.deliver piece.bytes
      match scan memory piece.bytes.length 0 with
      | (accesses, some p) =>
        (accesses, .ok ⟨offset + wordSize * p, memory.window (wordSize * p) descriptorSize⟩)
      | (accesses, none) =>
        let (later, result) := readLoop memory (offset + piece.bytes.length) reads
        (accesses ++ later, result)

/-- The accesses that are made, and what is returned. -/
def getFileInfo (opened : Bool) (reads : List Read) (memory : Memory) : List Access × Except ℕ Found :=
  if opened then readLoop memory 0 reads else ([], .error enoent)

/-! ## Windows into the memory -/

variable {piece file : List UInt8} {start i p n : ℕ}

theorem window_deliver {memory : Memory} {size : ℕ} (inside : start + size ≤ piece.length) :
    (memory.deliver piece).window start size = (piece.drop start).take size := by
  apply ext_getElem
  · simp only [Memory.window, length_map, length_range, length_take, length_drop]
    omega
  · intro i below _
    simp only [Memory.window, length_map, length_range] at below
    have within : start + i < piece.length := by omega
    simp [Memory.window, Memory.deliver, getElem?_eq_getElem within]

/-- What a read does not reach stays. -/
theorem deliver_behind {memory : Memory} (behind : piece.length ≤ i) :
    memory.deliver piece i = memory i := by
  rw [Memory.deliver, getElem?_eq_none behind, Option.getD_none]

/-- The signature at a word of some bytes; the word is a whole one then. -/
def Signed (bytes : List UInt8) (start : ℕ) : Prop := (bytes.drop start).take wordSize = signature

instance (bytes : List UInt8) (start : ℕ) : Decidable (Signed bytes start) := inferInstanceAs (Decidable (_ = _))

theorem Signed.whole {bytes : List UInt8} (signed : Signed bytes start) :
    start + wordSize ≤ bytes.length := by
  have length := congrArg length signed
  rw [length_take, length_drop, show signature.length = wordSize from rfl] at length
  have positive : 0 < wordSize := by decide
  omega

theorem matchesAt_deliver {memory : Memory} (inside : wordSize * p + wordSize ≤ piece.length) :
    matchesAt (memory.deliver piece) p ↔ Signed piece (wordSize * p) := by
  rw [matchesAt, window_deliver inside, Signed]

/-! ## The words of one chunk -/

/-- The first word that matches ends the scan, and otherwise the word behind the bound. -/
inductive Scanned (memory : Memory) (delivered p : ℕ) : List Access × Option ℕ → Prop
  | found {k : ℕ} {accesses : List Access} (le : p ≤ k) (last : k ≤ lastWord + 1) (matched : matchesAt memory k)
      (earlier : ∀ j, p ≤ j → j < k → ¬matchesAt memory j)
      (made : ∀ a, a ∈ accesses ↔ (∃ j, p ≤ j ∧ j ≤ k ∧ a = wordAccess delivered j) ∨
        a = descriptorAccess delivered k) :
      Scanned memory delivered p (accesses, some k)
  | missed {accesses : List Access} (unmatched : ∀ j, p ≤ j → j ≤ lastWord + 1 → ¬matchesAt memory j)
      (made : ∀ a, a ∈ accesses ↔ ∃ j, p ≤ j ∧ j ≤ lastWord + 1 ∧ a = wordAccess delivered j) :
      Scanned memory delivered p (accesses, none)

theorem Scanned.cons {memory : Memory} {delivered : ℕ} {result : List Access × Option ℕ}
    (unmatched : ¬matchesAt memory p) (below : p ≤ lastWord) (rest : Scanned memory delivered (p + 1) result) :
    Scanned memory delivered p (wordAccess delivered p :: result.1, result.2) := by
  -- the words from `p` on are `p` itself and those from `p + 1` on
  have split : ∀ k, p ≤ k → ∀ a, (∃ j, p ≤ j ∧ j ≤ k ∧ a = wordAccess delivered j) ↔
      a = wordAccess delivered p ∨ ∃ j, p + 1 ≤ j ∧ j ≤ k ∧ a = wordAccess delivered j := by
    intro k le a
    constructor
    · rintro ⟨j, from_p, to_k, rfl⟩
      rcases Nat.eq_or_lt_of_le from_p with rfl | later
      · exact .inl rfl
      · exact .inr ⟨j, later, to_k, rfl⟩
    · rintro (rfl | ⟨j, later, to_k, rfl⟩)
      · exact ⟨p, le_rfl, le, rfl⟩
      · exact ⟨j, by omega, to_k, rfl⟩
  have before : ∀ j, p ≤ j → ¬p + 1 ≤ j → ¬matchesAt memory j := fun j le not_later => by
    obtain rfl : p = j := by omega
    exact unmatched
  cases rest with
  | found le last matched earlier made =>
    refine .found (by omega) last matched (fun j from_p to_k => ?_) fun a => ?_
    · by_cases later : p + 1 ≤ j
      · exact earlier j later to_k
      · exact before j from_p later
    · rw [mem_cons, made, split _ (by omega), or_assoc]
  | missed unmatched made =>
    refine .missed (fun j from_p to_last => ?_) fun a => ?_
    · by_cases later : p + 1 ≤ j
      · exact unmatched j later to_last
      · exact before j from_p later
    · rw [mem_cons, made, split _ (by omega)]

theorem scan_scanned (delivered p : ℕ) (start : p ≤ lastWord + 1) :
    Scanned memory delivered p (scan memory delivered p) := by
  fun_induction scan memory delivered p with
  | case1 p matched =>
    refine .found le_rfl start matched (fun j le lt => absurd lt (by omega)) fun a => ?_
    simp only [mem_cons, not_mem_nil, or_false]
    refine or_congr_left ⟨fun same => ⟨p, le_rfl, le_rfl, same⟩, ?_⟩
    rintro ⟨j, from_p, to_p, rfl⟩
    rw [Nat.le_antisymm to_p from_p]
  | case2 p unmatched below accesses found run ih =>
    have rest := ih (by omega)
    rw [run] at rest
    exact rest.cons unmatched below
  | case3 p unmatched beyond =>
    obtain rfl : p = lastWord + 1 := by omega
    refine .missed (fun j le to_last => Nat.le_antisymm to_last le ▸ unmatched) fun a => ?_
    simp only [mem_cons, not_mem_nil, or_false]
    refine ⟨fun same => ⟨_, le_rfl, le_rfl, same⟩, ?_⟩
    rintro ⟨j, from_p, to_last, rfl⟩
    rw [Nat.le_antisymm to_last from_p]

/-! ## Accesses inside what was delivered -/

/-- The first whole word of a piece that holds the signature, among the words that are compared. -/
def firstSignature (piece : List UInt8) : Option ℕ :=
  (range (lastWord + 2)).find? fun k => Signed piece (wordSize * k)

theorem firstSignature_eq_some {k : ℕ} : firstSignature piece = some k ↔
    k ≤ lastWord + 1 ∧ Signed piece (wordSize * k) ∧ ∀ j < k, ¬Signed piece (wordSize * j) := by
  simp [firstSignature, find?_range_eq_some, Nat.lt_succ_iff, and_left_comm]

theorem firstSignature_eq_none : firstSignature piece = none ↔ ∀ j ≤ lastWord + 1, ¬Signed piece (wordSize * j) := by
  simp [firstSignature, Nat.lt_succ_iff]

theorem sizes : wordSize = 8 ∧ lastWord = 60 ∧ chunkSize = 512 ∧ descriptorSize = 32 := by decide

theorem word_le {j : ℕ} (le : i ≤ j) (inside : wordSize * j + wordSize ≤ n) : wordSize * i + wordSize ≤ n :=
  Nat.le_trans (Nat.add_le_add_right (Nat.mul_le_mul_left _ le) _) inside

/-- The scan of a piece, whatever the memory holds behind it: the first signature in the piece is found.  Without one, a
piece that reaches over all compared words is passed over, and otherwise the scan goes on behind the piece. -/
inductive PieceScanned (piece : List UInt8) : List Access × Option ℕ → Prop
  | found {k : ℕ} {accesses : List Access} (first : firstSignature piece = some k)
      (made : ∀ a, a ∈ accesses ↔ (∃ j, j ≤ k ∧ a = wordAccess piece.length j) ∨ a = descriptorAccess piece.length k) :
      PieceScanned piece (accesses, some k)
  | missed {accesses : List Access} (first : firstSignature piece = none)
      (long : wordSize * (lastWord + 1) + wordSize ≤ piece.length)
      (made : ∀ a, a ∈ accesses ↔ ∃ j, j ≤ lastWord + 1 ∧ a = wordAccess piece.length j) :
      PieceScanned piece (accesses, none)
  | behind {result : List Access × Option ℕ} (first : firstSignature piece = none)
      (short : ¬wordSize * (lastWord + 1) + wordSize ≤ piece.length) (outside : ∃ a ∈ result.1, ¬a.inside) :
      PieceScanned piece result

theorem scan_deliver (piece : List UInt8) :
    PieceScanned piece (scan (memory.deliver piece) piece.length 0) := by
  have scanned := scan_scanned (memory.deliver piece) piece.length 0 (Nat.zero_le _)
  generalize scan (memory.deliver piece) piece.length 0 = result at scanned
  cases scanned with
  | @found k accesses _ last matched earlier made =>
    by_cases inside : wordSize * k + wordSize ≤ piece.length
    · refine .found (firstSignature_eq_some.mpr ⟨last, (matchesAt_deliver inside).mp matched, fun j lt signed => ?_⟩)
        fun a => by simp [made]
      exact earlier j (Nat.zero_le _) lt ((matchesAt_deliver signed.whole).mpr signed)
    · refine .behind (firstSignature_eq_none.mpr fun j _ signed => ?_) (fun long => inside (word_le last long))
        ⟨_, (made _).mpr (.inl ⟨k, Nat.zero_le _, le_rfl, rfl⟩), inside⟩
      -- a signature in the piece would stand in front of the match, and would have been found
      rcases Nat.lt_or_ge j k with lt | ge
      · exact earlier j (Nat.zero_le _) lt ((matchesAt_deliver signed.whole).mpr signed)
      · exact inside (word_le ge signed.whole)
  | @missed accesses unmatched made =>
    have first : firstSignature piece = none := firstSignature_eq_none.mpr fun j le signed =>
      unmatched j (Nat.zero_le _) le ((matchesAt_deliver signed.whole).mpr signed)
    by_cases long : wordSize * (lastWord + 1) + wordSize ≤ piece.length
    · exact .missed first long fun a => by simp [made]
    · exact .behind first long ⟨_, (made _).mpr ⟨_, Nat.zero_le _, le_rfl, rfl⟩, long⟩

/-- Every piece that is read either holds the signature with the whole descriptor, or reaches over all words that are
compared and does not hold the signature in them. -/
def Covered : List Read → Prop
  | [] => True
  | .failed _ :: _ => True
  | .delivered piece :: reads =>
    piece.bytes = [] ∨
      match firstSignature piece.bytes with
      | some k => wordSize * k + descriptorSize ≤ piece.bytes.length
      | none => wordSize * (lastWord + 1) + wordSize ≤ piece.bytes.length ∧ Covered reads

/-! ### One turn of the loop over the reads -/

section Turn

variable {memory : Memory} {piece : Piece} {accesses : List Access}

theorem readLoop_found {p : ℕ} (nonempty : piece.bytes ≠ [])
    (run : scan (memory.deliver piece.bytes) piece.bytes.length 0 = (accesses, some p))
    (offset : ℕ) (reads : List Read) :
    readLoop memory offset (.delivered piece :: reads) =
      (accesses, .ok ⟨offset + wordSize * p,
        (memory.deliver piece.bytes).window (wordSize * p) descriptorSize⟩) := by
  simp only [readLoop, if_neg nonempty, run]

theorem readLoop_missed (nonempty : piece.bytes ≠ [])
    (run : scan (memory.deliver piece.bytes) piece.bytes.length 0 = (accesses, none)) (offset : ℕ) (reads : List Read) :
    readLoop memory offset (.delivered piece :: reads) =
      (accesses ++ (readLoop (memory.deliver piece.bytes) (offset + piece.bytes.length) reads).1,
        (readLoop (memory.deliver piece.bytes) (offset + piece.bytes.length) reads).2) := by
  simp only [readLoop, if_neg nonempty, run]

theorem mem_readLoop_of_mem_scan {a : Access} (nonempty : piece.bytes ≠ [])
    (mem : a ∈ (scan (memory.deliver piece.bytes) piece.bytes.length 0).1) (offset : ℕ) (reads : List Read) :
    a ∈ (readLoop memory offset (.delivered piece :: reads)).1 := by
  rcases run : scan (memory.deliver piece.bytes) piece.bytes.length 0 with ⟨accesses, _ | p⟩
  · rw [readLoop_missed nonempty run]
    exact mem_append_left _ (by rwa [run] at mem)
  · rw [readLoop_found nonempty run]
    rwa [run] at mem

end Turn

/-- What a read delivers fits into the array. -/
theorem scan_delivered (delivered : ℕ) :
    ∀ a ∈ (scan memory delivered 0).1, a.delivered = delivered := by
  intro a mem
  have scanned := scan_scanned memory delivered 0 (Nat.zero_le _)
  generalize scan memory delivered 0 = result at scanned mem
  cases scanned with
  | found _ _ _ _ made =>
    rcases (made a).mp mem with ⟨j, -, -, rfl⟩ | rfl
    · rfl
    · rfl
  | missed _ made =>
    obtain ⟨j, -, -, rfl⟩ := (made a).mp mem
    rfl

theorem readLoop_delivered (offset : ℕ) (reads : List Read) :
    ∀ a ∈ (readLoop memory offset reads).1, a.delivered ≤ chunkSize := by
  induction reads generalizing memory offset with
  | nil => exact nofun
  | cons read reads ih =>
    cases read with
    | failed errno => exact nofun
    | delivered piece =>
      by_cases ended : piece.bytes = []
      · rw [readLoop, if_pos ended]
        exact nofun
      · have here : ∀ a ∈ (scan (memory.deliver piece.bytes) piece.bytes.length 0).1, a.delivered ≤ chunkSize :=
          fun a mem => (scan_delivered _ _ a mem).trans_le piece.length_le
        rcases run : scan (memory.deliver piece.bytes) piece.bytes.length 0 with ⟨accesses, _ | p⟩
        · rw [run] at here
          rw [readLoop_missed ended run]
          exact forall_mem_append.mpr ⟨here, ih _ _⟩
        · rw [run] at here
          rw [readLoop_found ended run]
          exact here

theorem readLoop_inside_iff (offset : ℕ) (reads : List Read) :
    (∀ a ∈ (readLoop memory offset reads).1, a.inside) ↔ Covered reads := by
  induction reads generalizing memory offset with
  | nil => exact iff_of_true nofun trivial
  | cons read reads ih =>
    cases read with
    | failed errno => exact iff_of_true nofun trivial
    | delivered piece =>
      rw [Covered]
      by_cases ended : piece.bytes = []
      · rw [readLoop, if_pos ended]
        exact iff_of_true nofun (.inl ended)
      · rw [or_iff_right ended]
        have scanned := scan_deliver memory piece.bytes
        rcases run : scan (memory.deliver piece.bytes) piece.bytes.length 0 with ⟨accesses, found⟩
        rw [run] at scanned
        cases scanned with
        | found first made =>
          rw [readLoop_found ended run, first]
          constructor
          · intro inside
            exact inside _ ((made _).mpr (.inr rfl))
          · intro whole a mem
            rcases (made a).mp mem with ⟨j, le, rfl⟩ | rfl
            · exact word_le le (firstSignature_eq_some.mp first).2.1.whole
            · exact whole
        | missed first long made =>
          have compared : ∀ a ∈ accesses, a.inside := by
            intro a mem
            obtain ⟨j, le, rfl⟩ := (made a).mp mem
            exact word_le le long
          rw [readLoop_missed ended run, forall_mem_append, ih, first]
          exact ⟨fun inside => ⟨long, inside.2⟩, fun covered => ⟨compared, covered.2⟩⟩
        | behind first short outside =>
          obtain ⟨a, mem, outside⟩ := outside
          rw [first]
          exact iff_of_false (fun inside => outside (inside a (mem_readLoop_of_mem_scan ended (run ▸ mem) _ _)))
            fun covered => short covered.1

/-- What the scan touches was delivered by the last read, and lies in the array, exactly if every piece that is read
is `Covered`. -/
theorem accesses_delivered_iff (opened : Bool) (reads : List Read) (memory : Memory) :
    (∀ a ∈ (getFileInfo opened reads memory).1, a.inside ∧ a.start + a.size ≤ chunkSize) ↔
      (opened = true → Covered reads) := by
  cases opened with
  | false => exact iff_of_true nofun nofun
  | true =>
    rw [← readLoop_inside_iff memory 0 reads]
    refine ⟨fun within _ a mem => (within a mem).1, fun inside a mem => ⟨inside rfl a mem, ?_⟩⟩
    exact Nat.le_trans (inside rfl a mem) (readLoop_delivered memory 0 reads a mem)

/-- A piece with `before` zeros in front of the signature and `after` zeros behind it. -/
def signedPiece (before after : ℕ) : List UInt8 := replicate before 0 ++ signature ++ replicate after 0

/-- A full read with the signature in the word behind the bound makes the copy reach behind the array, and a file of
one word is compared with bytes that were never read. -/
theorem access_outside_delivered :
    (∃ a ∈ (getFileInfo true [.delivered ⟨signedPiece 488 16, by decide +kernel⟩] fun _ => 0).1,
      chunkSize < a.start + a.size) ∧
      ∃ a ∈ (getFileInfo true [.delivered ⟨replicate 8 0, by decide⟩] fun _ => 0).1,
        a.delivered ≤ a.start ∧ a.start + a.size ≤ chunkSize := by
  refine ⟨⟨descriptorAccess 512 61, ?_, ?_⟩, wordAccess 8 1, ?_, ?_⟩
  · decide +kernel
  · decide +kernel
  · decide +kernel
  · decide +kernel

/-! ## Files that are read in full chunks -/

/-- The reads of a file that deliver as much as fits, at most `n` of them. -/
def fullReads : ℕ → List UInt8 → List Read
  | 0, _ => []
  | n + 1, file =>
    .delivered ⟨file.take chunkSize, length_take_le _ _⟩ :: fullReads n (file.drop chunkSize)

/-- As many reads as it takes to get to the end. -/
def readsOf (file : List UInt8) : List Read := fullReads (file.length / chunkSize + 1) file

/-- The smallest aligned offset with the signature and the whole descriptor behind it. -/
structure FirstDescriptor (file : List UInt8) (offset : ℕ) : Prop where
  aligned : offset % wordSize = 0
  whole : offset + descriptorSize ≤ file.length
  signed : Signed file offset
  least : ∀ earlier < offset, earlier % wordSize = 0 → ¬Signed file earlier

def descriptorAt (file : List UInt8) (offset : ℕ) : List UInt8 := (file.drop offset).take descriptorSize

theorem signed_take (inside : start + wordSize ≤ n) :
    Signed (file.take n) start ↔ Signed file start := by
  rw [Signed, Signed, drop_take, take_take, Nat.min_eq_left (by omega)]

theorem signed_drop (file : List UInt8) (start n : ℕ) : Signed (file.drop n) start ↔ Signed file (n + start) := by
  rw [Signed, Signed, drop_drop]

theorem descriptorAt_take (inside : start + descriptorSize ≤ n) :
    descriptorAt (file.take n) start = descriptorAt file start := by
  rw [descriptorAt, descriptorAt, drop_take, take_take, Nat.min_eq_left (by omega)]

theorem descriptorAt_drop (file : List UInt8) (start n : ℕ) :
    descriptorAt (file.drop n) start = descriptorAt file (n + start) := by
  rw [descriptorAt, descriptorAt, drop_drop]

theorem descriptorAt_getElem? (file : List UInt8) (offset : ℕ) (inside : i < descriptorSize) :
    (descriptorAt file offset)[i]? = file[offset + i]? := by
  rw [descriptorAt, getElem?_take_of_lt inside, getElem?_drop]

namespace FirstDescriptor

variable {file : List UInt8} {offset : ℕ}

theorem tail (first : FirstDescriptor file (chunkSize + offset)) : FirstDescriptor (file.drop chunkSize) offset := by
  have whole := first.whole
  refine ⟨?_, ?_, (signed_drop ..).mpr first.signed, fun earlier lt aligned signed => ?_⟩
  · exact (Nat.mul_add_mod wordSize maxChunk offset).symm.trans first.aligned
  · rw [length_drop]
    omega
  · refine first.least (chunkSize + earlier) (by omega) ?_ ((signed_drop ..).mp signed)
    exact (Nat.mul_add_mod wordSize maxChunk earlier).trans aligned

section

variable (first : FirstDescriptor file offset)

include first

theorem unsigned {j : ℕ} (before : wordSize * j < offset)
    (inside : wordSize * j + wordSize ≤ chunkSize) : ¬Signed (file.take chunkSize) (wordSize * j) := by
  rw [signed_take inside]
  exact first.least _ before (Nat.mul_mod_right wordSize j)

theorem exists_word : ∃ k, offset = wordSize * k :=
  ⟨offset / wordSize, (Nat.mul_div_cancel' (Nat.dvd_of_mod_eq_zero first.aligned)).symm⟩

theorem take_ne_nil : file.take chunkSize ≠ [] := by
  have whole := first.whole
  have size := sizes
  intro empty
  have length := congrArg length empty
  rw [length_take, length_nil] at length
  omega

/-- A chunk with the signature in a compared word. -/
theorem scan_take (memory : Memory) {k : ℕ} (word : offset = wordSize * k)
    (last : k ≤ lastWord + 1) :
    ∃ accesses, scan (memory.deliver (file.take chunkSize)) (file.take chunkSize).length 0 = (accesses, some k) := by
  subst word
  have size := sizes
  have signed : Signed (file.take chunkSize) (wordSize * k) :=
    (signed_take (by rw [size.1]; omega)).mpr first.signed
  have earlier : ∀ j < k, ¬Signed (file.take chunkSize) (wordSize * j) := fun j lt =>
    first.unsigned (by rw [size.1]; omega) (by rw [size.1]; omega)
  have found := firstSignature_eq_some.mpr ⟨last, signed, earlier⟩
  have scanned := scan_deliver memory (file.take chunkSize)
  generalize scan _ _ 0 = result at scanned
  cases scanned with
  | found first =>
    cases found.symm.trans first
    exact ⟨_, rfl⟩
  | _ first => cases found.symm.trans first

/-- A chunk in front of the descriptor, or one that the descriptor starts in behind the compared words. -/
theorem scan_take_none (memory : Memory)
    (behind : wordSize * (lastWord + 1) < offset) :
    (file.take chunkSize).length = chunkSize ∧
      ∃ accesses, scan (memory.deliver (file.take chunkSize)) (file.take chunkSize).length 0 = (accesses, none) := by
  have size := sizes
  have aligned := first.aligned
  have whole := first.whole
  have full : (file.take chunkSize).length = chunkSize := by
    rw [length_take]
    simp only [size] at behind aligned whole ⊢
    omega
  have absent : firstSignature (file.take chunkSize) = none := firstSignature_eq_none.mpr fun j le =>
    first.unsigned (Nat.lt_of_le_of_lt (Nat.mul_le_mul_left _ le) behind) (by simp only [size] at le ⊢; omega)
  have scanned := scan_deliver memory (file.take chunkSize)
  generalize scan _ _ 0 = result at scanned
  cases scanned with
  | found first => cases absent.symm.trans first
  | missed => exact ⟨full, _, rfl⟩
  | behind _ short => exact absurd (by rw [full]; decide) short

end

end FirstDescriptor

variable {offset : ℕ}

theorem FirstDescriptor.length_tail (first : FirstDescriptor file offset) (later : chunkSize ≤ offset)
    (enough : file.length < chunkSize * (n + 1)) :
    (file.drop chunkSize).length < chunkSize * n := by
  have whole := first.whole
  rw [length_drop]
  rw [Nat.mul_succ] at enough
  omega

theorem le_offset_of_readLoop {memory : Memory} {reads : List Read} {found : Found}
    (result : (readLoop memory start reads).2 = .ok found) : start ≤ found.offset := by
  induction reads generalizing memory start with
  | nil => cases result
  | cons read reads ih =>
    cases read with
    | failed errno => cases result
    | delivered piece =>
      by_cases ended : piece.bytes = []
      · rw [readLoop, if_pos ended] at result
        cases result
      · rcases run : scan (memory.deliver piece.bytes) piece.bytes.length 0 with ⟨accesses, _ | p⟩
        · rw [readLoop_missed ended run] at result
          exact Nat.le_trans (Nat.le_add_right _ _) (ih result)
        · rw [readLoop_found ended run] at result
          cases result
          exact Nat.le_add_right _ _

/-- A descriptor inside one chunk is found. -/
theorem readLoop_of_inside (start : ℕ) (enough : file.length < chunkSize * n)
    (first : FirstDescriptor file offset) (inside : offset % chunkSize + descriptorSize ≤ chunkSize) :
    (readLoop memory start (fullReads n file)).2 = .ok ⟨start + offset, descriptorAt file offset⟩ := by
  have size := sizes
  induction n generalizing file offset memory start with
  | zero => exact absurd enough (Nat.not_lt_zero _)
  | succ n ih =>
    rw [fullReads]
    rcases Nat.lt_or_ge offset chunkSize with here | later
    · obtain ⟨k, rfl⟩ := first.exists_word
      rw [Nat.mod_eq_of_lt here] at inside
      obtain ⟨accesses, run⟩ := first.scan_take memory rfl (by simp only [size] at inside ⊢; omega)
      have whole : wordSize * k + descriptorSize ≤ (file.take chunkSize).length := by
        rw [length_take]
        exact Nat.le_min.mpr ⟨inside, first.whole⟩
      rw [readLoop_found first.take_ne_nil run, window_deliver whole]
      exact congrArg (fun bytes => Except.ok (Found.mk (start + wordSize * k) bytes)) (descriptorAt_take inside)
    · obtain ⟨offset, rfl⟩ := Nat.exists_eq_add_of_le later
      obtain ⟨full, accesses, run⟩ := first.scan_take_none memory (Nat.lt_of_lt_of_le (by decide) later)
      rw [readLoop_missed first.take_ne_nil run, full]
      rw [Nat.add_mod_left] at inside
      rw [ih (memory.deliver (file.take chunkSize)) (start + chunkSize) (first.length_tail later enough)
        first.tail inside, descriptorAt_drop, Nat.add_assoc]

/-- A descriptor that crosses the end of a chunk is not: it starts in a word that is not compared, or its end is
copied from behind the array. -/
theorem readLoop_of_crossing (start : ℕ) (enough : file.length < chunkSize * n)
    (first : FirstDescriptor file offset) (crossing : ¬offset % chunkSize + descriptorSize ≤ chunkSize)
    (other : some (memory chunkSize) ≠ file[offset + 3 * wordSize]?) :
    (readLoop memory start (fullReads n file)).2 ≠ .ok ⟨start + offset, descriptorAt file offset⟩ := by
  have size := sizes
  induction n generalizing file offset memory start with
  | zero => exact absurd enough (Nat.not_lt_zero _)
  | succ n ih =>
    rw [fullReads]
    have behind : memory.deliver (file.take chunkSize) chunkSize = memory chunkSize :=
      deliver_behind (length_take_le _ _)
    rcases Nat.lt_or_ge offset chunkSize with here | later
    · rcases Nat.lt_or_ge (wordSize * (lastWord + 1)) offset with beyond | compared
      · obtain ⟨full, accesses, run⟩ := first.scan_take_none memory beyond
        rw [readLoop_missed first.take_ne_nil run]
        intro result
        have le := le_offset_of_readLoop result
        simp only at le
        omega
      · obtain ⟨k, rfl⟩ := first.exists_word
        obtain rfl : k = lastWord + 1 := by simp only [size] at crossing compared ⊢; omega
        obtain ⟨accesses, run⟩ := first.scan_take memory rfl le_rfl
        rw [readLoop_found first.take_ne_nil run]
        intro result
        -- the last word of the copy is the one behind the array
        have copied := congrArg (fun f : Found => f.descriptor[3 * wordSize]?) (Except.ok.inj result)
        simp only [descriptorAt_getElem? _ _ (show 3 * wordSize < descriptorSize by decide)] at copied
        rw [← behind] at other
        exact other copied
    · obtain ⟨offset, rfl⟩ := Nat.exists_eq_add_of_le later
      obtain ⟨full, accesses, run⟩ := first.scan_take_none memory (Nat.lt_of_lt_of_le (by decide) later)
      rw [readLoop_missed first.take_ne_nil run, full]
      rw [Nat.add_mod_left] at crossing
      rw [← Nat.add_assoc, ← descriptorAt_drop]
      refine ih _ _ (first.length_tail later enough) first.tail crossing ?_
      rwa [behind, getElem?_drop]

/-- A file that is read in full chunks: its first descriptor is returned, whatever the memory holds, exactly if it
lies in one chunk. -/
theorem first_descriptor_returned_iff (file : List UInt8) (offset : ℕ) (first : FirstDescriptor file offset) :
    (∀ memory, (getFileInfo true (readsOf file) memory).2 = .ok ⟨offset, descriptorAt file offset⟩) ↔
      offset % chunkSize + descriptorSize ≤ chunkSize := by
  have enough : file.length < chunkSize * (file.length / chunkSize + 1) := Nat.lt_mul_div_succ _ (by decide)
  constructor
  · intro returned
    by_contra crossing
    have exists_other : ∃ byte : UInt8, some byte ≠ file[offset + 3 * wordSize]? := by
      by_cases zero : file[offset + 3 * wordSize]? = some 0
      · exact ⟨1, by rw [zero]; decide⟩
      · exact ⟨0, Ne.symm zero⟩
    obtain ⟨byte, other⟩ := exists_other
    have missed := readLoop_of_crossing (fun _ => byte) 0 enough first crossing other
    rw [Nat.zero_add] at missed
    exact missed (returned _)
  · intro inside memory
    have result := readLoop_of_inside memory 0 enough first inside
    rwa [Nat.zero_add] at result

theorem first_descriptor_returned_sample :
    FirstDescriptor (signedPiece 480 24) 480 ∧
      ∀ memory, (getFileInfo true (readsOf (signedPiece 480 24)) memory).2 =
        .ok ⟨480, descriptorAt (signedPiece 480 24) 480⟩ := by
  have first : FirstDescriptor (signedPiece 480 24) 480 :=
    ⟨by decide, by decide +kernel, by decide +kernel, by decide +kernel⟩
  exact ⟨first, (first_descriptor_returned_iff (signedPiece 480 24) 480 first).mpr (by decide)⟩

/-- A descriptor that starts two words before the end of a chunk is in the file and is not found. -/
theorem descriptor_not_found :
    FirstDescriptor (signedPiece 496 32) 496 ∧
      (getFileInfo true (readsOf (signedPiece 496 32)) fun _ => 0).2 = .error enoent := by
  exact ⟨⟨by decide, by decide +kernel, by decide +kernel, by decide +kernel⟩, by decide +kernel⟩

end FirmwareVersionChecker

end Uavcan
