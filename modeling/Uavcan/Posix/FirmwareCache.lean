import Uavcan.Buffers.Overwrite

/-!
# The cache of firmware images

`FirmwareVersionChecker::copyIfNot` copies an image into the cache unless the cache holds a file of that name.
The answers of the system calls are inputs: a count, where more than there is means all there is, or an error.
Where a list of answers ends, the call returns zero, which ends the loop. A copy that fails leaves the file
behind, and the next call takes it for the image.
-/

namespace Uavcan

open List

namespace FirmwareVersionChecker

/-- What a system call returns: an error number or a count. -/
abbrev Answer := Except ℕ ℕ

/-- A file that is open for writing. -/
structure OpenFile where
  content : List UInt8
  position : ℕ
  deriving DecidableEq

/-- Writing at the position, which moves behind what is written. -/
def OpenFile.write (file : OpenFile) (data : List UInt8) : OpenFile where
  content := Buffers.splice file.content file.position data
  position := file.position + data.length

/-- The loop that writes a buffer; it ends with an error or without one. -/
def writeLoop : List Answer → List UInt8 → OpenFile → Option ℕ × OpenFile
  | [], _, file => (none, file)
  | .error errno :: _, _, file => (some errno, file)
  | .ok count :: answers, data, file =>
    let written := min count data.length
    let file := file.write (data.take written)
    if 0 < written ∧ 0 < data.length - written then writeLoop answers (data.drop written) file else (none, file)

/-- The answers to one turn of the copy: to `read`, and to the calls of `write`. -/
structure Round where
  size : Answer
  writes : List Answer

/-- `sizeof(buffer)`. -/
def bufferSize : ℕ := 512

/-- The loop that reads and writes, `source` being what is left to read. -/
def copyLoop : List Round → List UInt8 → OpenFile → Option ℕ × OpenFile
  | [], _, file => (none, file)
  | round :: rounds, source, file =>
    match round.size with
    | .error errno => (some errno, file)
    | .ok count =>
      let data := source.take (min count bufferSize)
      if data = [] then
        (none, file)
      else
        match writeLoop round.writes data file with
        | (some errno, file) => (some errno, file)
        | (none, file) => copyLoop rounds (source.drop data.length) file

/-- What the system answers during one call. -/
structure CopyCall where
  /-- The destination can be opened for reading, if it exists. -/
  readable : Bool
  /-- The destination cannot be opened for writing. -/
  destinationError : Option ℕ
  /-- The source cannot be opened. -/
  sourceError : Option ℕ
  rounds : List Round

/-- The destination is not copied to. -/
def CopyCall.finds (call : CopyCall) (destination : Option (List UInt8)) : Prop :=
  destination.isSome = true ∧ call.readable = true

instance (call : CopyCall) (destination : Option (List UInt8)) : Decidable (call.finds destination) :=
  inferInstanceAs (Decidable (_ ∧ _))

/-- The error number, if any, and the destination afterwards.  An existing destination is not truncated. -/
def copyIfNot (call : CopyCall) (source : List UInt8) (destination : Option (List UInt8)) :
    Option ℕ × Option (List UInt8) :=
  if call.finds destination then
    (none, destination)
  else
    match call.destinationError with
    | some errno => (some errno, destination)
    | none =>
      let created := destination.getD []
      match call.sourceError with
      | some errno => (some errno, some created)
      | none =>
        let (rv, file) := copyLoop call.rounds source ⟨created, 0⟩
        (rv, some file.content)

/-! ## What the loops write -/

theorem OpenFile.write_nil (file : OpenFile) : file.write [] = file := by
  simp [OpenFile.write]

variable {file : OpenFile} {source : List UInt8}

theorem OpenFile.write_write (inside : file.position ≤ file.content.length) (data later : List UInt8) :
    (file.write data).write later = file.write (data ++ later) := by
  simp [OpenFile.write, Buffers.splice_splice inside, Nat.add_assoc]

theorem OpenFile.write_inside (inside : file.position ≤ file.content.length) (data : List UInt8) :
    (file.write data).position ≤ (file.write data).content.length := by
  rw [OpenFile.write, Buffers.length_splice inside]
  exact Nat.le_max_right _ _

/-- How the loop over the writes ends. -/
inductive WriteEnd
  | complete
  | failed
  | stalled
  deriving DecidableEq

/-- The first answer that is not a positive count, if it comes before all is written. -/
def writeEnd : List Answer → List UInt8 → WriteEnd
  | _, [] => .complete
  | [], _ :: _ => .stalled
  | .error _ :: _, _ :: _ => .failed
  | .ok 0 :: _, _ :: _ => .stalled
  | .ok (count + 1) :: answers, _ :: data => writeEnd answers (data.drop count)

theorem writeLoop_spec (answers : List Answer) {data : List UInt8} (nonempty : data ≠ [])
    (inside : file.position ≤ file.content.length) :
    ∃ written, written <+: data ∧ (writeLoop answers data file).2 = file.write written ∧
      (writeEnd answers data = .complete → written = data) ∧
      (writeEnd answers data = .failed ↔ (writeLoop answers data file).1 ≠ none) := by
  obtain ⟨byte, data, rfl⟩ := exists_cons_of_ne_nil nonempty
  induction answers generalizing byte data file with
  | nil => exact ⟨[], nil_prefix, file.write_nil.symm, nofun, nofun, fun failed => absurd rfl failed⟩
  | cons answer answers ih =>
    cases answer with
    | error errno => exact ⟨[], nil_prefix, file.write_nil.symm, nofun, fun _ => nofun, fun _ => rfl⟩
    | ok count =>
      cases count with
      | zero =>
        refine ⟨[], nil_prefix, ?_, nofun, nofun, fun failed => ?_⟩
        · rfl
        · exact absurd rfl failed
      | succ count =>
        rw [writeLoop, writeEnd]
        rcases Nat.lt_or_ge count data.length with more | all
        · obtain ⟨next, rest, split⟩ := exists_cons_of_ne_nil (show data.drop count ≠ [] from fun empty => by
            rw [drop_eq_nil_iff] at empty
            omega)
          have written : min (count + 1) (byte :: data).length = count + 1 :=
            Nat.min_eq_left (by rw [length_cons]; omega)
          have goesOn : 0 < count + 1 ∧ 0 < (byte :: data).length - (count + 1) :=
            ⟨Nat.succ_pos _, by rw [length_cons]; omega⟩
          simp only [written, if_pos goesOn, drop_succ_cons, split]
          obtain ⟨later, prefixed, wrote, complete, failed⟩ :=
            ih (file.write_inside inside ((byte :: data).take (count + 1))) next rest (cons_ne_nil _ _)
          have joined : (byte :: data).take (count + 1) ++ (next :: rest) = byte :: data := by
            rw [← split, take_succ_cons, cons_append, take_append_drop]
          refine ⟨(byte :: data).take (count + 1) ++ later, ?_, ?_, fun ended => ?_, failed⟩
          · have extended := (prefix_append_right_inj ((byte :: data).take (count + 1))).mpr prefixed
            rwa [joined] at extended
          · rw [wrote, file.write_write inside]
          · rw [complete ended, joined]
        · have written : min (count + 1) (byte :: data).length = (byte :: data).length :=
            Nat.min_eq_right (by rw [length_cons]; omega)
          have stops : ¬(0 < (byte :: data).length ∧ 0 < (byte :: data).length - (byte :: data).length) := by
            rw [Nat.sub_self]
            exact fun goesOn => absurd goesOn.2 (Nat.lt_irrefl 0)
          simp only [written, if_neg stops, take_length, drop_of_length_le all, writeEnd]
          exact ⟨byte :: data, prefix_rfl, rfl, fun _ => rfl, nofun, fun failed => absurd rfl failed⟩

/-- A count of zero is reached while there are bytes left and no call has failed. -/
def Stalls : List Round → List UInt8 → Prop
  | [], source => source ≠ []
  | round :: rounds, source =>
    source ≠ [] ∧
      match round.size with
      | .error _ => False
      | .ok count =>
        let data := source.take (min count bufferSize)
        data = [] ∨
          match writeEnd round.writes data with
          | .complete => Stalls rounds (source.drop data.length)
          | .failed => False
          | .stalled => True

theorem copyLoop_spec {rounds : List Round} (moving : ¬Stalls rounds source) (file : OpenFile)
    (inside : file.position ≤ file.content.length) :
    ∃ written, written <+: source ∧ (copyLoop rounds source file).2 = file.write written ∧
      ((copyLoop rounds source file).1 = none → written = source) := by
  induction rounds generalizing source file with
  | nil =>
    obtain rfl : source = [] := not_not.mp moving
    exact ⟨[], nil_prefix, file.write_nil.symm, fun _ => rfl⟩
  | cons round rounds ih =>
    rw [copyLoop]
    rcases size : round.size with errno | count
    · exact ⟨[], nil_prefix, file.write_nil.symm, nofun⟩
    · rw [Stalls, size] at moving
      dsimp only at moving ⊢
      by_cases ended : source.take (min count bufferSize) = []
      · obtain rfl : source = [] := by
          by_contra left
          exact moving ⟨left, .inl ended⟩
        rw [if_pos ended]
        exact ⟨[], nil_prefix, file.write_nil.symm, fun _ => rfl⟩
      · have left : source ≠ [] := fun empty => ended (by rw [empty, take_nil])
        rw [if_neg ended]
        obtain ⟨written, prefixed, wrote, complete, failed⟩ := writeLoop_spec round.writes ended inside
        rcases run : writeLoop round.writes (source.take (min count bufferSize)) file with ⟨_ | errno, after⟩
        · -- all of the buffer is written, since the answers do not stall
          rw [run] at wrote failed
          have moved : after = file.write written := wrote
          rcases how : writeEnd round.writes (source.take (min count bufferSize)) with _ | _ | _
          · obtain rfl := complete how
            have later : ¬Stalls rounds (source.drop (source.take (min count bufferSize)).length) := fun stalls =>
              moving ⟨left, .inr (by rw [how]; exact stalls)⟩
            have joined : source.take (min count bufferSize) ++
                source.drop (source.take (min count bufferSize)).length = source := by
              rw [length_take, Buffers.drop_min_length, take_append_drop]
            obtain ⟨rest, restPrefixed, restWrote, restComplete⟩ := ih later after (moved ▸ file.write_inside inside _)
            refine ⟨source.take (min count bufferSize) ++ rest, ?_, ?_, fun returned => ?_⟩
            · have extended := (prefix_append_right_inj (source.take (min count bufferSize))).mpr restPrefixed
              rwa [joined] at extended
            · rw [← file.write_write inside, ← moved]
              exact restWrote
            · rw [restComplete returned, joined]
          · exact absurd rfl (failed.mp how)
          · exact absurd ⟨left, .inr (by rw [how]; trivial)⟩ moving
        · rw [run] at wrote
          exact ⟨written, prefixed.trans ( take_prefix _ _), wrote, nofun⟩

/-! ## Calls one after the other -/

/-- What the destination holds after a call that could open it for writing. -/
theorem copyIfNot_written {call : CopyCall} {destination : Option (List UInt8)} (missing : ¬call.finds destination)
    (opened : call.destinationError = none) (moving : call.sourceError = none → ¬Stalls call.rounds source)
    (short : (destination.getD []).length ≤ source.length) :
    ∃ content, (copyIfNot call source destination).2 = some content ∧ content.length ≤ source.length ∧
      ((copyIfNot call source destination).1 = none → content = source) := by
  rw [copyIfNot, if_neg missing, opened]
  rcases readable : call.sourceError with _ | errno
  · obtain ⟨written, prefixed, wrote, complete⟩ :=
      copyLoop_spec (moving readable) ⟨destination.getD [], 0⟩ (Nat.zero_le _)
    refine ⟨_, rfl, ?_, fun returned => ?_⟩
    · rw [wrote, OpenFile.write, Buffers.length_splice (Nat.zero_le _), Nat.zero_add]
      exact Nat.max_le.mpr ⟨short, prefixed.length_le⟩
    · rw [wrote, complete returned]
      exact (Buffers.splice_eq_iff (Nat.zero_le _) source).mpr ⟨rfl, short⟩
  · exact ⟨_, rfl, short, nofun⟩

/-- The cache of one image.  `failed` says that the last call that opened the destination for writing has failed. -/
structure Cache where
  destination : Option (List UInt8)
  failed : Bool

def Cache.copy (cache : Cache) (source : List UInt8) (call : CopyCall) : Cache where
  destination := (copyIfNot call source cache.destination).2
  failed :=
    if call.finds cache.destination ∨ call.destinationError ≠ none then cache.failed
    else (copyIfNot call source cache.destination).1.isSome

/-- A call that does not find what a failed call has left, and whose own copy does not stall. -/
def Cache.Accepts (cache : Cache) (source : List UInt8) (call : CopyCall) : Prop :=
  if call.finds cache.destination then cache.failed = false
  else call.destinationError = none → call.sourceError = none → ¬Stalls call.rounds source

/-- The caches that such calls lead to, from an empty one. -/
inductive CacheRun (source : List UInt8) : Cache → Prop
  | start : CacheRun source ⟨none, false⟩
  | call {cache : Cache} (run : CacheRun source cache) {call : CopyCall} (accepts : cache.Accepts source call) :
      CacheRun source (cache.copy source call)

theorem CacheRun.faithful {cache : Cache} (run : CacheRun source cache) :
    (cache.destination.getD []).length ≤ source.length ∧
      (cache.failed = false → ∀ content ∈ cache.destination, content = source) := by
  induction run with
  | start => exact ⟨Nat.zero_le _, fun _ => nofun⟩
  | @call cache _ call accepts ih =>
    by_cases finds : call.finds cache.destination
    · have same : cache.copy source call = cache := by
        simp [Cache.copy, copyIfNot, finds]
      rw [same]
      exact ih
    · rw [Cache.Accepts, if_neg finds] at accepts
      rcases opened : call.destinationError with _ | errno
      · obtain ⟨content, result, short, complete⟩ := copyIfNot_written finds opened (accepts opened) ih.1
        have failed : (cache.copy source call).failed = (copyIfNot call source cache.destination).1.isSome := by
          simp [Cache.copy, finds, opened]
        have destination : (cache.copy source call).destination = some content := result
        rw [destination, failed]
        refine ⟨short, fun returned other mem => ?_⟩
        obtain rfl := Option.some.inj mem
        exact complete (Option.not_isSome_iff_eq_none.mp (by rw [returned]; nofun))
      · have same : cache.copy source call = cache := by
          simp [Cache.copy, copyIfNot, if_neg finds, opened]
        rw [same]
        exact ih

/-- A call that returns zero leaves a copy of the source, as long as no call finds what a failed one has left and no
read or write returns zero before the end. -/
theorem cached_image_faithful (source : List UInt8) (cache : Cache) (run : CacheRun source cache) (call : CopyCall)
    (accepts : cache.Accepts source call) (returned : (copyIfNot call source cache.destination).1 = none) :
    (copyIfNot call source cache.destination).2 = some source := by
  obtain ⟨short, faithful⟩ := run.faithful
  by_cases finds : call.finds cache.destination
  · rw [Cache.Accepts, if_pos finds] at accepts
    obtain ⟨content, here⟩ := Option.isSome_iff_exists.mp finds.1
    rw [copyIfNot, if_pos finds, here]
    exact congrArg some (faithful accepts content here)
  · rw [Cache.Accepts, if_neg finds] at accepts
    rcases opened : call.destinationError with _ | errno
    · obtain ⟨content, result, -, complete⟩ := copyIfNot_written finds opened (accepts opened) short
      rw [result, complete returned]
    · rw [copyIfNot, if_neg finds, opened] at returned
      exact absurd returned nofun

/-- A copy with short counts; the second call finds its result. -/
def shortCounts : CopyCall := ⟨true, none, none, [⟨.ok 2, [.ok 1, .ok 5]⟩, ⟨.ok 512, [.ok 1]⟩]⟩

theorem cached_image_sample :
    (copyIfNot shortCounts [1, 2, 3] (some [1, 2, 3])).2 = some [1, 2, 3] := by
  have first : (Cache.mk none false).Accepts [1, 2, 3] shortCounts := by
    exact fun _ _ stalls => by simp [Stalls, shortCounts, writeEnd, bufferSize] at stalls
  have second : ((Cache.mk none false).copy [1, 2, 3] shortCounts).Accepts [1, 2, 3] shortCounts := by
    rw [Cache.Accepts, if_pos (by decide)]
    decide
  exact cached_image_faithful [1, 2, 3] _ (.call .start first) shortCounts second (by decide)

/-- The disk is full: the first call fails and leaves an empty file, and the second one returns zero with it.  A write
that returns zero loses what it was to write without a failure. -/
theorem unfinished_image_accepted :
    (copyIfNot ⟨true, none, none, [⟨.ok 512, [.error 28]⟩]⟩ [1] none = (some 28, some []) ∧
      copyIfNot ⟨true, none, none, []⟩ [1] (some []) = (none, some [])) ∧
    copyIfNot ⟨true, none, none, [⟨.ok 512, [.ok 0]⟩]⟩ [1] none = (none, some []) := by
  decide

end FirmwareVersionChecker

end Uavcan
