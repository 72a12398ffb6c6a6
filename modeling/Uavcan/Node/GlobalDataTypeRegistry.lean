import Uavcan.Buffers.CStrings
import Uavcan.Queues.Insertion
import Uavcan.Transport.Transfer

/-!
# The registry of data types

`GlobalDataTypeRegistry` lists the message types and the service types of an application, in the order of their IDs.
Every data type of the program has a static entry, which its registration fills and links into a list.  The data
types are the elements of an arbitrary type.
-/

namespace Uavcan

open Buffers List Function

/-- A name as the constructor of `DataTypeDescriptor` requires it, of at most `MaxFullNameLen` characters. -/
structure FullName where
  chars : List UInt8
  clean : 0 ∉ chars
  short : chars.length ≤ 80
  deriving DecidableEq

/-- The comparison of names by `strncmp`. -/
def FullName.same (a b : FullName) : Bool := strncmp 80 (a.chars ++ [0]) (b.chars ++ [0]) = some 0

theorem FullName.same_iff {a b : FullName} : a.same b = true ↔ a = b := by
  rw [same, decide_eq_true_eq, strncmp_eq_zero_iff a.clean b.clean, take_of_length_le a.short,
    take_of_length_le b.short, mk.injEq]

structure DataTypeDescriptor where
  signature : UInt64
  fullName : FullName
  kind : DataTypeKind
  id : DataTypeID
  deriving DecidableEq

namespace DataTypeDescriptor

/-- The descriptor of an entry that was never registered. -/
def default : DataTypeDescriptor := ⟨0, ⟨[], by decide, by decide⟩, .service, ⟨0xFFFFFFFF⟩⟩

def isValid (d : DataTypeDescriptor) : Bool := d.id.isValidForDataTypeKind d.kind && d.fullName.chars ≠ []

def matchName (d : DataTypeDescriptor) (kind : DataTypeKind) (name : FullName) : Bool :=
  d.kind = kind && d.fullName.same name

def matchID (d : DataTypeDescriptor) (kind : DataTypeKind) (id : DataTypeID) : Bool := d.kind = kind && d.id = id

end DataTypeDescriptor

inductive RegistrationResult where
  | ok
  | collision
  | invalidParams
  | frozen
  deriving DecidableEq

/-- What a data type of the program declares. -/
structure DataTypeTraits where
  kind : DataTypeKind
  signature : UInt64
  fullName : FullName

def DataTypeTraits.describe (traits : DataTypeTraits) (id : DataTypeID) : DataTypeDescriptor :=
  ⟨traits.signature, traits.fullName, traits.kind, id⟩

/-- The two lists, of data types whose entries are linked, and the entries of all data types. -/
structure GlobalDataTypeRegistry (τ : Type) where
  list : DataTypeKind → List τ
  isFrozen : Bool
  entry : τ → DataTypeDescriptor

namespace GlobalDataTypeRegistry

variable {τ : Type}

def init : GlobalDataTypeRegistry τ := ⟨fun _ => [], false, fun _ => .default⟩

def freeze (r : GlobalDataTypeRegistry τ) : GlobalDataTypeRegistry τ := { r with isFrozen := true }

def findByName (r : GlobalDataTypeRegistry τ) (kind : DataTypeKind) (name : FullName) : Option DataTypeDescriptor :=
  ((r.list kind).find? fun p => (r.entry p).matchName kind name).map r.entry

def findByID (r : GlobalDataTypeRegistry τ) (kind : DataTypeKind) (id : DataTypeID) : Option DataTypeDescriptor :=
  ((r.list kind).find? fun p => (r.entry p).matchID kind id).map r.entry

section Operations

variable [DecidableEq τ]

/-- The entry, and all that have its name. -/
def remove (r : GlobalDataTypeRegistry τ) (t : τ) : RegistrationResult × GlobalDataTypeRegistry τ :=
  if r.isFrozen then (.frozen, r)
  else
    let d := r.entry t
    let unlinked := (r.list d.kind).erase t
    let others := unlinked.foldl (fun l p => if (r.entry p).matchName d.kind d.fullName then l.erase p else l) unlinked
    (.ok, { r with list := update r.list d.kind others })

def registImpl (r : GlobalDataTypeRegistry τ) (t : τ) : RegistrationResult × GlobalDataTypeRegistry τ :=
  let d := r.entry t
  if !d.isValid then (.invalidParams, r)
  else if r.isFrozen then (.frozen, r)
  else if (r.list d.kind).any fun p => (r.entry p).id = d.id || (r.entry p).fullName.same d.fullName then
    (.collision, r)
  else
    (.ok, { r with
      list := update r.list d.kind
        (Queues.insertBefore (fun p => (r.entry p).id.value > d.id.value) t ((r.list d.kind).erase t)) })

/-- The assignment to the entry of a data type. -/
def fill (r : GlobalDataTypeRegistry τ) (t : τ) (d : DataTypeDescriptor) : GlobalDataTypeRegistry τ :=
  { r with entry := update r.entry t d }

variable (traits : τ → DataTypeTraits)

def registerDataType (r : GlobalDataTypeRegistry τ) (t : τ) (id : DataTypeID) :
    RegistrationResult × GlobalDataTypeRegistry τ :=
  if r.isFrozen then (.frozen, r)
  else
    let (res, r) := r.remove t
    if res ≠ .ok then (res, r)
    else
      let (res, r) := (r.fill t ((traits t).describe id)).remove t
      if res ≠ .ok then (res, r) else r.registImpl t

/-- Registrations and freezing; finding changes nothing. -/
inductive Run (r : GlobalDataTypeRegistry τ) : GlobalDataTypeRegistry τ → Prop
  | refl : Run r r
  | register {r' : GlobalDataTypeRegistry τ} (t : τ) (id : DataTypeID) : Run r r' →
    Run r (r'.registerDataType traits t id).2
  | freeze {r' : GlobalDataTypeRegistry τ} : Run r r' → Run r r'.freeze

end Operations

/-! ## The lists -/

/-- Every entry in a list is that of its data type; the IDs increase, no name comes twice, and none is empty. -/
structure Consistent (traits : τ → DataTypeTraits) (r : GlobalDataTypeRegistry τ) : Prop where
  entry : ∀ t, r.entry t = .default ∨ ∃ id, r.entry t = (traits t).describe id
  listed : ∀ kind, ∀ p ∈ r.list kind, (r.entry p).kind = kind ∧ (r.entry p).fullName.chars ≠ []
  ids : ∀ kind, (r.list kind).Pairwise fun a b => (r.entry a).id.value < (r.entry b).id.value
  names : ∀ kind, (r.list kind).Pairwise fun a b => (r.entry a).fullName ≠ (r.entry b).fullName

/-- The registry without the entries of the kind and the name of `d`. -/
def without (r : GlobalDataTypeRegistry τ) (d : DataTypeDescriptor) : GlobalDataTypeRegistry τ :=
  { r with list := fun kind => (r.list kind).filter fun p => ¬(kind = d.kind ∧ (r.entry p).fullName = d.fullName) }

variable {traits : τ → DataTypeTraits} {r : GlobalDataTypeRegistry τ}

theorem consistent_init : Consistent traits (init : GlobalDataTypeRegistry τ) :=
  ⟨fun _ => .inl rfl, fun _ => nofun, fun _ => .nil, fun _ => .nil⟩

theorem find?_eq_some_of_unique {l : List τ} {q : τ → Bool} {t : τ} (mem : t ∈ l) (holds : q t = true)
    (only : ∀ p ∈ l, q p = true → p = t) : l.find? q = some t := by
  cases found : l.find? q with
  | none => exact absurd holds (find?_eq_none.mp found t mem)
  | some p => rw [only p (mem_of_find?_eq_some found) (find?_some found)]

variable {kind : DataTypeKind}

section

variable (consistent : Consistent traits r)

include consistent

theorem Consistent.nodup (kind : DataTypeKind) : (r.list kind).Nodup :=
  (consistent.ids kind).imp fun less same => by simp [same] at less

theorem Consistent.without (d : DataTypeDescriptor) :
    Consistent traits (r.without d) where
  entry := consistent.entry
  listed kind p mem := consistent.listed kind p (mem_filter.mp mem).1
  ids kind := (consistent.ids kind).filter _
  names kind := (consistent.names kind).filter _

/-- An entry in a list tells the kind and the name of its data type. -/
theorem Consistent.of_listed {t : τ} (mem : t ∈ r.list kind) :
    kind = (traits t).kind ∧ (r.entry t).fullName = (traits t).fullName := by
  obtain ⟨same, name⟩ := consistent.listed kind t mem
  rcases consistent.entry t with default | ⟨id, described⟩
  · rw [default] at name
    exact absurd rfl name
  · rw [described] at same ⊢
    exact ⟨same.symm, rfl⟩

theorem Consistent.eq_of_name {p q : τ} (memP : p ∈ r.list kind)
    (memQ : q ∈ r.list kind) (same : (r.entry p).fullName = (r.entry q).fullName) : p = q :=
  inj_on_of_nodup_map (pairwise_map.mpr (consistent.names kind)) memP memQ same

theorem Consistent.eq_of_id {p q : τ} (memP : p ∈ r.list kind)
    (memQ : q ∈ r.list kind) (same : (r.entry p).id = (r.entry q).id) : p = q := by
  refine inj_on_of_nodup_map (f := fun p => (r.entry p).id) (pairwise_map.mpr ((consistent.ids kind).imp ?_))
    memP memQ same
  intro a b less same
  simp [same] at less

theorem Consistent.findByName_listed {t : τ}
    (mem : t ∈ r.list kind) : r.findByName kind (r.entry t).fullName = some (r.entry t) := by
  have kinds := (consistent.listed kind t mem).1
  rw [findByName, find?_eq_some_of_unique mem, Option.map_some]
  · simp [DataTypeDescriptor.matchName, kinds, FullName.same_iff]
  · intro p memP matches_
    exact consistent.eq_of_name memP mem (FullName.same_iff.mp (Bool.and_eq_true_iff.mp matches_).2)

theorem Consistent.findByID_listed {t : τ}
    (mem : t ∈ r.list kind) : r.findByID kind (r.entry t).id = some (r.entry t) := by
  have kinds := (consistent.listed kind t mem).1
  rw [findByID, find?_eq_some_of_unique mem, Option.map_some]
  · simp [DataTypeDescriptor.matchID, kinds]
  · intro p memP matches_
    exact consistent.eq_of_id memP mem (of_decide_eq_true (Bool.and_eq_true_iff.mp matches_).2)

end

/-! ## Registering -/

variable [DecidableEq τ]

theorem foldl_erase {matching : τ → Bool} {l : List τ} (seen : List τ) (nodup : l.Nodup) :
    seen.foldl (fun l p => if matching p then l.erase p else l) l = l.filter fun p => !(p ∈ seen && matching p) := by
  induction seen generalizing l with
  | nil => simp
  | cons p seen ih =>
    rw [foldl_cons]
    split
    · next matches_ =>
      rw [ih (nodup.erase p), nodup.erase_eq_filter, filter_filter]
      refine filter_congr fun q _ => ?_
      by_cases same : q = p
      · simp [same, matches_]
      · simp [same]
    · next other =>
      rw [ih nodup]
      refine filter_congr fun q _ => ?_
      by_cases same : q = p
      · simp [same, other]
      · simp [same]

theorem Consistent.remove_eq (consistent : Consistent traits r) (unfrozen : r.isFrozen = false) (t : τ) :
    r.remove t = (.ok, r.without (r.entry t)) := by
  have nodup := consistent.nodup (r.entry t).kind
  have others : ((r.list (r.entry t).kind).erase t).foldl (fun l p =>
      if (r.entry p).matchName (r.entry t).kind (r.entry t).fullName then l.erase p else l)
      ((r.list (r.entry t).kind).erase t) =
      (r.list (r.entry t).kind).filter fun p => (r.entry p).fullName ≠ (r.entry t).fullName := by
    rw [foldl_erase _ (nodup.erase t), nodup.erase_eq_filter, filter_filter]
    refine filter_congr fun p mem => ?_
    have kind := (consistent.listed _ p mem).1
    by_cases same : (r.entry p).fullName = (r.entry t).fullName
    · by_cases itself : p = t
      · simp [itself]
      · simp [mem, kind, same, itself, DataTypeDescriptor.matchName, FullName.same_iff]
    · have itself : p ≠ t := fun itself => same (by rw [itself])
      have differ : (r.entry p).fullName.same (r.entry t).fullName = false :=
        Bool.not_eq_true _ |>.mp (mt FullName.same_iff.mp same)
      simp [same, itself, DataTypeDescriptor.matchName, differ]
  rw [remove, if_neg (by simp [unfrozen])]
  simp only [others]
  refine congrArg (Prod.mk _) (congrArg (fun list => { r with list }) (funext fun kind => ?_))
  by_cases same : kind = (r.entry t).kind
  · subst same
    simp
  · simp [same]

theorem entry_fill (r : GlobalDataTypeRegistry τ) (t : τ) (d : DataTypeDescriptor) : (r.fill t d).entry t = d :=
  update_self ..

theorem entry_fill_of_ne {t p : τ} (other : p ≠ t) (r : GlobalDataTypeRegistry τ) (d : DataTypeDescriptor) :
    (r.fill t d).entry p = r.entry p :=
  update_of_ne other ..

/-- The registry in which the new entry is looked at: it is filled, and no entry of its kind and name is listed. -/
def prepare (traits : τ → DataTypeTraits) (r : GlobalDataTypeRegistry τ) (t : τ) (id : DataTypeID) :
    GlobalDataTypeRegistry τ :=
  ((r.without (r.entry t)).fill t ((traits t).describe id)).without ((traits t).describe id)

section Prepare

variable (consistent : Consistent traits r) (t : τ) (id : DataTypeID)
include consistent

theorem Consistent.prepare_list (kind : DataTypeKind) :
    (prepare traits r t id).list kind =
      (r.list kind).filter fun p => ¬(kind = (traits t).kind ∧ (r.entry p).fullName = (traits t).fullName) := by
  change filter _ (filter _ _) = _
  rw [filter_filter]
  refine filter_congr fun p mem => ?_
  obtain ⟨same, name⟩ := consistent.of_listed mem
  obtain ⟨own, nonempty⟩ := consistent.listed kind p mem
  rw [Bool.eq_iff_iff, Bool.and_eq_true, decide_eq_true_eq, decide_eq_true_eq, decide_eq_true_eq]
  by_cases itself : p = t
  · subst itself
    exact iff_of_false (fun kept => kept.2 ⟨own.symm, rfl⟩) (not_not.mpr ⟨same, name⟩)
  · rw [entry_fill_of_ne itself]
    rcases consistent.entry t with default | ⟨id', described⟩
    · refine and_iff_left fun empty => nonempty ?_
      rw [empty.2, default]
      rfl
    · rw [described]
      exact and_self_iff

theorem Consistent.fill : Consistent traits ((r.without (r.entry t)).fill t ((traits t).describe id)) := by
  have same : ∀ kind, ∀ p ∈ (r.without (r.entry t)).list kind,
      ((r.without (r.entry t)).fill t ((traits t).describe id)).entry p = r.entry p := by
    intro kind p mem
    obtain ⟨listed, other⟩ := mem_filter.mp mem
    refine entry_fill_of_ne (fun itself => of_decide_eq_true other ?_) ..
    subst itself
    exact ⟨(consistent.listed kind p listed).1.symm, rfl⟩
  have kept := consistent.without (r.entry t)
  refine ⟨fun t' => ?_, fun kind p mem => ?_, fun kind => ?_, fun kind => ?_⟩
  · by_cases itself : t' = t
    · subst itself
      exact .inr ⟨id, entry_fill ..⟩
    · rw [entry_fill_of_ne itself]
      exact consistent.entry t'
  · rw [same kind p mem]
    exact kept.listed kind p mem
  · refine (kept.ids kind).imp_of_mem fun memP memQ less => ?_
    rwa [same kind _ memP, same kind _ memQ]
  · refine (kept.names kind).imp_of_mem fun memP memQ differ => ?_
    rwa [same kind _ memP, same kind _ memQ]

theorem Consistent.prepare : Consistent traits (prepare traits r t id) := (consistent.fill t id).without _

theorem Consistent.register_eq (unfrozen : r.isFrozen = false) :
    r.registerDataType traits t id = (GlobalDataTypeRegistry.prepare traits r t id).registImpl t := by
  have again := (consistent.fill t id).remove_eq unfrozen t
  rw [entry_fill] at again
  rw [registerDataType, if_neg (by simp [unfrozen]), consistent.remove_eq unfrozen]
  simp only [again]
  rfl

end Prepare

/-- The registry with the entry of `t` in its list. -/
def link (r : GlobalDataTypeRegistry τ) (t : τ) : GlobalDataTypeRegistry τ :=
  { r with
    list := update r.list (r.entry t).kind
      (Queues.insertBefore (fun p => (r.entry p).id.value > (r.entry t).id.value) t
        ((r.list (r.entry t).kind).erase t)) }

/-- No entry of the list has the ID or the name of `t`. -/
def Apart (r : GlobalDataTypeRegistry τ) (t : τ) : Prop :=
  ∀ p ∈ r.list (r.entry t).kind, (r.entry p).id ≠ (r.entry t).id ∧ (r.entry p).fullName ≠ (r.entry t).fullName

theorem registImpl_cases (r : GlobalDataTypeRegistry τ) (t : τ) :
    ((r.registImpl t).1 ≠ .ok ∧ (r.registImpl t).2 = r) ∨
      r.registImpl t = (.ok, r.link t) ∧ (r.entry t).isValid = true ∧ r.Apart t := by
  unfold registImpl
  dsimp only
  split
  · exact .inl ⟨nofun, rfl⟩
  · next valid =>
    split
    · exact .inl ⟨nofun, rfl⟩
    · split
      · exact .inl ⟨nofun, rfl⟩
      · next free =>
        refine .inr ⟨rfl, by simpa using valid, fun p mem => ?_⟩
        have apart := mt any_eq_true.mpr free
        push Not at apart
        simpa [FullName.same_iff] using apart p mem

section Link

variable {t : τ}

theorem link_list_self (r : GlobalDataTypeRegistry τ) (apart : r.Apart t) :
    (r.link t).list (r.entry t).kind =
      Queues.insertBefore (fun p => (r.entry p).id.value > (r.entry t).id.value) t (r.list (r.entry t).kind) := by
  have absent : t ∉ r.list (r.entry t).kind := fun mem => (apart t mem).1 rfl
  rw [link]
  dsimp only
  rw [update_self, erase_of_not_mem absent]

theorem mem_link (apart : r.Apart t) {p : τ} :
    p ∈ (r.link t).list kind ↔ p ∈ r.list kind ∨ kind = (r.entry t).kind ∧ p = t := by
  by_cases same : kind = (r.entry t).kind
  · subst same
    rw [link_list_self r apart, Queues.mem_insertBefore]
    simp [or_comm]
  · simp [link, same]

/-- What leaves out the new entry sees no change. -/
theorem filter_link (apart : r.Apart t) (kind : DataTypeKind) {q : τ → Bool} (out : q t = false) :
    ((r.link t).list kind).filter q = (r.list kind).filter q := by
  by_cases same : kind = (r.entry t).kind
  · subst same
    rw [link_list_self r apart, Queues.filter_insertBefore out]
  · simp [link, same]

theorem Consistent.link (consistent : Consistent traits r) (valid : (r.entry t).isValid = true) (apart : r.Apart t) :
    Consistent traits (r.link t) := by
  refine ⟨consistent.entry, fun kind p mem => ?_, fun kind => ?_, fun kind => ?_⟩
  · rcases (mem_link apart).mp mem with old | ⟨rfl, rfl⟩
    · exact consistent.listed kind p old
    · exact ⟨rfl, of_decide_eq_true (Bool.and_eq_true_iff.mp valid).2⟩
  · by_cases same : kind = (r.entry t).kind
    · subst same
      rw [link_list_self r apart]
      refine Queues.pairwise_insertBefore (consistent.ids _) ?_ ?_ ?_
      · intro p mem notAfter
        have differ : (r.entry p).id.value ≠ (r.entry t).id.value := fun same =>
          (apart p mem).1 (congrArg DataTypeID.mk same)
        exact UInt32.lt_of_le_of_ne (UInt32.not_lt.mp (of_decide_eq_false notAfter)) differ
      · exact fun p _ after => of_decide_eq_true after
      · exact fun p q after less => decide_eq_true (UInt32.lt_trans (of_decide_eq_true after) less)
    · simpa [GlobalDataTypeRegistry.link, same] using consistent.ids kind
  · by_cases same : kind = (r.entry t).kind
    · subst same
      rw [link_list_self r apart, Queues.perm_insertBefore.pairwise_iff fun differ => differ.symm]
      exact pairwise_cons.mpr ⟨fun p mem => (apart p mem).2.symm, consistent.names _⟩
    · simpa [GlobalDataTypeRegistry.link, same] using consistent.names kind

end Link

theorem Consistent.register (consistent : Consistent traits r) (t : τ) (id : DataTypeID) :
    Consistent traits (r.registerDataType traits t id).2 := by
  cases frozen : r.isFrozen with
  | true => simpa [registerDataType, frozen] using consistent
  | false =>
    rw [consistent.register_eq t id frozen]
    rcases registImpl_cases (GlobalDataTypeRegistry.prepare traits r t id) t with ⟨-, same⟩ | ⟨linked, valid, apart⟩
    · rw [same]
      exact consistent.prepare t id
    · rw [linked]
      exact (consistent.prepare t id).link valid apart

theorem Run.consistent {r' : GlobalDataTypeRegistry τ} (run : Run traits r r') (consistent : Consistent traits r) :
    Consistent traits r' := by
  induction run with
  | refl => exact consistent
  | register t id _ ih => exact ih.register t id
  | freeze _ ih => exact ⟨ih.entry, ih.listed, ih.ids, ih.names⟩

theorem Run.eq_of_frozen {r' : GlobalDataTypeRegistry τ} (run : Run traits r r') (frozen : r.isFrozen = true) :
    r' = r := by
  induction run with
  | refl => rfl
  | register t id _ ih => simp [ih, registerDataType, frozen]
  | freeze _ ih => rw [ih, GlobalDataTypeRegistry.freeze, ← frozen]

/-! ## Accepted and rejected registrations -/

/-- The entries that are listed are those of before. -/
theorem Consistent.prepare_entry (consistent : Consistent traits r) {t p : τ} {id : DataTypeID}
    (mem : p ∈ (GlobalDataTypeRegistry.prepare traits r t id).list kind) :
    (GlobalDataTypeRegistry.prepare traits r t id).entry p = r.entry p := by
  rw [consistent.prepare_list, mem_filter, decide_eq_true_eq] at mem
  refine entry_fill_of_ne (fun itself => mem.2 ?_) ..
  subst itself
  exact consistent.of_listed mem.1

/-- The entries with other names than that of `t`. -/
def others (r : GlobalDataTypeRegistry τ) (name : FullName) (kind : DataTypeKind) : List DataTypeDescriptor :=
  ((r.list kind).filter fun p => (r.entry p).fullName ≠ name).map r.entry

theorem Consistent.others_prepare (consistent : Consistent traits r) (t : τ) (id : DataTypeID) (kind : DataTypeKind) :
    (GlobalDataTypeRegistry.prepare traits r t id).others (traits t).fullName kind =
      r.others (traits t).fullName kind := by
  have same : ((GlobalDataTypeRegistry.prepare traits r t id).list kind).filter (fun p =>
      ((GlobalDataTypeRegistry.prepare traits r t id).entry p).fullName ≠ (traits t).fullName) =
      (r.list kind).filter fun p => (r.entry p).fullName ≠ (traits t).fullName := by
    rw [filter_congr fun p mem => by rw [consistent.prepare_entry mem], consistent.prepare_list, filter_filter]
    refine filter_congr fun p _ => ?_
    by_cases named : (r.entry p).fullName = (traits t).fullName <;> simp [named]
  unfold others
  rw [same]
  refine map_congr_left fun p mem => ?_
  obtain ⟨listed, named⟩ := mem_filter.mp mem
  have kept : p ∈ (GlobalDataTypeRegistry.prepare traits r t id).list kind := by
    rw [consistent.prepare_list, mem_filter]
    exact ⟨listed, decide_eq_true fun both => of_decide_eq_true named both.2⟩
  exact consistent.prepare_entry kept

/-- In every run the IDs of each list increase and its names differ.  A data type that is registered is found by its
name and by its ID, with its own descriptor, and the entries with other names stay.  A frozen registry does not
change. -/
theorem registry_consistent (run : Run traits init r) :
    (∀ kind, ((r.list kind).Pairwise fun a b => (r.entry a).id.value < (r.entry b).id.value) ∧
        (r.list kind).Pairwise fun a b => (r.entry a).fullName ≠ (r.entry b).fullName) ∧
      (∀ t id r', r.registerDataType traits t id = (.ok, r') →
        r'.findByName (traits t).kind (traits t).fullName = some ((traits t).describe id) ∧
          r'.findByID (traits t).kind id = some ((traits t).describe id) ∧
          ∀ kind, r'.others (traits t).fullName kind = r.others (traits t).fullName kind) ∧
      (r.isFrozen = true → ∀ r', Run traits r r' → r' = r) := by
  have consistent := run.consistent consistent_init
  refine ⟨fun kind => ⟨consistent.ids kind, consistent.names kind⟩, ?_,
    fun frozen r' later => later.eq_of_frozen frozen⟩
  intro t id r' accepted
  have unfrozen : r.isFrozen = false := by
    by_contra frozen
    rw [registerDataType, if_pos (Bool.not_eq_false _ |>.mp frozen)] at accepted
    cases accepted
  rw [consistent.register_eq t id unfrozen] at accepted
  rcases registImpl_cases (prepare traits r t id) t with ⟨rejected, -⟩ | ⟨linked, valid, apart⟩
  · exact absurd (congrArg Prod.fst accepted) rejected
  obtain rfl : (prepare traits r t id).link t = r' := congrArg Prod.snd (linked.symm.trans accepted)
  have final := (consistent.prepare t id).link valid apart
  have filled : (prepare traits r t id).entry t = (traits t).describe id := entry_fill ..
  have listed : t ∈ ((prepare traits r t id).link t).list (traits t).kind :=
    (mem_link apart).mpr (.inr ⟨by rw [filled]; rfl, rfl⟩)
  have byName := final.findByName_listed listed
  have byID := final.findByID_listed listed
  rw [show ((prepare traits r t id).link t).entry t = (traits t).describe id from filled] at byName byID
  refine ⟨byName, byID, fun kind => ?_⟩
  rw [← consistent.others_prepare t id kind, others, filter_link apart kind]
  · rfl
  · simp [GlobalDataTypeRegistry.link, filled, DataTypeTraits.describe]

/-- A registered kind, ID and name. -/
def Registered (r : GlobalDataTypeRegistry τ) (kind : DataTypeKind) (id : DataTypeID) (name : FullName) : Prop :=
  ∃ p ∈ r.list kind, (r.entry p).id = id ∧ (r.entry p).fullName = name

/-- A rejected registration changes nothing exactly if the registry is frozen or had no entry of the kind and the name:
otherwise the old entry is removed before the new one is checked. -/
theorem rejected_unchanged_iff (run : Run traits init r) (t : τ) (id : DataTypeID)
    (rejected : (r.registerDataType traits t id).1 ≠ .ok) :
    (∀ kind id' name, Registered (r.registerDataType traits t id).2 kind id' name ↔ Registered r kind id' name) ↔
      r.isFrozen = true ∨ ∀ p ∈ r.list (traits t).kind, (r.entry p).fullName ≠ (traits t).fullName := by
  have consistent := run.consistent consistent_init
  cases frozen : r.isFrozen with
  | true => simp [registerDataType, frozen]
  | false =>
    rw [consistent.register_eq t id frozen] at rejected ⊢
    rcases registImpl_cases (prepare traits r t id) t with ⟨-, same⟩ | ⟨linked, -, -⟩
    · rw [same, or_iff_right (by decide)]
      have kept : ∀ kind id' name, Registered (prepare traits r t id) kind id' name ↔
          Registered r kind id' name ∧ ¬(kind = (traits t).kind ∧ name = (traits t).fullName) := by
        intro kind id' name
        constructor
        · rintro ⟨p, mem, rfl, rfl⟩
          rw [consistent.prepare_entry mem]
          rw [consistent.prepare_list, mem_filter, decide_eq_true_eq] at mem
          exact ⟨⟨p, mem.1, rfl, rfl⟩, mem.2⟩
        · rintro ⟨⟨p, mem, rfl, rfl⟩, other⟩
          have listed : p ∈ (prepare traits r t id).list kind := by
            rw [consistent.prepare_list, mem_filter, decide_eq_true_eq]
            exact ⟨mem, other⟩
          exact ⟨p, listed, by rw [consistent.prepare_entry listed], by rw [consistent.prepare_entry listed]⟩
      constructor
      · intro unchanged p mem named
        exact ((kept _ _ _).mp ((unchanged _ _ _).mpr ⟨p, mem, rfl, rfl⟩)).2 ⟨rfl, named⟩
      · intro absent kind id' name
        rw [kept]
        refine and_iff_left_of_imp ?_
        rintro ⟨p, mem, rfl, rfl⟩ ⟨rfl, named⟩
        exact absent p mem named
    · exact absurd (congrArg Prod.fst linked) rejected

/-! ## Two message types -/

def sampleName (t : Bool) : FullName := if t then ⟨[97], by decide, by decide⟩ else ⟨[98], by decide, by decide⟩

def sampleTraits (t : Bool) : DataTypeTraits := ⟨.message, 0, sampleName t⟩

/-- One of them is registered, then the other. -/
def sampleOne : GlobalDataTypeRegistry Bool := (init.registerDataType sampleTraits true ⟨1⟩).2

def sampleTwo : GlobalDataTypeRegistry Bool := (sampleOne.registerDataType sampleTraits false ⟨2⟩).2

theorem sampleTwo_run : Run sampleTraits init sampleTwo := .register false ⟨2⟩ (.register true ⟨1⟩ .refl)

theorem registry_consistent_sample :
    (sampleTwo.list .message).Pairwise fun a b => (sampleTwo.entry a).id.value < (sampleTwo.entry b).id.value :=
  ((registry_consistent sampleTwo_run).1 .message).1

instance (r : GlobalDataTypeRegistry Bool) (kind : DataTypeKind) (id : DataTypeID) (name : FullName) :
    Decidable (Registered r kind id name) := inferInstanceAs (Decidable (∃ p ∈ r.list kind, _))

theorem rejected_unchanged_sample : (sampleOne.registerDataType sampleTraits false ⟨1⟩).1 ≠ .ok ∧ ∀ kind id name,
    Registered (sampleOne.registerDataType sampleTraits false ⟨1⟩).2 kind id name ↔ Registered sampleOne kind id name :=
  ⟨by decide, (rejected_unchanged_iff (.register true ⟨1⟩ .refl) false ⟨1⟩ (by decide)).mpr (.inr (by decide))⟩

theorem registration_lost :
    Run sampleTraits init sampleTwo ∧ Registered sampleTwo .message ⟨1⟩ (sampleName true) ∧
      (sampleTwo.registerDataType sampleTraits true ⟨2⟩).1 = .collision ∧
      ¬Registered (sampleTwo.registerDataType sampleTraits true ⟨2⟩).2 .message ⟨1⟩ (sampleName true) :=
  ⟨sampleTwo_run, by decide, by decide, by decide⟩

end GlobalDataTypeRegistry

end Uavcan
