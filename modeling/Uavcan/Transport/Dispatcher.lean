import Uavcan.Queues.Insertion
import Uavcan.Transport.Frame

/-!
# The dispatcher

The dispatcher gives every frame that is received to the listeners of its data type.  They are registered in three
lists, for messages, service requests and service responses, each of them sorted by data type.
-/

namespace Uavcan

open List

/-- A registered listener; `node` tells the list nodes apart. -/
structure Listener where
  dataTypeId : DataTypeID
  node : ℕ
  deriving DecidableEq

/-- `Dispatcher::ListenerRegistry` -/
structure ListenerRegistry where
  list : List Listener
  deriving DecidableEq

namespace ListenerRegistry

inductive Mode
  | uniqueListener
  | manyListeners
  deriving DecidableEq

variable (r : ListenerRegistry)

def remove (listener : Listener) : ListenerRegistry := ⟨r.list.eraseP fun p => p.node = listener.node⟩

/-- Whether there is a listener of a data type. -/
def exists_ (dtid : DataTypeID) : Bool := r.list.any fun p => p.dataTypeId = dtid

def add (listener : Listener) (mode : Mode) : Bool × ListenerRegistry :=
  if mode = .uniqueListener && r.exists_ listener.dataTypeId then (false, r)
  else
    (true, ⟨Queues.insertBefore (fun p => listener.dataTypeId.value > p.dataTypeId.value) listener
      (r.remove listener).list⟩)

/-- The loop of `handleFrame`: the listeners that are given a frame of a data type. -/
def handleLoop (dtid : DataTypeID) : List Listener → List Listener
  | [] => []
  | p :: next =>
    if p.dataTypeId = dtid then p :: handleLoop dtid next
    -- listeners are ordered by data type ID
    else if p.dataTypeId.value < dtid.value then []
    else handleLoop dtid next

def handleFrame (frame : RxFrame) : List Listener := handleLoop frame.dataTypeId r.list

/-- `getNextListNode` of a listener of the list. -/
def nextListNode (p : Listener) : Option Listener := (r.list.dropWhile fun q => q.node ≠ p.node).tail.head?

/-- `handleFrame` on the list nodes, from the node `p` on, with the listeners that are called. A listener that is
called may remove itself from the registry. -/
def traverse (removesItself : Listener → Bool) (dtid : DataTypeID) :
    ℕ → Option Listener → ListenerRegistry → Option (List Listener × ListenerRegistry)
  | _, none, r => some ([], r)
  | 0, some _, _ => none
  | fuel + 1, some p, r =>
    let next := r.nextListNode p
    if p.dataTypeId = dtid then
      (traverse removesItself dtid fuel next (if removesItself p then r.remove p else r)).map (Prod.map (p :: ·) id)
    else if p.dataTypeId.value < dtid.value then some ([], r)
    else traverse removesItself dtid fuel next r

/-- The greatest data type ID comes first. -/
def Sorted : Prop := r.list.Pairwise fun p q => p.dataTypeId.value.toNat ≥ q.dataTypeId.value.toNat

variable {r}

theorem Sorted.remove (sorted : r.Sorted) (listener : Listener) : (r.remove listener).Sorted :=
  List.Pairwise.sublist eraseP_sublist sorted

theorem Sorted.add (sorted : r.Sorted) (listener : Listener) (mode : Mode) : (r.add listener mode).2.Sorted := by
  unfold ListenerRegistry.add
  split
  · exact sorted
  · refine Queues.pairwise_insertBefore (sorted.remove listener) ?_ ?_ ?_
    · simp [UInt32.lt_iff_toNat_lt]
    · intro p _ after
      exact (UInt32.lt_iff_toNat_lt.mp (of_decide_eq_true after)).le
    · intro p q after le
      rw [decide_eq_true_eq, gt_iff_lt, UInt32.lt_iff_toNat_lt] at after ⊢
      omega

/-- In a sorted list, all listeners of the data type are given the frame, and no others. -/
theorem Sorted.handleFrame_eq (sorted : r.Sorted) (frame : RxFrame) :
    r.handleFrame frame = r.list.filter fun p => p.dataTypeId = frame.dataTypeId := by
  unfold handleFrame
  obtain ⟨l⟩ := r
  induction l with
  | nil => rfl
  | cons p next ih =>
    obtain ⟨greatest, rest⟩ := pairwise_cons.mp sorted
    unfold handleLoop
    split
    case isTrue same => rw [filter_cons_of_pos (by simpa using same), ih rest]
    case isFalse other =>
      rw [filter_cons_of_neg (by simpa using other)]
      split
      case isTrue less =>
        -- all that follow are less, too
        symm
        rw [filter_eq_nil_iff]
        intro q member same
        have order := greatest q member
        rw [UInt32.lt_iff_toNat_lt] at less
        rw [of_decide_eq_true same] at order
        omega
      case isFalse => exact ih rest

theorem mem_handleFrame {frame : RxFrame} {p : Listener} (given : p ∈ r.handleFrame frame) :
    p ∈ r.list ∧ p.dataTypeId = frame.dataTypeId := by
  unfold handleFrame at given
  generalize r.list = l at given ⊢
  induction l with
  | nil => cases given
  | cons q next ih =>
    unfold handleLoop at given
    split at given
    case isTrue same =>
      rcases mem_cons.mp given with rfl | later
      · exact ⟨mem_cons_self, same⟩
      · exact ⟨mem_cons_of_mem _ (ih later).1, (ih later).2⟩
    case isFalse =>
      split at given
      · cases given
      · exact ⟨mem_cons_of_mem _ (ih given).1, (ih given).2⟩

/-- No list node is in the list twice. -/
def Distinct (r : ListenerRegistry) : Prop := (r.list.map Listener.node).Nodup

theorem Distinct.mem_remove (distinct : r.Distinct) {p q : Listener} :
    q ∈ (r.remove p).list ↔ q ∈ r.list ∧ q.node ≠ p.node := by
  rw [remove, Queues.eraseP_eq_filter distinct, mem_filter, decide_eq_true_eq]

theorem Distinct.remove (distinct : r.Distinct) (p : Listener) : (r.remove p).Distinct :=
  List.Nodup.sublist (eraseP_sublist.map _) distinct

theorem Distinct.add (distinct : r.Distinct) (p : Listener) (mode : Mode) : (r.add p mode).2.Distinct := by
  unfold ListenerRegistry.add
  split
  · exact distinct
  · refine (Queues.perm_insertBefore.map Listener.node).nodup_iff.mpr (nodup_cons.mpr ⟨?_, distinct.remove p⟩)
    intro mem
    obtain ⟨q, registered, same⟩ := mem_map.mp mem
    exact (distinct.mem_remove.mp registered).2 same

theorem Distinct.nextListNode_eq (distinct : r.Distinct) {before next : List Listener} {p : Listener}
    (split : r.list = before ++ p :: next) : r.nextListNode p = next.head? := by
  rw [Distinct, split, map_append, nodup_append] at distinct
  rw [nextListNode, split, dropWhile_append_of_pos]
  · rw [dropWhile_cons_of_neg (by simp), tail_cons]
  · intro q mem
    exact decide_eq_true (distinct.2.2 _ (mem_map_of_mem mem) _ mem_cons_self)

/-- The traversal calls what `handleFrame` calls: the next node is read before the call, and it stays in the list.
`before` is what the traversal has passed. -/
theorem Distinct.traverse_eq (removesItself : Listener → Bool) (dtid : DataTypeID) {fuel : ℕ}
    {before rest : List Listener} (distinct : r.Distinct) (split : r.list = before ++ rest)
    (enough : rest.length ≤ fuel) :
    ∃ r', traverse removesItself dtid fuel rest.head? r = some (handleLoop dtid rest, r') ∧
      ∀ q, q ∈ r'.list ↔ q ∈ r.list ∧ ¬(q ∈ handleLoop dtid rest ∧ removesItself q) := by
  induction rest generalizing r before fuel with
  | nil => exact ⟨r, by rw [head?_nil, traverse, handleLoop], by simp [handleLoop]⟩
  | cons p next ih =>
    obtain ⟨fuel, rfl⟩ := Nat.exists_eq_add_one_of_ne_zero (Nat.ne_zero_of_lt enough)
    replace enough := Nat.le_of_succ_le_succ enough
    have passed : r.list = (before ++ [p]) ++ next := by rw [split, append_assoc, singleton_append]
    rw [head?_cons, traverse, distinct.nextListNode_eq split, handleLoop]
    split_ifs with same removes less
    · have removed : (r.remove p).list = before ++ next := by
        have others := distinct
        rw [Distinct, split, map_append, nodup_append] at others
        rw [ListenerRegistry.remove, split, eraseP_append_right, eraseP_cons_of_pos (by simp)]
        intro q mem
        simpa using others.2.2 _ (mem_map_of_mem mem) _ mem_cons_self
      obtain ⟨r', traversed, kept⟩ := ih (distinct.remove p) removed enough
      refine ⟨r', by rw [traversed]; rfl, fun q => ?_⟩
      rw [kept, distinct.mem_remove]
      have one : q ∈ r.list → q.node = p.node → q = p := fun mem same =>
        inj_on_of_nodup_map distinct mem (by simp [split]) same
      rcases eq_or_ne q p with rfl | other
      · simp [removes]
      · grind
    · obtain ⟨r', traversed, kept⟩ := ih distinct passed enough
      refine ⟨r', by rw [traversed]; rfl, fun q => ?_⟩
      rw [kept]
      rcases eq_or_ne q p with rfl | other
      · simp [removes]
      · simp [other]
    · exact ⟨r, rfl, by simp⟩
    · exact ih distinct passed enough

end ListenerRegistry

/-- Runs of a registry. -/
inductive RegistryRun : ListenerRegistry → Prop
  | empty : RegistryRun ⟨[]⟩
  | add {r : ListenerRegistry} (listener : Listener) (mode : ListenerRegistry.Mode) : RegistryRun r →
    RegistryRun (r.add listener mode).2
  | remove {r : ListenerRegistry} (listener : Listener) : RegistryRun r → RegistryRun (r.remove listener)

theorem RegistryRun.sorted {r : ListenerRegistry} (run : RegistryRun r) : r.Sorted := by
  induction run with
  | empty => exact .nil
  | add listener mode _ ih => exact ih.add listener mode
  | remove listener _ ih => exact ih.remove listener

theorem RegistryRun.distinct {r : ListenerRegistry} (run : RegistryRun r) : r.Distinct := by
  induction run with
  | empty => exact .nil
  | add listener mode _ ih => exact ih.add listener mode
  | remove listener _ ih => exact ih.remove listener

/-- In every run the list is sorted, and the traversal calls every registered listener of the data type exactly once
and no other, whichever of them remove themselves meanwhile; it removes nothing else. -/
theorem RegistryRun.called_once {r : ListenerRegistry} (run : RegistryRun r) :
    r.Sorted ∧ ∀ (frame : RxFrame) (removesItself : Listener → Bool),
      ∃ called r', ListenerRegistry.traverse removesItself frame.dataTypeId r.list.length r.list.head? r =
        some (called, r') ∧
        (∀ p, called.count p = if p ∈ r.list ∧ p.dataTypeId = frame.dataTypeId then 1 else 0) ∧
        ∀ p, p ∈ r'.list ↔ p ∈ r.list ∧ ¬(p.dataTypeId = frame.dataTypeId ∧ removesItself p) := by
  refine ⟨run.sorted, fun frame removesItself => ?_⟩
  obtain ⟨r', traversed, kept⟩ :=
    run.distinct.traverse_eq removesItself frame.dataTypeId (nil_append r.list).symm (Nat.le_refl _)
  have called := run.sorted.handleFrame_eq frame
  rw [ListenerRegistry.handleFrame] at called
  rw [called] at traversed kept
  have once : (r.list.filter fun p => p.dataTypeId = frame.dataTypeId).Nodup :=
    (List.Nodup.of_map _ run.distinct).filter _
  refine ⟨_, r', traversed, fun p => ?_, fun p => ?_⟩
  · rw [once.count]
    simp only [mem_filter, decide_eq_true_eq]
  · grind

/-- Two listeners of one data type around one of another. -/
def ListenerRegistry.sample : ListenerRegistry :=
  let r := (((ListenerRegistry.mk []).add ⟨⟨7⟩, 1⟩ .manyListeners).2.add ⟨⟨9⟩, 2⟩ .uniqueListener).2
  (r.add ⟨⟨7⟩, 3⟩ .manyListeners).2

/-- A frame for the first and the third of them; the first one removes itself when it is called. -/
theorem RegistryRun.called_once_sample :
    ListenerRegistry.sample.Sorted ∧ ∃ called r', ListenerRegistry.traverse (fun p => p.node = 1) ⟨7⟩ 3
        ListenerRegistry.sample.list.head? ListenerRegistry.sample = some (called, r') ∧
      (called.count ⟨⟨7⟩, 1⟩ = 1 ∧ called.count ⟨⟨9⟩, 2⟩ = 0 ∧ called.count ⟨⟨7⟩, 3⟩ = 1) ∧
      ⟨⟨7⟩, 1⟩ ∉ r'.list ∧ ⟨⟨7⟩, 3⟩ ∈ r'.list := by
  obtain ⟨sorted, once⟩ := RegistryRun.called_once (r := ListenerRegistry.sample)
    (.add _ _ (.add _ _ (.add _ _ .empty)))
  let frame : Frame := ⟨[], ⟨16⟩, .messageBroadcast, ⟨7⟩, ⟨1⟩, ⟨0⟩, ⟨0⟩, true, true, false⟩
  obtain ⟨called, r', traversed, count, kept⟩ := once ⟨frame, 1, 0, 0⟩ fun p => p.node = 1
  exact ⟨sorted, called, r', traversed, ⟨count _, count _, count _⟩, (kept _).not.mpr (by decide),
    (kept _).mpr (by decide)⟩

structure Dispatcher where
  nodeId : NodeID
  lmsg : ListenerRegistry
  lsrvReq : ListenerRegistry
  lsrvResp : ListenerRegistry
  deriving DecidableEq

namespace Dispatcher

/-- The frame and the listeners that are given it, if it is a valid frame for this node. -/
def handleFrame (d : Dispatcher) (can : CanRxFrame) : Option (RxFrame × List Listener) :=
  match RxFrame.parse can with
  | none => none
  | some frame =>
    if frame.dstNodeId ≠ .broadcast && frame.dstNodeId ≠ d.nodeId then none
    else
      match frame.transferType with
      | .messageBroadcast => some (frame, d.lmsg.handleFrame frame)
      | .serviceRequest => some (frame, d.lsrvReq.handleFrame frame)
      | .serviceResponse => some (frame, d.lsrvResp.handleFrame frame)
      | .numTransferTypes => none

/-- A message that is given to a listener was parsed, and the listener is registered for its data type. -/
theorem of_handleFrame_message (d : Dispatcher) {can : CanRxFrame} {f : RxFrame} {given : List Listener} {p : Listener}
    (handled : d.handleFrame can = some (f, given)) (message : f.transferType = .messageBroadcast)
    (member : p ∈ given) :
    Frame.parse can.toCanFrame = some f.toFrame ∧ p ∈ d.lmsg.list ∧ p.dataTypeId = f.dataTypeId := by
  unfold handleFrame at handled
  split at handled
  · cases handled
  case h_2 frame parsed =>
    have same : frame = f ∧ d.lmsg.handleFrame frame = given := by
      split at handled
      · cases handled
      · split at handled
        case h_1 => simpa using handled
        case h_2 type =>
          cases handled
          cases type.symm.trans message
        case h_3 type =>
          cases handled
          cases type.symm.trans message
        case h_4 => cases handled
    obtain ⟨rfl, rfl⟩ := same
    exact ⟨RxFrame.parse_toFrame parsed, ListenerRegistry.mem_handleFrame member⟩

end Dispatcher

end Uavcan
