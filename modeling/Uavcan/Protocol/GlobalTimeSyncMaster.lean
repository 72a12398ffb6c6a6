import Uavcan.Machines.Guarded
import Uavcan.Protocol.GlobalTimeSyncSlave
import Uavcan.Transport.CanIOManager
import Uavcan.Transport.OutgoingTransferRegistry

/-!
# The master of the time synchronization

A master publishes a message on every interface and puts the time of transmission of the one before into it,
which it gets from the loopback of that frame. The two are joined only by one stored time for each interface.
The record of a run has each message with the number of its publication and the time at which it leaves the
node; its loopback may come later than the next publication.
-/

namespace Uavcan

open OutgoingTransferRegistry Function Option List

namespace GlobalTimeSyncMaster

/-- The part of the master that belongs to one interface. -/
structure IfaceMaster where
  ifacePrevPubMono : ℕ
  prevTxUtc : ℕ

def IfaceMaster.construct : IfaceMaster := ⟨0, 0⟩

def IfaceMaster.setTxTimestamp (im : IfaceMaster) (ts : ℕ) : IfaceMaster :=
  if ts = 0 then im
  else if im.prevTxUtc ≠ 0 then { im with prevTxUtc := 0 }
  else { im with prevTxUtc := ts }

/-- The field `previous_transmission_timestamp_usec` of the message that is broadcast then. -/
def IfaceMaster.publish (c : GlobalTimeSync) (im : IfaceMaster) (currentTime : ℕ) : ℕ × IfaceMaster :=
  let sincePrevPub := timeDiff currentTime im.ifacePrevPubMono
  let longPeriod : Bool := toMSec sincePrevPub ≥ c.maxBroadcastingPeriodMs
  (if longPeriod then 0 else im.prevTxUtc, ⟨currentTime, 0⟩)

/-- The fields of a frame that the master looks at. -/
structure LoopbackFrame where
  ifaceIndex : ℕ
  dataTypeId : DataTypeID
  transferType : TransferType
  startOfTransfer : Bool
  endOfTransfer : Bool
  srcNodeId : NodeID
  tsUtc : ℕ

end GlobalTimeSyncMaster

open GlobalTimeSyncMaster in
structure GlobalTimeSyncMaster where
  ifaceMasters : ℕ → IfaceMaster
  prevPubMono : ℕ
  initialized : Bool

namespace GlobalTimeSyncMaster

/-- The node of the master: its node ID, its interfaces, and the data type ID of the messages. -/
structure Node where
  nodeId : NodeID
  numIfaces : ℕ
  numIfaces_le : numIfaces ≤ CanIOManager.maxCanIfaces
  dtid : DataTypeID

def construct : GlobalTimeSyncMaster := ⟨fun _ => .construct, 0, false⟩

def LoopbackFrame.isSync (frame : LoopbackFrame) (node : Node) : Bool :=
  frame.dataTypeId = node.dtid && frame.transferType = .messageBroadcast && frame.startOfTransfer &&
    frame.endOfTransfer && frame.srcNodeId = node.nodeId

def handleLoopbackFrame (node : Node) (m : GlobalTimeSyncMaster) (frame : LoopbackFrame) : GlobalTimeSyncMaster :=
  if m.initialized ∧ frame.ifaceIndex < CanIOManager.maxCanIfaces then
    if frame.isSync node then
      { m with
        ifaceMasters := Function.update m.ifaceMasters frame.ifaceIndex
          ((m.ifaceMasters frame.ifaceIndex).setTxTimestamp frame.tsUtc) }
    else m
  else m

/-- A message that was broadcast on an interface.  `serial` counts the publications, and `txUtc` is the time at which
the frame leaves the node. -/
structure Published where
  ifaceIndex : ℕ
  tid : TransferID
  previous : ℕ
  serial : ℕ
  txUtc : ℕ
  deriving DecidableEq

/-- The frame of a message as it comes back. -/
def Published.frame (message : Published) (node : Node) : LoopbackFrame :=
  ⟨message.ifaceIndex, node.dtid, .messageBroadcast, true, true, node.nodeId, message.txUtc⟩

/-- The answers that one call of `publish` gets: the result of `init`, two readings of the clock, whether there is
memory for an entry of the registry, the results of the broadcasts, and the times at which the frames will be sent. -/
structure Answers where
  init : Option Err
  currentTime : ℕ
  otrTime : ℕ
  mem : Bool
  broadcast : ℕ → Option Err
  txUtc : ℕ → ℕ

/-- The loop over the interfaces; it ends with the first broadcast that fails. -/
def publishLoop (c : GlobalTimeSync) (answers : Answers) (tid : TransferID) (serial : ℕ) :
    List ℕ → (ℕ → IfaceMaster) → List Published → Option Err × (ℕ → IfaceMaster) × List Published
  | [], ims, published => (none, ims, published)
  | i :: rest, ims, published =>
    let (previous, im) := (ims i).publish c answers.currentTime
    let ims := Function.update ims i im
    match answers.broadcast i with
    | some err => (some err, ims, published)
    | none => publishLoop c answers tid serial rest ims (⟨i, tid, previous, serial, answers.txUtc i⟩ :: published)

/-- The master in its node: the registry with the transfer IDs, the clock, the number of publications that got a
transfer ID, the messages, newest first, and for each interface the first publication that may still come back. -/
structure System where
  master : GlobalTimeSyncMaster
  registry : OutgoingTransferRegistry
  now : ℕ
  serials : ℕ
  published : List Published
  awaited : ℕ → ℕ

def Node.key (node : Node) : OutgoingTransferRegistryKey := ⟨node.dtid, .messageBroadcast, .broadcast⟩

variable (c : GlobalTimeSync)

def getNextTransferID (node : Node) (registry : OutgoingTransferRegistry) (answers : Answers) :
    Option TransferID × OutgoingTransferRegistry :=
  let otrDeadline := timeAdd answers.otrTime (c.maxBroadcastingPeriodMs * 1000)
  match registry.accessOrCreate node.key answers.mem otrDeadline with
  | (none, registry) => (none, registry)
  | (some tid, registry) => (some tid, registry.incrementTid node.key)

def publish (node : Node) (s : System) (answers : Answers) : Option Err × System :=
  let init := if s.master.initialized then none else answers.init
  match init with
  | some err => (some err, s)
  | none =>
    let s := { s with master := { s.master with initialized := true } }
    let sincePrevPub := timeDiff answers.currentTime s.master.prevPubMono
    if toMSec sincePrevPub < c.minBroadcastingPeriodMs then
      (none, s)
    else
      let s := { s with master := { s.master with prevPubMono := answers.currentTime } }
      match getNextTransferID c node s.registry answers with
      | (none, registry) => (some .memory, { s with registry := registry })
      | (some tid, registry) =>
        let (res, ims, published) :=
          publishLoop c answers tid s.serials (range node.numIfaces) s.master.ifaceMasters s.published
        (res,
          { s with
            master := { s.master with ifaceMasters := ims }
            registry := registry
            serials := s.serials + 1
            published := published })

/-- What can happen: a call of `publish`, the loopback of a message, the loopback of another frame, and a pass of the
node over the registry. -/
inductive Action
  | publish (answers : Answers)
  | loopback (message : Published)
  | otherFrame (frame : LoopbackFrame)
  | cleanup (ts : ℕ)

/-- The clock does not go back, and its readings fit into a duration.  A frame comes back once at most, and the frames
of an interface in the order in which they were sent. -/
def exec (node : Node) (s : System) : Action → Option System
  | .publish answers =>
    if s.now ≤ answers.currentTime ∧ answers.currentTime ≤ answers.otrTime ∧ answers.otrTime < 2 ^ 63 then
      some { (publish c node s answers).2 with now := answers.otrTime }
    else none
  | .loopback message =>
    if message ∈ s.published ∧ s.awaited message.ifaceIndex ≤ message.serial then
      some { s with
        master := s.master.handleLoopbackFrame node (message.frame node)
        awaited := Function.update s.awaited message.ifaceIndex (message.serial + 1) }
    else none
  | .otherFrame frame =>
    if frame.isSync node then none else some { s with master := s.master.handleLoopbackFrame node frame }
  | .cleanup ts =>
    if s.now ≤ ts ∧ ts < 2 ^ 63 then some { s with registry := s.registry.cleanup ts, now := ts } else none

/-- A new master in a node whose registry may have entries. -/
def System.start (registry : OutgoingTransferRegistry) : System := ⟨construct, registry, 0, 0, [], fun _ => 0⟩

/-! ## One interface -/

theorem toMSec_timeDiff {a b : ℕ} (ordered : b ≤ a) (bound : a < 2 ^ 63) :
    toMSec (timeDiff a b) = ((a - b) / 1000 : ℕ) := by
  have exact_diff : timeDiff a b = (a - b : ℕ) := by
    unfold timeDiff toInt64
    split
    · omega
    · rw [show b - a = 0 by omega, show a - b = 0 by omega]
      rfl
  rw [exact_diff]
  exact (Int.ofNat_tdiv (a - b) 1000).symm

variable {time : ℕ}

theorem IfaceMaster.publish_of_long {c : GlobalTimeSync} {im : IfaceMaster}
    (old : im.ifacePrevPubMono + c.maxBroadcastingPeriodMs * 1000 ≤ time) (bound : time < 2 ^ 63) :
    (im.publish c time).1 = 0 := by
  have long : c.maxBroadcastingPeriodMs ≤ (time - im.ifacePrevPubMono) / 1000 := by
    omega
  simp only [IfaceMaster.publish, toMSec_timeDiff (Nat.le_trans (Nat.le_add_right _ _) old) bound]
  rw [if_pos (decide_eq_true (Int.ofNat_le.mpr long))]

theorem IfaceMaster.publish_cases (im : IfaceMaster) (time : ℕ) :
    (im.publish c time).1 = 0 ∨ (im.publish c time).1 = im.prevTxUtc := by
  simp only [IfaceMaster.publish]
  split
  · exact .inl rfl
  · exact .inr rfl

theorem IfaceMaster.setTxTimestamp_cases (im : IfaceMaster) (ts : ℕ) :
    (im.setTxTimestamp ts).ifacePrevPubMono = im.ifacePrevPubMono ∧
      ((im.setTxTimestamp ts).prevTxUtc = im.prevTxUtc ∨ (im.setTxTimestamp ts).prevTxUtc = 0 ∨
        (im.setTxTimestamp ts).prevTxUtc = ts) := by
  unfold IfaceMaster.setTxTimestamp
  split
  · exact ⟨rfl, .inl rfl⟩
  · split
    · exact ⟨rfl, .inr (.inl rfl)⟩
    · exact ⟨rfl, .inr (.inr rfl)⟩

/-! ## All interfaces -/

/-- The messages that a pass over the interfaces adds, and what it leaves behind: an interface that it does not get to
stays as it is. -/
theorem publishLoop_spec (c : GlobalTimeSync) (answers : Answers) (tid : TransferID) (serial : ℕ) {ifaces : List ℕ}
    (sorted : ifaces.Pairwise (· < ·)) (ims : ℕ → IfaceMaster) (published : List Published) :
    let result := publishLoop c answers tid serial ifaces ims published
    (∀ m ∈ published, m ∈ result.2.2) ∧
      (∀ m ∈ result.2.2, m ∈ published ∨ ∃ i ∈ ifaces,
        m = ⟨i, tid, ((ims i).publish c answers.currentTime).1, serial, answers.txUtc i⟩) ∧
      ∀ j, result.2.1 j = ⟨answers.currentTime, 0⟩ ∨
        result.2.1 j = ims j ∧ (j ∈ ifaces → ∃ i ∈ ifaces, i < j ∧ answers.broadcast i ≠ none) := by
  induction ifaces generalizing ims published with
  | nil => exact ⟨fun m mem => mem, fun m mem => .inl mem, fun j => .inr ⟨rfl, nofun⟩⟩
  | cons i rest ih =>
    obtain ⟨below, sorted⟩ := pairwise_cons.mp sorted
    -- the interfaces behind `i` have not been touched yet
    have others : ∀ j, j ≠ i → update ims i ((ims i).publish c answers.currentTime).2 j = ims j :=
      fun j other => update_of_ne other _ _
    have here : update ims i ((ims i).publish c answers.currentTime).2 i = ⟨answers.currentTime, 0⟩ :=
      update_self ..
    rw [publishLoop]
    rcases sent : answers.broadcast i with _ | err
    · obtain ⟨kept, added, left⟩ := ih sorted (update ims i ((ims i).publish c answers.currentTime).2)
        (⟨i, tid, ((ims i).publish c answers.currentTime).1, serial, answers.txUtc i⟩ :: published)
      refine ⟨fun m mem => kept m (mem_cons_of_mem _ mem), fun m mem => ?_, fun j => ?_⟩
      · rcases added m mem with earlier | ⟨j, later, rfl⟩
        · rcases mem_cons.mp earlier with rfl | earlier
          · exact .inr ⟨i, mem_cons_self .., rfl⟩
          · exact .inl earlier
        · refine .inr ⟨j, mem_cons_of_mem _ later, ?_⟩
          rw [others j (below j later).ne']
      · rcases left j with done | ⟨same, skipped⟩
        · exact .inl done
        · by_cases first : j = i
          · subst first
            exact .inl (same.trans here)
          · refine .inr ⟨same.trans (others j first), fun mem => ?_⟩
            obtain ⟨k, later, lt, failed⟩ := skipped ((mem_cons.mp mem).resolve_left first)
            exact ⟨k, mem_cons_of_mem _ later, lt, failed⟩
    · refine ⟨fun m mem => mem, fun m mem => .inl mem, fun j => ?_⟩
      by_cases first : j = i
      · subst first
        exact .inl here
      · refine .inr ⟨others j first, fun mem => ⟨i, mem_cons_self .., ?_, ?_⟩⟩
        · exact below j ((mem_cons.mp mem).resolve_left first)
        · rw [sent]
          exact nofun

/-! ## The transfer IDs -/

variable {answers : Answers}

theorem getNextTransferID_cases (node : Node) (registry : OutgoingTransferRegistry)
    (bound : answers.otrTime < 2 ^ 63) :
    getNextTransferID c node registry answers = (none, registry) ∨
      ∃ registry', getNextTransferID c node registry answers = (some (registry.nextTid node.key), registry') ∧
        registry'.map node.key =
          some ⟨answers.otrTime + c.maxBroadcastingPeriodMs * 1000, (registry.nextTid node.key).increment⟩ := by
  have small := c.maxBroadcastingPeriodMs_lt
  have deadline : timeAdd answers.otrTime (c.maxBroadcastingPeriodMs * 1000) =
      answers.otrTime + c.maxBroadcastingPeriodMs * 1000 := by
    rw [timeAdd_eq_min (by omega) (by omega) (by omega)]
    omega
  unfold getNextTransferID
  dsimp only
  by_cases possible : answers.mem = true ∨ (registry.map node.key).isSome
  · right
    rw [accessOrCreate_eq possible]
    refine ⟨_, rfl, ?_⟩
    rw [incrementTid_put, map_put, deadline]
  · obtain ⟨noMem, absent⟩ := not_or.mp possible
    rw [not_isSome_iff_eq_none] at absent
    simp [accessOrCreate, absent, noMem]

/-- A call of `publish` gets no transfer ID, or it passes over the interfaces with the next one. -/
inductive PublishOutcome (c : GlobalTimeSync) (node : Node) (s : System) (answers : Answers) : System → Prop
  | unpublished {initialized : Bool} {prevPubMono : ℕ} :
      PublishOutcome c node s answers
        { s with master := ⟨s.master.ifaceMasters, prevPubMono, initialized⟩ }
  | published {registry : OutgoingTransferRegistry} {prevPubMono : ℕ} {initialized : Bool}
      (entry : registry.map node.key =
        some ⟨answers.otrTime + c.maxBroadcastingPeriodMs * 1000, (s.registry.nextTid node.key).increment⟩) :
      PublishOutcome c node s answers
        { s with
          master := ⟨(publishLoop c answers (s.registry.nextTid node.key) s.serials (range node.numIfaces)
            s.master.ifaceMasters s.published).2.1, prevPubMono, initialized⟩
          registry := registry
          serials := s.serials + 1
          published := (publishLoop c answers (s.registry.nextTid node.key) s.serials (range node.numIfaces)
            s.master.ifaceMasters s.published).2.2 }

theorem publish_outcome (node : Node) (s : System)
    (bound : answers.otrTime < 2 ^ 63) : PublishOutcome c node s answers (publish c node s answers).2 := by
  rcases starting : (if s.master.initialized then none else answers.init) with _ | err
  · simp only [publish, starting]
    split
    · exact .unpublished
    · rcases getNextTransferID_cases c node s.registry bound with failed | ⟨registry, taken, entry⟩
      · simp only [failed]
        exact .unpublished
      · simp only [taken]
        exact .published entry
  · simp only [publish, starting]
    exact .unpublished

/-! ## Messages and the times they carry -/

/-- The message carries nothing, or the time of transmission of the message with the transfer ID before its own. -/
def Published.Paired (p : Published) (published : List Published) : Prop :=
  p.previous = 0 ∨ ∃ q ∈ published, q.ifaceIndex = p.ifaceIndex ∧ q.serial + 1 = p.serial ∧
    p.tid = q.tid.increment ∧ q.txUtc = p.previous

theorem Published.Paired.mono {p : Published} {published later : List Published} (paired : p.Paired published)
    (kept : ∀ m ∈ published, m ∈ later) : p.Paired later := by
  rcases paired with zero | ⟨q, mem, rest⟩
  · exact .inl zero
  · exact .inr ⟨q, kept q mem, rest⟩

/-- The loopback of a message comes before the next publication. -/
def Prompt (s : System) : Action → Prop
  | .loopback message => message.serial + 1 = s.serials
  | _ => True

/-- A publication that a failing broadcast ends finds no stored time on the interfaces that it does not get to. -/
def NonePassedOver (node : Node) (s : System) : Action → Prop
  | .publish answers => ∀ j < node.numIfaces, (∃ i < j, answers.broadcast i ≠ none) →
      (s.master.ifaceMasters j).prevTxUtc = 0
  | _ => True

def Timely (node : Node) (s : System) (a : Action) : Prop := Prompt s a ∧ NonePassedOver node s a

instance (s : System) (a : Action) : Decidable (Prompt s a) := by
  cases a <;> unfold Prompt <;> infer_instance

instance (node : Node) (s : System) (a : Action) : Decidable (NonePassedOver node s a) := by
  cases a <;> unfold NonePassedOver <;> infer_instance

instance (node : Node) (s : System) (a : Action) : Decidable (Timely node s a) := inferInstanceAs (Decidable (_ ∧ _))

/-- When the entry of the registry expires; now, if it has. -/
def System.expiry (s : System) (node : Node) : ℕ :=
  ((s.registry.map node.key).map OutgoingTransferRegistry.Value.deadline).getD s.now

/-- What holds between the stored times, the registry and the messages as long as everything is timely. -/
structure Joined (c : GlobalTimeSync) (node : Node) (s : System) : Prop where
  bounded : s.now < 2 ^ 63
  /-- A stored time belongs to a message of the last publication. -/
  stored : ∀ i, (s.master.ifaceMasters i).prevTxUtc ≠ 0 → ∃ m ∈ s.published, m.ifaceIndex = i ∧
    m.serial + 1 = s.serials ∧ m.txUtc = (s.master.ifaceMasters i).prevTxUtc
  next : ∀ value, s.registry.map node.key = some value → ∀ m ∈ s.published, m.serial + 1 = s.serials →
    value.tid = m.tid.increment
  /-- The registry forgets the transfer ID only when the period has become too long. -/
  lasting : ∀ m ∈ s.published,
    (s.master.ifaceMasters m.ifaceIndex).ifacePrevPubMono + c.maxBroadcastingPeriodMs * 1000 ≤ s.expiry node
  past : ∀ i, (s.master.ifaceMasters i).ifacePrevPubMono ≤ s.now
  earlier : ∀ m ∈ s.published, m.serial < s.serials ∧ m.ifaceIndex < node.numIfaces
  paired : ∀ p ∈ s.published, p.Paired s.published

namespace Joined

variable {c : GlobalTimeSync} {node : Node} {s : System}

theorem start (c : GlobalTimeSync) (node : Node) (registry : OutgoingTransferRegistry) :
    Joined c node (.start registry) where
  bounded := Nat.two_pow_pos 63
  stored _ nonzero := absurd rfl nonzero
  next _ _ := nofun
  lasting := nofun
  past _ := Nat.le_refl _
  earlier := nofun
  paired := nofun

section

variable (joined : Joined c node s)

include joined

/-- Time passes, and the registry may forget an entry that has expired. -/
theorem later {registry : OutgoingTransferRegistry} (later : s.now ≤ time) (bound : time < 2 ^ 63)
    (entry : registry.map node.key = s.registry.map node.key ∨
      registry.map node.key = none ∧ s.expiry node ≤ time) :
    Joined c node { s with registry := registry, now := time } where
  bounded := bound
  stored := joined.stored
  next value present := by
    rcases entry with same | ⟨removed, -⟩
    · exact joined.next value (same.symm.trans present)
    · cases removed.symm.trans present
  lasting m mem := by
    refine Nat.le_trans (joined.lasting m mem) ?_
    rcases entry with same | ⟨removed, expired⟩
    · rcases found : s.registry.map node.key with _ | value
      · simp only [System.expiry, same, found]
        exact later
      · simp only [System.expiry, same, found]
        exact Nat.le_refl _
    · simp only [System.expiry, removed]
      exact expired
  past i := Nat.le_trans (joined.past i) later
  earlier := joined.earlier
  paired := joined.paired

theorem loopback {message : Published} (mem : message ∈ s.published)
    (last : message.serial + 1 = s.serials) (awaited : ℕ → ℕ) :
    Joined c node { s with
      master := s.master.handleLoopbackFrame node (message.frame node), awaited := awaited } := by
  unfold handleLoopbackFrame
  split
  · split
    · have effect := IfaceMaster.setTxTimestamp_cases (s.master.ifaceMasters message.ifaceIndex) message.txUtc
      have mono : ∀ i, (update s.master.ifaceMasters message.ifaceIndex
          ((s.master.ifaceMasters message.ifaceIndex).setTxTimestamp message.txUtc) i).ifacePrevPubMono =
            (s.master.ifaceMasters i).ifacePrevPubMono := by
        intro i
        by_cases same : i = message.ifaceIndex
        · rw [same, update_self]
          exact effect.1
        · rw [update_of_ne same]
      refine ⟨joined.bounded, fun i nonzero => ?_, joined.next, fun m mem => ?_, fun i => ?_, joined.earlier,
        joined.paired⟩
      · by_cases same : i = message.ifaceIndex
        · subst same
          dsimp only [Published.frame] at nonzero ⊢
          rw [update_self] at nonzero ⊢
          rcases effect.2 with unchanged | zero | set
          · rw [unchanged] at nonzero ⊢
            exact joined.stored _ nonzero
          · exact absurd zero nonzero
          · exact ⟨message, mem, rfl, last, set.symm⟩
        · dsimp only [Published.frame] at nonzero ⊢
          rw [update_of_ne same] at nonzero ⊢
          exact joined.stored i nonzero
      · exact (mono m.ifaceIndex).symm ▸ joined.lasting m mem
      · exact (mono i).symm ▸ joined.past i
    · exact { joined with }
  · exact { joined with }

theorem paired_next (later : s.now ≤ time) (bound : time < 2 ^ 63) (i txUtc : ℕ) :
    Published.Paired ⟨i, s.registry.nextTid node.key, ((s.master.ifaceMasters i).publish c time).1, s.serials, txUtc⟩
      s.published := by
  rcases IfaceMaster.publish_cases c (s.master.ifaceMasters i) time with zero | carried
  · exact .inl zero
  · by_cases empty : (s.master.ifaceMasters i).prevTxUtc = 0
    · exact .inl (carried.trans empty)
    · obtain ⟨q, mem, rfl, last, txUtc⟩ := joined.stored i empty
      rcases entry : s.registry.map node.key with _ | value
      · -- the registry has forgotten the transfer ID
        have lasting := joined.lasting q mem
        simp only [System.expiry, entry] at lasting
        exact .inl (IfaceMaster.publish_of_long (Nat.le_trans lasting later) bound)
      · refine .inr ⟨q, mem, rfl, last, ?_, txUtc.trans carried.symm⟩
        simp only [nextTid, entry]
        exact joined.next value entry q mem last

variable {s' : System}

theorem publish (later : s.now ≤ answers.currentTime)
    (ordered : answers.currentTime ≤ answers.otrTime) (bound : answers.otrTime < 2 ^ 63)
    (clear : NonePassedOver node s (.publish answers)) (outcome : PublishOutcome c node s answers s') :
    Joined c node { s' with now := answers.otrTime } := by
  cases outcome with
  | unpublished =>
    have same := joined.later (Nat.le_trans later ordered) bound (.inl rfl)
    exact { same with }
  | @published registry _ _ entry =>
    obtain ⟨kept, added, left⟩ := publishLoop_spec c answers (s.registry.nextTid node.key) s.serials
      pairwise_lt_range s.master.ifaceMasters s.published
    generalize publishLoop c answers (s.registry.nextTid node.key) s.serials (range node.numIfaces)
      s.master.ifaceMasters s.published = result at kept added left
    have mono : ∀ i, (result.2.1 i).ifacePrevPubMono ≤ answers.otrTime := by
      intro i
      rcases left i with done | ⟨same, -⟩
      · rw [done]
        exact ordered
      · rw [same]
        exact Nat.le_trans (joined.past i) (Nat.le_trans later ordered)
    refine ⟨bound, fun i nonzero => ?_, fun value present m mem last => ?_, fun m mem => ?_, mono, fun m mem => ?_,
      fun p mem => ?_⟩
    · -- an interface that was passed over had nothing stored
      exfalso
      rcases left i with done | ⟨same, skipped⟩
      · exact nonzero (congrArg IfaceMaster.prevTxUtc done)
      · have before : (s.master.ifaceMasters i).prevTxUtc ≠ 0 := same ▸ nonzero
        obtain ⟨q, mem, rfl, -⟩ := joined.stored i before
        have inRange := (joined.earlier q mem).2
        obtain ⟨k, -, lt, failed⟩ := skipped (mem_range.mpr inRange)
        exact before (clear _ inRange ⟨k, lt, failed⟩)
    · obtain rfl := some.inj (entry.symm.trans present)
      rcases added m mem with old | ⟨i, -, rfl⟩
      · exact absurd (joined.earlier m old).1 (by simp only at last; omega)
      · rfl
    · simp only [System.expiry, entry]
      exact Nat.add_le_add_right (mono m.ifaceIndex) _
    · rcases added m mem with old | ⟨i, inRange, rfl⟩
      · exact ⟨Nat.lt_succ_of_lt (joined.earlier m old).1, (joined.earlier m old).2⟩
      · exact ⟨Nat.lt_succ_self _, mem_range.mp inRange⟩
    · rcases added p mem with old | ⟨i, -, rfl⟩
      · exact (joined.paired p old).mono kept
      · exact (joined.paired_next later (Nat.lt_of_le_of_lt ordered bound) i (answers.txUtc i)).mono kept

theorem step {a : Action} (timely : Timely node s a)
    (taken : exec c node s a = some s') : Joined c node s' := by
  cases a with
  | publish answers =>
    simp only [exec, ite_none_right_eq_some, some.injEq] at taken
    obtain ⟨⟨later, ordered, bound⟩, rfl⟩ := taken
    exact joined.publish later ordered bound timely.2 (publish_outcome c node s bound)
  | loopback message =>
    simp only [exec, ite_none_right_eq_some, some.injEq] at taken
    obtain ⟨⟨mem, -⟩, rfl⟩ := taken
    exact joined.loopback mem timely.1 _
  | otherFrame frame =>
    simp only [exec, ite_none_left_eq_some, some.injEq] at taken
    obtain ⟨foreign, rfl⟩ := taken
    have same : s.master.handleLoopbackFrame node frame = s.master := by
      simp [handleLoopbackFrame, foreign]
    rw [same]
    exact joined
  | cleanup ts =>
    simp only [exec, ite_none_right_eq_some, some.injEq] at taken
    obtain ⟨⟨later, bound⟩, rfl⟩ := taken
    refine joined.later later bound ?_
    rcases entry : s.registry.map node.key with _ | old
    · exact .inl (cleanup_of_none ts entry)
    · refine (cleanup_cases ts entry).imp id fun ⟨removed, expired⟩ => ⟨removed, ?_⟩
      simp only [System.expiry, entry]
      exact expired

end

end Joined

/-- In a run where the loopback of a message comes before the next publication and no interface is passed over with a
stored time, every message carries the time of transmission of the one before it on its interface, or nothing. -/
theorem sync_messages_paired (c : GlobalTimeSync) (node : Node) (registry : OutgoingTransferRegistry) (s : System)
    (run : Machines.Reach (exec c node) (Timely node) (.start registry) s) :
    ∀ p ∈ s.published, p.previous = 0 ∨ ∃ q ∈ s.published, q.ifaceIndex = p.ifaceIndex ∧ q.serial + 1 = p.serial ∧
      p.tid = q.tid.increment ∧ q.txUtc = p.previous :=
  (run.invariant (Joined.start c node registry) fun joined timely taken => joined.step timely taken).paired

namespace Sample

def constants : GlobalTimeSync := GlobalTimeSyncSlave.Sample.constants

/-- A node with two interfaces. -/
def node : Node := ⟨⟨5⟩, 2, by decide, ⟨4⟩⟩

/-- A call of `publish` whose broadcasts succeed; the frames are sent at `tx` and `tx + 1`. -/
def call (time tx : ℕ) : Action := .publish ⟨none, time, time, true, fun _ => none, fun i => tx + i⟩

/-- A call of `publish` that cannot broadcast on the first interface. -/
def failingCall (time : ℕ) : Action := .publish ⟨none, time, time, true, fun _ => some .driver, fun _ => 0⟩

def registry : OutgoingTransferRegistry := ⟨fun _ => none⟩

/-- The loopback of the message of the publication `serial`, which carries nothing. -/
def back (iface serial : ℕ) (tid : Fin 32) (txUtc : ℕ) : Action := .loopback ⟨iface, ⟨tid⟩, 0, serial, txUtc⟩

end Sample

theorem sync_messages_paired_sample :
    ∃ (s : System) (p : Published), p ∈ s.published ∧ p.previous = 100 ∧
      ∃ q ∈ s.published, q.ifaceIndex = p.ifaceIndex ∧ q.serial + 1 = p.serial ∧ p.tid = q.tid.increment ∧
        q.txUtc = p.previous := by
  obtain ⟨s, run, p, mem, carried⟩ := Machines.Reach.exists_of_play (exec Sample.constants Sample.node)
    (Timely Sample.node) (.start Sample.registry)
    [Sample.call 1000000 100, Sample.back 0 0 0 100, Sample.back 1 0 0 101, Sample.call 1500000 200]
    (fun s => ∃ p ∈ s.published, p.previous = 100) (by decide +kernel)
  refine ⟨s, p, mem, carried, ?_⟩
  rcases sync_messages_paired Sample.constants Sample.node Sample.registry s run p mem with zero | found
  · exact absurd (zero.symm.trans carried) (by decide)
  · exact found

/-- A message with a time that no message with the transfer ID before its own has. -/
def Mispaired (published : List Published) : Prop :=
  ∃ p ∈ published, p.previous ≠ 0 ∧
    ∀ q ∈ published, q.ifaceIndex = p.ifaceIndex → p.tid = q.tid.increment → q.txUtc ≠ p.previous

instance (published : List Published) : Decidable (Mispaired published) := inferInstanceAs (Decidable (∃ _ ∈ _, _))

/-- Neither condition can be left out.  If the loopback of the first message comes after the second publication, then
the third message carries its time; and so does the third message on an interface that the second publication does not
get to. -/
theorem sync_messages_mispaired :
    (∃ s, Machines.Reach (exec Sample.constants Sample.node) (NonePassedOver Sample.node) (.start Sample.registry) s ∧
      Mispaired s.published) ∧
    ∃ s, Machines.Reach (exec Sample.constants Sample.node) Prompt (.start Sample.registry) s ∧
      Mispaired s.published := by
  constructor
  · exact Machines.Reach.exists_of_play _ _ _
      [Sample.call 1000000 100, Sample.call 1500000 200, Sample.back 0 0 0 100, Sample.call 2000000 300] _
      (by decide +kernel)
  · exact Machines.Reach.exists_of_play _ _ _
      [Sample.call 1000000 100, Sample.back 1 0 0 101, Sample.failingCall 1500000, Sample.call 2000000 300] _
      (by decide +kernel)

end GlobalTimeSyncMaster

end Uavcan
