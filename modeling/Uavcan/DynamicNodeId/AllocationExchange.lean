import Uavcan.DynamicNodeId.DynamicNodeIDClient
import Uavcan.Machines.Guarded
import Uavcan.Queues.Broadcast

/-!
# Allocation exchanges on one bus

Any number of clients and one `AllocationRequestManager` read the same sequence of messages, each at its own
pace, and the timers of the clients fire at any time.

The manager puts unique IDs together without knowing the senders. What keeps it from mixing them is that a
client goes on only after a follow-up with its own bytes. That helps only if a client that goes on has read
everything, and the manager as well (`Prompt`): a client that is slow to read sends the end of its unique ID
into the exchange of another one.
-/

namespace Uavcan

open Queues (Broadcast latest)
open List Function Option
open AllocationRequestManager (broadcastAllocationResponse)

inductive Party (ι : Type)
  | server
  | client (i : ι)
  deriving DecidableEq

/-- Clients have no node ID yet. -/
def Party.isAnonymous {ι : Type} : Party ι → Bool
  | .server => false
  | .client _ => true

/-- `requests` are the calls of `handleAllocationRequest` so far. -/
structure Exchange (ι : Type) where
  manager : AllocationRequestManager
  clients : ι → DynamicNodeIDClient
  bus : Broadcast (Party ι) AllocationMessage
  requests : List (UniqueID × NodeID)

/-- One thing that happens in an exchange.  The server responds when its allocator has decided. -/
inductive ExchangeAction (ι : Type)
  | start (i : ι) (preferredNodeId : NodeID)
  | timer (i : ι)
  | receive (i : ι)
  | serve (canPublishFollowupAllocationResponse : Bool) (timestamp : ℕ)
  | respond (uniqueId : UniqueID) (allocatedNodeId : NodeID)

namespace Exchange

variable {ι : Type} [DecidableEq ι]

def init (stageTimeout : ℕ) : Exchange ι := ⟨.construct stageTimeout, fun _ => .construct, .empty, []⟩

/-- The client after a handler and the bus after what it sent. -/
def settle (s : Exchange ι) (i : ι) (c : DynamicNodeIDClient) (bus : Broadcast (Party ι) AllocationMessage) :
    Exchange ι :=
  { s with clients := update s.clients i c, bus := bus }

def perform (s : Exchange ι) : AllocationRequestManager.Effect → Exchange ι
  | .nothing => s
  | .followup msg => { s with bus := s.bus.send .server msg }
  | .handleAllocationRequest uniqueId preferredNodeId =>
    { s with requests := s.requests ++ [(uniqueId, preferredNodeId)] }

/-- The state after an action; `none` where it cannot happen.  No party gets its own messages, and a client that
is not running gets none. -/
def exec (serverNodeID : NodeID) (uniqueId : ι → UniqueID) (s : Exchange ι) :
    ExchangeAction ι → Option (Exchange ι)
  | .start i preferredNodeId =>
    let c := s.clients i
    if c.running || c.isAllocationComplete then none
    else
      match c.start NodeID.broadcast (uniqueId i) preferredNodeId with
      | .error _ => none
      | .ok c => some (s.settle i c (s.bus.join (.client i)))
  | .timer i =>
    if (s.clients i).running then
      match (s.clients i).handleTimerEvent with
      | (c, none) => some (s.settle i c s.bus)
      | (c, some msg) => some (s.settle i c (s.bus.send (.client i) msg))
    else none
  | .receive i =>
    match s.bus.next (.client i) with
    | none => none
    | some (sender, msg) =>
      let c := s.clients i
      let bus := s.bus.advance (.client i)
      if sender = .client i || !c.running then some (s.settle i c bus)
      else some (s.settle i (c.handleAllocation serverNodeID sender.isAnonymous msg) bus)
  | .serve canPublishFollowupAllocationResponse timestamp =>
    match s.bus.next .server with
    | none => none
    | some (sender, msg) =>
      let s := { s with bus := s.bus.advance .server }
      match s.manager.handleAllocation canPublishFollowupAllocationResponse sender.isAnonymous timestamp msg with
      | (manager, effect) => some (({ s with manager := manager }).perform effect)
  | .respond uniqueId allocatedNodeId =>
    some { s with bus := s.bus.send .server (broadcastAllocationResponse uniqueId allocatedNodeId) }

/-- A client that goes on after a follow-up has read everything that was sent, and so has the server. -/
def Prompt (s : Exchange ι) : ExchangeAction ι → Prop
  | .timer i => (s.clients i).sizeOfReceivedUniqueId ≠ 0 →
    s.bus.CaughtUp (.client i) ∧ s.bus.CaughtUp .server
  | _ => True

instance (s : Exchange ι) (a : ExchangeAction ι) : Decidable (s.Prompt a) := by
  cases a <;> unfold Prompt <;> infer_instance

end Exchange

/-- The states that an exchange can reach by allowed actions. -/
def ExchangeRun {ι : Type} [DecidableEq ι] (serverNodeID : NodeID) (uniqueId : ι → UniqueID)
    (allowed : Exchange ι → ExchangeAction ι → Prop) (s : Exchange ι) : Prop :=
  ∃ stageTimeout, Machines.Reach (Exchange.exec serverNodeID uniqueId) allowed (.init stageTimeout) s

namespace Exchange

variable {ι : Type} {uniqueId : ι → UniqueID}

/-! ## The clients -/

/-- What is known of one client: where it stands is what it has read last, and the node ID it has is from a
response with its unique ID. -/
structure ClientOk (uniqueId : UniqueID) (sent : List (Party ι × AllocationMessage))
    (last : Option (Party ι × AllocationMessage)) (c : DynamicNodeIDClient) : Prop where
  id : c.running = true ∨ c.isAllocationComplete = true → c.uniqueId = uniqueId
  passive : c.running = false ∨ c.isAllocationComplete = true → c.sizeOfReceivedUniqueId = 0
  size : c.sizeOfReceivedUniqueId ≠ 0 → ∃ msg, last = some (.server, msg) ∧
    msg.uniqueId.length = c.sizeOfReceivedUniqueId ∧ c.sizeOfReceivedUniqueId ≠ 16 ∧
    msg.uniqueId = uniqueId.toList.take c.sizeOfReceivedUniqueId
  granted : c.isAllocationComplete = true → ∃ msg, (.server, msg) ∈ sent ∧
    msg.uniqueId = uniqueId.toList ∧ msg.nodeId = c.allocatedNodeId

namespace ClientOk

variable {uid : UniqueID} {sent sent' : List (Party ι × AllocationMessage)}
  {last last' : Option (Party ι × AllocationMessage)} {c : DynamicNodeIDClient}

theorem mono (ok : ClientOk uid sent last c) (more : sent ⊆ sent') (same : last' = last) :
    ClientOk uid sent' last' c := by
  refine ⟨ok.id, ok.passive, same ▸ ok.size, fun complete => ?_⟩
  obtain ⟨msg, found, rest⟩ := ok.granted complete
  exact ⟨msg, more found, rest⟩

theorem construct : ClientOk uid sent last .construct := by
  refine ⟨fun state => ?_, fun _ => rfl, fun some => absurd rfl some, fun complete => ?_⟩
  · rcases state with running | complete
    · cases running
    · cases complete
  · cases complete

section

variable (ok : ClientOk uid sent last c)

include ok

theorem start {localNodeID preferredNodeId : NodeID} {c' : DynamicNodeIDClient}
    (idle : c.running = false) (run : c.start localNodeID uid preferredNodeId = .ok c') :
    ClientOk uid sent last' c' := by
  have zero : c.sizeOfReceivedUniqueId = 0 := ok.passive (.inl idle)
  unfold DynamicNodeIDClient.start at run
  split at run
  · cases run
  split at run
  · cases run
  split at run
  · cases run
  cases run
  exact ⟨fun _ => rfl, fun _ => zero, fun some => absurd zero some, fun complete => nomatch complete⟩

theorem reset : ClientOk uid sent last' { c with sizeOfReceivedUniqueId := 0 } :=
  ⟨ok.id, fun _ => rfl, fun some => absurd rfl some, ok.granted⟩

theorem handleTimerEvent {c' : DynamicNodeIDClient}
    {msg : Option AllocationMessage} (run : c.handleTimerEvent = (c', msg)) : ClientOk uid sent last c' := by
  unfold DynamicNodeIDClient.handleTimerEvent at run
  split at run
  case isTrue complete =>
    cases run
    exact ⟨fun _ => ok.id (.inr complete), fun _ => ok.passive (.inr complete), ok.size, ok.granted⟩
  case isFalse =>
    cases run
    exact ok.reset

theorem handleAllocation (running : c.running = true) {sender : Party ι}
    {msg : AllocationMessage} (present : (sender, msg) ∈ sent) (serverNodeID : NodeID) :
    ClientOk uid sent (some (sender, msg)) (c.handleAllocation serverNodeID sender.isAnonymous msg) := by
  have id := ok.id (.inl running)
  have fromServer : sender.isAnonymous = false → sender = .server := by
    intro named
    cases sender with
    | server => rfl
    | client i => cases named
  have handled := c.handleAllocation_cases serverNodeID sender.isAnonymous msg
  generalize c.handleAllocation serverNodeID sender.isAnonymous msg = c' at handled ⊢
  cases handled with
  | terminated complete =>
    have zero := ok.passive (.inr complete)
    exact ⟨fun _ => id, fun _ => zero, fun some => absurd zero some, ok.granted⟩
  | passive => exact ok.reset
  | followup incomplete server part begins =>
    obtain rfl := fromServer server
    refine ⟨fun _ => id, fun state => ?_, fun _ => ⟨msg, rfl, rfl, part, id ▸ begins⟩, ok.granted⟩
    rcases state with idle | complete
    · exact absurd (running.symm.trans idle) Bool.noConfusion
    · exact absurd (incomplete.symm.trans complete) Bool.noConfusion
  | response server full =>
    obtain rfl := fromServer server
    exact ⟨fun _ => id, fun _ => rfl, fun some => absurd rfl some, fun _ => ⟨msg, present, id ▸ full, rfl⟩⟩

end

end ClientOk

variable [DecidableEq ι]

/-- What is known of all clients. -/
def ClientsOk (uniqueId : ι → UniqueID) (s : Exchange ι) : Prop :=
  ∀ i, ClientOk (uniqueId i) s.bus.sent (s.bus.lastRead (.client i)) (s.clients i)

variable {s : Exchange ι}

theorem ClientsOk.settle (ok : s.ClientsOk uniqueId) {i : ι} {c : DynamicNodeIDClient}
    {bus : Broadcast (Party ι) AllocationMessage} (own : ClientOk (uniqueId i) bus.sent (bus.lastRead (.client i)) c)
    (more : s.bus.sent ⊆ bus.sent) (same : ∀ j, j ≠ i → bus.lastRead (.client j) = s.bus.lastRead (.client j)) :
    (s.settle i c bus).ClientsOk uniqueId := by
  intro j
  change ClientOk _ bus.sent (bus.lastRead (.client j)) (update s.clients i c j)
  by_cases this : j = i
  · subst this
    rwa [update_self]
  · rw [update_of_ne this]
    exact (ok j).mono more (same j this)

theorem ClientsOk.send (ok : s.ClientsOk uniqueId) (sender : Party ι) (msg : AllocationMessage) :
    ({ s with bus := s.bus.send sender msg } : Exchange ι).ClientsOk uniqueId :=
  fun i => (ok i).mono (subset_append_left _ _) (Broadcast.lastRead_send sender msg)

theorem ClientsOk.step {serverNodeID : NodeID} {s' : Exchange ι} {a : ExchangeAction ι} (ok : s.ClientsOk uniqueId)
    (run : s.exec serverNodeID uniqueId a = some s') : s'.ClientsOk uniqueId := by
  have others : ∀ {i j : ι}, j ≠ i → Party.client j ≠ Party.client i := fun ne same => ne (Party.client.inj same)
  cases a with
  | start i preferredNodeId =>
    simp only [exec, Bool.or_eq_true, ite_none_left_eq_some, not_or, Bool.not_eq_true] at run
    obtain ⟨⟨idle, -⟩, run⟩ := run
    split at run
    · cases run
    · rename_i c' started
      cases run
      exact ok.settle ((ok i).start idle started) (List.Subset.refl _)
        fun j ne => Broadcast.lastRead_moveTo_of_ne _ (others ne)
  | timer i =>
    simp only [exec, ite_none_right_eq_some] at run
    obtain ⟨-, run⟩ := run
    split at run
    · rename_i c' fired
      cases run
      exact ok.settle ((ok i).handleTimerEvent fired) (List.Subset.refl _) fun _ _ => rfl
    · rename_i c' msg fired
      cases run
      refine ok.settle ?_ (subset_append_left _ _) fun j _ => Broadcast.lastRead_send _ _
      exact ((ok i).handleTimerEvent fired).mono (subset_append_left _ _) (Broadcast.lastRead_send _ _)
  | receive i =>
    simp only [exec] at run
    split at run
    · cases run
    · rename_i sender msg next
      have moved : ∀ j, j ≠ i → (s.bus.advance (.client i)).lastRead (.client j) = s.bus.lastRead (.client j) :=
        fun j ne => Broadcast.lastRead_moveTo_of_ne _ (others ne)
      split at run
      case isTrue silent =>
        cases run
        refine ok.settle ?_ (List.Subset.refl _) moved
        rw [Bool.or_eq_true, decide_eq_true_eq, Bool.not_eq_true'] at silent
        rcases silent with rfl | idle
        · exact (ok i).mono (List.Subset.refl _) (Broadcast.lastRead_advance_own next)
        · have zero := (ok i).passive (.inl idle)
          exact ⟨(ok i).id, (ok i).passive, fun some => absurd zero some, (ok i).granted⟩
      case isFalse heard =>
        cases run
        refine ok.settle ?_ (List.Subset.refl _) moved
        rw [Bool.or_eq_true, decide_eq_true_eq, Bool.not_eq_true', not_or, Bool.not_eq_false] at heard
        rw [Broadcast.lastRead_advance next heard.1]
        exact (ok i).handleAllocation heard.2 (Broadcast.mem_of_next next) serverNodeID
  | serve canPublish timestamp =>
    simp only [exec] at run
    split at run
    · cases run
    · have moved : ({ s with bus := s.bus.advance .server } : Exchange ι).ClientsOk uniqueId :=
        fun i => (ok i).mono (List.Subset.refl _) (Broadcast.lastRead_moveTo_of_ne _ nofun)
      cases run
      rename_i sender msg next
      generalize (s.manager.handleAllocation canPublish sender.isAnonymous timestamp msg).2 = effect
      cases effect with
      | nothing => exact moved
      | followup reply => exact moved.send .server reply
      | handleAllocationRequest uniqueId preferredNodeId => exact moved
  | respond uid nodeId =>
    cases run
    exact ok.send .server _

/-! ## The server -/

omit [DecidableEq ι] in
def isFollowup (x : Party ι × AllocationMessage) : Bool := !x.1.isAnonymous && x.2.uniqueId.length < 16

/-- The parts of a unique ID start at these bytes. -/
def Offset (k : ℕ) : Prop := k = 0 ∨ k = 6 ∨ k = 12

/-- A request of a client that the server has yet to read.  Only the very next message may be one that goes on,
and then from the bytes that the manager has, if it has any. -/
structure Waiting (uniqueId : UniqueID) (current : List UInt8) (next : Prop) (msg : AllocationMessage)
    (k : ℕ) : Prop where
  offset : Offset k
  part : msg.uniqueId = (uniqueId.toList.drop k).take 6
  first : msg.firstPartOfUniqueId = true ↔ k = 0
  later : k ≠ 0 → next ∧ (current = [] ∨ current = uniqueId.toList.take k)

/-- What is known of the manager when it has read the first `n` messages. -/
structure ServerOk (uniqueId : ι → UniqueID) (sent : List (Party ι × AllocationMessage)) (n : ℕ)
    (a : AllocationRequestManager) (requests : List (UniqueID × NodeID)) : Prop where
  length : ∀ msg, (.server, msg) ∈ sent → msg.uniqueId.length = 6 ∨ msg.uniqueId.length = 12 ∨
    msg.uniqueId.length = 16
  current : a.currentUniqueId = [] ∨ ∃ msg, latest isFollowup sent = some (.server, msg) ∧
    msg.uniqueId = a.currentUniqueId
  waiting : ∀ p i msg, n ≤ p → sent[p]? = some (.client i, msg) →
    ∃ k, Waiting (uniqueId i) a.currentUniqueId (p = n) msg k
  requests : ∀ request ∈ requests, ∃ i, request.1 = uniqueId i

namespace ServerOk

variable {sent : List (Party ι × AllocationMessage)} {n : ℕ} {a : AllocationRequestManager}
  {requests : List (UniqueID × NodeID)}

omit [DecidableEq ι]

theorem latest_client (i : ι) (msg : AllocationMessage) :
    latest isFollowup (sent ++ [(.client i, msg)]) = latest isFollowup sent :=
  Queues.latest_concat_of_not rfl

variable {i : ι} {msg : AllocationMessage} {a' : AllocationRequestManager}

/-- What the server sends is no request. -/
theorem getElem?_of_server {p : ℕ} {reply : AllocationMessage}
    (at_p : (sent ++ [(.server, reply)])[p]? = some (.client i, msg)) : sent[p]? = some (.client i, msg) := by
  rcases Nat.lt_or_ge p sent.length with old | new
  · rwa [getElem?_append_left old] at at_p
  · rw [getElem?_append_right new] at at_p
    have last := mem_of_getElem? at_p
    exact absurd (mem_singleton.mp last) (by simp)

section

variable (ok : ServerOk uniqueId sent n a requests)

include ok

theorem request {k : ℕ}
    (waits : Waiting (uniqueId i) a.currentUniqueId (sent.length = n) msg k) :
    ServerOk uniqueId (sent ++ [(.client i, msg)]) n a requests where
  length m member := by
    rcases mem_append.mp member with old | new
    · exact ok.length m old
    · exact absurd (mem_singleton.mp new) (by simp)
  current := by
    rw [latest_client]
    exact ok.current
  waiting p j m ge at_p := by
    rcases Nat.lt_or_ge p sent.length with old | new
    · rw [getElem?_append_left old] at at_p
      exact ok.waiting p j m ge at_p
    · rw [getElem?_append_right new] at at_p
      obtain ⟨last, same⟩ := List.getElem?_eq_some_iff.mp at_p
      rw [length_singleton] at last
      obtain rfl : p = sent.length := by omega
      simp only [Nat.sub_self] at same
      obtain ⟨rfl, rfl⟩ := same
      exact ⟨k, waits⟩
  requests := ok.requests

/-- What waits after the next message is a first part. -/
theorem first_of_later {p : ℕ} (later : n + 1 ≤ p)
    (at_p : sent[p]? = some (.client i, msg)) (current : List UInt8) (next : Prop) :
    Waiting (uniqueId i) current next msg 0 := by
  obtain ⟨k, offset, part, first, goesOn⟩ := ok.waiting p i msg (by omega) at_p
  have zero : k = 0 := by
    omega
  subst zero
  exact ⟨offset, part, first, fun more => absurd rfl more⟩

theorem read
    (kept : a'.currentUniqueId = [] ∨ a'.currentUniqueId = a.currentUniqueId) :
    ServerOk uniqueId sent (n + 1) a' requests where
  length := ok.length
  current := by
    rcases kept with none | same
    · exact .inl none
    · rw [same]
      exact ok.current
  waiting p i msg ge at_p := ⟨0, ok.first_of_later ge at_p _ _⟩
  requests := ok.requests

theorem followup
    (length : a'.currentUniqueId.length = 6 ∨ a'.currentUniqueId.length = 12) :
    ServerOk uniqueId (sent ++ [(.server, a'.followup)]) (n + 1) a' requests where
  length m member := by
    rcases mem_append.mp member with old | new
    · exact ok.length m old
    · have same : m = a'.followup := by simpa using new
      subst same
      exact length.imp_right .inl
  current := by
    refine .inr ⟨a'.followup, Queues.latest_concat_of ?_, rfl⟩
    have short : a'.followup.uniqueId.length < 16 := by
      change a'.currentUniqueId.length < 16
      omega
    exact decide_eq_true short
  waiting p i msg ge at_p := ⟨0, ok.first_of_later ge (getElem?_of_server at_p) _ _⟩
  requests := ok.requests

theorem respond (uid : UniqueID) (nodeId : NodeID) :
    ServerOk uniqueId (sent ++ [(.server, broadcastAllocationResponse uid nodeId)]) n a requests where
  length m member := by
    rcases mem_append.mp member with old | new
    · exact ok.length m old
    · have same : m = broadcastAllocationResponse uid nodeId := by simpa using new
      subst same
      exact .inr (.inr uid.length_toList)
  current := by
    have full : isFollowup ((Party.server : Party ι), broadcastAllocationResponse uid nodeId) = false := by
      simp [isFollowup, broadcastAllocationResponse]
    rw [Queues.latest_concat_of_not full]
    exact ok.current
  waiting p i msg ge at_p := ok.waiting p i msg ge (getElem?_of_server at_p)
  requests := ok.requests

theorem serve {sender : Party ι} (at_n : sent[n]? = some (sender, msg))
    {canPublish : Bool} {timestamp : ℕ} {effect : AllocationRequestManager.Effect}
    (run : a.handleAllocation canPublish sender.isAnonymous timestamp msg = (a', effect)) :
    match effect with
    | .nothing => ServerOk uniqueId sent (n + 1) a' requests
    | .followup reply => ServerOk uniqueId (sent ++ [(.server, reply)]) (n + 1) a' requests
    | .handleAllocationRequest uid preferredNodeId =>
      ServerOk uniqueId sent (n + 1) a' (requests ++ [(uid, preferredNodeId)]) := by
  rcases a.handleAllocation_cases _ _ _ _ run with ⟨rfl, kept⟩ | ⟨bytes, before, accepted, anonymous, stage⟩
  · exact ok.read kept
  obtain ⟨i, rfl⟩ : ∃ i, sender = .client i := by
    cases sender with
    | server => cases anonymous
    | client i => exact ⟨i, rfl⟩
  obtain ⟨k, offset, part, first, goesOn⟩ := ok.waiting n i msg (Nat.le_refl n) at_n
  -- the bytes before the request are those before its part
  have begins : bytes = (uniqueId i).toList.take k := by
    by_cases zero : k = 0
    · have isFirst := first.mpr zero
      rcases stage with ⟨-, none⟩ | ⟨other, -⟩ | ⟨other, -⟩
      · rw [none, zero, take_zero]
      · exact absurd (isFirst.symm.trans other) Bool.noConfusion
      · exact absurd (isFirst.symm.trans other) Bool.noConfusion
    · have some : bytes ≠ [] := by
        rintro rfl
        rcases stage with ⟨isFirst, -⟩ | ⟨-, -, many, -⟩ | ⟨-, -, many⟩
        · exact zero (first.mp isFirst)
        · exact absurd many (by decide)
        · exact absurd many (by decide)
      have same := before.resolve_left some
      exact same.trans ((goesOn zero).2.resolve_left (same ▸ some))
  have all : bytes ++ msg.uniqueId = (uniqueId i).toList.take (k + 6) := by
    rw [begins, part, take_add]
  have length : ((uniqueId i).toList.take (k + 6)).length = min (k + 6) 16 := by
    rw [length_take, Vector.length_toList]
  rw [all] at accepted
  cases accepted with
  | denied none => exact ok.read (.inl none)
  | followup some short =>
    refine ok.followup ?_
    rw [some]
    rcases offset with rfl | rfl | rfl <;> omega
  | @complete _ uid none full =>
    have same : uid = uniqueId i := by
      have whole : k + 6 ≥ 16 := by
        have := congrArg List.length full
        rw [Vector.length_toList] at this
        omega
      rw [take_of_length_le (by rw [Vector.length_toList]; omega)] at full
      exact Vector.toList_inj.mp full
    have kept := ok.read (show a'.currentUniqueId = [] ∨ _ from .inl none)
    refine ⟨kept.length, kept.current, kept.waiting, fun request member => ?_⟩
    rcases mem_append.mp member with old | new
    · exact ok.requests request old
    · rw [mem_singleton.mp new]
      exact ⟨i, same⟩

end

end ServerOk

/-! ## The exchange -/

/-- What is known after a run in which clients go on only when everything has been read. -/
structure Orderly (uniqueId : ι → UniqueID) (s : Exchange ι) : Prop where
  clients : s.ClientsOk uniqueId
  server : ServerOk uniqueId s.bus.sent (s.bus.seen .server) s.manager s.requests

/-- Where a client stands when its timer fires. -/
theorem Orderly.waiting (ok : s.Orderly uniqueId) {i : ι} (prompt : s.Prompt (.timer i))
    (running : (s.clients i).running = true) :
    Waiting (uniqueId i) s.manager.currentUniqueId (s.bus.sent.length = s.bus.seen .server)
      (s.clients i).request (s.clients i).sizeOfReceivedUniqueId := by
  have id := (ok.clients i).id (.inl running)
  have first : (s.clients i).request.firstPartOfUniqueId = true ↔ (s.clients i).sizeOfReceivedUniqueId = 0 :=
    decide_eq_true_iff
  have part := (s.clients i).uniqueId_request
  rw [id] at part
  by_cases zero : (s.clients i).sizeOfReceivedUniqueId = 0
  · exact ⟨.inl zero, part, first, fun some => absurd zero some⟩
  · obtain ⟨msg, last, length, short, begins⟩ := (ok.clients i).size zero
    obtain ⟨done, serverDone⟩ := prompt zero
    have present := mem_of_mem_take (Queues.mem_of_latest last).1
    have lengths := ok.server.length msg present
    have offset : Offset (s.clients i).sizeOfReceivedUniqueId := by
      unfold Offset
      omega
    refine ⟨offset, part, first, fun _ => ⟨serverDone.symm, ?_⟩⟩
    -- the follow-up that the client has read is the latest one, and so is that with the bytes of the manager
    have few : msg.uniqueId.length < 16 := by omega
    have isFollowup : isFollowup ((Party.server : Party ι), msg) = true := decide_eq_true few
    have newest := Broadcast.latest_of_lastRead done last (P := Exchange.isFollowup)
      (fun y kind same => by simp [Exchange.isFollowup, same, Party.isAnonymous] at kind) isFollowup
    refine ok.server.current.imp_right fun ⟨other, found, bytes⟩ => ?_
    cases newest.symm.trans found
    exact bytes.symm.trans begins

theorem Orderly.step {serverNodeID : NodeID} {s' : Exchange ι} {a : ExchangeAction ι} (ok : s.Orderly uniqueId)
    (prompt : s.Prompt a) (run : s.exec serverNodeID uniqueId a = some s') : s'.Orderly uniqueId := by
  refine ⟨ok.clients.step run, ?_⟩
  cases a with
  | start i preferredNodeId =>
    simp only [exec, ite_none_left_eq_some] at run
    obtain ⟨-, run⟩ := run
    split at run
    · cases run
    · cases run
      exact ok.server
  | timer i =>
    simp only [exec, ite_none_right_eq_some] at run
    obtain ⟨running, run⟩ := run
    split at run
    · cases run
      exact ok.server
    · rename_i c msg fired
      cases run
      unfold DynamicNodeIDClient.handleTimerEvent at fired
      split at fired
      · cases fired
      · cases fired
        exact ok.server.request (ok.waiting prompt running)
  | receive i =>
    simp only [exec] at run
    split at run
    · cases run
    · split at run <;> cases run
      · exact ok.server
      · exact ok.server
  | serve canPublish timestamp =>
    simp only [exec] at run
    split at run
    · cases run
    · rename_i sender msg next
      rcases handled : s.manager.handleAllocation canPublish sender.isAnonymous timestamp msg with ⟨a', effect⟩
      have served := ok.server.serve next handled
      rw [handled] at run
      rw [← Broadcast.seen_advance next] at served
      cases run
      cases effect with
      | nothing => exact served
      | followup reply => exact served
      | handleAllocationRequest uid preferredNodeId => exact served
  | respond uid nodeId =>
    cases run
    exact ok.server.respond uid nodeId

end Exchange

namespace ExchangeRun

variable {ι : Type} [DecidableEq ι] {serverNodeID : NodeID} {uniqueId : ι → UniqueID}
  {allowed : Exchange ι → ExchangeAction ι → Prop} {s : Exchange ι}

theorem clientsOk (run : ExchangeRun serverNodeID uniqueId allowed s) : s.ClientsOk uniqueId := by
  obtain ⟨stageTimeout, run⟩ := run
  induction run with
  | start => exact fun i => .construct
  | step _ _ exec ih => exact ih.step exec

theorem orderly (run : ExchangeRun serverNodeID uniqueId Exchange.Prompt s) : s.Orderly uniqueId := by
  obtain ⟨stageTimeout, run⟩ := run
  induction run with
  | start =>
    exact ⟨fun i => .construct, fun _ member => absurd member not_mem_nil, .inl rfl,
      fun _ _ _ _ found => by simp [Exchange.init, Broadcast.empty] at found,
      fun _ member => absurd member not_mem_nil⟩
  | step _ prompt exec ih => exact ih.step prompt exec

/-- A client gets its node ID from a response with its own unique ID.  If the clients that go on have read
everything, and the server too, then every unique ID that the allocator gets is that of one client. -/
theorem unique_ids_unmixed (serverNodeID : NodeID) (uniqueId : ι → UniqueID) :
    (∀ s, ExchangeRun serverNodeID uniqueId (fun _ _ => True) s →
      ∀ i, (s.clients i).isAllocationComplete = true → ∃ msg, (.server, msg) ∈ s.bus.sent ∧
        msg.uniqueId = (uniqueId i).toList ∧ msg.nodeId = (s.clients i).allocatedNodeId) ∧
    ∀ s, ExchangeRun serverNodeID uniqueId Exchange.Prompt s →
      ∀ request ∈ s.requests, ∃ i, request.1 = uniqueId i :=
  ⟨fun _ run i => (run.clientsOk i).granted, fun _ run => run.orderly.server.requests⟩

end ExchangeRun

namespace Exchange

/-- Clients whose unique IDs consist of one byte. -/
def sampleID (i : Fin 2) : UniqueID := Vector.replicate 16 (UInt8.ofNat (i.val + 1))

/-- A client gets one part to the server, and both read what has been sent. -/
def part (i : Fin 2) (timestamp : ℕ) : List (ExchangeAction (Fin 2)) :=
  [.timer i, .serve true timestamp, .receive i, .receive i, .serve true timestamp]

end Exchange

theorem ExchangeRun.unique_ids_unmixed_sample :
    (∃ s, ExchangeRun ⟨1⟩ Exchange.sampleID (fun _ _ => True) s ∧ (s.clients 0).allocatedNodeId = ⟨125⟩ ∧
      ∃ msg, (.server, msg) ∈ s.bus.sent ∧ msg.uniqueId = (Exchange.sampleID 0).toList ∧
        msg.nodeId = (s.clients 0).allocatedNodeId) ∧
    ∃ s, ExchangeRun ⟨1⟩ Exchange.sampleID Exchange.Prompt s ∧
      s.requests = [(Exchange.sampleID 0, ⟨0⟩)] ∧ ∀ request ∈ s.requests, ∃ i, request.1 = Exchange.sampleID i := by
  have laws := unique_ids_unmixed ⟨1⟩ Exchange.sampleID
  constructor
  · obtain ⟨s, run, granted⟩ := Machines.Reach.exists_of_play (Exchange.exec ⟨1⟩ Exchange.sampleID)
      (fun _ _ => True) (.init 500) [.start 0 ⟨0⟩, .respond (Exchange.sampleID 0) ⟨125⟩, .receive 0]
      (fun s => (s.clients 0).allocatedNodeId = ⟨125⟩) (by decide +kernel)
    refine ⟨s, ⟨500, run⟩, granted, laws.1 s ⟨500, run⟩ 0 ?_⟩
    rw [DynamicNodeIDClient.isAllocationComplete, granted]
    decide
  · obtain ⟨s, run, requested⟩ := Machines.Reach.exists_of_play (Exchange.exec ⟨1⟩ Exchange.sampleID)
      Exchange.Prompt (.init 500) ([.start 0 ⟨0⟩] ++ Exchange.part 0 0 ++ Exchange.part 0 1 ++
        [.timer 0, .serve true 2])
      (fun s => s.requests = [(Exchange.sampleID 0, ⟨0⟩)]) (by decide +kernel)
    exact ⟨s, ⟨500, run⟩, requested, laws.2 s ⟨500, run⟩⟩

/-- The first client is about to send its last part.  The stage times out, and the second client sends two parts.
The first client, which has not read them, ends the exchange of the second one. -/
theorem ExchangeRun.unique_ids_mixed :
    ∃ s : Exchange (Fin 2), ExchangeRun ⟨1⟩ Exchange.sampleID (fun _ _ => True) s ∧
      ∃ request ∈ s.requests, ∀ i, request.1 ≠ Exchange.sampleID i := by
  obtain ⟨s, run, mixed⟩ := Machines.Reach.exists_of_play (Exchange.exec ⟨1⟩ Exchange.sampleID) (fun _ _ => True)
    (.init 500) ([.start 0 ⟨0⟩] ++ Exchange.part 0 0 ++ Exchange.part 0 1 ++ [.start 1 ⟨0⟩] ++ Exchange.part 1 1000 ++
      Exchange.part 1 1001 ++ [.timer 0, .serve true 1002])
    (fun s => ∃ request ∈ s.requests, ∀ i, request.1 ≠ Exchange.sampleID i) (by decide +kernel)
  exact ⟨s, ⟨500, run⟩, mixed⟩

end Uavcan
