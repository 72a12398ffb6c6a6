import Uavcan.Containers.ChunkedMap
import Uavcan.Protocol.NodeInfoRetriever

/-!
# Firmware updates

`FirmwareUpdateTrigger` listens to the `NodeInfoRetriever` and asks the application whether a node is to be updated. It
sends a request to one of the nodes that are pending at each event of its timer; the nodes take turns. A node that goes
offline is forgotten. A node that restarts without going offline is not, so that a request may follow from information
that is out of date.
-/

namespace Uavcan

open Containers DsdlConstants NodeStatusMonitor List Function Option

namespace FirmwareUpdateTrigger

abbrev FirmwareFilePath := List UInt8

/-- A `BeginFirmwareUpdate` request to a node. -/
structure Request where
  node : ℕ
  sourceNodeId : ℕ
  path : FirmwareFilePath

/-- The error of a response. -/
inductive ResponseError
  | ok
  | inProgress
  | other

end FirmwareUpdateTrigger

open FirmwareUpdateTrigger in
/-- `pendingCalls` are the servers that `begin_fw_update_client_` is waiting for. -/
structure FirmwareUpdateTrigger where
  pendingNodes : ChunkedMap ℕ FirmwareFilePath
  pendingCalls : List ℕ
  lastQueriedNodeId : ℕ
  commonPathPrefix : FirmwareFilePath
  isRunning : Bool

namespace FirmwareUpdateTrigger

section

variable [DsdlConstants]

/-- The last separator of the prefix is removed. -/
def start (commonPathPrefix : FirmwareFilePath) : FirmwareUpdateTrigger :=
  ⟨.empty, [], 0,
    if commonPathPrefix.getLast? = some separator then commonPathPrefix.dropLast else commonPathPrefix, false⟩

variable (numKV : ℕ) (t : FirmwareUpdateTrigger)

def remove (node : ℕ) : FirmwareUpdateTrigger := { t with pendingNodes := t.pendingNodes.remove node }

def trySetPendingNode (alloc : Bool) (node : ℕ) (path : FirmwareFilePath) : FirmwareUpdateTrigger :=
  let (inserted, pendingNodes) := t.pendingNodes.insert numKV alloc node path
  { t with pendingNodes, isRunning := inserted || t.isRunning }

/-- `answer` is the path that `shouldRequestFirmwareUpdate` has given, if an update is needed. -/
def handleNodeInfoRetrieved (node : ℕ) (answer : Option FirmwareFilePath) (alloc : Bool) : FirmwareUpdateTrigger :=
  match answer with
  | some path => t.trySetPendingNode numKV alloc node path
  | none => t.remove node

def handleNodeStatusChange (event : NodeStatusChangeEvent) : FirmwareUpdateTrigger :=
  if event.status.mode = modeOffline then t.remove event.nodeId else t

/-- What `NextNodeIDSearchPredicate` has put out when it has seen all pending nodes. -/
def searchNext (lastQueriedNodeId : ℕ) : ℕ :=
  t.pendingNodes.store.items.foldl
    (fun output kv => if kv.1 > lastQueriedNodeId ∧ kv.1 ∉ t.pendingCalls then min output kv.1 else output) 0xFF

/-- The node ID that is returned is also the new value of the cursor. -/
def pickNextNodeID : ℕ :=
  let output := t.searchNext t.lastQueriedNodeId
  if output ≠ 0xFF then output
  else if t.lastQueriedNodeId ≠ 0 then
    let output := t.searchNext 0
    if output ≠ 0xFF then output else 0
  else t.lastQueriedNodeId

/-- A response or none; the application says whether to retry, and may change the path. -/
def handleBeginFirmwareUpdateResponse (server : ℕ) (response : Option ResponseError) (retry : Bool)
    (path : FirmwareFilePath) : FirmwareUpdateTrigger :=
  match response, t.pendingNodes.access server with
  | none, _ | _, none => t
  | some .ok, some _ | some .inProgress, some _ => t.remove server
  | some .other, some _ =>
    let t := { t with pendingNodes := t.pendingNodes.set server path }
    if retry then t else t.remove server

/-- `called` says whether the call did not fail. -/
def handleTimerEvent (sourceNodeId : ℕ) (called : Bool) : List Request × FirmwareUpdateTrigger :=
  if t.pendingNodes.isEmpty then ([], { t with isRunning := false })
  else
    let node := t.pickNextNodeID
    let t := { t with lastQueriedNodeId := node }
    if node = 0 ∨ node > 127 then ([], t)
    else
      match t.pendingNodes.access node with
      | none => ([], t)
      | some path =>
        let path := if t.commonPathPrefix ≠ [] then t.commonPathPrefix ++ separator :: path else path
        ([⟨node, sourceNodeId, path⟩],
          { t with pendingCalls := if called then node :: t.pendingCalls else t.pendingCalls })

inductive Action
  | infoUnavailable (node : ℕ)
  | infoRetrieved (node : ℕ) (answer : Option FirmwareFilePath) (alloc : Bool)
  | statusChange (event : NodeStatusChangeEvent)
  | response (server : ℕ) (response : Option ResponseError) (retry : Bool) (path : FirmwareFilePath)
  | timer (sourceNodeId : ℕ) (called : Bool)

/-- An event of the timer comes only while the timer is running, and a response only for a call that is pending. -/
def exec (t : FirmwareUpdateTrigger) : Action → List Request × FirmwareUpdateTrigger
  | .infoUnavailable node => ([], t.remove node)
  | .infoRetrieved node answer alloc => ([], t.handleNodeInfoRetrieved numKV node answer alloc)
  | .statusChange event => ([], t.handleNodeStatusChange event)
  | .response server response retry path =>
    if server ∈ t.pendingCalls then
      ([], { t with pendingCalls := t.pendingCalls.erase server }.handleBeginFirmwareUpdateResponse server response
        retry path)
    else ([], t)
  | .timer sourceNodeId called => if t.isRunning then t.handleTimerEvent sourceNodeId called else ([], t)

end

variable {numKV : ℕ} {t : FirmwareUpdateTrigger} {n : ℕ}

/-! ## Steps -/

/-- The information is of a node that has an entry. -/
def Action.Valid : Action → Prop
  | .infoRetrieved node _ _ => node ∈ nodeIds
  | _ => True

def Action.isTimer : Action → Bool
  | .timer _ _ => true
  | _ => false

/-- What an action other than the timer's does to the pending nodes: the value of one node is changed.  A node becomes
pending only by its information, and then the timer runs. -/
structure Changed (t t' : FirmwareUpdateTrigger) (node : ℕ) (value : Option FirmwareFilePath) : Prop where
  access : t'.pendingNodes.access = update t.pendingNodes.access node value
  pending : value ≠ none → t'.isRunning ∧ node ∈ nodeIds ∨ t.pendingNodes.access node ≠ none
  running : t.isRunning → t'.isRunning
  cursor : t'.lastQueriedNodeId = t.lastQueriedNodeId

theorem changed_remove (node : ℕ) : Changed t (t.remove node) node none :=
  ⟨ChunkedMap.access_remove .., fun some => absurd rfl some, id, rfl⟩

theorem changed_none (t : FirmwareUpdateTrigger) : Changed t t 0 (t.pendingNodes.access 0) :=
  ⟨(update_eq_self ..).symm, .inr, id, rfl⟩

theorem changed_response (server : ℕ) (response : Option ResponseError) (retry : Bool) (path : FirmwareFilePath) :
    ∃ node value, Changed t (t.handleBeginFirmwareUpdateResponse server response retry path) node value ∧
      (value ≠ none → t.pendingNodes.access node ≠ none) := by
  unfold handleBeginFirmwareUpdateResponse
  split
  · exact ⟨_, _, changed_none t, id⟩
  · exact ⟨_, _, changed_none t, id⟩
  · exact ⟨_, _, changed_remove server, fun some => absurd rfl some⟩
  · exact ⟨_, _, changed_remove server, fun some => absurd rfl some⟩
  · rename_i old pending
    have set := ChunkedMap.access_set pending path
    have was : t.pendingNodes.access server ≠ none := ne_none_iff_exists'.mpr ⟨old, pending⟩
    dsimp only
    split
    · exact ⟨server, some path, ⟨set, fun _ => .inr was, id, rfl⟩, fun _ => was⟩
    · refine ⟨server, none, ⟨(ChunkedMap.access_remove ..).trans ?_, ?_, id, rfl⟩, ?_⟩
      · rw [set, update_idem]
      · exact fun some => absurd rfl some
      · exact fun some => absurd rfl some

/-! ## Taking turns -/

/-- What holds between the actions. -/
structure Inv (t : FirmwareUpdateTrigger) : Prop where
  running {n : ℕ} (pending : t.pendingNodes.access n ≠ none) : t.isRunning
  unicast {n : ℕ} (pending : t.pendingNodes.access n ≠ none) : n ∈ nodeIds
  cursor : t.lastQueriedNodeId ≤ 127

/-- The node is pending, and no call to it is. -/
def Eligible (t : FirmwareUpdateTrigger) (n : ℕ) : Prop := t.pendingNodes.access n ≠ none ∧ n ∉ t.pendingCalls

theorem Inv.changed {t' : FirmwareUpdateTrigger} {node : ℕ} {value : Option FirmwareFilePath} (inv : t.Inv)
    (changed : Changed t t' node value) : t'.Inv := by
  have pending {n : ℕ} (now : t'.pendingNodes.access n ≠ none) :
      t'.isRunning ∧ n ∈ nodeIds ∨ t.pendingNodes.access n ≠ none := by
    rw [changed.access] at now
    by_cases same : n = node
    · subst same
      rw [update_self] at now
      exact changed.pending now
    · rw [update_of_ne same] at now
      exact .inr now
  refine ⟨fun now => ?_, fun now => ?_, changed.cursor ▸ inv.cursor⟩
  · exact (pending now).elim (·.1) fun before => changed.running (inv.running before)
  · exact (pending now).elim (·.2) inv.unicast

theorem le_foldl_min {α : Type} (p : α → Prop) [DecidablePred p] (f : α → ℕ) (l : List α) (output x : ℕ) :
    x ≤ l.foldl (fun output a => if p a then min output (f a) else output) output ↔
      x ≤ output ∧ ∀ a ∈ l, p a → x ≤ f a := by
  induction l generalizing output with
  | nil => simp
  | cons a l ih =>
    rw [foldl_cons, ih, forall_mem_cons]
    split
    · rename_i found
      simp only [found, Nat.le_min, true_imp_iff, and_assoc]
    · rename_i missed
      simp only [missed, false_imp_iff, true_and]

theorem le_searchNext (last x : ℕ) :
    x ≤ t.searchNext last ↔ x ≤ 0xFF ∧ ∀ n, t.Eligible n → last < n → x ≤ n := by
  refine (le_foldl_min (fun kv => kv.1 > last ∧ kv.1 ∉ t.pendingCalls) Prod.fst ..).trans (and_congr_right' ?_)
  constructor
  · intro least n eligible above
    obtain ⟨path, pending⟩ := ne_none_iff_exists'.mp eligible.1
    exact least (n, path) (ChunkedMap.access_eq_some_iff.mp pending) ⟨above, eligible.2⟩
  · rintro least ⟨n, path⟩ mem ⟨above, free⟩
    have pending := ChunkedMap.access_eq_some_iff.mpr mem
    exact least n ⟨ne_none_iff_exists'.mpr ⟨path, pending⟩, free⟩ above

/-- A search ends with the smallest eligible node after the cursor. -/
theorem searchNext_spec (inv : t.Inv) (last : ℕ) :
    (t.searchNext last = 0xFF ∧ ∀ n, t.Eligible n → n ≤ last) ∨
      last < t.searchNext last ∧ t.Eligible (t.searchNext last) ∧
        ∀ n, t.Eligible n → last < n → t.searchNext last ≤ n := by
  obtain ⟨bound, least⟩ := (le_searchNext (t := t) last _).mp (Nat.le_refl _)
  have attained := (le_searchNext (t := t) last (t.searchNext last + 1)).not.mp (Nat.not_succ_le_self _)
  by_cases found : ∃ n, t.Eligible n ∧ last < n ∧ n ≤ t.searchNext last
  · obtain ⟨n, eligible, above, low⟩ := found
    obtain rfl := Nat.le_antisymm low (least n eligible above)
    exact .inr ⟨above, eligible, least⟩
  · have high (n : ℕ) (eligible : t.Eligible n) (above : last < n) : t.searchNext last + 1 ≤ n :=
      Nat.lt_of_not_le fun low => found ⟨n, eligible, above, low⟩
    have none : t.searchNext last = 0xFF := Nat.le_antisymm bound (Nat.le_of_not_lt fun low => attained ⟨low, high⟩)
    refine .inl ⟨none, fun n eligible => Nat.le_of_not_lt fun above => ?_⟩
    have := NodeInfoRetriever.mem_nodeIds.mp (inv.unicast eligible.1)
    have := high n eligible above
    omega

/-- The pick is the next eligible node, if there is one. -/
theorem pickNextNodeID_cases (inv : t.Inv) :
    (t.pickNextNodeID = 0 ∧ ∀ n, ¬t.Eligible n) ∨
      t.pickNextNodeID ∈ nodeIds ∧ t.Eligible t.pickNextNodeID ∧
        ∀ n, t.Eligible n →
          Machines.ahead 127 t.lastQueriedNodeId t.pickNextNodeID ≤ Machines.ahead 127 t.lastQueriedNodeId n := by
  have range {n : ℕ} (eligible : t.Eligible n) := NodeInfoRetriever.mem_nodeIds.mp (inv.unicast eligible.1)
  have cursor := inv.cursor
  unfold pickNextNodeID Machines.ahead
  rcases searchNext_spec inv t.lastQueriedNodeId with ⟨none, passed⟩ | ⟨above, eligible, least⟩
  · rw [if_neg (not_not.mpr none)]
    split
    · rcases searchNext_spec inv 0 with ⟨none, passed⟩ | ⟨above, eligible, least⟩
      · dsimp only
        rw [if_neg (not_not.mpr none)]
        refine .inl ⟨rfl, fun n eligible => ?_⟩
        have := range eligible
        have := passed n eligible
        omega
      · have := range eligible
        dsimp only
        rw [if_pos (by omega)]
        refine .inr ⟨inv.unicast eligible.1, eligible, fun n may => ?_⟩
        have := range may
        have := passed n may
        have := passed _ eligible
        have := least n may (by omega)
        split_ifs <;> omega
    · rename_i zero
      refine .inl ⟨by omega, fun n eligible => ?_⟩
      have := range eligible
      have := passed n eligible
      omega
  · have := range eligible
    rw [if_pos (by omega)]
    refine .inr ⟨inv.unicast eligible.1, eligible, fun n may => ?_⟩
    have := range may
    have := least n may
    split_ifs <;> omega

section

variable [DsdlConstants]

theorem exec_of_not_timer (numKV : ℕ) (t : FirmwareUpdateTrigger) {action : Action} (valid : action.Valid)
    (other : action.isTimer = false) :
    (t.exec numKV action).1 = [] ∧ ∃ node value, Changed t (t.exec numKV action).2 node value := by
  cases action with
  | infoUnavailable node => exact ⟨rfl, _, _, changed_remove node⟩
  | infoRetrieved node answer alloc =>
    refine ⟨rfl, node, ?_⟩
    cases answer with
    | none => exact ⟨_, changed_remove node⟩
    | some path =>
      rcases inserting : t.pendingNodes.insert numKV alloc node path with ⟨inserted, pendingNodes⟩
      simp only [exec, handleNodeInfoRetrieved, trySetPendingNode, inserting]
      refine ⟨_, ChunkedMap.access_insert inserting, fun some => .inl ⟨?_, valid⟩, fun running => ?_, rfl⟩
      · cases inserted with
        | true => rfl
        | false => exact absurd rfl some
      · exact Bool.or_eq_true_iff.mpr (.inr running)
  | statusChange event =>
    refine ⟨rfl, ?_⟩
    rw [exec, handleNodeStatusChange]
    dsimp only
    split
    · exact ⟨_, _, changed_remove event.nodeId⟩
    · exact ⟨_, _, changed_none t⟩
  | response server response retry path =>
    rw [exec]
    split
    · obtain ⟨node, value, changed, -⟩ :=
        changed_response (t := { t with pendingCalls := t.pendingCalls.erase server }) server response retry path
      exact ⟨rfl, node, value, changed.access, changed.pending, changed.running, changed.cursor⟩
    · exact ⟨rfl, _, _, changed_none t⟩
  | timer sourceNodeId called => cases other

/-- The timer leaves the pending nodes as they are, and a request is sent to one of them. -/
theorem exec_timer (numKV : ℕ) (t : FirmwareUpdateTrigger) (sourceNodeId : ℕ) (called : Bool) :
    (t.exec numKV (.timer sourceNodeId called)).2.pendingNodes = t.pendingNodes ∧
      ∀ request ∈ (t.exec numKV (.timer sourceNodeId called)).1, t.pendingNodes.access request.node ≠ none := by
  rw [exec]
  split
  · unfold handleTimerEvent
    split
    · exact ⟨rfl, forall_mem_nil _⟩
    · dsimp only
      split
      · exact ⟨rfl, forall_mem_nil _⟩
      · split
        · exact ⟨rfl, forall_mem_nil _⟩
        · rename_i path pending
          refine ⟨rfl, fun request sent => ?_⟩
          rw [mem_singleton.mp sent]
          exact ne_none_iff_exists'.mpr ⟨path, pending⟩
  · exact ⟨rfl, forall_mem_nil _⟩

/-- A request is sent to the node that was picked. -/
theorem handleTimerEvent_cases (inv : t.Inv) (sourceNodeId : ℕ) (called : Bool) :
    (t.handleTimerEvent sourceNodeId called).2.Inv ∧
      (t.handleTimerEvent sourceNodeId called).2.pendingNodes = t.pendingNodes ∧
      ((t.handleTimerEvent sourceNodeId called).1 = [] ∧ (∀ n, ¬t.Eligible n) ∨
        ∃ path, (t.handleTimerEvent sourceNodeId called).1 = [⟨t.pickNextNodeID, sourceNodeId, path⟩] ∧
          (t.handleTimerEvent sourceNodeId called).2.lastQueriedNodeId = t.pickNextNodeID ∧
            t.pickNextNodeID ∈ nodeIds ∧ t.Eligible t.pickNextNodeID ∧
              ∀ n, t.Eligible n →
                Machines.ahead 127 t.lastQueriedNodeId t.pickNextNodeID ≤
                  Machines.ahead 127 t.lastQueriedNodeId n) := by
  unfold handleTimerEvent
  split
  · rename_i empty
    have none := ChunkedMap.isEmpty_iff.mp empty
    exact ⟨⟨fun pending => absurd (none _) pending, fun pending => absurd (none _) pending, inv.cursor⟩, rfl,
      .inl ⟨rfl, fun n eligible => eligible.1 (none n)⟩⟩
  · dsimp only
    rcases pickNextNodeID_cases inv with ⟨zero, none⟩ | ⟨here, eligible, nearest⟩
    · rw [zero, if_pos (.inl rfl)]
      exact ⟨⟨inv.running, inv.unicast, Nat.zero_le _⟩, rfl, .inl ⟨rfl, none⟩⟩
    · have range := NodeInfoRetriever.mem_nodeIds.mp here
      obtain ⟨path, pending⟩ := ne_none_iff_exists'.mp eligible.1
      rw [if_neg (by omega), pending]
      exact ⟨⟨inv.running, inv.unicast, range.2⟩, rfl, .inr ⟨_, rfl, rfl, here, eligible, nearest⟩⟩

theorem Inv.exec {action : Action} (inv : t.Inv) (valid : action.Valid) : (t.exec numKV action).2.Inv := by
  cases timer : action.isTimer with
  | false =>
    obtain ⟨-, node, value, changed⟩ := exec_of_not_timer numKV t valid timer
    exact inv.changed changed
  | true =>
    cases action with
    | timer sourceNodeId called =>
      rw [FirmwareUpdateTrigger.exec]
      split
      · exact (handleTimerEvent_cases inv sourceNodeId called).1
      · exact inv
    | _ => cases timer

/-- The nodes that requests are sent to in a run. -/
def picks (numKV : ℕ) (actions : List Action) (t : FirmwareUpdateTrigger) : List ℕ :=
  (Machines.answers (exec numKV) actions t).flatten.map Request.node

/-- The action is valid, and the node is eligible whenever the timer makes a pick. -/
def StaysEligible (n : ℕ) (t : FirmwareUpdateTrigger) (action : Action) : Prop :=
  action.Valid ∧ (action.isTimer → t.Eligible n)

theorem toward_picks {actions : List Action} (inv : t.Inv)
    (eligible : Machines.Permitted (FirmwareUpdateTrigger.exec numKV) (StaysEligible n) actions t) :
    Machines.Toward 127 n t.lastQueriedNodeId (picks numKV actions t) ∧
      (picks numKV actions t).length = actions.countP Action.isTimer := by
  induction actions generalizing t with
  | nil => exact ⟨trivial, rfl⟩
  | cons action actions ih =>
    obtain ⟨⟨valid, now⟩, later⟩ := eligible
    obtain ⟨toward, length⟩ := ih (inv.exec valid) later
    rw [picks, Machines.answers, flatten_cons, map_append, ← picks, countP_cons]
    cases timer : action.isTimer with
    | false =>
      obtain ⟨none, _, _, changed⟩ := exec_of_not_timer numKV t valid timer
      rw [changed.cursor] at toward
      rw [none]
      exact ⟨toward, length⟩
    | true =>
      cases action with
      | timer sourceNodeId called =>
        have may := now rfl
        simp only [FirmwareUpdateTrigger.exec, if_pos (inv.running may.1)] at toward length ⊢
        obtain ⟨-, -, ⟨-, none⟩ | ⟨path, request, cursor, here, -, nearest⟩⟩ :=
          handleTimerEvent_cases inv sourceNodeId called
        · exact absurd may (none n)
        · have range := NodeInfoRetriever.mem_nodeIds.mp here
          rw [cursor] at toward
          rw [request]
          exact ⟨⟨range.1, range.2, nearest n may, toward⟩, congrArg (· + 1) length⟩
      | _ => cases timer

theorem inv_start (commonPathPrefix : FirmwareFilePath) : (start commonPathPrefix).Inv :=
  ⟨fun pending => absurd rfl pending, fun pending => absurd rfl pending, Nat.zero_le _⟩

/-- After any actions the timer runs if a node is pending, a node that is picked is pending and has no call pending, and
from then on, while a node is eligible and is not picked, each event of the timer picks another node. -/
theorem takes_turns (numKV : ℕ) (commonPathPrefix : FirmwareFilePath) (actions : List Action)
    (valid : ∀ action ∈ actions, action.Valid) (t : FirmwareUpdateTrigger)
    (now : t = Machines.after (exec numKV) actions (start commonPathPrefix)) :
    (∀ n, t.pendingNodes.access n ≠ none → t.isRunning) ∧
      (t.pickNextNodeID ≠ 0 → t.pickNextNodeID ≤ 127 → t.Eligible t.pickNextNodeID) ∧
        ∀ n more, Machines.Permitted (exec numKV) (StaysEligible n) more t → t.Eligible n → n ∉ picks numKV more t →
          (picks numKV more t).Nodup ∧ (picks numKV more t).length = more.countP Action.isTimer := by
  have inv : t.Inv := by
    subst now
    have start := inv_start commonPathPrefix
    generalize FirmwareUpdateTrigger.start commonPathPrefix = s at start
    induction actions generalizing s with
    | nil => exact start
    | cons action actions ih =>
      obtain ⟨here, later⟩ := forall_mem_cons.mp valid
      exact ih later _ (start.exec here)
  refine ⟨fun n => inv.running, fun nonzero _ => ?_, fun n more eligible may missed => ?_⟩
  · rcases pickNextNodeID_cases inv with ⟨zero, -⟩ | ⟨-, eligible, -⟩
    · exact absurd zero nonzero
    · exact eligible
  · obtain ⟨toward, length⟩ := toward_picks inv eligible
    have range := NodeInfoRetriever.mem_nodeIds.mp (inv.unicast may.1)
    exact ⟨(toward.nodup inv.cursor range.1 range.2 missed).1, length⟩

end

local instance : DsdlConstants := .values

/-- Two nodes are pending; the second one is eligible while the first one is picked. -/
theorem takes_turns_two_nodes :
    (picks 2 [.timer 1 true]
      (Machines.after (exec 2) [.infoRetrieved 5 (some [97]) true, .infoRetrieved 6 (some [98]) true]
        (start []))).length = 1 :=
  ((takes_turns 2 [] [.infoRetrieved 5 (some [97]) true, .infoRetrieved 6 (some [98]) true]
    (by simp [Action.Valid, nodeIds]) _ rfl).2.2 6 [.timer 1 true] ⟨⟨trivial, fun _ => ⟨by decide, by decide⟩⟩, trivial⟩
    ⟨by decide, by decide⟩ (by decide)).2

/-! ## Information that is out of date -/

/-- What the listeners of the retriever have been told about each node: its last uptime, and whether it has gone offline
or restarted since its information was retrieved. -/
structure History where
  uptimeSec : ℕ → ℕ
  offline : ℕ → Bool
  restarted : ℕ → Bool

def History.note [DsdlConstants] (h : History) : NodeInfoRetriever.Notice → History
  | .statusMessage src msg =>
    { h with
      uptimeSec := update h.uptimeSec src msg.uptimeSec
      restarted := update h.restarted src (h.restarted src || msg.uptimeSec < h.uptimeSec src) }
  | .statusChange event =>
    if event.status.mode = modeOffline then { h with offline := update h.offline event.nodeId true } else h
  | .infoRetrieved node uptimeSec =>
    ⟨update h.uptimeSec node uptimeSec, update h.offline node false,
      update h.restarted node false⟩
  | _ => h

/-- The information of the node is younger than the last time that the node was seen going offline or restarting. -/
def History.Fresh (h : History) (n : ℕ) : Prop := h.offline n = false ∧ h.restarted n = false

/-- The trigger and the retriever that it listens to. -/
structure System where
  retriever : NodeInfoRetriever
  trigger : FirmwareUpdateTrigger
  history : History

namespace System

/-- An event of the retriever comes with the answer of the application to the information of a node, and whether there
is memory then. -/
inductive Event
  | retriever (action : NodeInfoRetriever.Action) (answer : Option FirmwareFilePath) (alloc : Bool)
  | response (server : ℕ) (response : Option ResponseError) (retry : Bool) (path : FirmwareFilePath)
  | timer (sourceNodeId : ℕ) (called : Bool)

/-- The status message that the event brings, with its node. -/
def Event.statusMessage : Event → Option (ℕ × Message)
  | .retriever (.message src msg) _ _ => some (src, msg)
  | _ => none

/-- A request, and what has happened to its node since the information was retrieved. -/
structure Sent where
  request : Request
  offline : Bool
  restarted : Bool

/-- A pending node has neither gone offline nor restarted since its information was retrieved. -/
def Current (s : System) : Prop := ∀ n, s.trigger.pendingNodes.access n ≠ none → s.history.Fresh n

/-- A status message that tells of a restart comes only from a node that is not pending. -/
def Settled (s : System) (event : Event) : Prop :=
  ∀ message ∈ event.statusMessage, message.2.uptimeSec < s.history.uptimeSec message.1 →
    s.trigger.pendingNodes.access message.1 = none

instance (s : System) (event : Event) : Decidable (s.Settled event) := inferInstanceAs (Decidable (∀ _ ∈ _, _))

variable {s : System} {offlineTimeoutMs : ℕ}

theorem current_changed {t : FirmwareUpdateTrigger} {node : ℕ} {value : Option FirmwareFilePath} {h : History}
    (current : s.Current) (access : t.pendingNodes.access = update s.trigger.pendingNodes.access node value)
    (own : value ≠ none → h.Fresh node) (others : ∀ n, n ≠ node → s.history.Fresh n → h.Fresh n) :
    Current ⟨s.retriever, t, h⟩ := by
  intro n pending
  simp only [access] at pending
  by_cases same : n = node
  · rw [same, update_self] at pending
    exact same ▸ own pending
  · rw [update_of_ne same] at pending
    exact others n same (current n pending)

section

variable [DsdlConstants]

def start (commonPathPrefix : FirmwareFilePath) : System :=
  ⟨.init, .start commonPathPrefix, fun _ => 0, fun _ => false, fun _ => false⟩

/-- The trigger is told. -/
def hear (numKV : ℕ) (answer : Option FirmwareFilePath) (alloc : Bool) (s : System)
    (notice : NodeInfoRetriever.Notice) : System :=
  { s with
    history := s.history.note notice
    trigger := match notice with
      | .statusChange event => s.trigger.handleNodeStatusChange event
      | .infoRetrieved node _ => s.trigger.handleNodeInfoRetrieved numKV node answer alloc
      | .infoUnavailable node => s.trigger.remove node
      | _ => s.trigger }

def exec (offlineTimeoutMs numKV : ℕ) (s : System) : Event → List Sent × System
  | .retriever action answer alloc =>
    let (notices, retriever) := s.retriever.exec offlineTimeoutMs action
    ([], notices.foldl (hear numKV answer alloc) { s with retriever })
  | .response server response retry path =>
    ([], { s with trigger := (s.trigger.exec numKV (.response server response retry path)).2 })
  | .timer sourceNodeId called =>
    let (requests, trigger) := s.trigger.exec numKV (.timer sourceNodeId called)
    (requests.map fun request => ⟨request, s.history.offline request.node, s.history.restarted request.node⟩,
      { s with trigger })

theorem current_hear (current : s.Current) (answer : Option FirmwareFilePath) (alloc : Bool)
    {notice : NodeInfoRetriever.Notice}
    (settled : ∀ src msg, notice = .statusMessage src msg → msg.uptimeSec < s.history.uptimeSec src →
      s.trigger.pendingNodes.access src = none) :
    (s.hear numKV answer alloc notice).Current := by
  cases notice with
  | statusChange event =>
    unfold hear History.note handleNodeStatusChange
    dsimp only
    split
    · refine current_changed current (changed_remove event.nodeId).access (fun some => absurd rfl some) ?_
      exact fun n other fresh => ⟨(update_of_ne other ..).trans fresh.1, fresh.2⟩
    · exact current
  | statusMessage src msg =>
    intro n pending
    obtain ⟨online, running⟩ := current n pending
    refine ⟨online, ?_⟩
    simp only [hear, History.note]
    by_cases same : n = src
    · subst same
      rw [update_self, running, Bool.false_or, decide_eq_false_iff_not]
      exact fun restarted => pending (settled n msg rfl restarted)
    · rw [update_of_ne same]
      exact running
  | infoRetrieved node uptimeSec =>
    have own : (s.history.note (.infoRetrieved node uptimeSec)).Fresh node :=
      ⟨update_self .., update_self ..⟩
    have others (n : ℕ) (other : n ≠ node) (fresh : s.history.Fresh n) :
        (s.history.note (.infoRetrieved node uptimeSec)).Fresh n :=
      ⟨(update_of_ne other ..).trans fresh.1, (update_of_ne other ..).trans fresh.2⟩
    cases answer with
    | none => exact current_changed current (changed_remove node).access (fun _ => own) others
    | some path =>
      rcases inserting : s.trigger.pendingNodes.insert numKV alloc node path with ⟨inserted, pendingNodes⟩
      simp only [hear, handleNodeInfoRetrieved, trySetPendingNode, inserting]
      exact current_changed current (ChunkedMap.access_insert inserting) (fun _ => own) others
  | infoUnavailable node =>
    exact current_changed current (changed_remove node).access (fun some => absurd rfl some) fun _ _ => id
  | queried node => exact current

theorem current_foldl (current : s.Current) (answer : Option FirmwareFilePath) (alloc : Bool)
    {notices : List NodeInfoRetriever.Notice} (quiet : ∀ src msg, .statusMessage src msg ∉ notices) :
    (notices.foldl (hear numKV answer alloc) s).Current := by
  induction notices generalizing s with
  | nil => exact current
  | cons notice notices ih =>
    refine ih (current_hear current answer alloc fun src msg same => ?_) fun src msg later => ?_
    · exact absurd (same ▸ mem_cons_self) (quiet src msg)
    · exact quiet src msg (mem_cons_of_mem _ later)

/-- Changes of status touch no uptime, and no node becomes pending. -/
theorem hear_changes (answer : Option FirmwareFilePath) (alloc : Bool) (changes : List NodeStatusChangeEvent) (n : ℕ) :
    ((changes.map .statusChange).foldl (hear numKV answer alloc) s).history.uptimeSec = s.history.uptimeSec ∧
      (s.trigger.pendingNodes.access n = none →
        ((changes.map .statusChange).foldl (hear numKV answer alloc) s).trigger.pendingNodes.access n = none) := by
  induction changes generalizing s with
  | nil => exact ⟨rfl, id⟩
  | cons event changes ih =>
    obtain ⟨uptimeSec, absent⟩ := ih (s := s.hear numKV answer alloc (.statusChange event))
    refine ⟨uptimeSec.trans ?_, fun before => absent ?_⟩
    · simp only [hear, History.note]
      split
      · rfl
      · rfl
    · simp only [hear, handleNodeStatusChange]
      split
      · rw [(changed_remove event.nodeId).access, update_apply, before, ite_self]
      · exact before

/-- A message is passed on after the change of status that it brings, and nothing else is passed on as a message. -/
theorem notices_exec (offlineTimeoutMs : ℕ) (r : NodeInfoRetriever) (action : NodeInfoRetriever.Action) :
    (∃ changes src msg, action = .message src msg ∧ (r.exec offlineTimeoutMs action).1 =
      map NodeInfoRetriever.Notice.statusChange changes ++ [.statusMessage src msg]) ∨
        ∀ src msg, .statusMessage src msg ∉ (r.exec offlineTimeoutMs action).1 := by
  cases action with
  | message src msg => exact .inl ⟨_, src, msg, rfl, rfl⟩
  | monitorTimer => exact .inr fun src msg => by simp [NodeInfoRetriever.exec]
  | result server response =>
    refine .inr fun src msg => ?_
    simp only [NodeInfoRetriever.exec, NodeInfoRetriever.handleGetNodeInfoResponse]
    split
    · cases response with
      | some uptimeSec => simp
      | none =>
        dsimp only
        split_ifs
        · simp
        · simp
        · simp
    · simp
  | timer called =>
    refine .inr fun src msg => ?_
    simp only [NodeInfoRetriever.exec, NodeInfoRetriever.handleTimerEvent]
    split
    · split
      · simp
      · simp
    · simp
  | _ => exact .inr fun _ _ => not_mem_nil

theorem current_exec (current : s.Current) {event : Event} (settled : s.Settled event) :
    (s.exec offlineTimeoutMs numKV event).2.Current := by
  cases event with
  | retriever action answer alloc =>
    have notices := notices_exec offlineTimeoutMs s.retriever action
    rw [exec]
    generalize s.retriever.exec offlineTimeoutMs action = step at notices
    obtain ⟨told, retriever⟩ := step
    have current : Current { s with retriever } := current
    have settled : Settled { s with retriever } (.retriever action answer alloc) := settled
    dsimp only at notices ⊢
    generalize { s with retriever } = s at current settled
    rcases notices with ⟨changes, src, msg, rfl, rfl⟩ | quiet
    · rw [foldl_append, foldl_cons, foldl_nil]
      refine current_hear (current_foldl current answer alloc (by simp)) answer alloc fun src' msg' same restarted => ?_
      cases same
      obtain ⟨uptimeSec, absent⟩ := hear_changes answer alloc changes src
      rw [uptimeSec] at restarted
      exact absent (settled _ rfl restarted)
    · exact current_foldl current answer alloc quiet
  | response server response retry path =>
    simp only [exec, FirmwareUpdateTrigger.exec]
    split
    · obtain ⟨node, value, changed, was⟩ := changed_response
        (t := { s.trigger with pendingCalls := s.trigger.pendingCalls.erase server }) server response retry path
      exact current_changed current changed.access (fun some => current node (was some)) fun _ _ => id
    · exact current
  | timer sourceNodeId called =>
    intro n pending
    simp only [exec, (exec_timer numKV s.trigger sourceNodeId called).1] at pending
    exact current n pending

/-- The requests of a run. -/
def sent (offlineTimeoutMs numKV : ℕ) (events : List Event) (s : System) : List Sent :=
  (Machines.answers (exec offlineTimeoutMs numKV) events s).flatten

theorem current_sent {events : List Event} (current : s.Current)
    (settled : Machines.Permitted (exec offlineTimeoutMs numKV) Settled events s) :
    ∀ sent ∈ s.sent offlineTimeoutMs numKV events, sent.offline = false ∧ sent.restarted = false := by
  induction events generalizing s with
  | nil => exact forall_mem_nil _
  | cons event events ih =>
    rw [sent, Machines.answers, flatten_cons, forall_mem_append]
    refine ⟨?_, ih (current_exec current settled.1) settled.2⟩
    cases event with
    | timer sourceNodeId called =>
      intro sent member
      obtain ⟨request, issued, rfl⟩ := mem_map.mp member
      exact current request.node ((exec_timer numKV s.trigger sourceNodeId called).2 request issued)
    | _ => exact forall_mem_nil _

/-- If no status message tells of a restart of a node that is pending, no request follows from information that was
retrieved before its node went offline or restarted. -/
theorem requests_fresh (offlineTimeoutMs numKV : ℕ) (commonPathPrefix : FirmwareFilePath) (events : List Event)
    (settled : Machines.Permitted (exec offlineTimeoutMs numKV) Settled events (start commonPathPrefix)) :
    ∀ sent ∈ (start commonPathPrefix).sent offlineTimeoutMs numKV events,
      sent.offline = false ∧ sent.restarted = false :=
  current_sent (fun _ pending => absurd rfl pending) settled

end

/-- A node is updated, restarts and is updated again. -/
def updateTwice : List Event :=
  [.retriever (.message 5 ⟨0, 0, 0, 100⟩) none true, .retriever (.timer true) none true,
    .retriever (.result 5 (some 100)) (some [97]) true, .timer 1 true, .response 5 (some .ok) false [],
    .retriever (.message 5 ⟨0, 0, 0, 1⟩) none true, .retriever (.timer true) none true,
    .retriever (.result 5 (some 1)) (some [97]) true, .timer 1 true]

theorem requests_fresh_sample :
    ((start []).sent 3000 2 updateTwice).length = 2 ∧
      ∀ sent ∈ (start []).sent 3000 2 updateTwice, sent.offline = false ∧ sent.restarted = false :=
  ⟨by decide +kernel, requests_fresh 3000 2 [] updateTwice (by decide +kernel)⟩

/-- A node comes, its information is retrieved, and it restarts. -/
def restart : List Event :=
  [.retriever (.message 5 ⟨0, 0, 0, 100⟩) none true, .retriever (.timer true) none true,
    .retriever (.result 5 (some 100)) (some [97]) true, .retriever (.message 5 ⟨0, 0, 0, 1⟩) none true]

/-- The request after a restart follows from the information before it. -/
theorem request_after_restart :
    ((start []).sent 3000 2 (restart ++ [.timer 1 true])).map (fun sent => (sent.request.node, sent.restarted)) =
      [(5, true)] := by
  decide

end System

end FirmwareUpdateTrigger

end Uavcan
