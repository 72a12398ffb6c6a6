import Uavcan.Machines.RoundRobin
import Uavcan.Protocol.NodeStatusMonitor

/-!
# Node information

`NodeInfoRetriever` asks every node that comes online or restarts for its information, one request at each event of a
timer that runs while a request is needed. The nodes take turns. The retriever is told about the nodes by the
`NodeStatusMonitor` that it is derived from, but not when the monitor is told to forget a node.
-/

namespace Uavcan

open List Function

open DsdlConstants

open NodeStatusMonitor hiding Entry Action exec

namespace NodeInfoRetriever

structure Entry where
  uptimeSec : ℕ
  numAttemptsMade : UInt8
  requestNeeded : Bool
  updatedSinceLastAttempt : Bool

def Entry.init : Entry := ⟨0, 0, false, false⟩

def Entry.isClear (entry : Entry) : Bool := !entry.requestNeeded && !entry.updatedSinceLastAttempt

/-- What the listeners are told, and the requests. -/
inductive Notice
  | statusChange (event : NodeStatusChangeEvent)
  | statusMessage (src : ℕ) (msg : Message)
  | infoRetrieved (node uptimeSec : ℕ)
  | infoUnavailable (node : ℕ)
  | queried (node : ℕ)

/-- The node that a request is for. -/
def Notice.pick : Notice → Option ℕ
  | .queried node => some node
  | _ => none

end NodeInfoRetriever

open NodeInfoRetriever in
/-- `pendingCalls` are the servers that `get_node_info_client_` is waiting for. -/
structure NodeInfoRetriever where
  monitor : NodeStatusMonitor.Entries
  entries : ℕ → Entry
  pendingCalls : List ℕ
  lastPickedNode : ℕ
  numAttempts : UInt8
  isRunning : Bool

namespace NodeInfoRetriever

section

variable [DsdlConstants]

def init : NodeInfoRetriever := ⟨fun _ => .init, fun _ => .init, [], 1, 16, false⟩

variable (r : NodeInfoRetriever)

/-- The turns of the loop of `pickNextNodeToQuery` that are left: the node, whether a request is needed, and the
cursor. -/
def pickLoop : ℕ → ℕ → Bool → Option ℕ × Bool × ℕ
  | 0, lastPickedNode, needed => (none, needed, lastPickedNode)
  | turns + 1, lastPickedNode, needed =>
    let lastPickedNode := if lastPickedNode + 1 > 127 then 1 else lastPickedNode + 1
    let entry := r.entries lastPickedNode
    let needed := needed || entry.requestNeeded
    if entry.requestNeeded && entry.updatedSinceLastAttempt && lastPickedNode ∉ r.pendingCalls then
      (some lastPickedNode, needed, lastPickedNode)
    else pickLoop turns lastPickedNode needed

/-- The event of the request timer; `called` says whether the call did not fail. -/
def handleTimerEvent (called : Bool) : List Notice × NodeInfoRetriever :=
  match r.pickLoop 127 r.lastPickedNode false with
  | (some next, _, last) =>
    ([.queried next],
      { r with
        lastPickedNode := last
        entries := update r.entries next { r.entries next with updatedSinceLastAttempt := false }
        pendingCalls := if called then next :: r.pendingCalls else r.pendingCalls })
  | (none, needed, last) => ([], { r with lastPickedNode := last, isRunning := needed && r.isRunning })

def handleNodeStatusChange (event : NodeStatusChangeEvent) : NodeInfoRetriever :=
  let wasOffline := !event.wasKnown || event.oldStatus.mode == modeOffline
  let offlineNow := event.status.mode == modeOffline
  if wasOffline || offlineNow then
    { r with
      entries := update r.entries event.nodeId
        { r.entries event.nodeId with requestNeeded := !offlineNow, numAttemptsMade := 0 }
      isRunning := !offlineNow || r.isRunning }
  else r

def handleNodeStatusMessage (src : ℕ) (msg : Message) : NodeInfoRetriever :=
  let entry := r.entries src
  let restarted := msg.uptimeSec < entry.uptimeSec
  let entry := if restarted then { entry with requestNeeded := true, numAttemptsMade := 0 } else entry
  { r with
    entries := update r.entries src { entry with uptimeSec := msg.uptimeSec, updatedSinceLastAttempt := true }
    isRunning := restarted || r.isRunning }

/-- The result of a call; a response has the uptime of the node. -/
def handleGetNodeInfoResponse (server : ℕ) (response : Option ℕ) : List Notice × NodeInfoRetriever :=
  let entry := r.entries server
  match response with
  | some uptimeSec =>
    ([.infoRetrieved server uptimeSec],
      { r with entries := update r.entries server { entry with uptimeSec, requestNeeded := false } })
  | none =>
    if r.numAttempts ≠ 0 then
      let entry := { entry with numAttemptsMade := entry.numAttemptsMade + 1 }
      if entry.numAttemptsMade ≥ r.numAttempts then
        ([.infoUnavailable server],
          { r with entries := update r.entries server { entry with requestNeeded := false } })
      else ([], { r with entries := update r.entries server entry })
    else ([], r)

inductive Action
  | message (src : ℕ) (msg : Message)
  | monitorTimer
  | result (server : ℕ) (response : Option ℕ)
  | timer (called : Bool)
  | forgetNode (node : ℕ)
  | forgetAllNodes
  | invalidateAll
  | setNumRequestAttempts (num : UInt8)

/-- The monitor has changed the status of some nodes. -/
def statusChanged (changes : List NodeStatusChangeEvent × NodeStatusMonitor.Entries) : NodeInfoRetriever :=
  { changes.1.foldl handleNodeStatusChange r with monitor := changes.2 }

/-- An event of a timer comes only while the timer is running, and a result only for a call that is pending. -/
def exec (offlineTimeoutMs : ℕ) (r : NodeInfoRetriever) : Action → List Notice × NodeInfoRetriever
  | .message src msg =>
    let changes := handleNodeStatus r.monitor src msg
    (changes.1.map .statusChange ++ [.statusMessage src msg], (r.statusChanged changes).handleNodeStatusMessage src msg)
  | .monitorTimer =>
    let changes := NodeStatusMonitor.handleTimerEvent offlineTimeoutMs r.monitor
    (changes.1.map .statusChange, r.statusChanged changes)
  | .result server response =>
    if server ∈ r.pendingCalls then
      { r with pendingCalls := r.pendingCalls.erase server }.handleGetNodeInfoResponse server response
    else ([], r)
  | .timer called => if r.isRunning then r.handleTimerEvent called else ([], r)
  | .forgetNode node => ([], { r with monitor := update r.monitor node .init })
  | .forgetAllNodes => ([], { r with monitor := fun _ => .init })
  | .invalidateAll => ([], { r with monitor := fun _ => .init, entries := fun _ => .init, pendingCalls := [] })
  | .setNumRequestAttempts num => ([], { r with numAttempts := min 254 num })

end

variable {r : NodeInfoRetriever} {offlineTimeoutMs n : ℕ}

/-! ## Flags -/

/-- No flag is set that was not. -/
def Entry.Lowers (entry entry' : Entry) : Prop :=
  (entry'.requestNeeded → entry.requestNeeded) ∧ (entry'.updatedSinceLastAttempt → entry.updatedSinceLastAttempt)

theorem Entry.Lowers.refl (entry : Entry) : entry.Lowers entry := ⟨id, id⟩

theorem Entry.Lowers.trans {a b c : Entry} (first : a.Lowers b) (second : b.Lowers c) : a.Lowers c :=
  ⟨first.1 ∘ second.1, first.2 ∘ second.2⟩

theorem Entry.Lowers.isClear {entry entry' : Entry} (lowers : entry.Lowers entry') (clear : entry.isClear) :
    entry'.isClear := by
  obtain ⟨request, update⟩ := lowers
  simp only [Entry.isClear, Bool.and_eq_true, Bool.not_eq_true', ← Bool.not_eq_true] at clear ⊢
  exact ⟨fun set => clear.1 (request set), fun set => clear.2 (update set)⟩

/-- One entry is changed. -/
theorem lowers_update {entry : Entry} (i n : ℕ) (lowers : (r.entries i).Lowers entry) :
    (r.entries n).Lowers (update r.entries i entry n) := by
  by_cases same : n = i
  · rw [same, update_self]
    exact lowers
  · rw [update_of_ne same]
    exact .refl _

/-- A result changes the entry of the server, and no flag is set. -/
theorem handleGetNodeInfoResponse_spec (server : ℕ) (response : Option ℕ) :
    ∃ entry,
      (r.handleGetNodeInfoResponse server response).2 = { r with entries := update r.entries server entry } ∧
        (r.entries server).Lowers entry ∧
          (r.handleGetNodeInfoResponse server response).1.filterMap Notice.pick = [] := by
  unfold handleGetNodeInfoResponse
  cases response with
  | some uptimeSec => exact ⟨_, rfl, ⟨nofun, id⟩, rfl⟩
  | none =>
    dsimp only
    split
    · split
      · exact ⟨_, rfl, ⟨nofun, id⟩, rfl⟩
      · exact ⟨_, rfl, ⟨id, id⟩, rfl⟩
    · exact ⟨_, by rw [update_eq_self], .refl _, rfl⟩

theorem handleTimerEvent_spec (called : Bool) :
    (r.handleTimerEvent called).2.monitor = r.monitor ∧
      (r.entries n).Lowers ((r.handleTimerEvent called).2.entries n) := by
  unfold handleTimerEvent
  split
  · exact ⟨rfl, lowers_update _ n ⟨id, nofun⟩⟩
  · exact ⟨rfl, .refl _⟩

section

variable [DsdlConstants]

theorem lowers_handleNodeStatusChange {event : NodeStatusChangeEvent} (offline : event.status.mode = modeOffline) :
    (r.entries n).Lowers ((r.handleNodeStatusChange event).entries n) := by
  unfold handleNodeStatusChange
  dsimp only
  split
  · exact lowers_update _ n ⟨by simp [offline], id⟩
  · exact .refl _

theorem lowers_foldl {events : List NodeStatusChangeEvent}
    (offline : ∀ event ∈ events, event.status.mode = modeOffline) :
    (r.entries n).Lowers ((events.foldl handleNodeStatusChange r).entries n) := by
  induction events generalizing r with
  | nil => exact .refl _
  | cons event events ih =>
    obtain ⟨here, later⟩ := forall_mem_cons.mp offline
    exact (lowers_handleNodeStatusChange here).trans (ih later)

/-- A message has to do with the entry of its node only. -/
theorem entries_message {src : ℕ} (other : n ≠ src) (msg : Message) :
    (r.exec offlineTimeoutMs (.message src msg)).2.entries n = r.entries n := by
  refine (update_of_ne other ..).trans ?_
  simp only [statusChanged, handleNodeStatus, changeNodeStatus]
  split
  · rw [foldl_cons, foldl_nil, handleNodeStatusChange]
    dsimp only
    split
    · exact update_of_ne other ..
    · rfl
  · rfl

/-- The flags of a node are set only by a message of the node. -/
theorem lowers_exec (offlineTimeoutMs : ℕ) {action : Action} (quiet : ∀ msg, action ≠ .message n msg) :
    (r.entries n).Lowers ((r.exec offlineTimeoutMs action).2.entries n) := by
  cases action with
  | message src msg =>
    rw [entries_message fun same : n = src => quiet msg (same ▸ rfl)]
    exact .refl _
  | monitorTimer =>
    refine lowers_foldl fun event raised => ?_
    obtain ⟨i, -, raised⟩ := mem_flatMap.mp raised
    exact (event_of_tick raised).2
  | result server response =>
    rw [exec]
    split
    · obtain ⟨entry, result, lowers, -⟩ :=
        handleGetNodeInfoResponse_spec (r := { r with pendingCalls := r.pendingCalls.erase server }) server response
      rw [result]
      exact lowers_update server n lowers
    · exact .refl _
  | timer called =>
    rw [exec]
    split
    · exact (handleTimerEvent_spec called).2
    · exact .refl _
  | forgetNode node => exact .refl _
  | forgetAllNodes => exact .refl _
  | invalidateAll => exact ⟨nofun, nofun⟩
  | setNumRequestAttempts num => exact .refl _

/-! ## Unknown nodes -/

/-- A node that the monitor does not know has no flag set. -/
def Clean (r : NodeInfoRetriever) : Prop := ∀ n, (r.monitor n).isKnown = false → (r.entries n).isClear

/-- The monitor is not told to forget a node that has a flag set. -/
def Harmless (r : NodeInfoRetriever) : Action → Prop
  | .forgetNode node => (r.entries node).isClear
  | .forgetAllNodes => ∀ n, (r.entries n).isClear
  | _ => True

/-- What becomes of the entry of a node in the monitor. -/
inductive MonitorStep (offlineTimeoutMs n : ℕ) (entry : NodeStatusMonitor.Entry) :
    Action → NodeStatusMonitor.Entry → Prop
  | heard (msg : Message) : MonitorStep offlineTimeoutMs n entry (.message n msg) ⟨msg.status, 0⟩
  | ticked : MonitorStep offlineTimeoutMs n entry .monitorTimer (tick offlineTimeoutMs n entry).2
  | forgotten {action : Action}
      (forgets : action = .forgetNode n ∨ action = .forgetAllNodes ∨ action = .invalidateAll) :
      MonitorStep offlineTimeoutMs n entry action .init
  | kept {action : Action} (quiet : ∀ msg, action ≠ .message n msg) (remembers : action ≠ .forgetNode n)
      (others : action ≠ .forgetAllNodes) : MonitorStep offlineTimeoutMs n entry action entry

theorem monitor_exec (offlineTimeoutMs : ℕ) (r : NodeInfoRetriever) (n : ℕ) (action : Action) :
    MonitorStep offlineTimeoutMs n (r.monitor n) action ((r.exec offlineTimeoutMs action).2.monitor n) := by
  cases action with
  | message src msg =>
    by_cases own : n = src
    · subst own
      rw [show (r.exec offlineTimeoutMs (.message n msg)).2.monitor n = _ from update_self ..]
      exact .heard msg
    · rw [show (r.exec offlineTimeoutMs (.message src msg)).2.monitor n = _ from update_of_ne own ..]
      exact .kept (fun _ same => own (Action.message.inj same).1.symm) nofun nofun
  | monitorTimer =>
    rw [exec]
    dsimp only [statusChanged, NodeStatusMonitor.handleTimerEvent]
    split
    · exact .ticked
    · exact .kept nofun nofun nofun
  | result server response =>
    rw [exec]
    split
    · obtain ⟨entry, result, -⟩ :=
        handleGetNodeInfoResponse_spec (r := { r with pendingCalls := r.pendingCalls.erase server }) server response
      rw [result]
      exact .kept nofun nofun nofun
    · exact .kept nofun nofun nofun
  | timer called =>
    rw [exec]
    split
    · rw [(handleTimerEvent_spec (n := n) called).1]
      exact .kept nofun nofun nofun
    · exact .kept nofun nofun nofun
  | forgetNode node =>
    by_cases own : n = node
    · subst own
      rw [show (r.exec offlineTimeoutMs (.forgetNode n)).2.monitor n = _ from update_self ..]
      exact .forgotten (.inl rfl)
    · rw [show (r.exec offlineTimeoutMs (.forgetNode node)).2.monitor n = _ from update_of_ne own ..]
      exact .kept nofun (fun same => own (Action.forgetNode.inj same).symm) nofun
  | forgetAllNodes => exact .forgotten (.inr (.inl rfl))
  | invalidateAll => exact .forgotten (.inr (.inr rfl))
  | setNumRequestAttempts num => exact .kept nofun nofun nofun

theorem inRange_exec (small : offlineTimeoutMs / 100 + 2 ≤ 127) (action : Action)
    (inRange : ∀ n, (r.monitor n).InRange offlineTimeoutMs) (n : ℕ) :
    ((r.exec offlineTimeoutMs action).2.monitor n).InRange offlineTimeoutMs := by
  have step := monitor_exec offlineTimeoutMs r n action
  generalize (r.exec offlineTimeoutMs action).2.monitor n = entry' at step ⊢
  cases step with
  | heard msg => exact ⟨show (-1 : ℤ) ≤ 0 by decide, show 0 ≤ (offlineTimeoutMs : ℤ) / 100 by omega⟩
  | ticked => exact inRange_execNode small (n := n) (inRange n) .timer
  | forgotten _ => exact inRange_init
  | kept _ _ _ => exact inRange n

/-- An action keeps the flags of unknown nodes clear exactly if it is harmless. -/
theorem clean_exec_iff (small : offlineTimeoutMs / 100 + 2 ≤ 127)
    (inRange : ∀ n, (r.monitor n).InRange offlineTimeoutMs) (clean : r.Clean) (action : Action) :
    (r.exec offlineTimeoutMs action).2.Clean ↔ r.Harmless action := by
  constructor
  · intro clean'
    cases action with
    | forgetNode node =>
      refine clean' node ?_
      rw [show (r.exec offlineTimeoutMs (.forgetNode node)).2.monitor node = _ from update_self ..]
      rfl
    | forgetAllNodes => exact fun n => clean' n rfl
    | _ => trivial
  · intro harmless n unknown
    have step := monitor_exec offlineTimeoutMs r n action
    have clear (quiet : ∀ msg, action ≠ .message n msg) (clear : (r.entries n).isClear) :=
      (lowers_exec offlineTimeoutMs quiet).isClear clear
    generalize (r.exec offlineTimeoutMs action).2.monitor n = entry' at step unknown
    cases step with
    | heard msg => cases unknown
    | ticked =>
      rw [isKnown_tick small (inRange n)] at unknown
      exact clear nofun (clean n unknown)
    | forgotten forgets =>
      rcases forgets with rfl | rfl | rfl
      · exact clear nofun harmless
      · exact clear nofun (harmless n)
      · rfl
    | kept quiet _ _ => exact clear quiet (clean n unknown)

/-- After each action the flags of unknown nodes are clear, exactly if no node is forgotten that has one set. -/
theorem clean_run_iff (offlineTimeoutMs : ℕ) (small : offlineTimeoutMs / 100 + 2 ≤ 127) (actions : List Action) :
    (∀ done, done <+: actions → (Machines.after (exec offlineTimeoutMs) done init).Clean) ↔
      Machines.Permitted (exec offlineTimeoutMs) Harmless actions init := by
  have clean : init.Clean := fun _ _ => rfl
  have inRange (n : ℕ) : (init.monitor n).InRange offlineTimeoutMs := inRange_init
  generalize init = r at clean inRange
  induction actions generalizing r with
  | nil =>
    refine iff_of_true (fun done short => ?_) trivial
    rw [prefix_nil.mp short]
    exact clean
  | cons action actions ih =>
    rw [Machines.Permitted, ← clean_exec_iff small inRange clean]
    constructor
    · intro always
      have first := always [action] (by simp)
      exact ⟨first, (ih _ first (inRange_exec small action inRange)).mp fun done short =>
        always (action :: done) (cons_prefix_cons.mpr ⟨rfl, short⟩)⟩
    · rintro ⟨first, later⟩ done short
      rcases prefix_cons_iff.mp short with rfl | ⟨done, rfl, rest⟩
      · exact clean
      · exact (ih _ first (inRange_exec small action inRange)).mpr later done rest

end

local instance : DsdlConstants := .values

/-- A node comes, is asked, answers, and is forgotten only then. -/
theorem clean_run_polite :
    Machines.Permitted (exec 3000) Harmless
        [.message 5 ⟨0, 0, 0, 1⟩, .timer true, .result 5 (some 1), .forgetNode 5] init ∧
      ∀ done, done <+: [.message 5 ⟨0, 0, 0, 1⟩, .timer true, .result 5 (some 1), .forgetNode 5] →
        (Machines.after (exec 3000) done init).Clean :=
  ⟨⟨trivial, trivial, trivial, rfl, trivial⟩,
    (clean_run_iff 3000 (by decide) _).mpr ⟨trivial, trivial, trivial, rfl, trivial⟩⟩

/-- A node comes and is forgotten at once: it is unknown, and a request to it is needed. -/
theorem forgotten_with_flags :
    ((Machines.after (exec 3000) [.message 5 ⟨0, 0, 0, 1⟩, .forgetNode 5] init).monitor 5).isKnown = false ∧
      ((Machines.after (exec 3000) [.message 5 ⟨0, 0, 0, 1⟩, .forgetNode 5] init).entries 5).requestNeeded = true ∧
        ((Machines.after (exec 3000) [.message 5 ⟨0, 0, 0, 1⟩, .forgetNode 5] init).entries 5).updatedSinceLastAttempt =
          true := by
  decide

/-! ## The request timer -/

/-- The timer runs while a request is needed. -/
def Served (r : NodeInfoRetriever) : Prop := ∀ n ∈ nodeIds, (r.entries n).requestNeeded → r.isRunning

/-- The node may be picked. -/
def Eligible (r : NodeInfoRetriever) (n : ℕ) : Prop :=
  (r.entries n).requestNeeded && (r.entries n).updatedSinceLastAttempt && n ∉ r.pendingCalls

theorem mem_nodeIds : n ∈ nodeIds ↔ 1 ≤ n ∧ n ≤ 127 := by
  rw [nodeIds, mem_range'_1]
  omega

/-- The loop ends with the next node that may be picked, or has found none; then it knows whether a request is needed
by a node that it has seen. -/
theorem pickLoop_cases (turns last : ℕ) (needed : Bool) (bound : last ≤ 127) :
    (∃ pick needed', r.pickLoop turns last needed = (some pick, needed', pick) ∧ pick ∈ nodeIds ∧ r.Eligible pick ∧
      ∀ n ∈ nodeIds, r.Eligible n → Machines.ahead 127 last pick ≤ Machines.ahead 127 last n) ∨
    ∃ needed' last', r.pickLoop turns last needed = (none, needed', last') ∧ last' ≤ 127 ∧
      (needed' = false → needed = false) ∧ ∀ n ∈ nodeIds, Machines.ahead 127 last n < turns →
        ¬r.Eligible n ∧ (needed' = false → (r.entries n).requestNeeded = false) := by
  induction turns generalizing last needed with
  | zero => exact .inr ⟨needed, last, rfl, bound, id, nofun⟩
  | succ turns ih =>
    simp only [pickLoop]
    generalize next_eq : (if last + 1 > 127 then 1 else last + 1) = next
    have range : 1 ≤ next ∧ next ≤ 127 := by split at next_eq <;> omega
    have first : Machines.ahead 127 last next = 0 := by
      unfold Machines.ahead
      split_ifs at * <;> omega
    have later {n : ℕ} (here : n ∈ nodeIds) (other : n ≠ next) :
        Machines.ahead 127 last n = Machines.ahead 127 next n + 1 := by
      have := mem_nodeIds.mp here
      unfold Machines.ahead
      split_ifs at * <;> omega
    split
    · rename_i eligible
      exact .inl ⟨next, _, rfl, mem_nodeIds.mpr range, eligible, fun n _ _ => first ▸ Nat.zero_le _⟩
    · rename_i ineligible
      rcases ih next (needed || (r.entries next).requestNeeded) range.2 with
        ⟨pick, needed', picked, here, may, nearest⟩ | ⟨needed', last', found, bound', kept, seen⟩
      · refine .inl ⟨pick, needed', picked, here, may, fun n here' may' => ?_⟩
        rw [later here (fun same => ineligible (same ▸ may)), later here' (fun same => ineligible (same ▸ may'))]
        exact Nat.succ_le_succ (nearest n here' may')
      · have clear (none : needed' = false) := Bool.or_eq_false_iff.mp (kept none)
        refine .inr ⟨needed', last', found, bound', fun none => (clear none).1, fun n here near => ?_⟩
        by_cases same : n = next
        · subst same
          exact ⟨ineligible, fun none => (clear none).2⟩
        · rw [later here same] at near
          exact seen n here (Nat.lt_of_succ_lt_succ near)

/-- One entry is changed; if it needs a request then, the timer runs. -/
theorem Served.update {r' : NodeInfoRetriever} {i : ℕ} {entry : Entry} (served : r.Served)
    (entries : r'.entries = update r.entries i entry)
    (own : i ∈ nodeIds → entry.requestNeeded → r'.isRunning) (kept : r.isRunning → r'.isRunning) : r'.Served := by
  intro n here request
  rw [entries] at request
  by_cases same : n = i
  · rw [same, update_self] at request
    exact own (same ▸ here) request
  · rw [update_of_ne same] at request
    exact kept (served n here request)

theorem served_handleNodeStatusMessage (served : r.Served) (src : ℕ) (msg : Message) :
    (r.handleNodeStatusMessage src msg).Served := by
  refine served.update rfl (fun here request => ?_) fun running => Bool.or_eq_true_iff.mpr (.inr running)
  unfold handleNodeStatusMessage
  by_cases restarted : msg.uptimeSec < (r.entries src).uptimeSec
  · exact Bool.or_eq_true_iff.mpr (.inl (decide_eq_true restarted))
  · rw [if_neg restarted] at request
    exact Bool.or_eq_true_iff.mpr (.inr (served src here request))

/-- The timer is stopped only when no node needs a request. -/
theorem served_handleTimerEvent (served : r.Served) (bound : r.lastPickedNode ≤ 127) (called : Bool) :
    (r.handleTimerEvent called).2.Served ∧ (r.handleTimerEvent called).2.lastPickedNode ≤ 127 := by
  unfold handleTimerEvent
  rcases pickLoop_cases (r := r) 127 r.lastPickedNode false bound with
    ⟨pick, needed', picked, here, -, -⟩ | ⟨needed', last', found, bound', -, seen⟩
  · rw [picked]
    exact ⟨served.update rfl (served pick) id, (mem_nodeIds.mp here).2⟩
  · rw [found]
    refine ⟨fun n here request => ?_, bound'⟩
    cases needed' with
    | true => exact served n here request
    | false =>
      have near : Machines.ahead 127 r.lastPickedNode n < 127 := by
        have := mem_nodeIds.mp here
        unfold Machines.ahead
        split_ifs <;> omega
      cases ((seen n here near).2 rfl).symm.trans request

section

variable [DsdlConstants]

theorem served_handleNodeStatusChange (served : r.Served) (event : NodeStatusChangeEvent) :
    (r.handleNodeStatusChange event).Served := by
  unfold handleNodeStatusChange
  dsimp only
  split
  · exact served.update rfl (fun _ request => Bool.or_eq_true_iff.mpr (.inl request))
      fun running => Bool.or_eq_true_iff.mpr (.inr running)
  · exact served

theorem served_statusChanged (served : r.Served) (changes : List NodeStatusChangeEvent × NodeStatusMonitor.Entries) :
    (r.statusChanged changes).Served := by
  obtain ⟨events, monitor⟩ := changes
  have fold : (events.foldl handleNodeStatusChange r).Served := by
    induction events generalizing r with
    | nil => exact served
    | cons event events ih => exact ih (served_handleNodeStatusChange served event)
  exact fold

theorem lastPickedNode_statusChanged (changes : List NodeStatusChangeEvent × NodeStatusMonitor.Entries) :
    (r.statusChanged changes).lastPickedNode = r.lastPickedNode := by
  obtain ⟨events, monitor⟩ := changes
  change (events.foldl handleNodeStatusChange r).lastPickedNode = r.lastPickedNode
  induction events generalizing r with
  | nil => rfl
  | cons event events ih =>
    rw [foldl_cons, ih]
    unfold handleNodeStatusChange
    dsimp only
    split
    · rfl
    · rfl

def Action.isTimer : Action → Bool
  | .timer _ => true
  | _ => false

/-- Only the timer makes a pick. -/
theorem exec_of_not_timer (offlineTimeoutMs : ℕ) (r : NodeInfoRetriever) {action : Action}
    (other : action.isTimer = false) :
    (r.exec offlineTimeoutMs action).2.lastPickedNode = r.lastPickedNode ∧
      (r.exec offlineTimeoutMs action).1.filterMap Notice.pick = [] ∧
        (r.Served → (r.exec offlineTimeoutMs action).2.Served) := by
  cases action with
  | message src msg =>
    refine ⟨lastPickedNode_statusChanged _, ?_, fun served =>
      served_handleNodeStatusMessage (served_statusChanged served _) src msg⟩
    simp [exec, comp_def, Notice.pick]
  | monitorTimer =>
    refine ⟨lastPickedNode_statusChanged _, ?_, fun served => served_statusChanged served _⟩
    simp [exec, comp_def, Notice.pick]
  | result server response =>
    rw [exec]
    split
    · obtain ⟨entry, result, lowers, none⟩ :=
        handleGetNodeInfoResponse_spec (r := { r with pendingCalls := r.pendingCalls.erase server }) server response
      rw [result, none]
      exact ⟨rfl, rfl, fun served => served.update rfl (fun here request => served server here (lowers.1 request)) id⟩
    · exact ⟨rfl, rfl, id⟩
  | timer called => cases other
  | forgetNode node => exact ⟨rfl, rfl, id⟩
  | forgetAllNodes => exact ⟨rfl, rfl, id⟩
  | invalidateAll => exact ⟨rfl, rfl, fun _ => nofun⟩
  | setNumRequestAttempts num => exact ⟨rfl, rfl, id⟩

theorem served_exec (action : Action) (inv : r.Served ∧ r.lastPickedNode ≤ 127) :
    (r.exec offlineTimeoutMs action).2.Served ∧ (r.exec offlineTimeoutMs action).2.lastPickedNode ≤ 127 := by
  obtain ⟨served, bound⟩ := inv
  cases other : action.isTimer with
  | false =>
    obtain ⟨same, -, kept⟩ := exec_of_not_timer offlineTimeoutMs r other
    exact ⟨kept served, same ▸ bound⟩
  | true =>
    cases action with
    | timer called =>
      rw [exec]
      split
      · exact served_handleTimerEvent served bound called
      · exact ⟨served, bound⟩
    | _ => cases other

/-- The nodes that are picked in a run. -/
def picks (offlineTimeoutMs : ℕ) (actions : List Action) (r : NodeInfoRetriever) : List ℕ :=
  (Machines.answers (exec offlineTimeoutMs) actions r).flatten.filterMap Notice.pick

/-- A node is eligible whenever the timer makes a pick. -/
def StaysEligible (n : ℕ) (r : NodeInfoRetriever) (action : Action) : Prop := action.isTimer → r.Eligible n

/-- While a node is eligible, the cursor goes toward it with every event of the timer. -/
theorem toward_picks (here : n ∈ nodeIds) {actions : List Action} (inv : r.Served ∧ r.lastPickedNode ≤ 127)
    (eligible : Machines.Permitted (exec offlineTimeoutMs) (StaysEligible n) actions r) :
    Machines.Toward 127 n r.lastPickedNode (picks offlineTimeoutMs actions r) ∧
      (picks offlineTimeoutMs actions r).length = actions.countP Action.isTimer := by
  induction actions generalizing r with
  | nil => exact ⟨trivial, rfl⟩
  | cons action actions ih =>
    obtain ⟨now, later⟩ := eligible
    obtain ⟨toward, length⟩ := ih (served_exec action inv) later
    rw [picks, Machines.answers, flatten_cons, filterMap_append, ← picks, countP_cons]
    cases timer : action.isTimer with
    | false =>
      obtain ⟨same, none, -⟩ := exec_of_not_timer offlineTimeoutMs r timer
      rw [same] at toward
      rw [none]
      exact ⟨toward, length⟩
    | true =>
      cases action with
      | timer called =>
        have may := now rfl
        have request : (r.entries n).requestNeeded := by
          simp only [Eligible, Bool.and_eq_true] at may
          exact may.1.1
        have near : Machines.ahead 127 r.lastPickedNode n < 127 := by
          have := mem_nodeIds.mp here
          unfold Machines.ahead
          split <;> omega
        rcases pickLoop_cases (r := r) 127 r.lastPickedNode false inv.2 with
          ⟨pick, needed', picked, mem, -, nearest⟩ | ⟨_, _, -, -, -, seen⟩
        · have range := mem_nodeIds.mp mem
          simp only [exec, if_pos (inv.1 n here request), handleTimerEvent, picked] at toward length ⊢
          exact ⟨⟨range.1, range.2, nearest n here may, toward⟩, congrArg (· + 1) length⟩
        · exact absurd may (seen n here near).1
      | _ => cases timer

/-- After any actions the timer runs if a request is needed; and from then on, while a node is eligible and is not
picked, each event of the timer picks another node, and there are 126 picks at most. -/
theorem serves_everyone (offlineTimeoutMs : ℕ) (actions : List Action) (r : NodeInfoRetriever)
    (now : r = Machines.after (exec offlineTimeoutMs) actions init) :
    r.Served ∧
      ∀ n ∈ nodeIds, ∀ more, Machines.Permitted (exec offlineTimeoutMs) (StaysEligible n) more r →
        n ∉ picks offlineTimeoutMs more r →
          (picks offlineTimeoutMs more r).Nodup ∧ (picks offlineTimeoutMs more r).length ≤ 126 ∧
            (picks offlineTimeoutMs more r).length = more.countP Action.isTimer := by
  have inv : r.Served ∧ r.lastPickedNode ≤ 127 := by
    rw [now]
    exact Machines.after_invariant (P := fun r : NodeInfoRetriever => r.Served ∧ r.lastPickedNode ≤ 127)
      served_exec actions ⟨nofun, (by decide : 1 ≤ 127)⟩
  refine ⟨inv.1, fun n here more eligible missed => ?_⟩
  obtain ⟨toward, length⟩ := toward_picks here inv eligible
  have range := mem_nodeIds.mp here
  obtain ⟨nodup, short, -⟩ := toward.nodup inv.2 range.1 range.2 missed
  unfold Machines.ahead at short
  exact ⟨nodup, by split at short <;> omega, length⟩

end

/-- Two nodes come; the second one is eligible while the first one is picked. -/
theorem serves_two_nodes :
    (Machines.after (exec 3000) [.message 5 ⟨0, 0, 0, 1⟩, .message 6 ⟨0, 0, 0, 1⟩] init).Served ∧
      (picks 3000 [.timer true]
        (Machines.after (exec 3000) [.message 5 ⟨0, 0, 0, 1⟩, .message 6 ⟨0, 0, 0, 1⟩] init)).length = 1 :=
  have served := serves_everyone 3000 [.message 5 ⟨0, 0, 0, 1⟩, .message 6 ⟨0, 0, 0, 1⟩] _ rfl
  ⟨served.1, (served.2 6 (by decide) [.timer true] ⟨fun _ => rfl, trivial⟩ (by decide)).2.2⟩

end NodeInfoRetriever

end Uavcan
