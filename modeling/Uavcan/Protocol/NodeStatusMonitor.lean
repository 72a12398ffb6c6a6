import Mathlib.Data.Int.Order.Basic
import Mathlib.Logic.Function.Basic
import Uavcan.Machines.Answers

/-!
# The status of other nodes

`NodeStatusMonitor` has the last status of every node and how long ago it came, in units of 100 ms in a signed
byte. A timer counts the time up every 200 ms; a node that has been silent for longer than the timeout is taken to
be offline. A change of the status of a node is reported by an event.
-/

namespace Uavcan

open List Function

/-- The constants of the generated message types: `protocol::NodeStatus::HEALTH_CRITICAL` and `MODE_OFFLINE`, and
`protocol::file::Path::SEPARATOR`. -/
class DsdlConstants where
  healthCritical : UInt8
  modeOffline : UInt8
  separator : UInt8

/-- The values in the definitions of the types. -/
abbrev DsdlConstants.values : DsdlConstants := ⟨3, 7, 47⟩

open DsdlConstants

namespace NodeStatusMonitor

structure NodeStatus where
  health : UInt8
  mode : UInt8
  subMode : UInt8
  deriving DecidableEq

structure NodeStatusChangeEvent where
  nodeId : ℕ
  status : NodeStatus
  oldStatus : NodeStatus
  wasKnown : Bool
  deriving DecidableEq

/-- The time is a signed byte, negative if the node is unknown. -/
structure Entry where
  status : NodeStatus
  timeSinceLastUpdateMs100 : ℤ

def Entry.isKnown (entry : Entry) : Bool := entry.timeSinceLastUpdateMs100 ≥ 0

/-- A `protocol::NodeStatus` message. -/
structure Message where
  health : UInt8
  mode : UInt8
  subMode : UInt8
  uptimeSec : ℕ

def Message.status (msg : Message) : NodeStatus := ⟨msg.health &&& 3, msg.mode &&& 7, msg.subMode &&& 7⟩

/-- A conversion to `int8_t`. -/
def toInt8 (x : ℤ) : ℤ := Int.bmod x 256

def timerPeriodMs100 : ℤ := 2

/-- The event, if there is one, and the entry of the node then. -/
def changeNodeStatus (nodeId : ℕ) (entry newEntryValue : Entry) : List NodeStatusChangeEvent × Entry :=
  (if entry.status ≠ newEntryValue.status then
      [⟨nodeId, newEntryValue.status, entry.status, entry.isKnown⟩]
    else [],
    newEntryValue)

theorem changeNodeStatus_fst (nodeId : ℕ) (entry new : Entry) :
    (changeNodeStatus nodeId entry new).1 =
      if entry.status = new.status then [] else [⟨nodeId, new.status, entry.status, entry.isKnown⟩] := ite_not ..

/-- The status of a node, by the events: each starts from the one that the last one has left. -/
def Follows : NodeStatus → List NodeStatusChangeEvent → NodeStatus → Prop
  | status, [], last => status = last
  | status, event :: events, last => event.oldStatus = status ∧ Follows event.status events last

theorem Follows.append {first middle last : NodeStatus} {events more : List NodeStatusChangeEvent}
    (follows : Follows first events middle) (further : Follows middle more last) :
    Follows first (events ++ more) last := by
  induction events generalizing first with
  | nil => exact follows ▸ further
  | cons event events ih => exact ⟨follows.1, ih follows.2⟩

section

variable [DsdlConstants]

/-- `NodeStatus()`. -/
def NodeStatus.unknown : NodeStatus := ⟨healthCritical, modeOffline, 0⟩

def NodeStatus.offline (status : NodeStatus) : NodeStatus := { status with mode := modeOffline }

def Entry.init : Entry := ⟨.unknown, -1⟩

/-- One turn of the loop of `handleTimerEvent`; the timeout is `OFFLINE_TIMEOUT_MS`. -/
def tick (offlineTimeoutMs nodeId : ℕ) (entry : Entry) : List NodeStatusChangeEvent × Entry :=
  if entry.isKnown ∧ entry.status.mode ≠ modeOffline then
    let entry := { entry with
      timeSinceLastUpdateMs100 := toInt8 (entry.timeSinceLastUpdateMs100 + toInt8 timerPeriodMs100) }
    let offlineTimeoutMs100 : ℤ := offlineTimeoutMs / 100
    if entry.timeSinceLastUpdateMs100 > offlineTimeoutMs100 then
      changeNodeStatus nodeId entry ⟨entry.status.offline, toInt8 offlineTimeoutMs100⟩
    else ([], entry)
  else ([], entry)

/-- The node IDs of the entries. -/
def nodeIds : List ℕ := range' 1 127

/-- The entries by node ID. -/
abbrev Entries := ℕ → Entry

def handleNodeStatus (entries : Entries) (src : ℕ) (msg : Message) : List NodeStatusChangeEvent × Entries :=
  let (events, entry) := changeNodeStatus src (entries src) ⟨msg.status, 0⟩
  (events, update entries src entry)

/-- A turn of the loop has to do with one entry only. -/
def handleTimerEvent (offlineTimeoutMs : ℕ) (entries : Entries) : List NodeStatusChangeEvent × Entries :=
  (nodeIds.flatMap fun i => (tick offlineTimeoutMs i (entries i)).1,
    fun i => if i ∈ nodeIds then (tick offlineTimeoutMs i (entries i)).2 else entries i)

inductive Action
  | message (src : ℕ) (msg : Message)
  | timer

def Action.isTimer : Action → Bool
  | .message _ _ => false
  | .timer => true

def exec (offlineTimeoutMs : ℕ) (entries : Entries) : Action → List NodeStatusChangeEvent × Entries
  | .message src msg => handleNodeStatus entries src msg
  | .timer => handleTimerEvent offlineTimeoutMs entries

/-! ## One node -/

/-- The events of one node. -/
def eventsOf (n : ℕ) (events : List NodeStatusChangeEvent) : List NodeStatusChangeEvent :=
  events.filter fun event => event.nodeId = n

/-- What an action does to the entry of a node, and the events of the node. -/
def execNode (offlineTimeoutMs n : ℕ) (entry : Entry) : Action → List NodeStatusChangeEvent × Entry
  | .message src msg => if src = n then changeNodeStatus n entry ⟨msg.status, 0⟩ else ([], entry)
  | .timer => tick offlineTimeoutMs n entry

variable {offlineTimeoutMs n : ℕ}

variable {entry : Entry}

/-- An event of a tick is of the node whose turn it is, and the node goes offline. -/
theorem event_of_tick {i : ℕ} {event : NodeStatusChangeEvent}
    (raised : event ∈ (tick offlineTimeoutMs i entry).1) :
    event.nodeId = i ∧ event.status.mode = modeOffline := by
  unfold tick at raised
  split at raised
  · dsimp only at raised
    split at raised
    · rw [changeNodeStatus_fst] at raised
      split at raised
      · cases raised
      · rw [mem_singleton.mp raised]
        exact ⟨rfl, rfl⟩
    · cases raised
  · cases raised

theorem eventsOf_exec (here : n ∈ nodeIds) (entries : Entries) (action : Action) :
    (eventsOf n (exec offlineTimeoutMs entries action).1, (exec offlineTimeoutMs entries action).2 n) =
      execNode offlineTimeoutMs n (entries n) action := by
  cases action with
  | message src msg =>
    simp only [exec, handleNodeStatus, execNode, changeNodeStatus, eventsOf]
    by_cases own : src = n
    · subst own
      rw [if_pos rfl, update_self, filter_eq_self.mpr]
      intro event raised
      split at raised
      · simp [mem_singleton.mp raised]
      · cases raised
    · rw [if_neg own, update_of_ne (Ne.symm own), filter_eq_nil_iff.mpr]
      intro event raised
      split at raised
      · simp [mem_singleton.mp raised, own]
      · cases raised
  | timer =>
    refine Prod.ext ?_ (if_pos here)
    have others {l : List ℕ} (absent : n ∉ l) :
        eventsOf n (l.flatMap fun i => (tick offlineTimeoutMs i (entries i)).1) = [] := by
      refine filter_eq_nil_iff.mpr fun event raised own => absent ?_
      obtain ⟨i, member, raised⟩ := mem_flatMap.mp raised
      exact of_decide_eq_true own ▸ (event_of_tick raised).1 ▸ member
    have own : eventsOf n (tick offlineTimeoutMs n (entries n)).1 = _ :=
      filter_eq_self.mpr fun event raised => decide_eq_true (event_of_tick raised).1
    obtain ⟨before, after, split⟩ := append_of_mem here
    have once : (before ++ n :: after).Nodup := split ▸ nodup_range'
    rw [perm_middle.nodup_iff, nodup_cons, mem_append, not_or] at once
    rw [exec, handleTimerEvent, split, flatMap_append, flatMap_cons, eventsOf, filter_append,
      filter_append]
    exact congrArg₂ (· ++ ·) (others once.1.1) (congrArg₂ (· ++ ·) own (others once.1.2)) |>.trans (append_nil _)

/-! ## A run -/

/-- The counter never comes near the end of its range. -/
def Entry.InRange (offlineTimeoutMs : ℕ) (entry : Entry) : Prop :=
  -1 ≤ entry.timeSinceLastUpdateMs100 ∧ entry.timeSinceLastUpdateMs100 ≤ offlineTimeoutMs / 100

theorem inRange_init : Entry.init.InRange offlineTimeoutMs :=
  ⟨show (-1 : ℤ) ≤ -1 from le_rfl, show (-1 : ℤ) ≤ offlineTimeoutMs / 100 by omega⟩

section Range

variable (small : offlineTimeoutMs / 100 + 2 ≤ 127)
include small

/-- What a tick does if the counter is in its range. -/
theorem tick_eq (inRange : entry.InRange offlineTimeoutMs) :
    tick offlineTimeoutMs n entry =
      if entry.isKnown ∧ entry.status.mode ≠ modeOffline then
        if entry.timeSinceLastUpdateMs100 + 2 > offlineTimeoutMs / 100 then
          ([⟨n, entry.status.offline, entry.status, true⟩],
            ⟨entry.status.offline, offlineTimeoutMs / 100⟩)
        else ([], ⟨entry.status, entry.timeSinceLastUpdateMs100 + 2⟩)
      else ([], entry) := by
  obtain ⟨lower, upper⟩ := inRange
  have byte {x : ℤ} (nonneg : -1 ≤ x) (fits : x ≤ 127) : toInt8 x = x := by
    rw [toInt8, Int.bmod_def]
    omega
  have count : toInt8 (entry.timeSinceLastUpdateMs100 + toInt8 timerPeriodMs100) =
      entry.timeSinceLastUpdateMs100 + 2 := by
    rw [show toInt8 timerPeriodMs100 = 2 from rfl]
    exact byte (by omega) (by omega)
  have limit : toInt8 ((offlineTimeoutMs : ℤ) / 100) = offlineTimeoutMs / 100 := byte (by omega) (by omega)
  unfold tick
  simp only [count, limit]
  split
  · rename_i online
    have changed : entry.status ≠ entry.status.offline := fun same =>
      online.2 (congrArg NodeStatus.mode same)
    have known : Entry.isKnown ⟨entry.status, entry.timeSinceLastUpdateMs100 + 2⟩ = true := by
      have known := online.1
      simp only [Entry.isKnown, decide_eq_true_eq] at known ⊢
      omega
    split
    · rw [changeNodeStatus, if_pos changed, known]
    · rfl
  · rfl

theorem inRange_execNode (inRange : entry.InRange offlineTimeoutMs) (action : Action) :
    (execNode offlineTimeoutMs n entry action).2.InRange offlineTimeoutMs := by
  unfold execNode
  split
  · split
    · exact ⟨show (-1 : ℤ) ≤ 0 by decide, show 0 ≤ (offlineTimeoutMs : ℤ) / 100 by omega⟩
    · exact inRange
  · rw [tick_eq small inRange]
    unfold Entry.InRange at inRange ⊢
    split
    · split
      · dsimp only
        omega
      · dsimp only
        omega
    · exact inRange

/-- An event is raised exactly if the status changes. -/
theorem execNode_fst (inRange : entry.InRange offlineTimeoutMs) (action : Action) :
    (execNode offlineTimeoutMs n entry action).1 =
      if entry.status = (execNode offlineTimeoutMs n entry action).2.status then []
      else [⟨n, (execNode offlineTimeoutMs n entry action).2.status, entry.status, entry.isKnown⟩] := by
  unfold execNode
  split
  · split
    · exact changeNodeStatus_fst ..
    · exact (if_pos rfl).symm
  · rw [tick_eq small inRange]
    split
    · rename_i online
      split
      · rw [if_neg fun same => online.2 (congrArg NodeStatus.mode same), online.1]
      · exact (if_pos rfl).symm
    · exact (if_pos rfl).symm

theorem follows_answers (actions : List Action) (inRange : entry.InRange offlineTimeoutMs) :
    Follows entry.status (Machines.answers (execNode offlineTimeoutMs n) actions entry).flatten
      (Machines.after (execNode offlineTimeoutMs n) actions entry).status := by
  induction actions generalizing entry with
  | nil => rfl
  | cons action actions ih =>
    refine Follows.append ?_ (ih (inRange_execNode small inRange action))
    rw [execNode_fst small inRange]
    split
    · rename_i same
      exact same
    · exact ⟨rfl, rfl⟩

theorem isKnown_tick (inRange : entry.InRange offlineTimeoutMs) :
    (tick offlineTimeoutMs n entry).2.isKnown = entry.isKnown := by
  rw [tick_eq small inRange]
  split
  · rename_i online
    rw [online.1]
    have known := of_decide_eq_true online.1
    split
    · exact decide_eq_true (show (offlineTimeoutMs : ℤ) / 100 ≥ 0 by omega)
    · exact decide_eq_true (show entry.timeSinceLastUpdateMs100 + 2 ≥ 0 by omega)
  · rfl

/-- The entry of a node that has been silent for some ticks since a message. -/
def silent (offlineTimeoutMs : ℕ) (status : NodeStatus) (ticks : ℕ) : Entry :=
  if status.mode = modeOffline then ⟨status, 0⟩
  else if 200 * ticks ≤ offlineTimeoutMs then ⟨status, 2 * ticks⟩
  else ⟨status.offline, offlineTimeoutMs / 100⟩

theorem tick_silent (status : NodeStatus) (ticks : ℕ) :
    tick offlineTimeoutMs n (silent offlineTimeoutMs status ticks) =
      (if status.mode ≠ modeOffline ∧ 200 * ticks ≤ offlineTimeoutMs ∧ offlineTimeoutMs < 200 * (ticks + 1) then
          [⟨n, status.offline, status, true⟩]
        else [],
        silent offlineTimeoutMs status (ticks + 1)) := by
  have inRange : (silent offlineTimeoutMs status ticks).InRange offlineTimeoutMs := by
    unfold silent Entry.InRange
    split
    · dsimp only
      omega
    · split
      · dsimp only
        omega
      · dsimp only
        omega
  rw [tick_eq small inRange]
  unfold silent Entry.isKnown
  by_cases offline : status.mode = modeOffline
  · simp [offline]
  · rw [if_neg offline, if_neg offline]
    by_cases early : 200 * ticks ≤ offlineTimeoutMs
    · rw [if_pos early, if_pos ⟨decide_eq_true (show 0 ≤ 2 * (ticks : ℤ) by omega), offline⟩]
      by_cases late : offlineTimeoutMs < 200 * (ticks + 1)
      · rw [if_pos (show 2 * (ticks : ℤ) + 2 > offlineTimeoutMs / 100 by omega), if_pos ⟨offline, early, late⟩,
          if_neg (by omega)]
      · rw [if_neg (show ¬2 * (ticks : ℤ) + 2 > offlineTimeoutMs / 100 by omega), if_neg fun raised => late raised.2.2,
          if_pos (by omega), Int.natCast_succ, Int.mul_add]
        rfl
    · rw [if_neg early, if_neg fun online => online.2 rfl, if_neg fun raised => early raised.2.1, if_neg (by omega)]

/-- A node that is not heard from goes offline once, if it was not offline. -/
theorem answers_silent {actions : List Action} (quiet : ∀ action ∈ actions, ∀ msg, action ≠ .message n msg)
    (status : NodeStatus) (ticks : ℕ) :
    (Machines.answers (execNode offlineTimeoutMs n) actions (silent offlineTimeoutMs status ticks)).flatten =
      if status.mode ≠ modeOffline ∧ 200 * ticks ≤ offlineTimeoutMs ∧
          offlineTimeoutMs < 200 * (ticks + actions.countP Action.isTimer) then
        [⟨n, status.offline, status, true⟩]
      else [] := by
  induction actions generalizing ticks with
  | nil => exact (if_neg fun both => absurd both.2.2 (Nat.not_lt.mpr both.2.1)).symm
  | cons action actions ih =>
    obtain ⟨here, others⟩ := forall_mem_cons.mp quiet
    rw [Machines.answers, flatten_cons, countP_cons]
    cases action with
    | message src msg =>
      have other : src ≠ n := fun same => here msg (same ▸ rfl)
      simp only [execNode, if_neg other]
      exact ih others ticks
    | timer =>
      simp only [execNode, tick_silent small, ih others, Action.isTimer, if_true]
      by_cases now : status.mode ≠ modeOffline ∧ 200 * ticks ≤ offlineTimeoutMs ∧ offlineTimeoutMs < 200 * (ticks + 1)
      · rw [if_pos now, if_neg fun late => by omega, if_pos ⟨now.1, now.2.1, by omega⟩]
        rfl
      · rw [if_neg now, nil_append]
        congr 1
        rw [eq_iff_iff]
        constructor
        · rintro ⟨online, late⟩
          exact ⟨online, by omega⟩
        · rintro ⟨online, late⟩
          have not_now : ¬offlineTimeoutMs < 200 * (ticks + 1) := fun early => now ⟨online, late.1, early⟩
          exact ⟨online, by omega⟩

end Range

/-- The events of a node in a run. -/
def raised (offlineTimeoutMs n : ℕ) (actions : List Action) (entries : Entries) : List NodeStatusChangeEvent :=
  eventsOf n (Machines.answers (exec offlineTimeoutMs) actions entries).flatten

theorem raised_eq (here : n ∈ nodeIds) (actions : List Action) (entries : Entries) :
    raised offlineTimeoutMs n actions entries =
        (Machines.answers (execNode offlineTimeoutMs n) actions (entries n)).flatten ∧
      Machines.after (exec offlineTimeoutMs) actions entries n =
        Machines.after (execNode offlineTimeoutMs n) actions (entries n) := by
  induction actions generalizing entries with
  | nil => exact ⟨rfl, rfl⟩
  | cons action actions ih =>
    obtain ⟨own, entry⟩ := Prod.mk.inj (eventsOf_exec here entries action)
    obtain ⟨later, final⟩ := ih (exec offlineTimeoutMs entries action).2
    rw [entry] at later final
    refine ⟨?_, final⟩
    unfold raised eventsOf at later
    rw [raised, Machines.answers, flatten_cons, eventsOf, filter_append, later]
    exact congrArg (· ++ _) own

/-- From the entries at the start, whatever the actions: the events of a node are a chain from the status that the
node had to the one that it has, each action raises an event exactly if it changes the status, the counter does not
overflow, and after a message the node goes offline once, at the first tick that is later than the timeout. -/
theorem events_exact (offlineTimeoutMs : ℕ) (small : offlineTimeoutMs / 100 + 2 ≤ 127) (n : ℕ) (here : n ∈ nodeIds)
    (actions : List Action) (entries : Entries)
    (now : entries = Machines.after (exec offlineTimeoutMs) actions fun _ => .init) :
    Follows .unknown (raised offlineTimeoutMs n actions fun _ => .init) (entries n).status ∧
      (∀ action, eventsOf n (exec offlineTimeoutMs entries action).1 =
        if (entries n).status = ((exec offlineTimeoutMs entries action).2 n).status then []
        else [⟨n, ((exec offlineTimeoutMs entries action).2 n).status, (entries n).status, (entries n).isKnown⟩]) ∧
      (-1 ≤ (entries n).timeSinceLastUpdateMs100 ∧ (entries n).timeSinceLastUpdateMs100 + 2 ≤ 127) ∧
      ∀ (msg : Message) (later : List Action), (∀ action ∈ later, ∀ msg', action ≠ .message n msg') →
        raised offlineTimeoutMs n later (exec offlineTimeoutMs entries (.message n msg)).2 =
          if msg.status.mode ≠ modeOffline ∧ offlineTimeoutMs < 200 * later.countP Action.isTimer then
            [⟨n, msg.status.offline, msg.status, true⟩]
          else [] := by
  have inRange : (entries n).InRange offlineTimeoutMs := by
    rw [now, (raised_eq here actions _).2]
    exact Machines.after_invariant (P := Entry.InRange offlineTimeoutMs)
      (fun action inRange => inRange_execNode small inRange action) actions inRange_init
  refine ⟨?_, ?_, ⟨inRange.1, by have := inRange.2; omega⟩, ?_⟩
  · rw [now, (raised_eq here actions _).1, (raised_eq here actions _).2]
    exact follows_answers small actions inRange_init
  · intro action
    obtain ⟨own, entry⟩ := Prod.mk.inj (eventsOf_exec here entries action)
    rw [own, entry]
    exact execNode_fst small inRange action
  · intro msg later quiet
    have heard : (exec offlineTimeoutMs entries (.message n msg)).2 n = silent offlineTimeoutMs msg.status 0 := by
      rw [silent, show (exec offlineTimeoutMs entries (.message n msg)).2 n = _ from update_self ..]
      split
      · rfl
      · rfl
    rw [(raised_eq here later _).1, heard, answers_silent small quiet, Nat.zero_add]
    simp

end

local instance : DsdlConstants := .values

/-- A node that is heard once is reported offline after sixteen ticks, with the timeout of three seconds. -/
theorem events_exact_sixteen_ticks :
    raised 3000 5 (replicate 16 .timer)
        (exec 3000 (Machines.after (exec 3000) [.timer] fun _ => .init) (.message 5 ⟨0, 0, 0, 1⟩)).2 =
      [⟨5, ⟨0, 7, 0⟩, ⟨0, 0, 0⟩, true⟩] :=
  (events_exact 3000 (by decide) 5 (by decide) [.timer] _ rfl).2.2.2 ⟨0, 0, 0, 1⟩ _ (by simp)

end NodeStatusMonitor

end Uavcan
