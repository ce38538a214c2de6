import Serf.TableInvariant
import Serf.EventHandler
import Serf.QueryHandler

/-!
One Serf node: the three clocks, the membership table, the event and query
stores, the flag of an ignoring join and the life-cycle state. An operation is
one handler call or one local request, run to its end. `merge_remote_state`
takes no lock across its calls, so it is the list of the operations it makes,
between which others may run. What an operation sends on `event_tx`, returns,
spawns and queues for broadcast is its answer. Waiting for broadcasts, the
memberlist's own leave and shutdown and the snapshotter are left out.
-/

namespace Serf.Core

open Library.Collections Library.Machine Library.Slots
open LamportClock MemberTable EventHandler QueryHandler

variable {Id Address : Type} [DecidableEq Id]

structure SerfCore (Id Address : Type) where
  clock : LamportTime
  members : Members Id Address
  events : EventState
  queries : QueryState
  eventJoinIgnore : Bool
  state : SerfState

/-- The parts of the options, the memberlist and the codec that a node reads. -/
structure NodeEnvironment (Id Address : Type) where
  membership : Environment Id Address
  limits : EventLimits
  query : QueryEnvironment Id Address
  sameId : query.advertiseNode.id = membership.localId
  encodeJoin : JoinMessage Id → Except String Bytes
  encodeLeave : LeaveMessage Id → Except String Bytes

inductive NodeError where
  | badLeaveStatus (state : SerfState)
  | encode (reason : String)
  | userEvent (reason : UserEventError)
  | query (reason : QueryError)
  deriving DecidableEq

structure Answer (Id Address : Type) where
  sent : List (CrateEvent Id Address) := []
  /-- The handler returned true. -/
  rebroadcast : Bool := false
  /-- The time of a join broadcast spawned to refute a leave intent. -/
  refutation : Option LamportTime := none
  ack : Option (Ack Id Address) := none
  broadcasts : List Bytes := []
  error : Option NodeError := none

/-- `status_ltimes` is collected into a map and `left_members` into a set, both
keyed by the id inside the record. -/
def localState (node : SerfCore Id Address) : PushPullMessage Id where
  ltime := node.clock
  statusLtimes := collect (node.members.states.entries.map fun entry =>
    (entry.2.member.node.id, entry.2.statusTime))
  leftMembers := (node.members.leftMembers.map fun m => m.member.node.id).eraseDups
  eventLtime := node.events.clock
  events := node.events.core.buffer.slots.filterMap fun slot => slot
  queryLtime := node.queries.clock

def hasAliveMembers (env : Environment Id Address) (members : Members Id Address) : Bool :=
  members.states.entries.any fun entry =>
    decide (entry.2.member.node.id ≠ env.localId ∧ entry.2.member.status = .alive)

def tableAnswer (outcome : Outcome Id Address) : Answer Id Address :=
  { sent := outcome.sent.map CrateEvent.member
    rebroadcast := outcome.rebroadcast }

def onTable (outcome : Outcome Id Address) (node : SerfCore Id Address) :
    SerfCore Id Address × Answer Id Address :=
  ({ node with members := outcome.members }, tableAnswer outcome)

def joinIntent (now : Epoch) (msg : JoinMessage Id) (node : SerfCore Id Address) :
    SerfCore Id Address × Answer Id Address :=
  let node := { node with clock := witness node.clock msg.ltime }
  onTable (handleNodeJoinIntent now msg node.members) node

def leaveIntent (env : NodeEnvironment Id Address) (now : Epoch) (msg : LeaveMessage Id)
    (node : SerfCore Id Address) : SerfCore Id Address × Answer Id Address :=
  let node := { node with clock := witness node.clock msg.ltime }
  let outcome := handleNodeLeaveIntent env.membership node.state now msg node.members
  let result := onTable outcome node
  (result.1, { result.2 with refutation := if outcome.refutes then some node.clock else none })

/-- `clock.witness(ltime - 1)`, unless the time is zero. -/
def witnessBefore (clock ltime : LamportTime) : LamportTime :=
  if 0 < ltime then witness clock (ltime - 1) else clock

def witnessRemote (ltime eventLtime queryLtime : LamportTime) (node : SerfCore Id Address) :
    SerfCore Id Address :=
  { node with
    clock := witnessBefore node.clock ltime
    events := { node.events with clock := witnessBefore node.events.clock eventLtime }
    queries := { node.queries with clock := witnessBefore node.queries.clock queryLtime } }

def ignoreOldEvents (eventLtime : LamportTime) (node : SerfCore Id Address) :
    SerfCore Id Address :=
  if node.eventJoinIgnore ∧ node.events.core.minTime < eventLtime then
    { node with events :=
      { node.events with core := { node.events.core with minTime := eventLtime } } }
  else node

def broadcastJoin (env : NodeEnvironment Id Address) (now : Epoch) (ltime : LamportTime)
    (node : SerfCore Id Address) : SerfCore Id Address × Answer Id Address :=
  let msg : JoinMessage Id := ⟨ltime, env.membership.localId⟩
  let node := { node with clock := witness node.clock ltime }
  let result := joinIntent now msg node
  -- What the handler returns is not looked at here.
  match env.encodeJoin msg with
  | .ok raw => (result.1, { result.2 with rebroadcast := false, broadcasts := [raw] })
  | .error reason =>
    (result.1, { result.2 with rebroadcast := false, error := some (.encode reason) })

def announceLeave (env : NodeEnvironment Id Address) (now : Epoch) (msg : LeaveMessage Id)
    (node : SerfCore Id Address) : SerfCore Id Address × Answer Id Address :=
  let result := leaveIntent env now msg node
  let answer := { result.2 with rebroadcast := false }
  if hasAliveMembers env.membership result.1.members then
    match env.encodeLeave msg with
    | .ok raw => (result.1, { answer with broadcasts := [raw] })
    | .error reason => (result.1, { answer with error := some (.encode reason) })
  else (result.1, answer)

/-- `leave` up to the broadcast of its intent. -/
def beginLeave (env : NodeEnvironment Id Address) (now : Epoch) (node : SerfCore Id Address) :
    SerfCore Id Address × Answer Id Address :=
  match node.state with
  | .left => (node, {})
  | .leaving => (node, { error := some (.badLeaveStatus .leaving) })
  | .shutdown => (node, { error := some (.badLeaveStatus .shutdown) })
  | .alive =>
    let msg : LeaveMessage Id := ⟨node.clock, env.membership.localId, false⟩
    announceLeave env now msg { node with state := .leaving, clock := increment node.clock }

/-- The end of `leave`. -/
def finishLeave (node : SerfCore Id Address) : SerfCore Id Address :=
  match node.state with
  | .shutdown => node
  | _ => { node with state := .left }

def forceLeave (env : NodeEnvironment Id Address) (now : Epoch) (id : Id) (prune : Bool)
    (node : SerfCore Id Address) : SerfCore Id Address × Answer Id Address :=
  announceLeave env now ⟨node.clock, id, prune⟩ node

def receiveUserEvent (msg : UserEventMessage) (node : SerfCore Id Address) :
    SerfCore Id Address × Answer Id Address :=
  let outcome := handleUserEvent msg node.events
  ({ node with events := outcome.state },
    { sent := outcome.sent.map CrateEvent.user
      rebroadcast := outcome.returned.getD false })

def callUserEvent (env : NodeEnvironment Id Address) (name : String) (payload : Bytes)
    (coalesce : Bool) (node : SerfCore Id Address) : SerfCore Id Address × Answer Id Address :=
  match userEvent env.limits name payload coalesce node.events with
  | .error reason => (node, { error := some (.userEvent reason) })
  | .ok (outcome, raw) =>
    ({ node with events := outcome.state },
      { sent := outcome.sent.map CrateEvent.user, broadcasts := [raw] })

def receiveQuery (env : NodeEnvironment Id Address) (q : QueryInput Id Address)
    (ty : Option (InternalQueryEvent Id)) (node : SerfCore Id Address) :
    SerfCore Id Address × Answer Id Address :=
  let outcome := handleQuery env.query ty q node.queries
  ({ node with queries := outcome.state },
    { sent := outcome.sent
      ack := outcome.ack
      rebroadcast := match outcome.returned with
        | some (.ok rebroadcast) => rebroadcast
        | _ => false })

structure QueryDraw where
  id : UInt32
  numNodes : Nat
  defaultTimeout : Duration

def callQuery (env : NodeEnvironment Id Address) (draw : QueryDraw) (name : String)
    (payload : Bytes) (params : Option (QueryParam Id)) (ty : Option (InternalQueryEvent Id))
    (node : SerfCore Id Address) : SerfCore Id Address × Answer Id Address :=
  match queryIn env.query draw.defaultTimeout draw.numNodes draw.id name payload params ty
    node.queries with
  | .error reason => (node, { error := some (.query reason) })
  | .ok (outcome, raw) =>
    ({ node with queries := outcome.state },
      { sent := outcome.sent, ack := outcome.ack, broadcasts := raw.toList })

section Frames

variable (env : NodeEnvironment Id Address) (node : SerfCore Id Address)

theorem broadcastJoin_node (now : Epoch) (ltime : LamportTime) :
    (broadcastJoin env now ltime node).1 =
      (joinIntent now ⟨ltime, env.membership.localId⟩
        { node with clock := witness node.clock ltime }).1 := by
  simp only [broadcastJoin]
  split <;> rfl

theorem announceLeave_node (now : Epoch) (msg : LeaveMessage Id) :
    (announceLeave env now msg node).1 = (leaveIntent env now msg node).1 := by
  simp only [announceLeave]
  split
  · split <;> rfl
  · rfl

end Frames

inductive NodeOp (Id Address : Type) where
  | nodeJoin (n : NodeState Id Address)
  | nodeLeave (now : Epoch) (n : NodeState Id Address)
  | nodeUpdate (n : NodeState Id Address)
  | reapFailed (now : Id → Epoch) (timeout : Duration)
  | reapLeft (now : Id → Epoch) (timeout : Duration)
  | reapIntents (now : Epoch) (timeout : Duration)
  | joinIntent (now : Epoch) (msg : JoinMessage Id)
  | leaveIntent (now : Epoch) (msg : LeaveMessage Id)
  | receiveUserEvent (msg : UserEventMessage)
  | receiveQuery (q : QueryInput Id Address) (ty : Option (InternalQueryEvent Id))
  | witnessRemote (ltime eventLtime queryLtime : LamportTime)
  | ignoreOldEvents (eventLtime : LamportTime)
  | setEventJoinIgnore (flag : Bool)
  /-- `broadcast_join` at the current clock value, as a join does it. -/
  | broadcastJoin (now : Epoch)
  /-- `broadcast_join` as a refutation spawned at this clock value does it. -/
  | refute (now : Epoch) (ltime : LamportTime)
  | beginLeave (now : Epoch)
  | finishLeave
  | shutdown
  | forceLeave (now : Epoch) (id : Id) (prune : Bool)
  | callUserEvent (name : String) (payload : Bytes) (coalesce : Bool)
  | callQuery (draw : QueryDraw) (name : String) (payload : Bytes)
      (params : Option (QueryParam Id)) (ty : Option (InternalQueryEvent Id))

def nodeStep (env : NodeEnvironment Id Address) (node : SerfCore Id Address) :
    NodeOp Id Address → SerfCore Id Address × Answer Id Address
  | .nodeJoin n => onTable (handleNodeJoin env.membership n node.members) node
  | .nodeLeave now n => onTable (handleNodeLeave now n node.members) node
  | .nodeUpdate n => onTable (handleNodeUpdate env.membership n node.members) node
  | .reapFailed now timeout =>
    onTable (MemberTable.reapFailed env.membership now timeout node.members) node
  | .reapLeft now timeout =>
    onTable (MemberTable.reapLeft env.membership now timeout node.members) node
  | .reapIntents now timeout =>
    onTable (applyOp env.membership node.members (.reapIntents now timeout)) node
  | .joinIntent now msg => joinIntent now msg node
  | .leaveIntent now msg => leaveIntent env now msg node
  | .receiveUserEvent msg => receiveUserEvent msg node
  | .receiveQuery q ty => receiveQuery env q ty node
  | .witnessRemote ltime eventLtime queryLtime =>
    (witnessRemote ltime eventLtime queryLtime node, {})
  | .ignoreOldEvents eventLtime => (ignoreOldEvents eventLtime node, {})
  | .setEventJoinIgnore flag => ({ node with eventJoinIgnore := flag }, {})
  | .broadcastJoin now => broadcastJoin env now node.clock node
  | .refute now ltime => broadcastJoin env now ltime node
  | .beginLeave now => beginLeave env now node
  | .finishLeave => (finishLeave node, {})
  | .shutdown => ({ node with state := .shutdown }, {})
  | .forceLeave now id prune => forceLeave env now id prune node
  | .callUserEvent name payload coalesce => callUserEvent env name payload coalesce node
  | .callQuery draw name payload params ty => callQuery env draw name payload params ty node

def tableOp (env : NodeEnvironment Id Address) (node : SerfCore Id Address) :
    NodeOp Id Address → Option (TableOp Id Address)
  | .nodeJoin n => some (.nodeJoin n)
  | .nodeLeave now n => some (.nodeLeave now n)
  | .nodeUpdate n => some (.nodeUpdate n)
  | .reapFailed now timeout => some (.reapFailed now timeout)
  | .reapLeft now timeout => some (.reapLeft now timeout)
  | .reapIntents now timeout => some (.reapIntents now timeout)
  | .joinIntent now msg => some (.joinIntent now msg)
  | .leaveIntent now msg => some (.leaveIntent node.state now msg)
  | .broadcastJoin now => some (.joinIntent now ⟨node.clock, env.membership.localId⟩)
  | .refute now ltime => some (.joinIntent now ⟨ltime, env.membership.localId⟩)
  | .beginLeave now =>
    if node.state = .alive then
      some (.leaveIntent .leaving now ⟨node.clock, env.membership.localId, false⟩)
    else none
  | .forceLeave now id prune => some (.leaveIntent node.state now ⟨node.clock, id, prune⟩)
  | _ => none

variable (env : NodeEnvironment Id Address)

theorem nodeStep_members (node : SerfCore Id Address) (op : NodeOp Id Address) :
    (nodeStep env node op).1.members =
      run (tableStep env.membership) node.members (tableOp env node op).toList := by
  cases op with
  | broadcastJoin now =>
    simp only [nodeStep, broadcastJoin_node]
    rfl
  | refute now ltime =>
    simp only [nodeStep, broadcastJoin_node]
    rfl
  | beginLeave now =>
    simp only [nodeStep, beginLeave]
    split <;> rename_i state
    · simp [tableOp, state, run]
    · simp [tableOp, state, run]
    · simp [tableOp, state, run]
    · rw [announceLeave_node, tableOp, if_pos state]
      rfl
  | forceLeave now id prune =>
    simp only [nodeStep, forceLeave, announceLeave_node]
    rfl
  | ignoreOldEvents eventLtime =>
    simp only [nodeStep, ignoreOldEvents]
    split <;> rfl
  | finishLeave =>
    simp only [nodeStep, finishLeave]
    split <;> rfl
  | callUserEvent name payload coalesce =>
    simp only [nodeStep, callUserEvent]
    split <;> rfl
  | callQuery draw name payload params ty =>
    simp only [nodeStep, callQuery]
    split <;> rfl
  | _ => rfl

theorem run_members (node : SerfCore Id Address) (ops : List (NodeOp Id Address)) :
    ∃ sections, (run (nodeStep env) node ops).members =
      run (tableStep env.membership) node.members sections := by
  induction ops generalizing node with
  | nil => exact ⟨[], rfl⟩
  | cons op rest ih =>
    obtain ⟨sections, reached⟩ := ih (nodeStep env node op).1
    refine ⟨(tableOp env node op).toList ++ sections, ?_⟩
    rw [run_append, ← nodeStep_members]
    exact reached

/-- The state that `merge_remote_state` is handed: nothing readable, another
kind of message, a push/pull message whose collections do not convert, or a
push/pull message. -/
inductive RemoteState (Id : Type) where
  | unreadable
  | otherMessage
  | badCollections (ltime eventLtime queryLtime : LamportTime)
  | pushPull (pp : PushPullMessage Id)

/-- The leave intents that a push/pull message stands for, one past the status
time of each left member. -/
def leftIntents (pp : PushPullMessage Id) : List (LeaveMessage Id) :=
  pp.leftMembers.filterMap fun id =>
    (pp.statusLtimes.lookup id).map fun ltime => ⟨ltime + 1, id, false⟩

def otherIntents (pp : PushPullMessage Id) : List (JoinMessage Id) :=
  (pp.statusLtimes.entries.filter fun entry => entry.1 ∉ pp.leftMembers).map fun entry =>
    ⟨entry.2, entry.1⟩

def remoteEvents (pp : PushPullMessage Id) : List UserEventMessage :=
  pp.events.flatMap fun events =>
    events.events.map fun e => ⟨events.ltime, e.name, e.payload, false⟩

/-- The operations of one `merge_remote_state`. A node occurs in at most one of
its intents, so `now` gives the wall time at which that intent is handled. -/
def mergeRemoteState (now : Id → Epoch) (isJoin : Bool) :
    RemoteState Id → List (NodeOp Id Address)
  | .unreadable => []
  | .otherMessage => []
  | .badCollections ltime eventLtime queryLtime => [.witnessRemote ltime eventLtime queryLtime]
  | .pushPull pp =>
    .witnessRemote pp.ltime pp.eventLtime pp.queryLtime ::
      ((leftIntents pp).map (fun msg => .leaveIntent (now msg.id) msg) ++
      (otherIntents pp).map (fun msg => .joinIntent (now msg.id) msg) ++
      (if isJoin then [.ignoreOldEvents pp.eventLtime] else []) ++
      (remoteEvents pp).map .receiveUserEvent)

structure SnapshotClocks where
  lastClock : LamportTime
  lastEventClock : LamportTime
  lastQueryClock : LamportTime

/-- The options and the snapshot that a node starts from. -/
structure Startup where
  eventBufferSize : Nat
  queryBufferSize : Nat
  eventFits : eventBufferSize < 2 ^ 64
  queryFits : queryBufferSize < 2 ^ 64
  snapshot : Option SnapshotClocks

def newIn (startup : Startup) : SerfCore Id Address :=
  let old := startup.snapshot.getD ⟨0, 0, 0⟩
  let (eventMinTime, queryMinTime) :=
    match startup.snapshot with
    | some old => (old.lastEventClock + 1, old.lastQueryClock + 1)
    | none => (0, 0)
  -- The clocks are raised to 1 before the old values are witnessed.
  { clock := witness (increment LamportClock.new) old.lastClock
    members := Members.empty
    events :=
      { clock := witness (increment LamportClock.new) old.lastEventClock
        core := ⟨eventMinTime, vacant startup.eventBufferSize startup.eventFits⟩ }
    queries :=
      { clock := witness (increment LamportClock.new) old.lastQueryClock
        core := ⟨∅, queryMinTime, vacant startup.queryBufferSize startup.queryFits⟩ }
    eventJoinIgnore := false
    state := .alive }

theorem reachable_consistent (startup : Startup) (ops : List (NodeOp Id Address)) :
    TableInvariant.Consistent (run (nodeStep env) (newIn startup) ops).members := by
  obtain ⟨sections, reached⟩ := run_members env (newIn startup) ops
  rw [reached]
  exact TableInvariant.run_consistent env.membership sections _ TableInvariant.empty_consistent

/-- A single operation, or a whole merge of a remote state. -/
inductive Activity (Id Address : Type) where
  | call (op : NodeOp Id Address)
  | merge (now : Id → Epoch) (isJoin : Bool) (remote : RemoteState Id)

def Activity.ops : Activity Id Address → List (NodeOp Id Address)
  | .call op => [op]
  | .merge now isJoin remote => mergeRemoteState now isJoin remote

/-- The node `a` with small limits and a codec that never fails. -/
def plainCore : NodeEnvironment String Nat where
  membership := plainNode
  limits := roomy
  query := plainEnvironment
  sameId := rfl
  encodeJoin _ := .ok []
  encodeLeave _ := .ok []

/-- Rings of `count` slots and no snapshot. -/
def freshStart (count : Nat) (fits : count < 2 ^ 64) : Startup :=
  ⟨count, count, fits, fits, none⟩

end Serf.Core
