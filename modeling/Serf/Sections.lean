import Serf.Core

/-!
The node at the grain of its locks. A call is a thread of sections: every
operation on a clock is one atomic step, and so is every section under the lock
of the membership table, of a store or of the life-cycle state. Between two
sections of a thread other threads may run, so what a call reads on its way,
the clock value it stamps included, may be out of date when it is used. A call
that nothing interrupts does what the node model says.
-/

namespace Serf.Sections

open Library.Machine
open LamportClock MemberTable EventHandler QueryHandler Serf.Core

variable {Id Address : Type} [DecidableEq Id]

inductive Section (Id Address : Type) where
  | witness (ltime : LamportTime)
  | witnessEvent (ltime : LamportTime)
  | witnessQuery (ltime : LamportTime)
  | increment
  | incrementEvent
  | table (op : TableOp Id Address)
  | recordEvent (msg : UserEventMessage)
  | registerResponse (numNodes : Nat) (q : QueryMessage Id Address)
  | recordQuery (q : QueryInput Id Address) (ty : Option (InternalQueryEvent Id))
  | raiseMinTime (eventLtime : LamportTime)
  | setEventJoinIgnore (flag : Bool)
  | enterLeaving
  | enterLeft
  | shutdown

/-- The section of `handle_user_event` under the lock of the event store. The
clock is read again inside it. -/
def recordEvent (msg : UserEventMessage) (node : SerfCore Id Address) :
    SerfCore Id Address × Answer Id Address :=
  match recordUserEvent node.events.clock msg node.events.core with
  | none => (node, {})
  | some (core, accepted) =>
    ({ node with events := { node.events with core := core } },
      { sent := if accepted then [.user msg] else [], rebroadcast := accepted })

/-- The section of `handle_query` under the lock of the query store, and what
follows it without touching the node. -/
def recordQuery (env : NodeEnvironment Id Address) (q : QueryInput Id Address)
    (ty : Option (InternalQueryEvent Id)) (node : SerfCore Id Address) :
    SerfCore Id Address × Answer Id Address :=
  match QueryHandler.recordQuery node.queries.clock q.ltime q.id node.queries.core with
  | none => (node, {})
  | some (core, false) => ({ node with queries := { node.queries with core := core } }, {})
  | some (core, true) =>
    let outcome := processQuery env.query ty q { node.queries with core := core }
    ({ node with queries := outcome.state },
      { sent := outcome.sent
        ack := outcome.ack
        rebroadcast := match outcome.returned with
          | some (.ok rebroadcast) => rebroadcast
          | _ => false })

def raiseMinTime (eventLtime : LamportTime) (node : SerfCore Id Address) :
    SerfCore Id Address :=
  if node.events.core.minTime < eventLtime then
    { node with events :=
      { node.events with core := { node.events.core with minTime := eventLtime } } }
  else node

/-- `leave` sets the state only if the node is alive. -/
def leavingState : SerfState → SerfState
  | .alive => .leaving
  | other => other

def sectionStep (env : NodeEnvironment Id Address) (node : SerfCore Id Address) :
    Section Id Address → SerfCore Id Address × Answer Id Address
  | .witness ltime => ({ node with clock := LamportClock.witness node.clock ltime }, {})
  | .witnessEvent ltime =>
    ({ node with events :=
      { node.events with clock := LamportClock.witness node.events.clock ltime } }, {})
  | .witnessQuery ltime =>
    ({ node with queries :=
      { node.queries with clock := LamportClock.witness node.queries.clock ltime } }, {})
  | .increment => ({ node with clock := LamportClock.increment node.clock }, {})
  | .incrementEvent =>
    ({ node with events :=
      { node.events with clock := LamportClock.increment node.events.clock } }, {})
  | .table op =>
    let outcome := applyOp env.membership node.members op
    ((onTable outcome node).1,
      { tableAnswer outcome with
        refutation := if outcome.refutes then some node.clock else none })
  | .recordEvent msg => recordEvent msg node
  | .registerResponse numNodes q =>
    ({ node with queries := registerQueryResponse numNodes q node.queries }, {})
  | .recordQuery q ty => recordQuery env q ty node
  | .raiseMinTime eventLtime => (raiseMinTime eventLtime node, {})
  | .setEventJoinIgnore flag => ({ node with eventJoinIgnore := flag }, {})
  | .enterLeaving => ({ node with state := leavingState node.state }, {})
  | .enterLeft => (finishLeave node, {})
  | .shutdown => ({ node with state := .shutdown }, {})

/-- What a call reads before it uses it: the clock value that it stamps, the
life-cycle state and the flag of an ignoring join. -/
structure Reads where
  ltime : LamportTime
  state : SerfState
  ignoring : Bool

def witnessBeforeThread (make : LamportTime → Section Id Address) (ltime : LamportTime) :
    List (Section Id Address) :=
  if 0 < ltime then [make (ltime - 1)] else []

/-- `handle_node_leave_intent`, which reads the state before anything else. -/
def leaveThread (reads : Reads) (now : Epoch) (msg : LeaveMessage Id) :
    List (Section Id Address) :=
  [.witness msg.ltime, .table (.leaveIntent reads.state now msg)]

/-- `broadcast_join`; the handler witnesses the time a second time. -/
def joinThread (env : NodeEnvironment Id Address) (now : Epoch) (ltime : LamportTime) :
    List (Section Id Address) :=
  [.witness ltime, .witness ltime, .table (.joinIntent now ⟨ltime, env.membership.localId⟩)]

def userEventThread (env : NodeEnvironment Id Address) (ltime : LamportTime) (name : String)
    (payload : Bytes) (coalesce : Bool) : List (Section Id Address) :=
  match stampUserEvent env.limits ltime name payload coalesce with
  | .error _ => []
  | .ok (msg, _) => [.incrementEvent, .witnessEvent msg.ltime, .recordEvent msg]

def queryThread (env : NodeEnvironment Id Address) (ltime : LamportTime) (draw : QueryDraw)
    (name : String) (payload : Bytes) (params : Option (QueryParam Id))
    (ty : Option (InternalQueryEvent Id)) : List (Section Id Address) :=
  let q := stampQuery env.query ltime draw.id (queryParams draw.defaultTimeout params) name payload
  if env.query.querySizeLimit < env.query.encodedMessageLen q then []
  else
    match env.query.encodeMessageToBytes q with
    | .error _ => []
    | .ok _ =>
      [.registerResponse draw.numNodes q, .witnessQuery q.ltime, .recordQuery (.right q) ty]

/-- The sections of an operation. A leave goes on only from the alive state. -/
def thread (env : NodeEnvironment Id Address) (reads : Reads) :
    NodeOp Id Address → List (Section Id Address)
  | .nodeJoin n => [.table (.nodeJoin n)]
  | .nodeLeave now n => [.table (.nodeLeave now n)]
  | .nodeUpdate n => [.table (.nodeUpdate n)]
  | .reapFailed now timeout => [.table (.reapFailed now timeout)]
  | .reapLeft now timeout => [.table (.reapLeft now timeout)]
  | .reapIntents now timeout => [.table (.reapIntents now timeout)]
  | .joinIntent now msg => [.witness msg.ltime, .table (.joinIntent now msg)]
  | .leaveIntent now msg => leaveThread reads now msg
  | .receiveUserEvent msg => [.witnessEvent msg.ltime, .recordEvent msg]
  | .receiveQuery q ty => [.witnessQuery q.ltime, .recordQuery q ty]
  | .witnessRemote ltime eventLtime queryLtime =>
    witnessBeforeThread .witness ltime ++ witnessBeforeThread .witnessEvent eventLtime ++
      witnessBeforeThread .witnessQuery queryLtime
  | .ignoreOldEvents eventLtime => if reads.ignoring then [.raiseMinTime eventLtime] else []
  | .setEventJoinIgnore flag => [.setEventJoinIgnore flag]
  | .broadcastJoin now => joinThread env now reads.ltime
  | .refute now ltime => joinThread env now ltime
  | .beginLeave now =>
    .enterLeaving :: .increment ::
      leaveThread reads now ⟨reads.ltime, env.membership.localId, false⟩
  | .finishLeave => [.enterLeft]
  | .shutdown => [.shutdown]
  | .forceLeave now id prune => leaveThread reads now ⟨reads.ltime, id, prune⟩
  | .callUserEvent name payload coalesce => userEventThread env reads.ltime name payload coalesce
  | .callQuery draw name payload params ty =>
    queryThread env reads.ltime draw name payload params ty

def readsAt (node : SerfCore Id Address) : NodeOp Id Address → Reads
  | .callUserEvent _ _ _ => ⟨node.events.clock, node.state, node.eventJoinIgnore⟩
  | .callQuery _ _ _ _ _ => ⟨node.queries.clock, node.state, node.eventJoinIgnore⟩
  | .beginLeave _ => ⟨node.clock, leavingState node.state, node.eventJoinIgnore⟩
  | _ => ⟨node.clock, node.state, node.eventJoinIgnore⟩

def uninterrupted (env : NodeEnvironment Id Address) (node : SerfCore Id Address)
    (op : NodeOp Id Address) : List (Section Id Address) :=
  match op with
  | .beginLeave now =>
    if node.state = .alive then thread env (readsAt node (.beginLeave now)) (.beginLeave now)
    else []
  | op => thread env (readsAt node op) op

section Refinement

variable (env : NodeEnvironment Id Address) (node : SerfCore Id Address)

omit [DecidableEq Id] in
theorem recordEvent_handles (msg : UserEventMessage) :
    (recordEvent msg { node with events :=
      { node.events with clock := LamportClock.witness node.events.clock msg.ltime } }).1 =
    { node with events := (handleUserEvent msg node.events).state } := by
  simp only [recordEvent, handleUserEvent]
  split <;> simp_all

theorem recordQuery_handles (q : QueryInput Id Address) (ty : Option (InternalQueryEvent Id)) :
    (recordQuery env q ty { node with queries :=
      { node.queries with clock := LamportClock.witness node.queries.clock q.ltime } }).1 =
    { node with queries := (handleQuery env.query ty q node.queries).state } := by
  simp only [recordQuery, handleQuery]
  split <;> simp_all

theorem queryThread_node (draw : QueryDraw) (name : String) (payload : Bytes)
    (params : Option (QueryParam Id)) (ty : Option (InternalQueryEvent Id)) :
    run (sectionStep env) node
      (queryThread env node.queries.clock draw name payload params ty) =
    (callQuery env draw name payload params ty node).1 := by
  simp only [queryThread, callQuery, queryIn]
  split
  · rfl
  cases env.query.encodeMessageToBytes _ with
  | error reason => rfl
  | ok raw =>
    -- What the handler returned decides about the broadcast only.
    dsimp only
    let q := stampQuery env.query node.queries.clock draw.id
      (queryParams draw.defaultTimeout params) name payload
    have handled := recordQuery_handles env
      { node with queries := registerQueryResponse draw.numNodes q node.queries } (.right q) ty
    split
    · rename_i failed
      split at failed <;> cases failed
    · rename_i outcome raw result
      split at result <;> cases result <;> exact handled

theorem nodeStep_uninterrupted (op : NodeOp Id Address) :
    (nodeStep env node op).1 = run (sectionStep env) node (uninterrupted env node op) := by
  cases op with
  | receiveUserEvent msg => exact (recordEvent_handles node msg).symm
  | receiveQuery q ty => exact (recordQuery_handles env node q ty).symm
  | witnessRemote ltime eventLtime queryLtime =>
    simp only [nodeStep, witnessRemote, uninterrupted, thread, witnessBeforeThread,
      witnessBefore, run_append]
    by_cases member : 0 < ltime <;> by_cases event : 0 < eventLtime <;>
      by_cases query : 0 < queryLtime <;> simp [member, event, query, run, sectionStep]
  | ignoreOldEvents eventLtime =>
    simp only [nodeStep, ignoreOldEvents, uninterrupted, thread, readsAt]
    by_cases ignoring : node.eventJoinIgnore = true
    · simp [ignoring, run, sectionStep, raiseMinTime]
    · simp [ignoring, run]
  | broadcastJoin now =>
    simp only [nodeStep, broadcastJoin_node]
    rfl
  | refute now ltime =>
    simp only [nodeStep, broadcastJoin_node]
    rfl
  | beginLeave now =>
    simp only [nodeStep, beginLeave]
    split <;> rename_i state
    · simp [uninterrupted, state, run]
    · simp [uninterrupted, state, run]
    · simp [uninterrupted, state, run]
    · rw [announceLeave_node, uninterrupted, if_pos state]
      simp only [thread, readsAt, leavingState, leaveThread, run, sectionStep, state]
      rfl
  | forceLeave now id prune =>
    simp only [nodeStep, forceLeave, announceLeave_node]
    rfl
  | callUserEvent name payload coalesce =>
    simp only [nodeStep, callUserEvent, userEvent, uninterrupted, thread, readsAt,
      userEventThread]
    cases stampUserEvent env.limits node.events.clock name payload coalesce with
    | error reason => rfl
    | ok stamped =>
      exact (recordEvent_handles { node with events :=
        { node.events with clock := increment node.events.clock } } stamped.1).symm
  | callQuery draw name payload params ty =>
    exact (queryThread_node env node draw name payload params ty).symm
  | _ => rfl

end Refinement

end Serf.Sections
