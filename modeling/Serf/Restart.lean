import Serf.SnapshotReplay
import Serf.Stores

/-!
A node restarted from the snapshot file of an earlier session. The session
raises the last event and query clocks to every time it processes, the replay
restores them, and `new_in` puts the minimum times one past them. No later
operation lowers a minimum time, so what was processed stays refused, unless
the addition has wrapped around.
-/

namespace Serf.Restart

open Library.Machine Library.Encoding Library.Slots Library.Window
open LamportClock EventHandler QueryHandler SnapshotFile Snapshotter SnapshotReplay Serf.Core
open Stores

variable {Id Address : Type} [DecidableEq Id]

section Recording

variable [DecidableEq Address] (env : SnapshotEnv Id Address)

def eventClocks (snapshot : Snapshot Id Address) : LamportTime × LamportTime :=
  (snapshot.lastEventClock, snapshot.lastQueryClock)

omit [DecidableEq Id] [DecidableEq Address] in
theorem eventClocks_ignores : IgnoresAppends (@eventClocks Id Address) :=
  ⟨fun _ _ _ _ => rfl, fun _ _ _ => rfl⟩

def times : SnapshotOp Id Address → LamportTime × LamportTime
  | .userEvent msg => (msg.ltime, 0)
  | .queryEvent ltime => (0, ltime)
  | _ => (0, 0)

structure Raises (op : SnapshotOp Id Address) (before after : Snapshot Id Address) : Prop where
  events : before.lastEventClock ≤ after.lastEventClock
  queries : before.lastQueryClock ≤ after.lastQueryClock
  event : (times op).1 ≤ after.lastEventClock
  query : (times op).2 ≤ after.lastQueryClock

omit [DecidableEq Id] [DecidableEq Address] in
theorem raises_clocks (op : SnapshotOp Id Address) (before after : Snapshot Id Address)
    (event query : LamportTime) (clocks : eventClocks after = (event, query))
    (events : before.lastEventClock ≤ event) (queries : before.lastQueryClock ≤ query)
    (first : (times op).1 ≤ event) (second : (times op).2 ≤ query) : Raises op before after := by
  cases clocks
  exact ⟨events, queries, first, second⟩

theorem applySnapshotOp_raises (op : SnapshotOp Id Address) (snapshot : Snapshot Id Address) :
    Raises op snapshot (applySnapshotOp env snapshot op) := by
  have zero : ∀ time : LamportTime, 0 ≤ time := fun time => UInt64.zero_le
  cases op with
  | memberEvent time event =>
    have same := processMemberEvent_view eventClocks eventClocks_ignores env (fun _ _ => rfl)
      (fun _ _ => rfl) time event snapshot
    exact raises_clocks _ _ _ _ _ same (le_refl _) (le_refl _) (zero _) (zero _)
  | updateClock time =>
    have same := updateClock_view eventClocks eventClocks_ignores env (fun _ _ => rfl) time
      snapshot
    exact raises_clocks _ _ _ _ _ same (le_refl _) (le_refl _) (zero _) (zero _)
  | userEvent msg =>
    rw [applySnapshotOp, processUserEvent]
    split
    · rename_i old
      exact ⟨le_refl _, le_refl _, old, zero _⟩
    · rename_i young
      have clocks := tryAppend_view eventClocks eventClocks_ignores env (.eventClock msg.ltime)
        { snapshot with lastEventClock := msg.ltime }
      exact raises_clocks _ _ _ _ _ clocks (le_of_lt (lt_of_not_ge young)) (le_refl _)
        (le_refl _) (zero _)
  | queryEvent ltime =>
    rw [applySnapshotOp, processQueryEvent]
    split
    · rename_i old
      exact ⟨le_refl _, le_refl _, zero _, old⟩
    · rename_i young
      have clocks := tryAppend_view eventClocks eventClocks_ignores env (.queryClock ltime)
        { snapshot with lastQueryClock := ltime }
      exact raises_clocks _ _ _ _ _ clocks (le_refl _) (le_of_lt (lt_of_not_ge young))
        (zero _) (le_refl _)

variable (laws : RoundTrips env.codec)

include laws in
theorem running_appendKeeps (rejoinAfterLeave : Bool) :
    AppendKeeps env rejoinAfterLeave fun snapshot => snapshot.panicked = false := by
  apply appendKeeps_of env rejoinAfterLeave laws
  intro record before updated _ panicked _ effect running
  obtain ⟨_, _, shape⟩ := effect.frame
  rw [shape]
  exact panicked.trans running

include laws in
theorem run_raises (ops : List (SnapshotOp Id Address)) (snapshot : Snapshot Id Address)
    (running : snapshot.panicked = false) (ok : AllOk (run (snapshotStep env) snapshot ops)) :
    snapshot.lastEventClock ≤ (run (snapshotStep env) snapshot ops).lastEventClock ∧
    snapshot.lastQueryClock ≤ (run (snapshotStep env) snapshot ops).lastQueryClock ∧
    ∀ op ∈ ops, (times op).1 ≤ (run (snapshotStep env) snapshot ops).lastEventClock ∧
      (times op).2 ≤ (run (snapshotStep env) snapshot ops).lastQueryClock := by
  induction ops generalizing snapshot with
  | nil => exact ⟨le_refl _, le_refl _, fun _ none => by cases none⟩
  | cons op rest ih =>
    have appends := running_appendKeeps env laws false
    have step : (snapshotStep env snapshot op).1 = applySnapshotOp env snapshot op := by
      simp [snapshotStep, unlessPanicked, running]
    have raised := applySnapshotOp_raises env op snapshot
    rw [run, step] at ok ⊢
    have middle := (run_keeps env false appends rest _ ok).1
    have still := (applySnapshotOp_keeps env false appends op snapshot middle).2 running
    obtain ⟨events, queries, later⟩ := ih _ still ok
    refine ⟨le_trans raised.events events, le_trans raised.queries queries, ?_⟩
    intro other member
    rcases List.mem_cons.mp member with rfl | behind
    · exact ⟨le_trans raised.event events, le_trans raised.query queries⟩
    · exact later other behind

end Recording

section Refusing

def restarting (replayed : Replayed Id Address) (startup : Startup) : Startup :=
  { startup with
    snapshot := some ⟨replayed.lastClock, replayed.lastEventClock, replayed.lastQueryClock⟩ }

/-- In no state of the restarted node is a processed event or query taken again. -/
def Refuses (env : NodeEnvironment Id Address) (replayed : Replayed Id Address)
    (ops : List (SnapshotOp Id Address)) : Prop :=
  ∀ (startup : Startup) (later : List (NodeOp Id Address)),
    let node := run (nodeStep env) (newIn (restarting replayed startup)) later
    (∀ msg, .userEvent msg ∈ ops →
      (handleUserEvent msg node.events).returned = some false ∧
      (handleUserEvent msg node.events).sent = []) ∧
    ∀ q ty, .queryEvent q.ltime ∈ ops →
      (handleQuery env.query ty q node.queries).returned = some (.ok false) ∧
      (handleQuery env.query ty q node.queries).sent = []

theorem before_next (time last : LamportTime) (processed : time ≤ last) (room : last ≠ u64Max) :
    time < last + 1 := by
  grind

theorem handleUserEvent_early (msg : UserEventMessage) (state : EventState)
    (early : msg.ltime < state.core.minTime) :
    (handleUserEvent msg state).returned = some false ∧ (handleUserEvent msg state).sent = [] := by
  simp [handleUserEvent, recordUserEvent, early]

theorem handleQuery_early (env : QueryEnvironment Id Address) (ty : Option (InternalQueryEvent Id))
    (q : QueryInput Id Address) (state : QueryState) (early : q.ltime < state.core.minTime) :
    (handleQuery env ty q state).returned = some (.ok false) ∧
    (handleQuery env ty q state).sent = [] := by
  simp [handleQuery, recordQuery, early]

theorem wrapped_event_sent (msg : UserEventMessage) (fits : 1 < 2 ^ 64) :
    (handleUserEvent msg (EventDelivery.startEvents (witness (increment new) u64Max)
      (u64Max + 1) 1 fits)).sent = [msg] := by
  have positive := EventDelivery.size_start (witness (increment new) u64Max) (u64Max + 1) 1 fits
    (le_refl 1)
  have effect := EventDelivery.handleUserEvent_handles msg _ positive
  refine (effect.sends ⟨UInt64.zero_le, ?_⟩ ?_).1
  · exact EventDelivery.inWindow_increment msg.ltime _ positive
  · rw [EventDelivery.slotEvents_start]
    exact List.not_mem_nil

def openQuery (env : QueryEnvironment Id Address) (ltime : LamportTime) : QueryInput Id Address :=
  .right ⟨ltime, 0, env.advertiseNode, [], 0, 0, 0, "", []⟩

theorem wrapped_query_sent (env : QueryEnvironment Id Address) (ltime : LamportTime)
    (fits : 1 < 2 ^ 64) :
    (handleQuery env none (openQuery env ltime) (QueryDedup.startQueries
      (witness (increment new) u64Max) (u64Max + 1) 1 fits)).sent ≠ [] := by
  have admitted : QueryDedup.Admissible (witness (witness (increment new) u64Max) ltime) ltime
      (QueryDedup.startQueries (witness (increment new) u64Max) (u64Max + 1) 1 fits).core :=
    ⟨UInt64.zero_le, EventDelivery.inWindow_increment ltime 1 (by decide)⟩
  have recorded := QueryDedup.recordQuery_fresh _ ltime 0
    (QueryDedup.startQueries (witness (increment new) u64Max) (u64Max + 1) 1 fits).core
    (by simp [QueryDedup.startQueries, size_vacant]) admitted
    (QueryDedup.start_holds_nothing _ _ 1 fits ltime 0)
  simp only [QueryDedup.startQueries] at recorded
  simp [handleQuery, openQuery, QueryInput.ltime, QueryInput.id, QueryDedup.startQueries, recorded,
    processQuery, shouldProcessQuery, QueryInput.event]

theorem refuses_iff (env : NodeEnvironment Id Address) (replayed : Replayed Id Address)
    (ops : List (SnapshotOp Id Address))
    (bound : ∀ op ∈ ops, (times op).1 ≤ replayed.lastEventClock ∧
      (times op).2 ≤ replayed.lastQueryClock) :
    Refuses env replayed ops ↔
      (replayed.lastEventClock = u64Max → ∀ msg, .userEvent msg ∉ ops) ∧
      (replayed.lastQueryClock = u64Max → ∀ ltime, .queryEvent ltime ∉ ops) := by
  have fits : 1 < 2 ^ 64 := by decide
  constructor
  · intro refuses
    obtain ⟨events, queries⟩ := refuses ⟨1, 1, fits, fits, none⟩ []
    constructor
    · intro full msg processed
      have nothing := (events msg processed).2
      simp only [run, newIn, restarting, full] at nothing
      exact List.cons_ne_nil msg [] ((wrapped_event_sent msg fits).symm.trans nothing)
    · intro full ltime processed
      have nothing := (queries (openQuery env.query ltime) none processed).2
      simp only [run, newIn, restarting, full] at nothing
      exact wrapped_query_sent env.query ltime fits nothing
  · rintro ⟨noEvents, noQueries⟩ startup later
    obtain ⟨raised, same⟩ := run_minTimes env (newIn (restarting replayed startup)) later
    refine ⟨?_, ?_⟩
    · intro msg processed
      apply handleUserEvent_early
      have room : replayed.lastEventClock ≠ u64Max := fun full => noEvents full msg processed
      exact lt_of_lt_of_le (before_next _ _ (bound _ processed).1 room) raised
    · intro q ty processed
      apply handleQuery_early
      have room : replayed.lastQueryClock ≠ u64Max := fun full => noQueries full _ processed
      rw [same]
      exact before_next _ _ (bound _ processed).2 room

end Refusing

/-- A session without a leave that loses no record can be restarted from, and
the restarted node refuses all that the session processed exactly when no event
or query carried the last time there is. -/
theorem restart_refuses_iff [DecidableEq Address] (env : SnapshotEnv Id Address)
    (laws : RoundTrips env.codec) (rejoinAfterLeave : Bool) (start : Bytes) (minCompactSize : Nat)
    (opened : Snapshot Id Address) (opens : Opened env rejoinAfterLeave start minCompactSize opened)
    (ops : List (SnapshotOp Id Address)) (ok : AllOk (run (snapshotStep env) opened ops))
    (node : NodeEnvironment Id Address) :
    ∃ replayed, openAndReplaySnapshot env.codec rejoinAfterLeave
        (run (snapshotStep env) opened ops).file = some (.ok replayed) ∧
      (Refuses node replayed ops ↔
        (replayed.lastEventClock = u64Max → ∀ msg, .userEvent msg ∉ ops) ∧
        (replayed.lastQueryClock = u64Max → ∀ ltime, .queryEvent ltime ∉ ops)) := by
  obtain ⟨replayed, reads, same⟩ :=
    run_tracks env laws rejoinAfterLeave start minCompactSize opened opens ops ok
  refine ⟨replayed, (openAndReplaySnapshot_iff env.codec rejoinAfterLeave _ replayed).mpr reads, ?_⟩
  apply refuses_iff
  have running : opened.panicked = false := by
    obtain ⟨_, _, rfl⟩ := opens
    rfl
  intro op processed
  rw [same.eventClock, same.queryClock]
  exact (run_raises env laws ops opened running ok).2.2 op processed

def smallNode : NodeEnvironment UInt8 UInt8 where
  membership := ⟨1, .v1, .v1, .v1, .v1, fun _ => .ok ∅, none⟩
  limits := roomy
  query := ⟨⟨1, 7⟩, ∅, fun _ => none, fun _ => .ok [], 1024, fun _ => 16, fun _ => .ok []⟩
  sameId := rfl
  encodeJoin _ := .ok []
  encodeLeave _ := .ok []

def deploy (ltime : LamportTime) : UserEventMessage := ⟨ltime, "deploy", [], false⟩

theorem restart_refuses_sample :
    ∃ replayed, openAndReplaySnapshot paddedCodec false
        (run (snapshotStep calmEnv) (fromReplayResult .initial [] 100 false)
          [.userEvent (deploy 4), .queryEvent 6]).file = some (.ok replayed) ∧
      Refuses smallNode replayed [.userEvent (deploy 4), .queryEvent 6] := by
  obtain ⟨replayed, success, refuses⟩ := restart_refuses_iff calmEnv paddedCodec_roundTrips false []
    100 _ ⟨.initial, rfl, rfl⟩ [.userEvent (deploy 4), .queryEvent 6] (by decide) smallNode
  have value : openAndReplaySnapshot paddedCodec false
      (run (snapshotStep calmEnv) (fromReplayResult .initial [] 100 false)
        [.userEvent (deploy 4), .queryEvent 6]).file = some (.ok ⟨.empty, 0, 4, 6⟩) := by decide
  have same := success.symm.trans value
  cases same
  exact ⟨_, success, refuses.mpr
    ⟨fun full => absurd full (by decide), fun full => absurd full (by decide)⟩⟩

theorem restart_redelivers :
    AllOk (run (snapshotStep calmEnv) (fromReplayResult .initial [] 100 false)
      [.userEvent (deploy u64Max)]) ∧
    openAndReplaySnapshot paddedCodec false
        (run (snapshotStep calmEnv) (fromReplayResult .initial [] 100 false)
          [.userEvent (deploy u64Max)]).file = some (.ok ⟨.empty, 0, u64Max, 0⟩) ∧
    (handleUserEvent (deploy u64Max) (newIn (restarting (⟨.empty, 0, u64Max, 0⟩ :
      Replayed UInt8 UInt8) ⟨1, 1, by decide, by decide, none⟩) :
        SerfCore UInt8 UInt8).events).sent = [deploy u64Max] := by
  refine ⟨by decide, by decide, by decide⟩

end Serf.Restart
