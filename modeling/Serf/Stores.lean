import Serf.Core
import Serf.EventDelivery
import Serf.QueryDedup

/-!
What the operations of a node do to its event and its query store. Few of them
touch a store at all, and none lowers a minimum time.
-/

namespace Serf.Stores

open Library.Machine LamportClock EventHandler EventDelivery QueryHandler Serf.Core

variable {Id Address : Type} [DecidableEq Id]

def eventsAfter (env : NodeEnvironment Id Address) (node : SerfCore Id Address) :
    NodeOp Id Address → EventState
  | .receiveUserEvent msg => (handleUserEvent msg node.events).state
  | .callUserEvent name payload coalesce =>
    (eventStep env.limits node.events (.userEvent name payload coalesce)).1
  | .witnessRemote _ eventLtime _ =>
    { node.events with clock := witnessBefore node.events.clock eventLtime }
  | .ignoreOldEvents eventLtime => (ignoreOldEvents eventLtime node).events
  | _ => node.events

def queriesAfter (env : NodeEnvironment Id Address) (node : SerfCore Id Address) :
    NodeOp Id Address → QueryState
  | .receiveQuery q ty => (handleQuery env.query ty q node.queries).state
  | .callQuery draw name payload params ty =>
    match queryIn env.query draw.defaultTimeout draw.numNodes draw.id name payload params ty
      node.queries with
    | .error _ => node.queries
    | .ok (outcome, _) => outcome.state
  | .witnessRemote _ _ queryLtime =>
    { node.queries with clock := witnessBefore node.queries.clock queryLtime }
  | _ => node.queries

section Queries

theorem recordQuery_minTime (curTime ltime : LamportTime) (id : UInt32) (core after : QueryCore)
    (accepted : Bool) (recorded : recordQuery curTime ltime id core = some (after, accepted)) :
    after.minTime = core.minTime := by
  unfold recordQuery at recorded
  split at recorded
  · cases recorded; rfl
  · split at recorded
    · cases recorded; rfl
    · split at recorded
      · cases recorded
      · split at recorded
        · split at recorded
          · cases recorded; rfl
          · cases recorded; rfl
        · cases recorded; rfl
      · cases recorded; rfl

theorem handleQuery_minTime (env : QueryEnvironment Id Address)
    (ty : Option (InternalQueryEvent Id)) (q : QueryInput Id Address) (state : QueryState) :
    (handleQuery env ty q state).state.core.minTime = state.core.minTime := by
  cases recorded : recordQuery (witness state.clock q.ltime) q.ltime q.id state.core with
  | none => simp [handleQuery, recorded]
  | some pair =>
    rw [(QueryDedup.handleQuery_state env ty q state pair.1 pair.2 recorded).1]
    exact recordQuery_minTime _ _ _ state.core pair.1 pair.2 recorded

theorem queryIn_minTime (env : QueryEnvironment Id Address) (defaultTimeout : Duration)
    (numNodes : Nat) (id : UInt32) (name : String) (payload : Bytes)
    (params : Option (QueryParam Id)) (ty : Option (InternalQueryEvent Id)) (state : QueryState)
    (outcome : QueryOutcome Id Address) (raw : Option Bytes)
    (accepted : queryIn env defaultTimeout numNodes id name payload params ty state =
      .ok (outcome, raw)) :
    outcome.state.core.minTime = state.core.minTime := by
  unfold queryIn at accepted
  dsimp only at accepted
  split at accepted
  · cases accepted
  · split at accepted
    · cases accepted
    · split at accepted
      · cases accepted
        exact handleQuery_minTime env ty _ _
      · cases accepted
        exact handleQuery_minTime env ty _ _

end Queries

section Steps

variable (env : NodeEnvironment Id Address) (node : SerfCore Id Address)

theorem nodeStep_stores (op : NodeOp Id Address) :
    (nodeStep env node op).1.events = eventsAfter env node op ∧
    (nodeStep env node op).1.queries = queriesAfter env node op := by
  cases op with
  | broadcastJoin now =>
    simp only [nodeStep, broadcastJoin_node]
    exact ⟨rfl, rfl⟩
  | refute now ltime =>
    simp only [nodeStep, broadcastJoin_node]
    exact ⟨rfl, rfl⟩
  | beginLeave now =>
    simp only [nodeStep, beginLeave]
    split
    · exact ⟨rfl, rfl⟩
    · exact ⟨rfl, rfl⟩
    · exact ⟨rfl, rfl⟩
    · rw [announceLeave_node]
      exact ⟨rfl, rfl⟩
  | forceLeave now id prune =>
    simp only [nodeStep, forceLeave, announceLeave_node]
    exact ⟨rfl, rfl⟩
  | finishLeave =>
    simp only [nodeStep, finishLeave]
    split <;> exact ⟨rfl, rfl⟩
  | ignoreOldEvents eventLtime =>
    refine ⟨rfl, ?_⟩
    simp only [nodeStep, ignoreOldEvents]
    split <;> rfl
  | callUserEvent name payload coalesce =>
    cases result : EventHandler.userEvent env.limits name payload coalesce node.events <;>
      simp [nodeStep, callUserEvent, eventsAfter, queriesAfter, eventStep, result]
  | callQuery draw name payload params ty =>
    cases result : queryIn env.query draw.defaultTimeout draw.numNodes draw.id name payload params
        ty node.queries <;>
      simp [nodeStep, callQuery, eventsAfter, queriesAfter, result]
  | _ => exact ⟨rfl, rfl⟩

theorem nodeStep_minTimes (op : NodeOp Id Address) :
    node.events.core.minTime ≤ (nodeStep env node op).1.events.core.minTime ∧
    (nodeStep env node op).1.queries.core.minTime = node.queries.core.minTime := by
  rw [(nodeStep_stores env node op).1, (nodeStep_stores env node op).2]
  cases op with
  | ignoreOldEvents eventLtime =>
    refine ⟨?_, rfl⟩
    rw [eventsAfter, ignoreOldEvents]
    split
    · rename_i raised
      exact le_of_lt raised.2
    · exact le_refl _
  | receiveUserEvent msg => exact ⟨ge_of_eq (handleUserEvent_frame msg node.events).2.1, rfl⟩
  | callUserEvent name payload coalesce =>
    exact ⟨ge_of_eq (eventStep_frame env.limits node.events _).2, rfl⟩
  | receiveQuery q ty => exact ⟨le_refl _, handleQuery_minTime env.query ty q node.queries⟩
  | callQuery draw name payload params ty =>
    refine ⟨le_refl _, ?_⟩
    rw [queriesAfter]
    split
    · rfl
    · rename_i outcome raw accepted
      exact queryIn_minTime env.query _ _ _ _ _ _ _ node.queries outcome raw accepted
  | _ => exact ⟨le_refl _, rfl⟩

theorem run_minTimes (ops : List (NodeOp Id Address)) :
    node.events.core.minTime ≤ (run (nodeStep env) node ops).events.core.minTime ∧
    (run (nodeStep env) node ops).queries.core.minTime = node.queries.core.minTime := by
  induction ops generalizing node with
  | nil => exact ⟨le_refl _, rfl⟩
  | cons op rest ih =>
    obtain ⟨first, same⟩ := nodeStep_minTimes env node op
    obtain ⟨later, again⟩ := ih (nodeStep env node op).1
    exact ⟨le_trans first later, again.trans same⟩

end Steps

end Serf.Stores
