import Serf.EventDelivery
import Serf.HeldTime
import Serf.PushPull

/-!
A remote state that has been merged once has nothing left to say. Each
operation of a merge is settled once it has run: the clocks have passed its
time and the node holds what the operation would record. The other operations
of a merge only raise clocks and held times and add events, so what is settled
stays settled, and a second merge changes nothing.
-/

namespace Serf.MergeIdempotence

open Library.Machine Library.Window Library.Slots
open LamportClock MemberTable EventHandler EventDelivery HeldTime Serf.Core PushPull

variable {Id Address : Type} [DecidableEq Id]

structure EventsGrow (before after : EventState) : Prop where
  clock : before.clock ≤ after.clock
  minTime : before.core.minTime ≤ after.core.minTime
  sized : size after.core.buffer = size before.core.buffer
  slots : ∀ event stamp, event ∈ slotEvents before.core stamp →
    event ∈ slotEvents after.core stamp

theorem eventsGrow_refl (state : EventState) : EventsGrow state state :=
  ⟨le_refl _, le_refl _, rfl, fun _ _ held => held⟩

def EventSettled (msg : UserEventMessage) (state : EventState) : Prop :=
  msg.ltime < state.clock ∧
    (¬ Admissible state msg ∨ toUserEvent msg ∈ slotEvents state.core msg.ltime)

variable (msg : UserEventMessage) (state : EventState)

theorem handleUserEvent_absorbs (settled : EventSettled msg state) :
    handleUserEvent msg state = ⟨state, [], some false⟩ := by
  obtain ⟨passed, known⟩ := settled
  have same : handleUserEvent msg state =
      ⟨{ state with clock := witness state.clock msg.ltime }, [], some false⟩ := by
    rcases known with refused | held
    · exact handleUserEvent_refused msg state refused
    · exact handleUserEvent_seen msg state held
  rw [same, witness_idle state.clock msg.ltime passed]

theorem not_admissible_without_slots (bound : msg.ltime < u64Max)
    (empty : size state.core.buffer = 0) : ¬ Admissible state msg := by
  rintro ⟨_, inside⟩
  rw [empty] at inside
  exact (inWindow_iff _ _ _).mp inside
    (tooOld_empty _ _ (witness_passes state.clock msg.ltime bound))

theorem handleUserEvent_grows (bound : msg.ltime < u64Max) :
    EventsGrow state (handleUserEvent msg state).state := by
  by_cases empty : size state.core.buffer = 0
  · rw [handleUserEvent_refused msg state (not_admissible_without_slots msg state bound empty)]
    exact ⟨witness_grows state.clock msg.ltime bound, le_refl _, rfl, fun _ _ held => held⟩
  · have handles := handleUserEvent_handles msg state empty
    constructor
    · rw [handles.clock]
      exact witness_grows state.clock msg.ltime bound
    · exact le_of_eq handles.minTime.symm
    · exact handles.sized
    · intro event stamp held
      exact (handles.slots event stamp).mpr (Or.inl held)

theorem handleUserEvent_settles (bound : msg.ltime < u64Max) :
    EventSettled msg (handleUserEvent msg state).state := by
  have passed := witness_passes state.clock msg.ltime bound
  by_cases admitted : Admissible state msg
  · have positive : size state.core.buffer ≠ 0 :=
      fun empty => not_admissible_without_slots msg state bound empty admitted
    have handles := handleUserEvent_handles msg state positive
    constructor
    · rw [handles.clock]
      exact passed
    · exact Or.inr ((handles.slots _ _).mpr (Or.inr ⟨admitted, rfl, rfl⟩))
  · rw [handleUserEvent_refused msg state admitted]
    refine ⟨passed, Or.inl ?_⟩
    rintro ⟨late, inside⟩
    -- The raised clock is witnessed a second time without effect.
    rw [witness_idle _ _ passed] at inside
    exact admitted ⟨late, inside⟩

theorem eventSettled_grows (before after : EventState) (grows : EventsGrow before after)
    (settled : EventSettled msg before) : EventSettled msg after := by
  obtain ⟨passed, known⟩ := settled
  have later := lt_of_lt_of_le passed grows.clock
  refine ⟨later, ?_⟩
  rcases known with refused | held
  · left
    rintro ⟨late, inside⟩
    rw [witness_idle _ _ later, grows.sized] at inside
    apply refused
    rw [Admissible, witness_idle _ _ passed]
    constructor
    · exact le_trans grows.minTime late
    · rw [inWindow_iff] at inside ⊢
      exact fun old => inside (tooOld_mono _ _ _ _ grows.clock old)
  · exact Or.inr (grows.slots _ _ held)

structure Grows (before after : SerfCore Id Address) : Prop where
  clock : before.clock ≤ after.clock
  members : Advances before.members after.members
  events : EventsGrow before.events after.events
  queryClock : before.queries.clock ≤ after.queries.clock
  ignoring : after.eventJoinIgnore = before.eventJoinIgnore
  state : after.state = before.state

def MergeOp : NodeOp Id Address → Prop
  | .witnessRemote _ _ _ => True
  | .leaveIntent _ msg => msg.prune = false ∧ msg.ltime < u64Max
  | .joinIntent _ msg => msg.ltime < u64Max
  | .ignoreOldEvents _ => True
  | .receiveUserEvent msg => msg.ltime < u64Max
  | _ => False

def Settled (env : NodeEnvironment Id Address) :
    NodeOp Id Address → SerfCore Id Address → Prop
  | .witnessRemote ltime eventLtime queryLtime, node =>
    ltime ≤ node.clock ∧ eventLtime ≤ node.events.clock ∧ queryLtime ≤ node.queries.clock
  | .leaveIntent _ msg, node =>
    msg.ltime < node.clock ∧ (Stale node.members msg.id msg.ltime ∨
      Refutes env.membership node.state node.members msg.id)
  | .joinIntent _ msg, node => msg.ltime < node.clock ∧ Stale node.members msg.id msg.ltime
  | .ignoreOldEvents eventLtime, node =>
    node.eventJoinIgnore = true → eventLtime ≤ node.events.core.minTime
  | .receiveUserEvent msg, node => EventSettled msg node.events
  | _, _ => False

section Steps

variable (env : NodeEnvironment Id Address) (node : SerfCore Id Address)

variable (op : NodeOp Id Address)

theorem mergeOp_grows (allowed : MergeOp op) : Grows node (nodeStep env node op).1 := by
  cases op with
  | witnessRemote ltime eventLtime queryLtime =>
    have events : EventsGrow node.events
        { node.events with clock := witnessBefore node.events.clock eventLtime } :=
      ⟨witnessBefore_grows _ _, le_refl _, rfl, fun _ _ held => held⟩
    exact ⟨witnessBefore_grows _ _, advances_refl _, events, witnessBefore_grows _ _, rfl, rfl⟩
  | leaveIntent now msg =>
    exact ⟨witness_grows _ _ allowed.2,
      applyOp_advances env.membership node.members (.leaveIntent node.state now msg) allowed.1
        nofun,
      eventsGrow_refl _, le_refl _, rfl, rfl⟩
  | joinIntent now msg =>
    exact ⟨witness_grows _ _ allowed,
      applyOp_advances env.membership node.members (.joinIntent now msg) trivial nofun,
      eventsGrow_refl _, le_refl _, rfl, rfl⟩
  | ignoreOldEvents eventLtime =>
    simp only [nodeStep, ignoreOldEvents]
    split
    · rename_i raises
      have events : EventsGrow node.events
          { node.events with core := { node.events.core with minTime := eventLtime } } :=
        ⟨le_refl _, le_of_lt raises.2, rfl, fun _ _ held => held⟩
      exact ⟨le_refl _, advances_refl _, events, le_refl _, rfl, rfl⟩
    · exact ⟨le_refl _, advances_refl _, eventsGrow_refl _, le_refl _, rfl, rfl⟩
  | receiveUserEvent msg =>
    exact ⟨le_refl _, advances_refl _, handleUserEvent_grows msg node.events allowed,
      le_refl _, rfl, rfl⟩
  | _ => exact absurd allowed id

theorem mergeOp_settles (allowed : MergeOp op) : Settled env op (nodeStep env node op).1 := by
  cases op with
  | witnessRemote ltime eventLtime queryLtime =>
    exact ⟨witnessBefore_reaches _ _, witnessBefore_reaches _ _, witnessBefore_reaches _ _⟩
  | leaveIntent now msg =>
    exact ⟨witness_passes _ _ allowed.2,
      handleNodeLeaveIntent_stale env.membership node.state now msg node.members allowed.1⟩
  | joinIntent now msg =>
    exact ⟨witness_passes _ _ allowed, handleNodeJoinIntent_stale now msg node.members⟩
  | ignoreOldEvents eventLtime =>
    intro ignoring
    simp only [nodeStep, ignoreOldEvents] at ignoring ⊢
    split
    · exact le_refl _
    · rename_i kept
      rw [if_neg kept] at ignoring
      exact le_of_not_gt fun early => kept ⟨ignoring, early⟩
  | receiveUserEvent msg => exact handleUserEvent_settles msg node.events allowed
  | _ => exact absurd allowed id

theorem settled_grows (after : SerfCore Id Address) (grows : Grows node after)
    (settled : Settled env op node) : Settled env op after := by
  cases op with
  | witnessRemote ltime eventLtime queryLtime =>
    exact ⟨le_trans settled.1 grows.clock, le_trans settled.2.1 grows.events.clock,
      le_trans settled.2.2 grows.queryClock⟩
  | leaveIntent now msg =>
    refine ⟨lt_of_lt_of_le settled.1 grows.clock, ?_⟩
    rcases settled.2 with stale | ⟨known, self, alive⟩
    · exact Or.inl (stale_advances _ _ _ _ grows.members stale)
    · exact Or.inr ⟨grows.members.known _ known, self, grows.state.trans alive⟩
  | joinIntent now msg =>
    exact ⟨lt_of_lt_of_le settled.1 grows.clock,
      stale_advances _ _ _ _ grows.members settled.2⟩
  | ignoreOldEvents eventLtime =>
    intro ignoring
    rw [grows.ignoring] at ignoring
    exact le_trans (settled ignoring) grows.events.minTime
  | receiveUserEvent msg => exact eventSettled_grows msg _ _ grows.events settled
  | _ => exact absurd settled id

theorem settled_absorbs (settled : Settled env op node) :
    (nodeStep env node op).1 = node ∧ (nodeStep env node op).2.sent = [] := by
  cases op with
  | witnessRemote ltime eventLtime queryLtime =>
    obtain ⟨clock, events, queries⟩ := settled
    refine ⟨?_, rfl⟩
    simp only [nodeStep, witnessRemote, witnessBefore_idle _ _ clock,
      witnessBefore_idle _ _ events, witnessBefore_idle _ _ queries]
  | leaveIntent now msg =>
    obtain ⟨passed, known⟩ := settled
    have same : (handleNodeLeaveIntent env.membership node.state now msg node.members).members =
        node.members ∧
        (handleNodeLeaveIntent env.membership node.state now msg node.members).sent = [] := by
      rcases known with stale | refutes
      · rw [handleNodeLeaveIntent_idle env.membership node.state now msg node.members stale]
        exact ⟨rfl, rfl⟩
      · exact handleNodeLeaveIntent_refuted env.membership node.state now msg node.members refutes
    simp only [nodeStep, leaveIntent, onTable, tableAnswer, same,
      witness_idle node.clock msg.ltime passed]
    exact ⟨trivial, rfl⟩
  | joinIntent now msg =>
    obtain ⟨passed, stale⟩ := settled
    simp only [nodeStep, joinIntent, handleNodeJoinIntent_idle now msg node.members stale,
      witness_idle node.clock msg.ltime passed]
    exact ⟨rfl, rfl⟩
  | ignoreOldEvents eventLtime =>
    have kept : ¬ (node.eventJoinIgnore = true ∧ node.events.core.minTime < eventLtime) :=
      fun raises => absurd (settled raises.1) (not_le_of_gt raises.2)
    simp only [nodeStep, ignoreOldEvents, if_neg kept, and_self]
  | receiveUserEvent msg =>
    simp only [nodeStep, receiveUserEvent, handleUserEvent_absorbs msg node.events settled]
    exact ⟨trivial, rfl⟩
  | _ => exact absurd settled id

end Steps

theorem mergeRemoteState_mergeOps (now : Id → Epoch) (isJoin : Bool) (pp : PushPullMessage Id)
    (bounded : ∀ time ∈ remoteTimes (.pushPull pp), time < u64Max - 1)
    (op : NodeOp Id Address) (member : op ∈ mergeRemoteState now isJoin (.pushPull pp)) :
    MergeOp op := by
  have below := merge_stamps now isJoin (.pushPull pp) bounded op member
  rcases mergeRemoteState_op now isJoin pp op member with
    rfl | ⟨msg, sent, rfl⟩ | ⟨msg, sent, rfl⟩ | rfl | ⟨msg, sent, rfl⟩
  · trivial
  · obtain ⟨ltime, _, shape⟩ := leftIntents_time pp msg sent
    exact ⟨by rw [shape], below _ List.mem_cons_self⟩
  · exact below _ List.mem_cons_self
  · trivial
  · exact below _ List.mem_cons_self

theorem settled_at_any_time (env : NodeEnvironment Id Address) (node : SerfCore Id Address)
    (first second : Id → Epoch) (isJoin : Bool) (pp : PushPullMessage Id)
    (settled : ∀ op ∈ mergeRemoteState first isJoin (.pushPull pp), Settled env op node) :
    ∀ op ∈ mergeRemoteState second isJoin (.pushPull pp), Settled env op node := by
  simp only [mergeRemoteState, List.mem_cons, List.mem_append, List.mem_map] at settled ⊢
  rintro op (same | ((⟨msg, sent, rfl⟩ | ⟨msg, sent, rfl⟩) | ignore) | event)
  · exact settled op (Or.inl same)
  · exact settled (.leaveIntent (first msg.id) msg)
      (Or.inr (Or.inl (Or.inl (Or.inl ⟨msg, sent, rfl⟩))))
  · exact settled (.joinIntent (first msg.id) msg)
      (Or.inr (Or.inl (Or.inl (Or.inr ⟨msg, sent, rfl⟩))))
  · exact settled op (Or.inr (Or.inl (Or.inr ignore)))
  · exact settled op (Or.inr (Or.inr event))

theorem mergeRemoteState_idempotent (env : NodeEnvironment Id Address) (node : SerfCore Id Address)
    (first second : Id → Epoch) (isJoin : Bool) (pp : PushPullMessage Id)
    (bounded : ∀ time ∈ remoteTimes (.pushPull pp), time < u64Max - 1) :
    let merged := run (nodeStep env) node (mergeRemoteState first isJoin (.pushPull pp))
    run (nodeStep env) merged (mergeRemoteState second isJoin (.pushPull pp)) = merged ∧
    ∀ entry ∈ answers (nodeStep env) merged (mergeRemoteState second isJoin (.pushPull pp)),
      entry.2.sent = [] := by
  intro merged
  have settled : ∀ op ∈ mergeRemoteState first isJoin (.pushPull pp),
      Settled env op merged := by
    apply run_settles (nodeStep env) (Settled env) MergeOp
    · intro state op allowed
      exact mergeOp_settles env state op allowed
    · intro state op other allowed settled
      exact settled_grows env state op _ (mergeOp_grows env state other allowed) settled
    · exact mergeRemoteState_mergeOps first isJoin pp bounded
  apply run_absorbed (nodeStep env) (Settled env) (fun answer => answer.sent = [])
  · intro state op quiet
    exact settled_absorbs env state op quiet
  · exact settled_at_any_time env merged first second isJoin pp settled

def mixedState : PushPullMessage String :=
  ⟨9, (AList.singleton "b" 4).insert "c" 6, ["b"], 7, [⟨6, [⟨"deploy", []⟩]⟩], 3⟩

theorem mixedState_times : ∀ time ∈ remoteTimes (.pushPull mixedState), time < u64Max - 1 :=
  List.forall_iff_forall_mem.mp (by decide)

theorem mergeRemoteState_idempotent_mixed :
    let start := (newIn (freshStart 2 (by decide)) : SerfCore String Nat)
    let merged := run (nodeStep plainCore) start (mergeRemoteState (fun _ => 0) false
      (.pushPull mixedState))
    (∀ time ∈ remoteTimes (.pushPull mixedState), time < u64Max - 1) ∧
    heldTime merged.members "b" = some 5 ∧
    run (nodeStep plainCore) merged (mergeRemoteState (fun _ => 1) false
      (.pushPull mixedState)) = merged :=
  ⟨mixedState_times, by decide, (mergeRemoteState_idempotent plainCore
    (newIn (freshStart 2 (by decide))) (fun _ => 0) (fun _ => 1) false mixedState
    mixedState_times).1⟩

end Serf.MergeIdempotence
