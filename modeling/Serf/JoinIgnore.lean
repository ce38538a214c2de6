import Serf.PushPullDominance
import Serf.Stores

/-!
Joining with `ignore_old`. The merge raises the minimum event time to the remote
event time before it looks at the remote events, and the minimum time never
falls. So whatever the remote node had seen stays hidden, while the node's own
events are stamped with a clock that the merge has raised first.
-/

namespace Serf.JoinIgnore

open Library.Machine Library.Window Library.Slots
open LamportClock MemberTable EventHandler EventDelivery
open Serf.Core PushPull ClockDominance PushPullDominance AntiEntropy
open QueryHandler (CrateEvent)
open Wire (SamePushPull)
open Stores

variable {Id Address : Type} [DecidableEq Id]

section Steps

variable (env : NodeEnvironment Id Address) (node : SerfCore Id Address)

omit [DecidableEq Id] in
theorem userEvent_clock (name : String) (payload : Bytes) (coalesce : Bool) (state : EventState)
    (bound : state.clock < u64Max) :
    state.clock ≤ (eventStep env.limits state (.userEvent name payload coalesce)).1.clock := by
  refine (eventStep_clock env.limits state _ ?_).1
  intro call made
  simp only [handled] at made
  split at made
  · cases made
  · rename_i msg raw stamped
    cases made
    rw [stampUserEvent_message _ _ _ _ _ (msg, raw) stamped]
    exact bound

def EventSafe : NodeOp Id Address → Prop
  | .receiveUserEvent msg => msg.ltime < u64Max
  | .callUserEvent _ _ _ => node.events.clock < u64Max
  | _ => True

theorem nodeStep_eventClock (op : NodeOp Id Address) (safe : EventSafe node op) :
    node.events.clock ≤ (nodeStep env node op).1.events.clock := by
  rw [(nodeStep_stores env node op).1]
  cases op with
  | receiveUserEvent msg =>
    exact le_of_le_of_eq (witness_grows _ _ safe) (handleUserEvent_frame msg node.events).1.symm
  | callUserEvent name payload coalesce =>
    exact userEvent_clock env name payload coalesce node.events safe
  | witnessRemote ltime eventLtime queryLtime => exact witnessBefore_grows _ _
  | ignoreOldEvents eventLtime =>
    rw [eventsAfter, ignoreOldEvents]
    split <;> exact le_refl _
  | _ => exact le_refl _

theorem nodeStep_slots (op : NodeOp Id Address) :
    size (nodeStep env node op).1.events.core.buffer = size node.events.core.buffer := by
  rw [(nodeStep_stores env node op).1]
  cases op with
  | receiveUserEvent msg => exact (handleUserEvent_frame msg node.events).2.2
  | callUserEvent name payload coalesce =>
    exact (eventStep_frame env.limits node.events _).1
  | ignoreOldEvents eventLtime =>
    rw [eventsAfter, ignoreOldEvents]
    split <;> rfl
  | _ => rfl

theorem nodeStep_ready (op : NodeOp Id Address) (safe : EventSafe node op)
    (reached : ∀ eventLtime, op = .ignoreOldEvents eventLtime → eventLtime ≤ node.events.clock)
    (ready : node.events.core.minTime ≤ node.events.clock) :
    (nodeStep env node op).1.events.core.minTime ≤ (nodeStep env node op).1.events.clock := by
  have grows := nodeStep_eventClock env node op safe
  refine le_trans ?_ grows
  rw [(nodeStep_stores env node op).1]
  cases op with
  | receiveUserEvent msg => exact le_of_eq_of_le (handleUserEvent_frame msg node.events).2.1 ready
  | callUserEvent name payload coalesce =>
    exact le_of_eq_of_le (eventStep_frame env.limits node.events _).2 ready
  | ignoreOldEvents eventLtime =>
    rw [eventsAfter, ignoreOldEvents]
    split
    · exact reached eventLtime rfl
    · exact ready
  | _ => exact ready

end Steps

/-- What arrives does not run the event clock over, and the inner operations of a
merge occur in a merge only. -/
def EventsBelow : Activity Id Address → Prop
  | .call (.receiveUserEvent msg) => msg.ltime < u64Max
  | .call (.witnessRemote _ _ _) => False
  | .call (.ignoreOldEvents _) => False
  | .call _ => True
  | .merge _ _ (.pushPull pp) => ∀ events ∈ pp.events, events.ltime < u64Max
  | .merge _ _ _ => True

section Later

variable (env : NodeEnvironment Id Address)

theorem merge_ready (now : Id → Epoch) (isJoin : Bool) (pp : PushPullMessage Id)
    (below : ∀ events ∈ pp.events, events.ltime < u64Max) (node : SerfCore Id Address)
    (ready : node.events.core.minTime ≤ node.events.clock) :
    let after := run (nodeStep env) node (mergeRemoteState now isJoin (.pushPull pp))
    after.events.core.minTime ≤ after.events.clock := by
  -- The clock has reached the remote event time before the minimum time is raised to it.
  have first := nodeStep_ready env node (.witnessRemote pp.ltime pp.eventLtime pp.queryLtime)
    trivial (fun _ other => by cases other) ready
  refine (run_invariant (nodeStep env)
    (fun op => op ∈ mergeRemoteState now isJoin (.pushPull pp))
    (fun state => pp.eventLtime ≤ state.events.clock ∧
      state.events.core.minTime ≤ state.events.clock) ?_
    (nodeStep env node (.witnessRemote pp.ltime pp.eventLtime pp.queryLtime)).1
    (mergeRemoteState now isJoin (.pushPull pp)).tail
    (fun op inside => List.mem_of_mem_tail inside)
    ⟨witnessBefore_reaches _ _, first⟩).2
  rintro state op member ⟨reached, ready⟩
  have safe : EventSafe state op := by
    rcases mergeRemoteState_op now isJoin pp op member with
      rfl | ⟨msg, _, rfl⟩ | ⟨msg, _, rfl⟩ | rfl | ⟨msg, sent, rfl⟩
    · trivial
    · trivial
    · trivial
    · trivial
    · obtain ⟨events, inside, same⟩ := remoteEvents_time pp msg sent
      exact lt_of_eq_of_lt same (below events inside)
  have within : ∀ eventLtime, op = .ignoreOldEvents eventLtime →
      eventLtime ≤ state.events.clock := by
    intro eventLtime is
    rcases mergeRemoteState_op now isJoin pp op member with
      rfl | ⟨msg, _, rfl⟩ | ⟨msg, _, rfl⟩ | rfl | ⟨msg, _, rfl⟩
    · cases is
    · cases is
    · cases is
    · cases is
      exact reached
    · cases is
  exact ⟨le_trans reached (nodeStep_eventClock env state op safe),
    nodeStep_ready env state op safe within ready⟩

theorem activity_ready (activity : Activity Id Address) (below : EventsBelow activity)
    (node : SerfCore Id Address)
    (clocks : ∀ visit ∈ visits (nodeStep env) node activity.ops, visit.1.events.clock < u64Max)
    (ready : node.events.core.minTime ≤ node.events.clock) :
    let after := run (nodeStep env) node activity.ops
    after.events.core.minTime ≤ after.events.clock := by
  cases activity with
  | merge now isJoin remote =>
    cases remote with
    | unreadable => exact ready
    | otherMessage => exact ready
    | badCollections ltime eventLtime queryLtime =>
      exact nodeStep_ready env node (.witnessRemote ltime eventLtime queryLtime) trivial
        (fun _ other => by cases other) ready
    | pushPull pp => exact merge_ready env now isJoin pp below node ready
  | call op =>
    have here := clocks (node, op) List.mem_cons_self
    have safe : EventSafe node op := by
      cases op with
      | receiveUserEvent msg => exact below
      | callUserEvent name payload coalesce => exact here
      | _ => trivial
    refine nodeStep_ready env node op safe ?_ ready
    rintro eventLtime rfl
    exact absurd below id

theorem activities_ready (later : List (Activity Id Address))
    (below : ∀ activity ∈ later, EventsBelow activity) (node : SerfCore Id Address)
    (clocks : ∀ visit ∈ visits (nodeStep env) node (later.flatMap Activity.ops),
      visit.1.events.clock < u64Max)
    (ready : node.events.core.minTime ≤ node.events.clock) :
    let after := run (nodeStep env) node (later.flatMap Activity.ops)
    after.events.core.minTime ≤ after.events.clock := by
  induction later generalizing node with
  | nil => exact ready
  | cons activity rest ih =>
    rw [List.flatMap_cons, visits_append] at clocks
    rw [List.flatMap_cons, run_append]
    apply ih
    · exact fun other inside => below other (List.mem_cons_of_mem _ inside)
    · exact fun visit inside => clocks visit (List.mem_append_right _ inside)
    · exact activity_ready env activity (below _ List.mem_cons_self) node
        (fun visit inside => clocks visit (List.mem_append_left _ inside)) ready

theorem run_slotCount (ops : List (NodeOp Id Address)) (node : SerfCore Id Address) :
    size (run (nodeStep env) node ops).events.core.buffer = size node.events.core.buffer := by
  apply run_invariant (nodeStep env) (fun _ => True)
    (fun reached => size reached.events.core.buffer = size node.events.core.buffer)
  · intro reached op _ held
    exact (nodeStep_slots env reached op).trans held
  · intro op _
    trivial
  · rfl

theorem inWindow_own (clock count : LamportTime) (positive : count ≠ 0) :
    InWindow (witness (increment clock) clock) count clock := by
  by_cases bound : clock < u64Max
  · exact inWindow_stamped clock count bound positive
  · have last : clock = u64Max := by grind
    have start : witness (increment clock) clock = 0 := by
      rw [last]
      decide
    rw [start]
    exact Or.inl (by grind)

omit [DecidableEq Id] in
theorem takesEvents_of_ready (node : SerfCore Id Address)
    (positive : size node.events.core.buffer ≠ 0)
    (ready : node.events.core.minTime ≤ node.events.clock) : TakesEvents env node := by
  intro name payload coalesce msg raw stamped
  have shape := stampUserEvent_message _ _ _ _ _ _ stamped
  simp only at shape
  subst msg
  exact ⟨ready, inWindow_own _ _ positive⟩

end Later

section Joining

variable (env : NodeEnvironment Id Address) (now : Id → Epoch) (pp : PushPullMessage Id)

def beforeEvents : List (NodeOp Id Address) :=
  .witnessRemote pp.ltime pp.eventLtime pp.queryLtime ::
    ((leftIntents pp).map (fun msg => .leaveIntent (now msg.id) msg) ++
      (otherIntents pp).map (fun msg => .joinIntent (now msg.id) msg))

theorem merge_split :
    mergeRemoteState now true (.pushPull pp) =
      beforeEvents now pp ++ (.ignoreOldEvents pp.eventLtime ::
        ((remoteEvents pp).map .receiveUserEvent : List (NodeOp Id Address))) := by
  simp [mergeRemoteState, beforeEvents]

theorem beforeEvents_op (op : NodeOp Id Address) (member : op ∈ beforeEvents now pp) :
    op = .witnessRemote pp.ltime pp.eventLtime pp.queryLtime ∨
    (∃ wall msg, op = .leaveIntent wall msg) ∨ ∃ wall msg, op = .joinIntent wall msg := by
  simp only [beforeEvents, List.mem_cons, List.mem_append, List.mem_map] at member
  rcases member with same | ⟨msg, _, same⟩ | ⟨msg, _, same⟩
  · exact Or.inl same
  · exact Or.inr (Or.inl ⟨_, msg, same.symm⟩)
  · exact Or.inr (Or.inr ⟨_, msg, same.symm⟩)

theorem beforeEvents_flag (node : SerfCore Id Address) :
    (run (nodeStep env) node (beforeEvents now pp)).eventJoinIgnore = node.eventJoinIgnore := by
  apply run_invariant (nodeStep env) (fun op => op ∈ beforeEvents now pp)
    (fun reached => reached.eventJoinIgnore = node.eventJoinIgnore)
  · intro reached op member held
    rcases beforeEvents_op now pp op member with rfl | ⟨wall, msg, rfl⟩ | ⟨wall, msg, rfl⟩ <;>
      exact held
  · exact fun _ inside => inside
  · rfl

theorem ignoring_minTime (node : SerfCore Id Address) (ignoring : node.eventJoinIgnore = true) :
    pp.eventLtime ≤ (nodeStep env (run (nodeStep env) node (beforeEvents now pp))
      (.ignoreOldEvents pp.eventLtime)).1.events.core.minTime := by
  have flag := beforeEvents_flag env now pp node
  rw [ignoring] at flag
  simp only [nodeStep, ignoreOldEvents]
  split
  · exact le_refl _
  · rename_i passed
    exact le_of_not_gt fun behind => passed ⟨flag, behind⟩

theorem handleUserEvent_hidden (msg : UserEventMessage) (state : EventState)
    (old : msg.ltime < state.core.minTime) :
    (handleUserEvent msg state).sent = [] ∧
    (handleUserEvent msg state).returned = some false := by
  rw [handleUserEvent_refused msg state fun admitted => absurd old (not_lt_of_ge admitted.1)]
  exact ⟨rfl, rfl⟩

theorem receiveUserEvent_hidden (node : SerfCore Id Address) (msg : UserEventMessage)
    (old : msg.ltime < node.events.core.minTime) :
    (nodeStep env node (.receiveUserEvent msg)).2.sent = [] := by
  simp only [nodeStep, receiveUserEvent]
  rw [(handleUserEvent_hidden msg node.events old).1]
  rfl

theorem merge_sends_no_event (node : SerfCore Id Address) (ignoring : node.eventJoinIgnore = true)
    (old : ∀ events ∈ pp.events, events.ltime < pp.eventLtime)
    (entry : NodeOp Id Address × Answer Id Address)
    (member : entry ∈ answers (nodeStep env) node (mergeRemoteState now true (.pushPull pp)))
    (msg : UserEventMessage) : CrateEvent.user msg ∉ entry.2.sent := by
  have raised := ignoring_minTime env now pp node ignoring
  rw [merge_split, answers_append, answers] at member
  rcases List.mem_append.mp member with early | member
  · obtain ⟨before, after, split, result⟩ := mem_answers _ _ _ _ early
    have inside : entry.1 ∈ beforeEvents now pp := by simp [split]
    rw [result]
    rcases beforeEvents_op now pp entry.1 inside with is | ⟨wall, intent, is⟩ | ⟨wall, intent, is⟩
    · simp [is, nodeStep]
    · simp [is, nodeStep, leaveIntent, onTable, tableAnswer]
    · simp [is, nodeStep, joinIntent, onTable, tableAnswer]
  rcases List.mem_cons.mp member with rfl | late
  · simp [nodeStep]
  · obtain ⟨before, after, split, result⟩ := mem_answers _ _ _ _ late
    have inside : entry.1 ∈ (remoteEvents pp).map (.receiveUserEvent : _ → NodeOp Id Address) := by
      simp [split]
    obtain ⟨event, among, is⟩ := List.mem_map.mp inside
    obtain ⟨events, listed, same⟩ := remoteEvents_time pp event among
    have hidden := lt_of_lt_of_le (lt_of_eq_of_lt same (old events listed))
      (le_trans raised (run_minTimes env _ before).1)
    rw [result, ← is, receiveUserEvent_hidden env _ event hidden]
    exact List.not_mem_nil

end Joining

/-- After an ignoring join nothing that the remote node had seen comes up again,
neither in the merge nor later, and the node's own events pass the checks if its
ring has a slot. -/
theorem ignoring_join_hides (env : NodeEnvironment Id Address)
    (sender receiver : SerfCore Id Address) (dominated : Dominated sender)
    (ignoring : receiver.eventJoinIgnore = true) (pp : PushPullMessage Id)
    (same : SamePushPull (localState sender) pp) (now : Id → Epoch) :
    let merge : List (NodeOp Id Address) := mergeRemoteState now true (.pushPull pp)
    let joined := run (nodeStep env) receiver merge
    (∀ entry ∈ answers (nodeStep env) receiver merge, ∀ msg, CrateEvent.user msg ∉ entry.2.sent) ∧
    (∀ later msg, msg.ltime < sender.events.clock →
      (handleUserEvent msg (run (nodeStep env) joined later).events).returned = some false) ∧
    (size receiver.events.core.buffer ≠ 0 →
      receiver.events.core.minTime ≤ receiver.events.clock →
      ∀ later : List (Activity Id Address), (∀ activity ∈ later, EventsBelow activity) →
        (∀ visit ∈ visits (nodeStep env) joined (later.flatMap Activity.ops),
          visit.1.events.clock < u64Max) →
        TakesEvents env (run (nodeStep env) joined (later.flatMap Activity.ops))) := by
  intro merge joined
  have eventLtime : pp.eventLtime = sender.events.clock := same.eventLtime.symm
  have old : ∀ events ∈ pp.events, events.ltime < pp.eventLtime := by
    intro events inside
    rw [← same.events] at inside
    obtain ⟨slot, among, is⟩ := List.mem_filterMap.mp inside
    obtain ⟨i, here⟩ := List.mem_iff_getElem?.mp among
    rw [eventLtime]
    exact dominated.events i events (is ▸ here)
  refine ⟨merge_sends_no_event env now pp receiver ignoring old, ?_, ?_⟩
  · intro later msg below
    have raised := ignoring_minTime env now pp receiver ignoring
    have reached : pp.eventLtime ≤
        (run (nodeStep env) joined later).events.core.minTime := by
      refine le_trans (le_trans raised ?_) (run_minTimes env joined later).1
      simp only [joined, merge, merge_split, run_append]
      exact (run_minTimes env _ _).1
    exact (handleUserEvent_hidden msg _ (lt_of_lt_of_le (eventLtime ▸ below) reached)).2
  · intro positive ready later below clocks
    have start := merge_ready env now true pp
      (fun events inside => lt_of_lt_of_le (old events inside) (by grind)) receiver ready
    apply takesEvents_of_ready
    · rw [run_slotCount, run_slotCount]
      exact positive
    · exact activities_ready env later below joined clocks start

theorem ignoring_join_hides_deploy :
    let sender := startedNode peerCore [.receiveUserEvent ⟨4, "deploy", [], false⟩]
    let receiver := startedNode plainCore [.setEventJoinIgnore true]
    let joined := run (nodeStep plainCore) receiver
      (mergeRemoteState (fun _ => 0) true (.pushPull (localState sender)))
    receiver.eventJoinIgnore = true ∧
    (handleUserEvent ⟨4, "deploy", [], false⟩ joined.events).returned = some false ∧
    TakesEvents plainCore joined := by
  have sound : Sound (freshStart 2 (by decide))
      (startedNode peerCore [.receiveUserEvent ⟨4, "deploy", [], false⟩]) :=
    startedNode_sound peerCore _ (by simp [stamps, u64Max]) (by simp [Reached]) (by decide)
  obtain ⟨_, hidden, takes⟩ := ignoring_join_hides plainCore
    (startedNode peerCore [.receiveUserEvent ⟨4, "deploy", [], false⟩])
    (startedNode plainCore [.setEventJoinIgnore true]) (sound_dominated _ _ sound) rfl _
    ⟨rfl, fun _ => rfl, fun _ => Iff.rfl, rfl, rfl, rfl⟩ fun _ => 0
  exact ⟨rfl, hidden [] _ (by decide),
    takes (by decide) (by decide) [] (by simp) (by simp [visits])⟩

theorem own_event_lost_after_join :
    let sender := startedNode peerCore []
    let receiver := { (newIn (freshStart 0 (by decide)) : SerfCore String Nat) with
      eventJoinIgnore := true }
    let joined := run (nodeStep plainCore) receiver
      (mergeRemoteState (fun _ => 0) true (.pushPull (localState sender)))
    Dominated sender ∧ receiver.events.core.minTime ≤ receiver.events.clock ∧
    ¬ TakesEvents plainCore joined ∧
    (nodeStep plainCore joined (.callUserEvent "deploy" [] false)).2.error = none ∧
    (nodeStep plainCore joined (.callUserEvent "deploy" [] false)).2.sent.length = 0 := by
  have sound : Sound (freshStart 2 (by decide)) (startedNode peerCore []) :=
    startedNode_sound peerCore _ (by simp) (by simp [Reached]) (by decide)
  refine ⟨sound_dominated _ _ sound, by decide, ?_, by decide, by decide⟩
  intro takes
  have admitted := takes "deploy" [] false ⟨1, "deploy", [], false⟩ [] (by decide)
  exact absurd admitted (by decide)

end Serf.JoinIgnore
