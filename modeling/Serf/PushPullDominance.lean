import Serf.AntiEntropy
import Serf.Wire.Message

/-!
One push/pull from a node to another, through the wire: `local_state` at the
sender, the encoded message, and `merge_remote_state` at the receiver. Nothing
that the receiver held gets older, and it ends up with at least the times that
the sender had.
-/

namespace Serf.PushPullDominance

open Library.Collections Library.Machine Library.Window Library.Encoding Library.Fields
open Library.Slots
open LamportClock MemberTable TableInvariant EventHandler HeldTime
open Serf.Core PushPull ClockDominance AntiEntropy Wire

variable {Id Address : Type} [DecidableEq Id]

def Rises {Value : Type} (time : Value → LamportTime) (before after : Table Id Value) : Prop :=
  ∀ id value, before.lookup id = some value →
    ∃ later, after.lookup id = some later ∧ time value ≤ time later

section Tables

variable {Value : Type} (time : Value → LamportTime) (table : Table Id Value)

theorem rises_refl : Rises time table table := by
  intro id value found
  exact ⟨value, found, le_refl _⟩

theorem rises_trans (middle after : Table Id Value) (first : Rises time table middle)
    (second : Rises time middle after) : Rises time table after := by
  intro id value found
  obtain ⟨later, there, grows⟩ := first id value found
  obtain ⟨last, here, growsAgain⟩ := second id later there
  exact ⟨last, here, le_trans grows growsAgain⟩

theorem rises_insert (id : Id) (value : Value)
    (newer : ∀ held, table.lookup id = some held → time held ≤ time value) :
    Rises time table (table.insert id value) := by
  intro other held found
  rw [lookup_insert_eq]
  by_cases same : other = id
  · rw [if_pos same]
    rw [same] at found
    exact ⟨value, rfl, newer held found⟩
  · rw [if_neg same]
    exact ⟨held, found, le_refl _⟩

end Tables

structure NothingLost (before after : SerfCore Id Address) : Prop where
  clock : before.clock ≤ after.clock
  eventClock : before.events.clock ≤ after.events.clock
  queryClock : before.queries.clock ≤ after.queries.clock
  eventMinTime : before.events.core.minTime ≤ after.events.core.minTime
  queryMinTime : before.queries.core.minTime ≤ after.queries.core.minTime
  statuses : Rises MemberState.statusTime before.members.states after.members.states
  intents : Rises NodeIntent.ltime before.members.recentIntents after.members.recentIntents
  strangers : ∀ id, before.members.states.lookup id = none → after.members.states.lookup id = none

section Steps

variable (env : NodeEnvironment Id Address) (node : SerfCore Id Address)

theorem nothingLost_refl : NothingLost node node where
  clock := le_refl _
  eventClock := le_refl _
  queryClock := le_refl _
  eventMinTime := le_refl _
  queryMinTime := le_refl _
  statuses := rises_refl _ _
  intents := rises_refl _ _
  strangers _ unknown := unknown

theorem nothingLost_trans (middle after : SerfCore Id Address) (first : NothingLost node middle)
    (second : NothingLost middle after) : NothingLost node after where
  clock := le_trans first.clock second.clock
  eventClock := le_trans first.eventClock second.eventClock
  queryClock := le_trans first.queryClock second.queryClock
  eventMinTime := le_trans first.eventMinTime second.eventMinTime
  queryMinTime := le_trans first.queryMinTime second.queryMinTime
  statuses := rises_trans _ _ _ _ first.statuses second.statuses
  intents := rises_trans _ _ _ _ first.intents second.intents
  strangers id unknown := second.strangers id (first.strangers id unknown)

theorem stale_kept (after : SerfCore Id Address) (kept : NothingLost node after) (id : Id)
    (ltime : LamportTime) (stale : Stale node.members id ltime) :
    Stale after.members id ltime := by
  obtain ⟨held, holds, old⟩ := stale
  cases found : node.members.states.lookup id with
  | some m =>
    rw [heldTime_known _ id m found] at holds
    cases holds
    obtain ⟨later, there, grows⟩ := kept.statuses id m found
    exact ⟨later.statusTime, heldTime_known _ id later there, le_trans old grows⟩
  | none =>
    rw [heldTime_unknown _ id found] at holds
    obtain ⟨intent, buffered, rfl⟩ := Option.map_eq_some_iff.mp holds
    obtain ⟨later, there, grows⟩ := kept.intents id intent buffered
    refine ⟨later.ltime, ?_, le_trans old grows⟩
    rw [heldTime_unknown _ id (kept.strangers id found), there]
    rfl

theorem nothingLost_table (ltime : LamportTime) (members : Members Id Address)
    (bound : ltime < u64Max)
    (statuses : Rises MemberState.statusTime node.members.states members.states)
    (intents : Rises NodeIntent.ltime node.members.recentIntents members.recentIntents)
    (strangers : ∀ id, node.members.states.lookup id = none → members.states.lookup id = none) :
    NothingLost node { node with clock := witness node.clock ltime, members := members } where
  clock := witness_grows _ _ bound
  eventClock := le_refl _
  queryClock := le_refl _
  eventMinTime := le_refl _
  queryMinTime := le_refl _
  statuses := statuses
  intents := intents
  strangers := strangers

theorem fresh_member (id : Id) (ltime : LamportTime)
    (fresh : ¬ Stale node.members id ltime) (m : MemberState Id Address)
    (found : node.members.states.lookup id = some m) : m.statusTime ≤ ltime :=
  fresh_newer node.members id ltime fresh _ (heldTime_known _ id m found)

theorem fresh_intent (id : Id) (ltime : LamportTime)
    (unknown : node.members.states.lookup id = none) (fresh : ¬ Stale node.members id ltime)
    (intent : NodeIntent) (found : node.members.recentIntents.lookup id = some intent) :
    intent.ltime ≤ ltime := by
  apply fresh_newer node.members id ltime fresh
  simp [heldTime_unknown _ id unknown, found]

theorem insert_strangers (states : Table Id (MemberState Id Address)) (id : Id)
    (m after : MemberState Id Address) (found : states.lookup id = some m) (other : Id)
    (unknown : states.lookup other = none) : (states.insert id after).lookup other = none := by
  have different : other ≠ id := by
    rintro rfl
    rw [found] at unknown
    cases unknown
  rw [lookup_insert_eq, if_neg different, unknown]

theorem joinIntent_keeps (now : Epoch) (msg : JoinMessage Id) (bound : msg.ltime < u64Max) :
    NothingLost node (nodeStep env node (.joinIntent now msg)).1 := by
  have effect := handleNodeJoinIntent_effect now msg node.members
  simp only [nodeStep, joinIntent, onTable]
  generalize handleNodeJoinIntent now msg node.members = outcome at effect
  cases effect with
  | stale old =>
    exact nothingLost_table node _ _ bound (rises_refl _ _) (rises_refl _ _) fun _ here => here
  | buffered unknown fresh =>
    refine nothingLost_table node _ _ bound (rises_refl _ _) ?_ fun _ here => here
    exact rises_insert _ _ _ _ (fresh_intent node msg.id msg.ltime unknown fresh)
  | recorded m after found fresh time _ _ =>
    refine nothingLost_table node _ _ bound ?_ (rises_refl _ _)
      (insert_strangers _ msg.id m after found)
    apply rises_insert
    rw [time]
    exact fresh_member node msg.id msg.ltime fresh

theorem leaveIntent_keeps (now : Epoch) (msg : LeaveMessage Id) (bound : msg.ltime < u64Max)
    (keeps : msg.prune = false) :
    NothingLost node (nodeStep env node (.leaveIntent now msg)).1 := by
  have effect := handleNodeLeaveIntent_effect env.membership node.state now msg node.members
  simp only [nodeStep, leaveIntent, onTable]
  generalize handleNodeLeaveIntent env.membership node.state now msg node.members = outcome
    at effect
  cases effect with
  | stale old =>
    exact nothingLost_table node _ _ bound (rises_refl _ _) (rises_refl _ _) fun _ here => here
  | refuted _ _ _ =>
    exact nothingLost_table node _ _ bound (rises_refl _ _) (rises_refl _ _) fun _ here => here
  | buffered unknown fresh =>
    refine nothingLost_table node _ _ bound (rises_refl _ _) ?_ fun _ here => here
    exact rises_insert _ _ _ _ (fresh_intent node msg.id msg.ltime unknown fresh)
  | recorded m after _ found fresh _ time _ _ states intents _ _ =>
    have kept : outcome.members.states = node.members.states.insert msg.id after := by
      simpa [keeps] using states
    refine nothingLost_table node _ _ bound ?_ ?_ ?_
    · rw [kept]
      apply rises_insert
      rw [time]
      exact fresh_member node msg.id msg.ltime fresh
    · rw [intents]
      exact rises_refl _ _
    · rw [kept]
      exact insert_strangers _ msg.id m after found

theorem witnessRemote_keeps (ltime eventLtime queryLtime : LamportTime) :
    NothingLost node (nodeStep env node (.witnessRemote ltime eventLtime queryLtime)).1 where
  clock := witnessBefore_grows _ _
  eventClock := witnessBefore_grows _ _
  queryClock := witnessBefore_grows _ _
  eventMinTime := le_refl _
  queryMinTime := le_refl _
  statuses := rises_refl _ _
  intents := rises_refl _ _
  strangers _ unknown := unknown

theorem ignoreOldEvents_keeps (eventLtime : LamportTime) :
    NothingLost node (nodeStep env node (.ignoreOldEvents eventLtime)).1 := by
  simp only [nodeStep, ignoreOldEvents]
  split
  · rename_i ignoring
    exact { nothingLost_refl node with eventMinTime := le_of_lt ignoring.2 }
  · exact nothingLost_refl node

theorem receiveUserEvent_keeps (msg : UserEventMessage) (bound : msg.ltime < u64Max) :
    NothingLost node (nodeStep env node (.receiveUserEvent msg)).1 := by
  obtain ⟨clock, minTime, _⟩ := EventDelivery.handleUserEvent_frame msg node.events
  exact { nothingLost_refl node with
    eventClock := le_of_le_of_eq (witness_grows _ _ bound) clock.symm
    eventMinTime := ge_of_eq minTime }

end Steps

section Merge

variable (env : NodeEnvironment Id Address) (pp : PushPullMessage Id)
  (statusTimes : ∀ id ltime, pp.statusLtimes.lookup id = some ltime → ltime < u64Max - 1)
  (eventTimes : ∀ events ∈ pp.events, events.ltime < u64Max - 1)

include statusTimes eventTimes

variable (now : Id → Epoch) (isJoin : Bool)

theorem merge_step_keeps (node : SerfCore Id Address) (op : NodeOp Id Address)
    (member : op ∈ mergeRemoteState now isJoin (.pushPull pp)) :
    NothingLost node (nodeStep env node op).1 := by
  rcases mergeRemoteState_op now isJoin pp op member with
    rfl | ⟨msg, sent, rfl⟩ | ⟨msg, sent, rfl⟩ | rfl | ⟨msg, sent, rfl⟩
  · exact witnessRemote_keeps env node _ _ _
  · obtain ⟨ltime, found, shape⟩ := leftIntents_time pp msg sent
    have below := statusTimes msg.id ltime found
    have bound : msg.ltime < u64Max := by
      rw [shape]
      grind
    exact leaveIntent_keeps env node _ msg bound (by rw [shape])
  · have below := statusTimes msg.id msg.ltime (otherIntents_time pp msg sent).2
    exact joinIntent_keeps env node _ msg (by grind)
  · exact ignoreOldEvents_keeps env node _
  · obtain ⟨events, inside, same⟩ := remoteEvents_time pp msg sent
    have below := eventTimes events inside
    exact receiveUserEvent_keeps env node msg (by grind)

theorem merge_part_keeps (node : SerfCore Id Address) (ops : List (NodeOp Id Address))
    (part : ∀ op ∈ ops, op ∈ mergeRemoteState now isJoin (.pushPull pp)) :
    NothingLost node (run (nodeStep env) node ops) := by
  apply run_invariant (nodeStep env) (fun op => op ∈ mergeRemoteState now isJoin (.pushPull pp))
    (NothingLost node)
  · intro state op member kept
    exact nothingLost_trans node state _ kept
      (merge_step_keeps env pp statusTimes eventTimes now isJoin state op member)
  · exact part
  · exact nothingLost_refl node

omit eventTimes in
theorem merge_mentions (id : Id) (ltime : LamportTime)
    (found : pp.statusLtimes.lookup id = some ltime) (other : id ≠ env.membership.localId) :
    ∃ op : NodeOp Id Address, op ∈ mergeRemoteState now isJoin (.pushPull pp) ∧
      ∀ node, Stale (nodeStep env node op).1.members id ltime := by
  have below := statusTimes id ltime found
  rw [mergeRemoteState]
  by_cases left : id ∈ pp.leftMembers
  · refine ⟨.leaveIntent (now id) ⟨ltime + 1, id, false⟩, ?_, ?_⟩
    · simp only [List.mem_cons, List.mem_append, List.mem_map]
      refine Or.inr (Or.inl (Or.inl (Or.inl ⟨⟨ltime + 1, id, false⟩, ?_, rfl⟩)))
      exact List.mem_filterMap.mpr ⟨id, left, by simp [found]⟩
    · intro node
      rcases handleNodeLeaveIntent_stale env.membership node.state (now id)
        ⟨ltime + 1, id, false⟩ node.members rfl with ⟨held, holds, old⟩ | refutes
      · exact ⟨held, holds, by grind⟩
      · exact absurd refutes.2.1 other
  · refine ⟨.joinIntent (now id) ⟨ltime, id⟩, ?_, ?_⟩
    · simp only [List.mem_cons, List.mem_append, List.mem_map]
      refine Or.inr (Or.inl (Or.inl (Or.inr ⟨⟨ltime, id⟩, ?_, rfl⟩)))
      refine List.mem_map.mpr ⟨⟨id, ltime⟩, List.mem_filter.mpr ⟨?_, by simp [left]⟩, rfl⟩
      exact AList.mem_lookup_iff.mp found
    · intro node
      exact handleNodeJoinIntent_stale (now id) ⟨ltime, id⟩ node.members

theorem merge_reaches (now : Id → Epoch) (isJoin : Bool) (node : SerfCore Id Address) :
    let after := run (nodeStep env) node (mergeRemoteState now isJoin (.pushPull pp))
    pp.ltime ≤ after.clock ∧ pp.eventLtime ≤ after.events.clock ∧
    pp.queryLtime ≤ after.queries.clock ∧
    ∀ id ltime, pp.statusLtimes.lookup id = some ltime → id ≠ env.membership.localId →
      Stale after.members id ltime := by
  intro after
  have keeps := merge_part_keeps env pp statusTimes eventTimes now isJoin
  -- The clocks reach the received values in the first operation.
  have later := keeps (nodeStep env node (.witnessRemote pp.ltime pp.eventLtime pp.queryLtime)).1
    (mergeRemoteState now isJoin (.pushPull pp)).tail fun op inside => List.mem_of_mem_tail inside
  refine ⟨le_trans (witnessBefore_reaches _ _) later.clock,
    le_trans (witnessBefore_reaches _ _) later.eventClock,
    le_trans (witnessBefore_reaches _ _) later.queryClock, ?_⟩
  intro id ltime found other
  obtain ⟨op, member, settles⟩ := merge_mentions env pp statusTimes now isJoin id ltime
    found other
  obtain ⟨before, rest, split⟩ := List.append_of_mem member
  have reached : after =
      run (nodeStep env) (nodeStep env (run (nodeStep env) node before) op).1 rest := by
    rw [show after = run (nodeStep env) node (before ++ op :: rest) from by rw [← split],
      run_append]
    rfl
  rw [reached]
  refine stale_kept _ _ (keeps _ rest fun other inside => ?_) id ltime (settles _)
  rw [split]
  exact List.mem_append_right _ (List.mem_cons_of_mem _ inside)

end Merge

section Wire

variable (proto : Proto Id Address)

theorem pushPull_received (laws : GossipLaws proto) (message : PushPullMessage Id) (bytes : Bytes)
    (encoded : encodeMessageToBytes proto
      ((Message.pushPull message : Message Id Address).encodable proto) = .ok bytes) :
    ∃ pp, decodeMessage proto bytes = .ok (.pushPull (.ok pp)) ∧ SamePushPull message pp := by
  have fits := pushPull_encodes laws.encoders message trivial
    (encodeMessageToBytes_small _ bytes encoded)
  have made := encodeMessageToBytes_makes laws.lengths _ fits bytes encoded
  obtain ⟨ref, decoded, _, converts⟩ := pushPull_decodes laws message _ _ bytes made
  cases ref with
  | pushPull back =>
    obtain ⟨pp, rfl, equal⟩ := converts
    exact ⟨pp, decoded, equal⟩
  | _ => exact absurd converts id

/-- After a push/pull the receiver has at least the clocks of the sender and, of
every id but its own, at least the time that the sender had; and it has lost
nothing. -/
theorem pushPull_dominates (laws : GossipLaws proto) (env : NodeEnvironment Id Address)
    (sender receiver : SerfCore Id Address) (consistent : Consistent sender.members)
    (statusTimes : ∀ id m, sender.members.states.lookup id = some m → m.statusTime < u64Max - 1)
    (eventTimes : ∀ events ∈ (localState sender).events, events.ltime < u64Max - 1) (bytes : Bytes)
    (encoded : encodeMessageToBytes proto
      ((Message.pushPull (localState sender) : Message Id Address).encodable proto) = .ok bytes)
    (now : Id → Epoch) (isJoin : Bool) :
    ∃ pp, decodeMessage proto bytes = .ok (.pushPull (.ok pp)) ∧
      let after := run (nodeStep env) receiver (mergeRemoteState now isJoin (.pushPull pp))
      sender.clock ≤ after.clock ∧ sender.events.clock ≤ after.events.clock ∧
      sender.queries.clock ≤ after.queries.clock ∧
      (∀ id m, sender.members.states.lookup id = some m → id ≠ env.membership.localId →
        ∃ held, heldTime after.members id = some held ∧ m.statusTime ≤ held) ∧
      NothingLost receiver after := by
  obtain ⟨pp, decoded, same⟩ := pushPull_received proto laws (localState sender) bytes encoded
  have listed : ∀ id ltime, pp.statusLtimes.lookup id = some ltime ↔
      ∃ m, sender.members.states.lookup id = some m ∧ m.statusTime = ltime := by
    intro id ltime
    rw [← same.statusLtimes, localState_status sender consistent]
    simp [record]
  have bounded : ∀ id ltime, pp.statusLtimes.lookup id = some ltime → ltime < u64Max - 1 := by
    intro id ltime found
    obtain ⟨m, here, rfl⟩ := (listed id ltime).mp found
    exact statusTimes id m here
  rw [same.events] at eventTimes
  obtain ⟨clock, eventClock, queryClock, held⟩ :=
    merge_reaches env pp bounded eventTimes now isJoin receiver
  rw [← same.ltime] at clock
  rw [← same.eventLtime] at eventClock
  rw [← same.queryLtime] at queryClock
  refine ⟨pp, decoded, clock, eventClock, queryClock, ?_, ?_⟩
  · intro id m found other
    exact held id m.statusTime ((listed id m.statusTime).mpr ⟨m, found, rfl⟩) other
  · exact merge_part_keeps env pp bounded eventTimes now isJoin receiver _ fun _ inside => inside

end Wire

def byteNode (id : UInt8) : NodeEnvironment UInt8 UInt8 where
  membership := ⟨id, .v1, .v1, .v1, .v1, fun _ => .ok ∅, none⟩
  limits := roomy
  query := ⟨⟨id, 7⟩, ∅, fun _ => none, fun _ => .ok [], 1024, fun _ => 16, fun _ => .ok []⟩
  sameId := rfl
  encodeJoin _ := .ok []
  encodeLeave _ := .ok []

def informedNode : SerfCore UInt8 UInt8 :=
  run (nodeStep (byteNode 1)) (newIn (freshStart 3 (by decide)))
    [.nodeJoin ⟨⟨2, 7⟩, []⟩, .nodeJoin ⟨⟨3, 7⟩, []⟩, .joinIntent 0 ⟨3, 2⟩,
      .leaveIntent 0 ⟨5, 3, false⟩, .receiveUserEvent ⟨4, "deploy", [], false⟩]

def informedBytes : Bytes :=
  [19, 32, 9, 6, 18, 4, 1, 2, 10, 3, 18, 4, 1, 3, 10, 5, 12, 5, 21, 12, 9, 4, 18, 8, 17, 6, 100,
    101, 112, 108, 111, 121, 14, 1]

theorem pushPull_dominates_informed :
    encodeMessageToBytes reference
        ((Message.pushPull (localState informedNode) : Message UInt8 UInt8).encodable reference) =
      .ok informedBytes ∧
    ∃ pp, decodeMessage reference informedBytes = .ok (.pushPull (.ok pp)) ∧
      let receiver := (newIn (freshStart 2 (by decide)) : SerfCore UInt8 UInt8)
      let after := run (nodeStep (byteNode 4)) receiver
        (mergeRemoteState (fun _ => 0) true (.pushPull pp))
      (∃ held, heldTime after.members 3 = some held ∧ 5 ≤ held) ∧ NothingLost receiver after := by
  have encoded : encodeMessageToBytes reference
      ((Message.pushPull (localState informedNode) : Message UInt8 UInt8).encodable reference) =
        .ok informedBytes := by decide
  have known : ∃ m, informedNode.members.states.lookup 3 = some m ∧ m.statusTime = 5 := by
    have recorded : record informedNode 3 = some (.leaving, 5) := by decide
    obtain ⟨m, found, _, time⟩ := (record_eq_some _ _ _ _).mp recorded
    exact ⟨m, found, time⟩
  have entries : ∀ entry ∈ informedNode.members.states.entries,
      entry.2.statusTime < u64Max - 1 := by decide
  obtain ⟨pp, decoded, _, _, _, held, kept⟩ :=
    pushPull_dominates reference reference_laws.toGossipLaws
    (byteNode 4) informedNode (newIn (freshStart 2 (by decide)))
    (reachable_consistent (byteNode 1) (freshStart 3 (by decide)) _)
    (fun id m found => entries ⟨id, m⟩ (AList.mem_lookup_iff.mp found)) (by decide) informedBytes
    encoded (fun _ => 0) true
  obtain ⟨m, found, time⟩ := known
  refine ⟨encoded, pp, decoded, ?_, kept⟩
  rw [← time]
  exact held 3 m found (by decide)

end Serf.PushPullDominance
