import Serf.PushPullDominance

/-!
The local state of a node on the wire. The sender does not build the message
that the receiver decodes: it encodes a view of its own state, in which the
event buffer still has its empty slots, with an encoder of its own. What the
receiver reads is nevertheless the state of the sender, and every left member
in it comes with a status time.
-/

namespace Serf.PushPullFidelity

open Library.Collections Library.Machine Library.Encoding Library.Slots
open LamportClock MemberTable TableInvariant EventHandler
open Serf.Core AntiEntropy PushPullDominance Wire

variable {Id Address : Type} [DecidableEq Id]

structure PushPullMessageBorrow (Id : Type) [DecidableEq Id] where
  ltime : LamportTime
  statusLtimes : Table Id LamportTime
  leftMembers : List Id
  eventLtime : LamportTime
  events : List (Option UserEvents)
  queryLtime : LamportTime

def PushPullMessageBorrow.owned (view : PushPullMessageBorrow Id) : PushPullMessage Id where
  ltime := view.ltime
  statusLtimes := view.statusLtimes
  leftMembers := view.leftMembers
  eventLtime := view.eventLtime
  events := view.events.filterMap fun slot => slot
  queryLtime := view.queryLtime

/-- What `local_state` puts into its message. -/
def localView (node : SerfCore Id Address) : PushPullMessageBorrow Id where
  ltime := node.clock
  statusLtimes := collect (node.members.states.entries.map fun entry =>
    (entry.2.member.node.id, entry.2.statusTime))
  leftMembers := (node.members.leftMembers.map fun m => m.member.node.id).eraseDups
  eventLtime := node.events.clock
  events := node.events.core.buffer.slots
  queryLtime := node.queries.clock

theorem localView_owned (node : SerfCore Id Address) : (localView node).owned = localState node :=
  rfl

section Encoder

variable (proto : Proto Id Address)

def encodedLenIn (view : PushPullMessageBorrow Id) : Nat :=
  List.sum [
    1 + proto.u64.encodedLen view.ltime,
    ((pairs view.statusLtimes).map fun pair =>
      1 + proto.framing.framedLen proto.statusLtime pair).sum,
    (view.leftMembers.map fun id => 1 + proto.framing.framedLen proto.id id).sum,
    1 + proto.u64.encodedLen view.eventLtime,
    (view.events.filterMap fun slot =>
      slot.map fun events => 1 + proto.framing.framedLen (userEvents proto) events).sum,
    1 + proto.u64.encodedLen view.queryLtime]

def encodeIn (view : PushPullMessageBorrow Id) (room : Nat) : Writer :=
  let len := encodedLenIn proto view
  .all [
    tagged len room (merge .varint 1) (.ofCodec proto.u64 view.ltime),
    proto.updated len room (.all ((pairs view.statusLtimes).map fun pair =>
      tagged len room (merge .lengthDelimited 2) (proto.framing.framed proto.statusLtime pair))),
    proto.updated len room (.all (view.leftMembers.map fun id =>
      tagged len room (merge proto.id.wireType 3) (proto.framing.framed proto.id id))),
    tagged len room (merge .varint 4) (.ofCodec proto.u64 view.eventLtime),
    -- A slot that was never used is passed over.
    proto.updated len room (.all ((view.events.filterMap fun slot => slot).map fun events =>
      tagged len room (merge .lengthDelimited 5) (proto.framing.framed (userEvents proto) events))),
    tagged len room (merge .varint 6) (.ofCodec proto.u64 view.queryLtime)]

theorem encodedLenIn_owned (view : PushPullMessageBorrow Id) :
    encodedLenIn proto view = pushPullLen proto view.owned := by
  have slots : (view.events.filterMap fun slot =>
        slot.map fun events => 1 + proto.framing.framedLen (userEvents proto) events) =
      view.owned.events.map fun events =>
        1 + proto.framing.framedLen (userEvents proto) events := by
    rw [PushPullMessageBorrow.owned, List.map_filterMap]
  rw [encodedLenIn, slots]
  rfl

theorem encodeIn_owned (view : PushPullMessageBorrow Id) (room : Nat) :
    encodeIn proto view room = pushPullWriter proto view.owned room := by
  rw [encodeIn, pushPullWriter, encodedLenIn_owned]
  rfl

def PushPullMessageBorrow.encodable (view : PushPullMessageBorrow Id) : Encodable where
  id := merge .lengthDelimited 3
  encodedLen := encodedLenIn proto view
  encode :=
    { write := fun room => (encodeIn proto view room).write room
      bounded := fun room => (encodeIn proto view room).bounded room }

theorem encodable_owned (view : PushPullMessageBorrow Id) :
    view.encodable proto = (Message.pushPull view.owned : Message Id Address).encodable proto := by
  have writers : encodeIn proto view = pushPullWriter proto view.owned :=
    funext fun room => encodeIn_owned proto view room
  simp only [PushPullMessageBorrow.encodable, encodedLenIn_owned, writers]
  rfl

/-- The bytes of `local_state`; none where the message cannot be encoded. -/
def localStateBytes (node : SerfCore Id Address) : Bytes :=
  match encodeMessageToBytes proto ((localView node).encodable proto) with
  | .ok bytes => bytes
  | .error _ => []

end Encoder

section Receiver

/-- What `merge_remote_state` does about one left member: it handles a leave
intent, or it reports that it cannot find a time for the id. -/
def leftTurn (pp : PushPullMessage Id) (id : Id) : Except Id (LeaveMessage Id) :=
  match pp.statusLtimes.lookup id with
  | some ltime => .ok ⟨ltime + 1, id, false⟩
  | none => .error id

theorem leftIntents_turns (pp : PushPullMessage Id) :
    leftIntents pp = pp.leftMembers.filterMap fun id => (leftTurn pp id).toOption := by
  rw [leftIntents]
  congr
  funext id
  rw [leftTurn]
  cases pp.statusLtimes.lookup id <;> rfl

end Receiver

/-- The message says of the node what `local_state` is to say. -/
structure Depicts (node : SerfCore Id Address) (pp : PushPullMessage Id) : Prop where
  ltime : pp.ltime = node.clock
  eventLtime : pp.eventLtime = node.events.clock
  queryLtime : pp.queryLtime = node.queries.clock
  statusLtimes : ∀ id, pp.statusLtimes.lookup id =
    (node.members.states.lookup id).map MemberState.statusTime
  leftMembers : ∀ id, id ∈ pp.leftMembers ↔ id ∈ ids node.members.leftMembers
  events : pp.events = node.events.core.buffer.slots.filterMap fun slot => slot

theorem localState_depicts (node : SerfCore Id Address) (consistent : Consistent node.members)
    (pp : PushPullMessage Id) (same : SamePushPull (localState node) pp) : Depicts node pp where
  ltime := same.ltime.symm
  eventLtime := same.eventLtime.symm
  queryLtime := same.queryLtime.symm
  statusLtimes := by
    intro id
    apply Option.ext
    intro ltime
    rw [← same.statusLtimes, localState_status node consistent]
    simp [record]
  leftMembers := by
    intro id
    rw [← same.leftMembers, localState_left]
  events := same.events.symm

theorem depicts_leftTurn (node : SerfCore Id Address) (consistent : Consistent node.members)
    (pp : PushPullMessage Id) (depicts : Depicts node pp) (id : Id) (left : id ∈ pp.leftMembers) :
    ∃ m, node.members.states.lookup id = some m ∧
      leftTurn pp id = .ok ⟨m.statusTime + 1, id, false⟩ := by
  rw [depicts.leftMembers] at left
  have status := (mem_ids_iff .left node.members id consistent).mp left
  obtain ⟨m, found, _⟩ := Option.map_eq_some_iff.mp status
  refine ⟨m, found, ?_⟩
  rw [leftTurn, depicts.statusLtimes, found]
  rfl

/-- What a node sends as its local state is read as a message that depicts it;
no left member in it lacks a time. -/
theorem local_state_faithful (proto : Proto Id Address) (laws : GossipLaws proto)
    (node : SerfCore Id Address) (consistent : Consistent node.members)
    (small : encodedLenIn proto (localView node) ≤ maxLen) :
    ∃ pp, decodeMessage proto (localStateBytes proto node) = .ok (.pushPull (.ok pp)) ∧
      Depicts node pp ∧
      ∀ id ∈ pp.leftMembers, ∃ m, node.members.states.lookup id = some m ∧
        leftTurn pp id = .ok ⟨m.statusTime + 1, id, false⟩ := by
  rw [encodedLenIn_owned] at small
  obtain ⟨bytes, encoded, _⟩ := encodeMessageToBytes_exact _ (encodeMessage_fits laws.lengths
    ((Message.pushPull (localState node) : Message Id Address).encodable proto)
    (pushPull_encodes laws.encoders (localState node) trivial small) small)
  have sent : localStateBytes proto node = bytes := by
    rw [localStateBytes, encodable_owned, localView_owned, encoded]
  obtain ⟨pp, decoded, same⟩ := pushPull_received proto laws (localState node) bytes encoded
  have depicts := localState_depicts node consistent pp same
  refine ⟨pp, ?_, depicts, depicts_leftTurn node consistent pp depicts⟩
  rw [sent]
  exact decoded

theorem three_fits : 3 < 2 ^ 64 := by decide

def partedNode : SerfCore UInt8 UInt8 :=
  run (nodeStep (byteNode 1)) (newIn (freshStart 3 three_fits))
    [.nodeJoin ⟨⟨2, 7⟩, []⟩, .nodeJoin ⟨⟨3, 7⟩, []⟩, .leaveIntent 0 ⟨5, 3, false⟩,
      .nodeLeave 0 ⟨⟨3, 7⟩, []⟩, .receiveUserEvent ⟨4, "deploy", [], false⟩]

theorem local_state_faithful_parted :
    encodedLenIn reference (localView partedNode) ≤ maxLen ∧
    ∃ pp, decodeMessage reference (localStateBytes reference partedNode) =
        .ok (.pushPull (.ok pp)) ∧
      Depicts partedNode pp ∧ 3 ∈ pp.leftMembers ∧ leftTurn pp 3 = .ok ⟨6, 3, false⟩ := by
  have small : encodedLenIn reference (localView partedNode) ≤ maxLen := by decide
  have left : 3 ∈ ids partedNode.members.leftMembers := by decide
  have time : (partedNode.members.states.lookup 3).map MemberState.statusTime = some 5 := by decide
  obtain ⟨pp, decoded, depicts, turns⟩ := local_state_faithful reference reference_laws.toGossipLaws
    partedNode
    (reachable_consistent (byteNode 1) (freshStart 3 three_fits) _) small
  have listed := (depicts.leftMembers 3).mpr left
  obtain ⟨m, found, turn⟩ := turns 3 listed
  rw [found, Option.map_some, Option.some.injEq] at time
  rw [time] at turn
  exact ⟨small, pp, decoded, depicts, listed, turn⟩

end Serf.PushPullFidelity
