import Serf.Wire.Basic

/-!
The codecs of the gossip messages: leave, join, user events and the state that
two nodes push and pull. Behind each codec stand its theorems: it reads back
what it wrote, and it comes back on any bytes.
-/

namespace Serf.Wire

open Library.Collections Library.Encoding Library.Fields

variable {Id Address : Type} (proto : Proto Id Address)

section Leave

def leaveLen (message : LeaveMessage Id) : Nat :=
  List.sum [
    1 + proto.u64.encodedLen message.ltime,
    if message.prune then 1 + 1 else 0,
    1 + proto.framing.framedLen proto.id message.id]

def leaveWriter (message : LeaveMessage Id) (room : Nat) : Writer :=
  let len := leaveLen proto message
  .all [
    tagged len room (merge .varint 1) (proto.updated len room (.ofCodec proto.u64 message.ltime)),
    .onlyIf message.prune
      (tagged len room (merge .byte 2) (proto.updated len room (.ofCodec proto.bool true))),
    tagged len room (merge proto.id.wireType 3)
      (proto.updated len room (proto.framing.framed proto.id message.id))]

structure LeaveFields (Id : Type) where
  ltime : Option LamportTime := none
  prune : Option Bool := none
  id : Option (Outcome Id) := none

def LeaveFields.ltimeSlot : Slot (LeaveFields Id) LamportTime :=
  { held := ltime, put := fun fields value => { fields with ltime := value } }

def LeaveFields.pruneSlot : Slot (LeaveFields Id) Bool :=
  { held := prune, put := fun fields value => { fields with prune := value } }

def LeaveFields.idSlot : Slot (LeaveFields Id) (Outcome Id) :=
  { held := id, put := fun fields value => { fields with id := value } }

def leaveArms (byte : UInt8) : Arm DecodeError (LeaveFields Id) :=
  if byte = merge .varint 1 then
    once LeaveFields.ltimeSlot (.duplicateField "LeaveMessage" "ltime" 1) proto.u64.decodeOwned
  else if byte = merge .byte 2 then
    once LeaveFields.pruneSlot (.duplicateField "LeaveMessage" "prune" 2) proto.bool.decodeOwned
  else if byte = merge proto.id.wireType 3 then
    latest LeaveFields.idSlot (proto.read proto.id)
  else
    pass (proto.skip "LeaveMessage")

def leaveDecode (buffer : Bytes) : Outcome (Nat × Outcome (LeaveMessage Id)) := do
  let (offset, fields) ← scan (leaveArms proto) {} buffer
  let ltime ← need "LeaveMessage" "ltime" fields.ltime
  let id ← need "LeaveMessage" "id" fields.id
  return (offset, do
    let id ← id
    return { ltime, id, prune := fields.prune.getD false })

def leave : Data (LeaveMessage Id) :=
  ofWriter (leaveLen proto) (leaveWriter proto) (leaveDecode proto)

def leaveParts (message : LeaveMessage Id) : List (List Part) :=
  [[⟨merge .varint 1, .ofCodec proto.u64 message.ltime⟩],
    if message.prune then [⟨merge .byte 2, .ofCodec proto.bool true⟩] else [],
    [⟨merge proto.id.wireType 3, proto.framing.framed proto.id message.id⟩]]

def leaveTags : List UInt8 := [merge .varint 1, merge .byte 2, merge proto.id.wireType 3]

theorem leave_spells (message : LeaveMessage Id) (room : Nat) :
    (leaveWriter proto message room).Spells (leaveParts proto message).flatten :=
  Writer.spells_all
    (.cons (Writer.spells_updated _ _ _ _)
    (.cons (Writer.spells_onlyIf (Writer.spells_updated _ _ _ _))
    (.cons (Writer.spells_updated _ _ _ _) .nil)))

theorem leaveArms_others (tag : UInt8) (other : tag ∉ leaveTags proto) :
    leaveArms proto tag = pass (proto.skip "LeaveMessage") := by
  simp only [leaveTags, List.mem_cons, List.not_mem_nil, or_false, not_or] at other
  simp only [leaveArms, other, if_false]

theorem leaveArms_id :
    leaveArms proto (merge proto.id.wireType 3) =
      latest LeaveFields.idSlot (proto.read proto.id) := by
  rw [leaveArms, if_neg (merge_ne _ _ _ _ (by decide)), if_neg (merge_ne _ _ _ _ (by decide)),
    if_pos rfl]

variable {proto}

theorem bool_small (laws : GossipLaws proto) : proto.bool.encodedLen true ≤ maxLen := by
  rw [laws.boolLen]
  decide

theorem leave_encodes (encoders : GossipEncoders proto) :
    Encodes (leave proto) (fun _ => True) 0 := by
  refine encodes_ofWriter fun message _ small room => ?_
  simp only [leaveLen, List.sum_cons, List.sum_nil] at small
  have ltime := encoders.u64 message.ltime trivial (by omega)
  have id := encoders.fits encoders.id message.id trivial (by omega)
  exact Writer.fits_all
    (.cons (Writer.fits_field (Writer.fits_mapErr ltime))
    (.cons (Writer.fits_onlyIf fun _ => Writer.fits_field (Writer.fits_mapErr encoders.flag))
    (.cons (Writer.fits_field (Writer.fits_mapErr id)) .nil)))

theorem leave_lawful (laws : GossipLaws proto) : Lawful (leave proto) (fun _ => True) Eq 0 := by
  refine lawful_ofWriter (leave_encodes laws.encoders) ?_
  intro message _ small room bytes made
  refine ⟨message, rfl, ?_⟩
  simp only [leaveLen, List.sum_cons, List.sum_nil] at small
  have so := stands_written (leaveArms proto) {} (leave_spells proto message room) made
  obtain ⟨_, rfl, so⟩ := so.field (once_stores rfl rfl)
    (plain_inverts laws.u64 message.ltime trivial (by omega))
  obtain ⟨prune, kept, so⟩ := so.elided message.prune (fun _ => rfl)
    (fun _ => plain_inverts laws.bool true trivial (bool_small laws)) rfl
  obtain ⟨_, ⟨_, rfl, rfl⟩, so⟩ := so.field (latest_stores (leaveArms_id proto))
    (laws.reads laws.id message.id trivial (by omega))
  rw [leaveDecode, so.scans]
  simp [LeaveFields.ltimeSlot, LeaveFields.pruneSlot, LeaveFields.idSlot, need, bind,
    Except.bind, pure, Except.pure, elided_flag kept]

theorem leave_total (total : ProtoTotal proto) : TotalCodec (leave proto) := by
  have safe : ∀ byte, Safe (fun _ fields => Settled fields.id) (leaveArms proto byte) := by
    intro byte
    unfold leaveArms
    split_ifs
    · exact once_safe (total_decodeOwned total.u64) fun _ _ _ _ held _ => held
    · exact once_safe (total_decodeOwned total.bool) fun _ _ _ _ held _ => held
    · exact latest_safe (total.read total.id) fun _ _ _ _ _ back => settled_some back
    · exact pass_safe (total.skip _) fun _ _ _ held => held
  refine total_of_ends fun buffer => ends_scan safe {} settled_none buffer ?_
  intro fields settled
  refine ends_need _ _ _ fun ltime _ => ends_need _ _ _ fun id held => ⟨le_rfl, ?_⟩
  exact returns_bind (settled id held) fun _ _ => trivial

end Leave

section Join

def joinLen (message : JoinMessage Id) : Nat :=
  List.sum [
    1 + proto.u64.encodedLen message.ltime,
    1 + proto.framing.framedLen proto.id message.id]

def joinWriter (message : JoinMessage Id) (room : Nat) : Writer :=
  let len := joinLen proto message
  .all [
    tagged len room (merge .varint 1) (.ofCodec proto.u64 message.ltime),
    tagged len room (merge proto.id.wireType 2) (proto.framing.framed proto.id message.id)]

structure JoinFields (Id : Type) where
  ltime : Option LamportTime := none
  id : Option (Outcome Id) := none

def JoinFields.ltimeSlot : Slot (JoinFields Id) LamportTime :=
  { held := ltime, put := fun fields value => { fields with ltime := value } }

def JoinFields.idSlot : Slot (JoinFields Id) (Outcome Id) :=
  { held := id, put := fun fields value => { fields with id := value } }

def joinArms (byte : UInt8) : Arm DecodeError (JoinFields Id) :=
  if byte = merge .varint 1 then
    once JoinFields.ltimeSlot (.duplicateField "JoinMessage" "ltime" 1) proto.u64.decodeOwned
  else if byte = merge proto.id.wireType 2 then
    once JoinFields.idSlot (.duplicateField "JoinMessage" "id" 2) (proto.read proto.id)
  else
    pass (proto.skip "JoinMessage")

def joinDecode (buffer : Bytes) : Outcome (Nat × Outcome (JoinMessage Id)) := do
  let (offset, fields) ← scan (joinArms proto) {} buffer
  let ltime ← need "JoinMessage" "ltime" fields.ltime
  let id ← need "JoinMessage" "id" fields.id
  return (offset, do
    let id ← id
    return { ltime, id })

def join : Data (JoinMessage Id) :=
  ofWriter (joinLen proto) (joinWriter proto) (joinDecode proto)

def joinParts (message : JoinMessage Id) : List (List Part) :=
  [[⟨merge .varint 1, .ofCodec proto.u64 message.ltime⟩],
    [⟨merge proto.id.wireType 2, proto.framing.framed proto.id message.id⟩]]

theorem join_spells (message : JoinMessage Id) (room : Nat) :
    (joinWriter proto message room).Spells (joinParts proto message).flatten :=
  Writer.spells_all
    (.cons (Writer.spells_field _ _ _) (.cons (Writer.spells_field _ _ _) .nil))

theorem joinArms_id :
    joinArms proto (merge proto.id.wireType 2) =
      once JoinFields.idSlot (.duplicateField "JoinMessage" "id" 2) (proto.read proto.id) := by
  rw [joinArms, if_neg (merge_ne _ _ _ _ (by decide)), if_pos rfl]

variable {proto}

theorem join_encodes (encoders : GossipEncoders proto) :
    Encodes (join proto) (fun _ => True) 0 := by
  refine encodes_ofWriter fun message _ small room => ?_
  simp only [joinLen, List.sum_cons, List.sum_nil] at small
  have ltime := encoders.u64 message.ltime trivial (by omega)
  have id := encoders.fits encoders.id message.id trivial (by omega)
  exact Writer.fits_all
    (.cons (Writer.fits_field ltime) (.cons (Writer.fits_field id) .nil))

theorem join_lawful (laws : GossipLaws proto) : Lawful (join proto) (fun _ => True) Eq 0 := by
  refine lawful_ofWriter (join_encodes laws.encoders) ?_
  intro message _ small room bytes made
  refine ⟨message, rfl, ?_⟩
  simp only [joinLen, List.sum_cons, List.sum_nil] at small
  have so := stands_written (joinArms proto) {} (join_spells proto message room) made
  obtain ⟨_, rfl, so⟩ := so.field (once_stores rfl rfl)
    (plain_inverts laws.u64 message.ltime trivial (by omega))
  obtain ⟨_, ⟨_, rfl, rfl⟩, so⟩ := so.field (once_stores (joinArms_id proto) rfl)
    (laws.reads laws.id message.id trivial (by omega))
  rw [joinDecode, so.scans]
  simp [JoinFields.ltimeSlot, JoinFields.idSlot, need, bind, Except.bind, pure, Except.pure]

theorem join_total (total : ProtoTotal proto) : TotalCodec (join proto) := by
  have safe : ∀ byte, Safe (fun _ fields => Settled fields.id) (joinArms proto byte) := by
    intro byte
    unfold joinArms
    split_ifs
    · exact once_safe (total_decodeOwned total.u64) fun _ _ _ _ held _ => held
    · exact once_safe (total.read total.id) fun _ _ _ _ _ back => settled_some back
    · exact pass_safe (total.skip _) fun _ _ _ held => held
  refine total_of_ends fun buffer => ends_scan safe {} settled_none buffer ?_
  intro fields settled
  refine ends_need _ _ _ fun ltime _ => ends_need _ _ _ fun id held => ⟨le_rfl, ?_⟩
  exact returns_bind (settled id held) fun _ _ => trivial

end Join

section UserEvents

def userEventLen (event : UserEvent) : Nat :=
  List.sum [
    if !event.name.isEmpty then 1 + proto.framing.framedLen proto.str event.name else 0,
    if !event.payload.isEmpty then 1 + proto.framing.framedLen proto.bytes event.payload else 0]

def userEventWriter (event : UserEvent) (room : Nat) : Writer :=
  let len := userEventLen proto event
  .all [
    .onlyIf (!event.name.isEmpty)
      (tagged len room (merge .lengthDelimited 1) (proto.framing.framed proto.str event.name)),
    .onlyIf (!event.payload.isEmpty)
      (tagged len room (merge .lengthDelimited 2) (proto.framing.framed proto.bytes event.payload))]

def userEventParts (event : UserEvent) : List (List Part) :=
  [if !event.name.isEmpty then
      [⟨merge .lengthDelimited 1, proto.framing.framed proto.str event.name⟩] else [],
    if !event.payload.isEmpty then
      [⟨merge .lengthDelimited 2, proto.framing.framed proto.bytes event.payload⟩] else []]

structure UserEventFields where
  name : Option String := none
  payload : Option Bytes := none

def UserEventFields.nameSlot : Slot UserEventFields String :=
  { held := name, put := fun fields value => { fields with name := value } }

def UserEventFields.payloadSlot : Slot UserEventFields Bytes :=
  { held := payload, put := fun fields value => { fields with payload := value } }

def userEventArms (byte : UInt8) : Arm DecodeError UserEventFields :=
  if byte = merge .lengthDelimited 1 then
    once UserEventFields.nameSlot (.duplicateField "UserEvent" "name" 1)
      (proto.readOwned proto.str)
  else if byte = merge .lengthDelimited 2 then
    once UserEventFields.payloadSlot (.duplicateField "UserEvent" "payload" 2)
      (proto.readOwned proto.bytes)
  else
    pass (proto.skip "UserEvent")

def userEventDecode (buffer : Bytes) : Outcome (Nat × Outcome UserEvent) := do
  let (offset, fields) ← scan (userEventArms proto) {} buffer
  return (offset, .ok { name := fields.name.getD "", payload := fields.payload.getD [] })

def userEvent : Data UserEvent :=
  ofWriter (userEventLen proto) (userEventWriter proto) (userEventDecode proto)

section

variable {proto}

theorem userEvent_encodes (encoders : GossipEncoders proto) :
    Encodes (userEvent proto) (fun _ => True) 0 := by
  refine encodes_ofWriter fun event _ small room => ?_
  simp only [userEventLen, List.sum_cons, List.sum_nil] at small
  refine Writer.fits_all (.cons (Writer.fits_onlyIf fun present => Writer.fits_field ?_)
    (.cons (Writer.fits_onlyIf fun present => Writer.fits_field ?_) .nil))
  · rw [if_pos present] at small
    exact encoders.fits encoders.str event.name trivial (by omega)
  · rw [if_pos present] at small
    exact encoders.fits encoders.bytes event.payload trivial (by omega)

theorem userEvent_spells (event : UserEvent) (room : Nat) :
    (userEventWriter proto event room).Spells (userEventParts proto event).flatten :=
  Writer.spells_all
    (.cons (Writer.spells_onlyIf (Writer.spells_field _ _ _))
    (.cons (Writer.spells_onlyIf (Writer.spells_field _ _ _)) .nil))

theorem userEvent_lawful (laws : GossipLaws proto) :
    Lawful (userEvent proto) (fun _ => True) Eq 0 := by
  refine lawful_ofWriter (userEvent_encodes laws.encoders) ?_
  intro event _ small room bytes made
  simp only [userEventLen, List.sum_cons, List.sum_nil] at small
  have so := stands_written (userEventArms proto) {} (userEvent_spells event room) made
  obtain ⟨name, keptName, so⟩ := so.elided (!event.name.isEmpty) (fun _ => rfl)
    (fun present => laws.readsOwned laws.str event.name trivial (by
      rw [if_pos present] at small
      omega)) rfl
  obtain ⟨payload, keptPayload, so⟩ := so.elided (!event.payload.isEmpty) (fun _ => rfl)
    (fun present => laws.readsOwned laws.bytes event.payload trivial (by
      rw [if_pos present] at small
      omega)) rfl
  refine ⟨event, rfl, ?_⟩
  rw [userEventDecode, so.scans]
  simp [UserEventFields.nameSlot, UserEventFields.payloadSlot, bind, Except.bind, pure,
    Except.pure, elided_value keptName isEmpty_string, elided_value keptPayload isEmpty_bytes]

theorem userEvent_total (total : ProtoTotal proto) : TotalCodec (userEvent proto) := by
  have safe : ∀ byte, Safe (fun _ _ => True) (userEventArms proto byte) := by
    intro byte
    unfold userEventArms
    split_ifs
    · exact once_safe (total.readOwned total.str) fun _ _ _ _ held _ => held
    · exact once_safe (total.readOwned total.bytes) fun _ _ _ _ held _ => held
    · exact pass_safe (total.skip _) fun _ _ _ held => held
  exact total_of_ends fun buffer => ends_scan safe {} trivial buffer fun _ _ => ⟨le_rfl, trivial⟩

end

def userEventsLen (events : UserEvents) : Nat :=
  List.sum [
    1 + proto.u64.encodedLen events.ltime,
    (events.events.map fun event => 1 + proto.framing.framedLen (userEvent proto) event).sum]

def userEventsWriter (events : UserEvents) (room : Nat) : Writer :=
  let len := userEventsLen proto events
  .all [
    tagged len room (merge .varint 1) (proto.updated len room (.ofCodec proto.u64 events.ltime)),
    proto.updated len room (.all (events.events.map fun event =>
      tagged len room (merge .lengthDelimited 2) (proto.framing.framed (userEvent proto) event)))]

def userEventsParts (events : UserEvents) : List (List Part) :=
  [[⟨merge .varint 1, .ofCodec proto.u64 events.ltime⟩],
    events.events.map fun event =>
      ⟨merge .lengthDelimited 2, proto.framing.framed (userEvent proto) event⟩]

structure UserEventsFields where
  ltime : Option LamportTime := none
  events : Option (Nat × Nat) := none

def UserEventsFields.ltimeSlot : Slot UserEventsFields LamportTime :=
  { held := ltime, put := fun fields value => { fields with ltime := value } }

def UserEventsFields.eventsSlot : Slot UserEventsFields (Nat × Nat) :=
  { held := events, put := fun fields value => { fields with events := value } }

def userEventsArms (byte : UInt8) : Arm DecodeError UserEventsFields :=
  if byte = merge .varint 1 then
    once UserEventsFields.ltimeSlot (.duplicateField "UserEvents" "ltime" 1) proto.u64.decodeOwned
  else if byte = merge .lengthDelimited 2 then
    spread UserEventsFields.eventsSlot (proto.skip "UserEvents")
  else
    pass (proto.skip "UserEvents")

def userEventsDecode (buffer : Bytes) : Outcome (Nat × Outcome UserEvents) := do
  let (offset, fields) ← scan (userEventsArms proto) {} buffer
  let ltime ← need "UserEvents" "ltime" fields.ltime
  return (offset, do
    let events ← proto.collect (userEvent proto) .lengthDelimited 2 buffer fields.events
    return { ltime, events })

def userEvents : Data UserEvents :=
  ofWriter (userEventsLen proto) (userEventsWriter proto) (userEventsDecode proto)

section

variable {proto}

theorem userEvents_encodes (encoders : GossipEncoders proto) :
    Encodes (userEvents proto) (fun _ => True) 0 := by
  refine encodes_ofWriter fun events _ small room => ?_
  simp only [userEventsLen, List.sum_cons, List.sum_nil] at small
  have ltime := encoders.u64 events.ltime trivial (by omega)
  have each := userEvent_encodes encoders
  have short := items_small proto (userEvent proto) events.events (by omega)
  exact Writer.fits_all (.cons (Writer.fits_field (Writer.fits_mapErr ltime))
    (.cons (Writer.fits_mapErr (Writer.fits_each _ _ _ 0 fun event inside =>
      Writer.fits_field (encoders.fits each event trivial (short event inside)))) .nil))

theorem userEvents_spells (events : UserEvents) (room : Nat) :
    (userEventsWriter proto events room).Spells (userEventsParts proto events).flatten :=
  Writer.spells_all
    (.cons (Writer.spells_updated _ _ _ _)
    (.cons (Writer.spells_mapErr (Writer.spells_each _ fun _ => Writer.spells_field _ _ _))
    .nil))

theorem userEvents_lawful (laws : GossipLaws proto) :
    Lawful (userEvents proto) (fun _ => True) Eq 0 := by
  have each := userEvent_lawful laws
  refine lawful_ofWriter (userEvents_encodes laws.encoders) ?_
  intro events _ small room bytes made
  simp only [userEventsLen, List.sum_cons, List.sum_nil] at small
  have short := items_small proto (userEvent proto) events.events (by omega)
  have so := stands_written (userEventsArms proto) {} (userEvents_spells events room) made
  obtain ⟨_, rfl, so⟩ := so.field (once_stores rfl rfl)
    (plain_inverts laws.u64 events.ltime trivial (by omega))
  obtain ⟨range, found, matched, held, so⟩ := laws.collects each events.events so rfl
    (fun event inside =>
      laws.skips each rfl event trivial (short event inside) "UserEvents" 2 (by decide))
    (fun _ _ => trivial) short rfl
  have same : events.events = found := by rwa [List.forall₂_eq_eq_eq] at matched
  refine ⟨events, rfl, ?_⟩
  rw [userEventsDecode, so.scans]
  simp [UserEventsFields.ltimeSlot, UserEventsFields.eventsSlot, need, bind, Except.bind, pure,
    Except.pure, held, ← same]

theorem userEvents_total (total : ProtoTotal proto) : TotalCodec (userEvents proto) := by
  have safe : ∀ byte,
      Safe (fun offset fields => Within fields.events offset) (userEventsArms proto byte) := by
    intro byte
    unfold userEventsArms
    split_ifs
    · exact once_safe (total_decodeOwned total.u64) fun _ taken _ _ held _ =>
        within_grows taken held
    · exact spread_safe (total.skip _) fun _ taken _ held => within_extend taken held
    · exact pass_safe (total.skip _) fun _ taken _ held => within_grows taken held
  refine total_of_ends fun buffer => ends_scan safe {} trivial buffer ?_
  intro fields inside
  refine ends_need _ _ _ fun ltime _ => ⟨le_rfl, ?_⟩
  exact returns_bind (total.collect (userEvent_total total) _ 2 buffer _ inside) fun _ _ => trivial

end

def userEventMessageLen (message : UserEventMessage) : Nat :=
  List.sum [
    1 + proto.u64.encodedLen message.ltime,
    if !message.name.isEmpty then 1 + proto.framing.framedLen proto.str message.name else 0,
    if !message.payload.isEmpty then 1 + proto.framing.framedLen proto.bytes message.payload else 0,
    if message.cc then 1 + 1 else 0]

def userEventMessageWriter (message : UserEventMessage) (room : Nat) : Writer :=
  let len := userEventMessageLen proto message
  .all [
    tagged len room (merge .varint 1) (proto.updated len room (.ofCodec proto.u64 message.ltime)),
    .onlyIf message.cc
      (tagged len room (merge .byte 2) (.byte (.insufficientBuffer len room) 1)),
    .onlyIf (!message.name.isEmpty)
      (tagged len room (merge .lengthDelimited 3) (proto.framing.framed proto.str message.name)),
    .onlyIf (!message.payload.isEmpty)
      (tagged len room (merge .lengthDelimited 4)
        (proto.framing.framed proto.bytes message.payload))]

structure UserEventMessageFields where
  ltime : Option LamportTime := none
  cc : Option Bool := none
  name : Option String := none
  payload : Option Bytes := none

def UserEventMessageFields.ltimeSlot : Slot UserEventMessageFields LamportTime :=
  { held := ltime, put := fun fields value => { fields with ltime := value } }

def UserEventMessageFields.ccSlot : Slot UserEventMessageFields Bool :=
  { held := cc, put := fun fields value => { fields with cc := value } }

def UserEventMessageFields.nameSlot : Slot UserEventMessageFields String :=
  { held := name, put := fun fields value => { fields with name := value } }

def UserEventMessageFields.payloadSlot : Slot UserEventMessageFields Bytes :=
  { held := payload, put := fun fields value => { fields with payload := value } }

def userEventMessageArms (byte : UInt8) : Arm DecodeError UserEventMessageFields :=
  if byte = merge .varint 1 then
    once UserEventMessageFields.ltimeSlot (.duplicateField "UserEventMessage" "ltime" 1)
      proto.u64.decodeOwned
  else if byte = merge .byte 2 then
    once UserEventMessageFields.ccSlot (.duplicateField "UserEventMessage" "cc" 2)
      proto.bool.decodeOwned
  else if byte = merge .lengthDelimited 3 then
    once UserEventMessageFields.nameSlot (.duplicateField "UserEventMessage" "name" 3)
      (proto.readOwned proto.str)
  else if byte = merge .lengthDelimited 4 then
    once UserEventMessageFields.payloadSlot (.duplicateField "UserEventMessage" "payload" 4)
      (proto.readOwned proto.bytes)
  else
    pass (proto.skip "UserEventMessage")

def userEventMessageDecode (buffer : Bytes) : Outcome (Nat × Outcome UserEventMessage) := do
  let (offset, fields) ← scan (userEventMessageArms proto) {} buffer
  let ltime ← need "UserEventMessage" "ltime" fields.ltime
  return (offset, .ok
    { ltime, name := fields.name.getD "", payload := fields.payload.getD [],
      cc := fields.cc.getD false })

def userEventMessage : Data UserEventMessage :=
  ofWriter (userEventMessageLen proto) (userEventMessageWriter proto)
    (userEventMessageDecode proto)

def userEventMessageParts (message : UserEventMessage) : List (List Part) :=
  [[⟨merge .varint 1, .ofCodec proto.u64 message.ltime⟩],
    if message.cc then [⟨merge .byte 2, .byte .tooLarge 1⟩] else [],
    if !message.name.isEmpty then
      [⟨merge .lengthDelimited 3, proto.framing.framed proto.str message.name⟩] else [],
    if !message.payload.isEmpty then
      [⟨merge .lengthDelimited 4, proto.framing.framed proto.bytes message.payload⟩] else []]

theorem userEventMessage_spells (message : UserEventMessage) (room : Nat) :
    (userEventMessageWriter proto message room).Spells
      (userEventMessageParts proto message).flatten :=
  Writer.spells_all
    (.cons (Writer.spells_updated _ _ _ _)
    (.cons (Writer.spells_onlyIf (Writer.spells_byte _ _ _ _ _))
    (.cons (Writer.spells_onlyIf (Writer.spells_field _ _ _))
    (.cons (Writer.spells_onlyIf (Writer.spells_field _ _ _)) .nil))))

variable {proto}

theorem userEventMessage_encodes (encoders : GossipEncoders proto) :
    Encodes (userEventMessage proto) (fun _ => True) 0 := by
  refine encodes_ofWriter fun message _ small room => ?_
  simp only [userEventMessageLen, List.sum_cons, List.sum_nil] at small
  have ltime := encoders.u64 message.ltime trivial (by omega)
  have parts : (userEventMessageWriter proto message room).Fits _ 0 := Writer.fits_all
    (.cons (Writer.fits_field (Writer.fits_mapErr ltime))
    (.cons (Writer.fits_onlyIf fun _ => Writer.fits_field (Writer.fits_byte _ 1))
    (.cons (Writer.fits_onlyIf fun present => Writer.fits_field
      (encoders.fits encoders.str message.name trivial (by
        rw [if_pos present] at small
        omega)))
    (.cons (Writer.fits_onlyIf fun present => Writer.fits_field
      (encoders.fits encoders.bytes message.payload trivial (by
        rw [if_pos present] at small
        omega))) .nil))))
  -- The length counts the flag last, the encoder writes it second.
  convert parts using 1
  simp only [userEventMessageLen, List.sum_cons, List.sum_nil]
  omega

theorem userEventMessage_lawful (laws : GossipLaws proto) :
    Lawful (userEventMessage proto) (fun _ => True) Eq 0 := by
  refine lawful_ofWriter (userEventMessage_encodes laws.encoders) ?_
  intro message _ small room bytes made
  refine ⟨message, rfl, ?_⟩
  simp only [userEventMessageLen, List.sum_cons, List.sum_nil] at small
  have so := stands_written (userEventMessageArms proto) {}
    (userEventMessage_spells proto message room) made
  obtain ⟨_, rfl, so⟩ := so.field (once_stores rfl rfl)
    (plain_inverts laws.u64 message.ltime trivial (by omega))
  obtain ⟨cc, keptCc, so⟩ := so.elided message.cc (fun _ => rfl) (fun _ => laws.flag_inverts _) rfl
  obtain ⟨name, keptName, so⟩ := so.elided (!message.name.isEmpty) (fun _ => rfl)
    (fun present => laws.readsOwned laws.str message.name trivial (by
      rw [if_pos present] at small
      omega)) rfl
  obtain ⟨payload, keptPayload, so⟩ := so.elided (!message.payload.isEmpty) (fun _ => rfl)
    (fun present => laws.readsOwned laws.bytes message.payload trivial (by
      rw [if_pos present] at small
      omega)) rfl
  rw [userEventMessageDecode, so.scans]
  simp [UserEventMessageFields.ltimeSlot, UserEventMessageFields.ccSlot,
    UserEventMessageFields.nameSlot, UserEventMessageFields.payloadSlot, need, bind, Except.bind,
    pure, Except.pure, elided_flag keptCc, elided_value keptName isEmpty_string,
    elided_value keptPayload isEmpty_bytes]

theorem userEventMessage_total (total : ProtoTotal proto) :
    TotalCodec (userEventMessage proto) := by
  have safe : ∀ byte, Safe (fun _ _ => True) (userEventMessageArms proto byte) := by
    intro byte
    unfold userEventMessageArms
    split_ifs
    · exact once_safe (total_decodeOwned total.u64) fun _ _ _ _ held _ => held
    · exact once_safe (total_decodeOwned total.bool) fun _ _ _ _ held _ => held
    · exact once_safe (total.readOwned total.str) fun _ _ _ _ held _ => held
    · exact once_safe (total.readOwned total.bytes) fun _ _ _ _ held _ => held
    · exact pass_safe (total.skip _) fun _ _ _ held => held
  refine total_of_ends fun buffer => ends_scan safe {} trivial buffer fun fields _ => ?_
  exact ends_need _ _ _ fun ltime _ => ⟨le_rfl, trivial⟩

end UserEvents

section PushPull

def pushPullLen (message : PushPullMessage Id) : Nat :=
  List.sum [
    1 + proto.u64.encodedLen message.ltime,
    ((pairs message.statusLtimes).map fun pair =>
      1 + proto.framing.framedLen proto.statusLtime pair).sum,
    (message.leftMembers.map fun id => 1 + proto.framing.framedLen proto.id id).sum,
    1 + proto.u64.encodedLen message.eventLtime,
    (message.events.map fun events => 1 + proto.framing.framedLen (userEvents proto) events).sum,
    1 + proto.u64.encodedLen message.queryLtime]

def pushPullWriter (message : PushPullMessage Id) (room : Nat) : Writer :=
  let len := pushPullLen proto message
  .all [
    tagged len room (merge .varint 1) (.ofCodec proto.u64 message.ltime),
    proto.updated len room (.all ((pairs message.statusLtimes).map fun pair =>
      tagged len room (merge .lengthDelimited 2) (proto.framing.framed proto.statusLtime pair))),
    proto.updated len room (.all (message.leftMembers.map fun id =>
      tagged len room (merge proto.id.wireType 3) (proto.framing.framed proto.id id))),
    tagged len room (merge .varint 4) (.ofCodec proto.u64 message.eventLtime),
    proto.updated len room (.all (message.events.map fun events =>
      tagged len room (merge .lengthDelimited 5) (proto.framing.framed (userEvents proto) events))),
    tagged len room (merge .varint 6) (.ofCodec proto.u64 message.queryLtime)]

structure PushPullFields where
  ltime : Option LamportTime := none
  statusLtimes : Option (Nat × Nat) := none
  leftMembers : Option (Nat × Nat) := none
  eventLtime : Option LamportTime := none
  events : Option (Nat × Nat) := none
  queryLtime : Option LamportTime := none

def PushPullFields.ltimeSlot : Slot PushPullFields LamportTime :=
  { held := ltime, put := fun fields value => { fields with ltime := value } }

def PushPullFields.statusLtimesSlot : Slot PushPullFields (Nat × Nat) :=
  { held := statusLtimes, put := fun fields value => { fields with statusLtimes := value } }

def PushPullFields.leftMembersSlot : Slot PushPullFields (Nat × Nat) :=
  { held := leftMembers, put := fun fields value => { fields with leftMembers := value } }

def PushPullFields.eventLtimeSlot : Slot PushPullFields LamportTime :=
  { held := eventLtime, put := fun fields value => { fields with eventLtime := value } }

def PushPullFields.eventsSlot : Slot PushPullFields (Nat × Nat) :=
  { held := events, put := fun fields value => { fields with events := value } }

def PushPullFields.queryLtimeSlot : Slot PushPullFields LamportTime :=
  { held := queryLtime, put := fun fields value => { fields with queryLtime := value } }

/-- What is passed over is reported under the name `PushPull`. -/
def pushPullArms (byte : UInt8) : Arm DecodeError PushPullFields :=
  if byte = merge .varint 1 then
    once PushPullFields.ltimeSlot (.duplicateField "PushPullMessage" "ltime" 1)
      proto.u64.decodeOwned
  else if byte = merge .lengthDelimited 2 then
    spread PushPullFields.statusLtimesSlot (proto.skip "PushPull")
  else if byte = merge proto.id.wireType 3 then
    spread PushPullFields.leftMembersSlot (proto.skip "PushPull")
  else if byte = merge .varint 4 then
    once PushPullFields.eventLtimeSlot (.duplicateField "PushPullMessage" "event_ltime" 4)
      proto.u64.decodeOwned
  else if byte = merge .lengthDelimited 5 then
    spread PushPullFields.eventsSlot (proto.skip "PushPull")
  else if byte = merge .varint 6 then
    once PushPullFields.queryLtimeSlot (.duplicateField "PushPullMessage" "query_ltime" 6)
      proto.u64.decodeOwned
  else
    pass (proto.skip "PushPull")

def pushPullParts (message : PushPullMessage Id) : List (List Part) :=
  [[⟨merge .varint 1, .ofCodec proto.u64 message.ltime⟩],
    (pairs message.statusLtimes).map fun pair =>
      ⟨merge .lengthDelimited 2, proto.framing.framed proto.statusLtime pair⟩,
    message.leftMembers.map fun id =>
      ⟨merge proto.id.wireType 3, proto.framing.framed proto.id id⟩,
    [⟨merge .varint 4, .ofCodec proto.u64 message.eventLtime⟩],
    message.events.map fun events =>
      ⟨merge .lengthDelimited 5, proto.framing.framed (userEvents proto) events⟩,
    [⟨merge .varint 6, .ofCodec proto.u64 message.queryLtime⟩]]

variable [DecidableEq Id]

def pushPullDecode (buffer : Bytes) : Outcome (Nat × Outcome (PushPullMessage Id)) := do
  let (offset, fields) ← scan (pushPullArms proto) {} buffer
  let ltime ← need "PushPullMessage" "ltime" fields.ltime
  let eventLtime ← need "PushPullMessage" "event_ltime" fields.eventLtime
  let queryLtime ← need "PushPullMessage" "query_ltime" fields.queryLtime
  return (offset, do
    let statusLtimes ←
      proto.collect proto.statusLtime .lengthDelimited 2 buffer fields.statusLtimes
    let leftMembers ← proto.collect proto.id proto.id.wireType 3 buffer fields.leftMembers
    let events ← proto.collect (userEvents proto) .lengthDelimited 5 buffer fields.events
    return {
      ltime, statusLtimes := collect statusLtimes
      leftMembers := (ItemSet.collect leftMembers).items, eventLtime, events, queryLtime })

def pushPull : Data (PushPullMessage Id) :=
  ofWriter (pushPullLen proto) (pushPullWriter proto) (pushPullDecode proto)

/-- `PartialEq`: maps and sets are compared without regard to order. -/
structure SamePushPull (message other : PushPullMessage Id) : Prop where
  ltime : message.ltime = other.ltime
  statusLtimes : ∀ id, message.statusLtimes.lookup id = other.statusLtimes.lookup id
  leftMembers : ∀ id, id ∈ message.leftMembers ↔ id ∈ other.leftMembers
  eventLtime : message.eventLtime = other.eventLtime
  events : message.events = other.events
  queryLtime : message.queryLtime = other.queryLtime

omit [DecidableEq Id] in
theorem pushPull_spells (message : PushPullMessage Id) (room : Nat) :
    (pushPullWriter proto message room).Spells (pushPullParts proto message).flatten :=
  Writer.spells_all
    (.cons (Writer.spells_field _ _ _)
    (.cons (Writer.spells_mapErr (Writer.spells_each _ fun _ => Writer.spells_field _ _ _))
    (.cons (Writer.spells_mapErr (Writer.spells_each _ fun _ => Writer.spells_field _ _ _))
    (.cons (Writer.spells_field _ _ _)
    (.cons (Writer.spells_mapErr (Writer.spells_each _ fun _ => Writer.spells_field _ _ _))
    (.cons (Writer.spells_field _ _ _) .nil))))))

omit [DecidableEq Id] in
theorem pushPullArms_leftMembers :
    pushPullArms proto (merge proto.id.wireType 3) =
      spread PushPullFields.leftMembersSlot (proto.skip "PushPull") := by
  rw [pushPullArms, if_neg (merge_ne _ _ _ _ (by decide)), if_neg (merge_ne _ _ _ _ (by decide)),
    if_pos rfl]

omit [DecidableEq Id] in
theorem pushPullArms_eventLtime :
    pushPullArms proto (merge .varint 4) =
      once PushPullFields.eventLtimeSlot (.duplicateField "PushPullMessage" "event_ltime" 4)
        proto.u64.decodeOwned := by
  rw [pushPullArms, if_neg (by decide), if_neg (by decide),
    if_neg (merge_ne _ _ _ _ (by decide)), if_pos rfl]

omit [DecidableEq Id] in
theorem pushPullArms_events :
    pushPullArms proto (merge .lengthDelimited 5) =
      spread PushPullFields.eventsSlot (proto.skip "PushPull") := by
  rw [pushPullArms, if_neg (by decide), if_neg (by decide),
    if_neg (merge_ne _ _ _ _ (by decide)), if_neg (by decide), if_pos rfl]

omit [DecidableEq Id] in
theorem pushPullArms_queryLtime :
    pushPullArms proto (merge .varint 6) =
      once PushPullFields.queryLtimeSlot (.duplicateField "PushPullMessage" "query_ltime" 6)
        proto.u64.decodeOwned := by
  rw [pushPullArms, if_neg (by decide), if_neg (by decide),
    if_neg (merge_ne _ _ _ _ (by decide)), if_neg (by decide), if_neg (by decide), if_pos rfl]

variable {proto}

theorem pushPull_encodes (encoders : GossipEncoders proto) :
    Encodes (pushPull proto) (fun _ => True) 0 := by
  refine encodes_ofWriter fun message _ small room => ?_
  have each := userEvents_encodes encoders
  simp only [pushPullLen, List.sum_cons, List.sum_nil] at small
  have ltime := encoders.u64 message.ltime trivial (by omega)
  have eventLtime := encoders.u64 message.eventLtime trivial (by omega)
  have queryLtime := encoders.u64 message.queryLtime trivial (by omega)
  have statuses := items_small proto proto.statusLtime (pairs message.statusLtimes) (by omega)
  have lefts := items_small proto proto.id message.leftMembers (by omega)
  have events := items_small proto (userEvents proto) message.events (by omega)
  exact Writer.fits_all
    (.cons (Writer.fits_field ltime)
    (.cons (Writer.fits_mapErr (Writer.fits_each _ _ _ 0 fun pair inside => Writer.fits_field
      (encoders.fits encoders.statusLtime pair trivial (statuses pair inside))))
    (.cons (Writer.fits_mapErr (Writer.fits_each _ _ _ 0 fun id inside =>
      Writer.fits_field (encoders.fits encoders.id id trivial (lefts id inside))))
    (.cons (Writer.fits_field eventLtime)
    (.cons (Writer.fits_mapErr (Writer.fits_each _ _ _ 0 fun event inside =>
      Writer.fits_field (encoders.fits each event trivial (events event inside))))
    (.cons (Writer.fits_field queryLtime) .nil))))))

theorem pushPull_lawful (laws : GossipLaws proto) :
    Lawful (pushPull proto) (fun _ => True) SamePushPull 0 := by
  refine lawful_ofWriter (pushPull_encodes laws.encoders) ?_
  intro message _ small room bytes made
  have each := userEvents_lawful laws
  simp only [pushPullLen, List.sum_cons, List.sum_nil] at small
  have statuses := items_small proto proto.statusLtime (pairs message.statusLtimes) (by omega)
  have lefts := items_small proto proto.id message.leftMembers (by omega)
  have events := items_small proto (userEvents proto) message.events (by omega)
  have so := stands_written (pushPullArms proto) {} (pushPull_spells proto message room) made
  obtain ⟨_, rfl, so⟩ := so.field (once_stores rfl rfl)
    (plain_inverts laws.u64 message.ltime trivial (by omega))
  obtain ⟨_, foundStatus, sameStatus, heldStatus, so⟩ := laws.collects laws.statusLtime
    (pairs message.statusLtimes) so rfl
    (fun pair inside => laws.skips laws.statusLtime laws.statusLtimeWire pair trivial
      (statuses pair inside) "PushPull" 2 (by decide)) (fun _ _ => trivial) statuses rfl
  obtain ⟨_, foundLeft, sameLeft, heldLeft, so⟩ := laws.collects laws.id message.leftMembers so
    (pushPullArms_leftMembers proto)
    (fun id inside => laws.skips_id laws.toIdLaws id (lefts id inside) "PushPull" 3 (by decide))
    (fun _ _ => trivial) lefts rfl
  obtain ⟨_, rfl, so⟩ := so.field (once_stores (pushPullArms_eventLtime proto) rfl)
    (plain_inverts laws.u64 message.eventLtime trivial (by omega))
  obtain ⟨_, foundEvents, sameEvents, heldEvents, so⟩ := laws.collects each message.events so
    (pushPullArms_events proto)
    (fun event inside =>
      laws.skips each rfl event trivial (events event inside) "PushPull" 5 (by decide))
    (fun _ _ => trivial) events rfl
  obtain ⟨_, rfl, so⟩ := so.field (once_stores (pushPullArms_queryLtime proto) rfl)
    (plain_inverts laws.u64 message.queryLtime trivial (by omega))
  rw [List.forall₂_eq_eq_eq] at sameStatus sameLeft sameEvents
  refine ⟨{ message with
    statusLtimes := collect foundStatus
    leftMembers := (ItemSet.collect foundLeft).items
    events := foundEvents }, ?_, ?_⟩
  · refine ⟨rfl, ?_, ?_, rfl, sameEvents, rfl⟩
    · intro id
      rw [← sameStatus, lookup_collect_pairs]
    · intro id
      rw [← sameLeft]
      exact (ItemSet.mem_collect message.leftMembers id).symm
  · rw [pushPullDecode, so.scans]
    simp [PushPullFields.ltimeSlot, PushPullFields.statusLtimesSlot,
      PushPullFields.leftMembersSlot, PushPullFields.eventLtimeSlot, PushPullFields.eventsSlot,
      PushPullFields.queryLtimeSlot, need, bind, Except.bind, pure, Except.pure, heldStatus,
      heldLeft, heldEvents]

theorem pushPull_total (total : ProtoTotal proto) : TotalCodec (pushPull proto) := by
  have safe : ∀ byte, Safe (fun offset fields => Within fields.statusLtimes offset ∧
      Within fields.leftMembers offset ∧ Within fields.events offset)
      (pushPullArms proto byte) := by
    intro byte
    unfold pushPullArms
    split_ifs
    · exact once_safe (total_decodeOwned total.u64) fun _ taken _ _ held _ =>
        ⟨within_grows taken held.1, within_grows taken held.2.1, within_grows taken held.2.2⟩
    · exact spread_safe (total.skip _) fun _ taken _ held =>
        ⟨within_extend taken held.1, within_grows taken held.2.1, within_grows taken held.2.2⟩
    · exact spread_safe (total.skip _) fun _ taken _ held =>
        ⟨within_grows taken held.1, within_extend taken held.2.1, within_grows taken held.2.2⟩
    · exact once_safe (total_decodeOwned total.u64) fun _ taken _ _ held _ =>
        ⟨within_grows taken held.1, within_grows taken held.2.1, within_grows taken held.2.2⟩
    · exact spread_safe (total.skip _) fun _ taken _ held =>
        ⟨within_grows taken held.1, within_grows taken held.2.1, within_extend taken held.2.2⟩
    · exact once_safe (total_decodeOwned total.u64) fun _ taken _ _ held _ =>
        ⟨within_grows taken held.1, within_grows taken held.2.1, within_grows taken held.2.2⟩
    · exact pass_safe (total.skip _) fun _ taken _ held =>
        ⟨within_grows taken held.1, within_grows taken held.2.1, within_grows taken held.2.2⟩
  refine total_of_ends fun buffer => ends_scan safe {} ⟨trivial, trivial, trivial⟩ buffer ?_
  intro fields inside
  refine ends_need _ _ _ fun ltime _ => ends_need _ _ _ fun eventLtime _ =>
    ends_need _ _ _ fun queryLtime _ => ⟨le_rfl, ?_⟩
  refine returns_bind (total.collect total.statusLtime _ 2 buffer _ inside.1) fun _ _ => ?_
  refine returns_bind (total.collect total.id _ 3 buffer _ inside.2.1) fun _ _ => ?_
  exact returns_bind (total.collect (userEvents_total total) _ 5 buffer _ inside.2.2)
    fun _ _ => trivial

end PushPull

end Serf.Wire
