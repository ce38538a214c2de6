import Serf.Wire.Gossip
import Serf.Wire.Key
import Serf.Wire.Member
import Serf.Wire.Query
import Serf.Wire.Reference

/-!
Whole messages, as memberlist hands them over: a tag byte, the length of the
body and the body. A decoded message is borrowed from the buffer; it carries,
in the place of each part that `from_ref` converts, what the conversion yields.
A relay message has no length of its own: it goes on to the end of the buffer,
and the message that it carries is cut out by the length written behind its
tag, which is not compared with the length of the buffer.
-/

namespace Serf.Wire

open Library.Encoding Library.Fields Library.RecordLog QueryHandler

variable {Id Address : Type}

structure Encodable where
  id : UInt8
  encodedLen : Nat
  encode : Writer

def Encodable.ofData {Value : Type} (id : UInt8) (codec : Data Value) (value : Value) :
    Encodable :=
  { id, encodedLen := codec.encodedLen value, encode := .ofCodec codec value }

/-- The messages that are encodable. -/
inductive Message (Id Address : Type) where
  | leave (message : LeaveMessage Id)
  | join (message : JoinMessage Id)
  | pushPull (message : PushPullMessage Id)
  | userEvent (message : UserEventMessage)
  | query (message : QueryMessage Id Address)
  | queryResponse (message : QueryResponseMessage Id Address)
  | conflictResponse (message : ConflictResponseMessage Id Address)
  | keyRequest (message : KeyRequestMessage)
  | keyResponse (message : KeyResponseMessage)

def Message.ty : Message Id Address → MessageType
  | .leave _ => .leave
  | .join _ => .join
  | .pushPull _ => .pushPull
  | .userEvent _ => .userEvent
  | .query _ => .query
  | .queryResponse _ => .queryResponse
  | .conflictResponse _ => .conflictResponse
  | .keyRequest _ => .keyRequest
  | .keyResponse _ => .keyResponse

inductive MessageRef (Id Address : Type) where
  | leave (message : Outcome (LeaveMessage Id))
  | join (message : Outcome (JoinMessage Id))
  | pushPull (message : Outcome (PushPullMessage Id))
  | userEvent (message : Outcome UserEventMessage)
  | query (message : Outcome (QueryMessage Id Address))
  | queryResponse (message : Outcome (QueryResponseMessage Id Address))
  | conflictResponse (message : ConflictResponseMessageRef Id Address)
  | relay (node : NodeRef Id Address) (payloadOffset : Nat) (payload : Bytes)
  | keyRequest (message : Outcome KeyRequestMessage)
  | keyResponse (message : Outcome KeyResponseMessage)

def MessageRef.ty : MessageRef Id Address → MessageType
  | .leave _ => .leave
  | .join _ => .join
  | .pushPull _ => .pushPull
  | .userEvent _ => .userEvent
  | .query _ => .query
  | .queryResponse _ => .queryResponse
  | .conflictResponse _ => .conflictResponse
  | .relay _ _ _ => .relay
  | .keyRequest _ => .keyRequest
  | .keyResponse _ => .keyResponse

/-- Converting the borrowed message comes back. -/
def MessageRef.Converts : MessageRef Id Address → Prop
  | .leave message => Returns message
  | .join message => Returns message
  | .pushPull message => Returns message
  | .userEvent message => Returns message
  | .query message => Returns message
  | .queryResponse message => Returns message
  | .conflictResponse message => message.member.Settles
  | .relay node _ _ => Returns node.id ∧ Returns node.address
  | .keyRequest message => Returns message
  | .keyResponse message => Returns message

variable [DecidableEq Id] (proto : Proto Id Address)

section Encode

def Message.encodable : Message Id Address → Encodable
  | .leave message => .ofData (merge .lengthDelimited 1) (Wire.leave proto) message
  | .join message => .ofData (merge .lengthDelimited 2) (Wire.join proto) message
  | .pushPull message => .ofData (merge .lengthDelimited 3) (Wire.pushPull proto) message
  | .userEvent message => .ofData (merge .lengthDelimited 4) (Wire.userEventMessage proto) message
  | .query message => .ofData (merge .lengthDelimited 5) (Wire.query proto) message
  | .queryResponse message => .ofData (merge .lengthDelimited 6) (Wire.queryResponse proto) message
  | .conflictResponse message =>
    .ofData (merge .lengthDelimited 7) (Wire.conflictResponse proto) message
  | .keyRequest message => .ofData (merge .lengthDelimited 9) (Wire.keyRequest proto) message
  | .keyResponse message => .ofData (merge .lengthDelimited 10) (Wire.keyResponse proto) message

def encodedMessageLen (message : Encodable) : Nat :=
  1 + proto.u32.encodedLen (UInt32.ofNat message.encodedLen) + message.encodedLen

def encodeMessage (message : Encodable) (room : Nat) : Writer :=
  let len := encodedMessageLen proto message
  tagged len room message.id
    (.checking (fun _ => if maxLen < message.encodedLen then some .tooLarge else none)
      ((proto.updated len room (.ofCodec proto.u32 (UInt32.ofNat message.encodedLen))).andThen
        (proto.updated len room message.encode)))

/-- A message as it stands in a larger one, whose length `len` is reported. -/
def messageWriter (message : Encodable) (len room : Nat) : Writer :=
  tagged len room message.id
    (.checking (fun _ => if maxLen < message.encodedLen then some .tooLarge else none)
      ((proto.updated len room (.ofCodec proto.u32 (UInt32.ofNat message.encodedLen))).andThen
        (proto.updated len room message.encode)))

/-- The buffer is zeroed before the message is written into it. -/
def encodeMessageToBytes (message : Encodable) : Except EncodeError Bytes :=
  let len := encodedMessageLen proto message
  ((encodeMessage proto message len).write len).map fun written =>
    written ++ List.replicate (len - written.length) 0

end Encode

section Decode

structure RelayFields (Id Address : Type) where
  node : Option (NodeRef Id Address) := none
  msg : Option Bytes := none

def RelayFields.nodeSlot : Slot (RelayFields Id Address) (NodeRef Id Address) :=
  { held := node, put := fun fields value => { fields with node := value } }

def RelayFields.msgSlot : Slot (RelayFields Id Address) Bytes :=
  { held := msg, put := fun fields value => { fields with msg := value } }

def relayPayload : Read DecodeError Bytes := fun bytes =>
  if bytes.length < 2 then
    .error (.error .bufferUnderflow)
  else
    -- The tag byte of the message is skipped, whatever it is.
    match proto.u32.decodeOwned bytes.tail with
    | .error fault => .error fault
    | .ok (read, length) =>
      -- `&buf[start_offset..offset]` is sliced without a check of the bounds.
      if bytes.length < 1 + read + length.toNat then
        .error .panic
      else
        .ok (1 + read + length.toNat, bytes.take (1 + read + length.toNat))

def relayArms (byte : UInt8) : Arm DecodeError (RelayFields Id Address) :=
  if byte = merge .lengthDelimited 1 then
    once RelayFields.nodeSlot (.duplicateField "RelayMessage" "node" 1) proto.readNode
  else if byte = merge .lengthDelimited 2 then
    once RelayFields.msgSlot (.duplicateField "RelayMessage" "msg" 2) (relayPayload proto)
  else
    pass (proto.skip "RelayMessage")

def decodeRelay (buffer : Bytes) : Outcome (Nat × NodeRef Id Address × Bytes) := do
  let (offset, fields) ← scan (relayArms proto) {} buffer
  let node ← need "RelayMessage" "node" fields.node
  return (offset, node, fields.msg.getD [])

/-- `msg` is the whole state of the loop. -/
def messageSlot : Slot (Option (MessageRef Id Address)) (MessageRef Id Address) :=
  { held := fun msg => msg, put := fun _ value => value }

def messageArm {Found : Type} (tag : UInt8) (decode : Read DecodeError Found)
    (wrap : Found → MessageRef Id Address) : Arm DecodeError (Option (MessageRef Id Address)) :=
  once messageSlot (.duplicateField "Message" "value" tag)
    (mapRead wrap (proto.framing.decodeFramed .lengthDelimited decode))

/-- The offset of the payload is counted back from the end of the relay message;
the subtraction must not underflow. -/
def relayArm : Arm DecodeError (Option (MessageRef Id Address)) := fun offset _ bytes => do
  let (readed, node, payload) ← decodeRelay proto bytes.tail
  if offset + (1 + readed) < payload.length then
    .error .panic
  else
    .ok (some (.relay node (offset + (1 + readed) - payload.length) payload), 1 + readed)

def messageArms (byte : UInt8) : Arm DecodeError (Option (MessageRef Id Address)) :=
  if byte = merge .lengthDelimited 1 then
    messageArm proto 1 (leaveDecode proto) .leave
  else if byte = merge .lengthDelimited 2 then
    messageArm proto 2 (joinDecode proto) .join
  else if byte = merge .lengthDelimited 3 then
    messageArm proto 3 (pushPullDecode proto) .pushPull
  else if byte = merge .lengthDelimited 4 then
    messageArm proto 4 (userEventMessageDecode proto) .userEvent
  else if byte = merge .lengthDelimited 5 then
    messageArm proto 5 (queryDecode proto) .query
  else if byte = merge .lengthDelimited 6 then
    messageArm proto 6 (queryResponseDecode proto) .queryResponse
  else if byte = merge .lengthDelimited 7 then
    messageArm proto 7 (conflictResponseRefDecode proto) .conflictResponse
  else if byte = merge .lengthDelimited 8 then
    unlessHeld messageSlot (.duplicateField "Message" "value" 8) (relayArm proto)
  else if byte = merge .lengthDelimited 9 then
    messageArm proto 9 (keyRequestDecode proto) .keyRequest
  else if byte = merge .lengthDelimited 10 then
    messageArm proto 10 (keyResponseDecode proto) .keyResponse
  else
    pass (proto.skip "Message")

def decodeMessage (buffer : Bytes) : Outcome (MessageRef Id Address) := do
  let (_, msg) ← scan (messageArms proto) none buffer
  need "Message" "value" msg

def KeepsHeld (arm : Arm DecodeError (Option (MessageRef Id Address))) : Prop :=
  ∀ offset held bytes msg taken, arm offset (some held) bytes = .ok (msg, taken) → msg = some held

omit [DecidableEq Id] in
theorem unlessHeld_keeps (duplicate : DecodeError)
    (arm : Arm DecodeError (Option (MessageRef Id Address))) :
    KeepsHeld (unlessHeld messageSlot duplicate arm) := by
  intro offset held bytes msg taken now
  cases now

theorem messageArms_keeps (byte : UInt8) : KeepsHeld (messageArms proto byte) := by
  unfold messageArms
  iterate 10
    refine iteInduction (fun _ => unlessHeld_keeps _ _) fun _ => ?_
  intro offset held bytes msg taken now
  exact (pass_ok now).1

theorem message_held {fuel offset stop : Nat} {ref : MessageRef Id Address}
    {final : Option (MessageRef Id Address)} {bytes : Bytes}
    (replayed : Library.RecordLog.replay (fieldTurn (messageArms proto)) fuel (offset, some ref)
      bytes = some (.ok (stop, final))) : final = some ref := by
  refine replay_keeps (· = some ref)
    (fun tag offset state bytes next taken now held => ?_) replayed rfl
  subst held
  exact messageArms_keeps proto tag offset ref bytes next taken now

end Decode

section RoundTrip

/-- What the encoding of a message does not lose: flags of the defined bits, a
duration that is one, expressions that are not empty and that `Regex::new`
accepts, statuses and versions that are not a named one in disguise. -/
def Message.WellFormed : Message Id Address → Prop
  | .query message => GoodQuery proto message
  | .conflictResponse message => CanonicalResponse message
  | _ => True

/-- The timeout of a query is a duration. -/
def Message.Proper : Message Id Address → Prop
  | .query message => IsDuration message.timeout
  | _ => True

/-- The borrowed message is of the same kind and converts to an equal message. -/
def Message.DecodesTo : Message Id Address → MessageRef Id Address → Prop
  | .leave message, .leave back => Yields (message = ·) back
  | .join message, .join back => Yields (message = ·) back
  | .pushPull message, .pushPull back => Yields (SamePushPull message) back
  | .userEvent message, .userEvent back => Yields (message = ·) back
  | .query message, .query back => Yields (SameQuery message) back
  | .queryResponse message, .queryResponse back => Yields (message = ·) back
  | .conflictResponse message, .conflictResponse back => BorrowsConflict message back
  | .keyRequest message, .keyRequest back => Yields (message = ·) back
  | .keyResponse message, .keyResponse back => Yields (message = ·) back
  | _, _ => False

variable {proto}

omit [DecidableEq Id] in
theorem messageWriter_fits (encoders : FrameEncoders proto) (message : Encodable)
    (body : message.encode.Fits message.encodedLen 0) (small : message.encodedLen ≤ maxLen)
    (len room : Nat) :
    (messageWriter proto message len room).Fits (encodedMessageLen proto message) 0 := by
  have front := encoders.u32 (UInt32.ofNat message.encodedLen)
  rw [encodedMessageLen, Nat.add_assoc]
  refine Writer.fits_field (Writer.fits_checking _ _ _ 0 ?_
    (Writer.fits_andThen _ _ _ _ 0 0 (Writer.fits_mapErr front) (Writer.fits_mapErr body)
      (Nat.zero_le _)))
  intro _ _
  exact if_neg (Nat.not_lt.mpr small)

omit [DecidableEq Id] in
theorem encodeMessage_fits (encoders : FrameEncoders proto) (message : Encodable)
    (body : message.encode.Fits message.encodedLen 0) (small : message.encodedLen ≤ maxLen)
    (room : Nat) :
    (encodeMessage proto message room).Fits (encodedMessageLen proto message) 0 :=
  messageWriter_fits encoders message body small _ room

omit [DecidableEq Id] in
theorem encodeMessageToBytes_exact (message : Encodable)
    (fits : ∀ room, (encodeMessage proto message room).Fits (encodedMessageLen proto message) 0) :
    ∃ bytes, encodeMessageToBytes proto message = .ok bytes ∧
      bytes.length = encodedMessageLen proto message ∧
      (encodeMessage proto message (encodedMessageLen proto message)).Makes bytes := by
  obtain ⟨bytes, written⟩ := (fits _).writes (encodedMessageLen proto message) le_rfl
  have length := (fits _).exact bytes ⟨_, written⟩
  refine ⟨bytes, ?_, length, ⟨_, written⟩⟩
  simp [encodeMessageToBytes, written, Except.map, length]

omit [DecidableEq Id] in
theorem messageWriter_small (message : Encodable) (len room : Nat) (bytes : Bytes)
    (made : (messageWriter proto message len room).Makes bytes) : message.encodedLen ≤ maxLen := by
  obtain ⟨inner, _, body⟩ := Writer.makes_field made
  obtain ⟨_, passed, _⟩ := Writer.makes_checking _ _ inner body
  by_contra large
  rw [if_pos (lt_of_not_ge large)] at passed
  cases passed

omit [DecidableEq Id] in
theorem encodeMessageToBytes_small (message : Encodable) (bytes : Bytes)
    (encoded : encodeMessageToBytes proto message = .ok bytes) : message.encodedLen ≤ maxLen := by
  rw [encodeMessageToBytes] at encoded
  obtain ⟨written, wrote, _⟩ := map_ok encoded
  exact messageWriter_small message _ _ written ⟨_, wrote⟩

omit [DecidableEq Id] in
theorem messageWriter_parts (message : Encodable) (fits : message.encode.Fits message.encodedLen 0)
    (len room : Nat) (bytes : Bytes) (made : (messageWriter proto message len room).Makes bytes) :
    ∃ front body, bytes = message.id :: (front ++ body) ∧ body.length ≤ maxLen ∧
      (Writer.ofCodec proto.u32 (UInt32.ofNat body.length)).Makes front ∧
      message.encode.Makes body := by
  have small := messageWriter_small message len room bytes made
  obtain ⟨content, rfl, inside⟩ := Writer.makes_field made
  obtain ⟨inner, _, written⟩ := Writer.makes_checking _ _ content inside
  obtain ⟨front, body, rfl, head, tail⟩ := Writer.makes_andThen _ _ content ⟨inner, written⟩
  have madeBody := Writer.makes_mapErr tail
  have length := fits.exact body madeBody
  rw [← length] at head small
  exact ⟨front, body, rfl, small, Writer.makes_mapErr head, madeBody⟩

omit [DecidableEq Id] in
theorem encodeMessageToBytes_makes (encoders : FrameEncoders proto) (message : Encodable)
    (fits : message.encode.Fits message.encodedLen 0) (bytes : Bytes)
    (encoded : encodeMessageToBytes proto message = .ok bytes) :
    (encodeMessage proto message (encodedMessageLen proto message)).Makes bytes := by
  have small := encodeMessageToBytes_small message bytes encoded
  obtain ⟨found, again, _, made⟩ := encodeMessageToBytes_exact message
    (encodeMessage_fits encoders message fits small)
  rw [encoded] at again
  cases again
  exact made

omit [DecidableEq Id] in
theorem encodeMessageToBytes_parts (encoders : FrameEncoders proto) (message : Encodable)
    (fits : message.encode.Fits message.encodedLen 0) (bytes : Bytes)
    (encoded : encodeMessageToBytes proto message = .ok bytes) :
    ∃ front body, bytes = message.id :: (front ++ body) ∧ body.length ≤ maxLen ∧
      (Writer.ofCodec proto.u32 (UInt32.ofNat body.length)).Makes front ∧
      message.encode.Makes body :=
  messageWriter_parts message fits _ _ bytes
    (encodeMessageToBytes_makes encoders message fits bytes encoded)

section Bodies

variable {Found : Type} {decode : Read DecodeError Found} {wrap : Found → MessageRef Id Address}
  {tag : UInt8}

theorem framed_arm (laws : FrameLaws proto)
    (arm : messageArms proto (merge .lengthDelimited tag) = messageArm proto tag decode wrap)
    (front body : Bytes) (small : body.length ≤ maxLen)
    (made : (Writer.ofCodec proto.u32 (UInt32.ofNat body.length)).Makes front) :
    messageArms proto (merge .lengthDelimited tag) 0 none
        (merge .lengthDelimited tag :: (front ++ body)) =
      (decode body).map fun (taken, found) =>
        (some (wrap found), 1 + (front.length + taken)) := by
  have read := decodeFramed_body laws.u32 rfl front body [] small made decode
  rw [List.append_nil] at read
  rw [arm]
  change ((proto.framing.decodeFramed _ decode (front ++ body)).map _).map _ = _
  rw [read]
  cases decode body with
  | error fault => rfl
  | ok result => rfl

theorem framed_decodes (laws : FrameLaws proto)
    (arm : messageArms proto (merge .lengthDelimited tag) = messageArm proto tag decode wrap)
    (front body : Bytes) (small : body.length ≤ maxLen)
    (made : (Writer.ofCodec proto.u32 (UInt32.ofNat body.length)).Makes front)
    (found : Found) (decoded : decode body = .ok (body.length, found)) :
    decodeMessage proto (merge .lengthDelimited tag :: (front ++ body)) = .ok (wrap found) := by
  have takes := framed_arm laws arm front body small made
  rw [decoded] at takes
  change _ = Except.ok (some (wrap found), 1 + (front.length + body.length)) at takes
  rw [← List.length_append, Nat.add_comm] at takes
  rw [decodeMessage, scan_whole _ _ _ _ takes]
  rfl

omit [DecidableEq Id] in
theorem lawful_decodes {Value : Type} {codec : Data Value} {good : Value → Prop}
    {same : Value → Value → Prop} (lawful : Lawful codec good same 0) (value : Value)
    (valid : good value) (small : codec.encodedLen value ≤ maxLen) (body : Bytes)
    (made : (Writer.ofCodec codec value).Makes body) :
    ∃ back, Yields (same value) back ∧ codec.decode body = .ok (body.length, back) := by
  obtain ⟨result, equal, decoded⟩ := lawful.reads value valid small body made
  have whole := decoded [] fun _ => rfl
  rw [List.append_nil] at whole
  exact ⟨.ok result, ⟨result, rfl, equal⟩, whole⟩

theorem body_decodes (laws : FrameLaws proto)
    (arm : messageArms proto (merge .lengthDelimited tag) = messageArm proto tag decode wrap)
    {wanted : Found → Prop} (message : Encodable) (own : message.id = merge .lengthDelimited tag)
    (fits : message.encodedLen ≤ maxLen → message.encode.Fits message.encodedLen 0)
    (reads : message.encodedLen ≤ maxLen → ∀ body, message.encode.Makes body →
      ∃ found, wanted found ∧ decode body = .ok (body.length, found))
    (len room : Nat) (bytes : Bytes)
    (made : (messageWriter proto message len room).Makes bytes) :
    ∃ found, wanted found ∧ decodeMessage proto bytes = .ok (wrap found) := by
  have small := messageWriter_small message len room bytes made
  obtain ⟨front, body, rfl, short, madeFront, madeBody⟩ :=
    messageWriter_parts message (fits small) len room bytes made
  obtain ⟨found, good, decoded⟩ := reads small body madeBody
  rw [own]
  exact ⟨found, good, framed_decodes laws arm front body short madeFront found decoded⟩

end Bodies

theorem message_fits (encoders : Encoders proto) (message : Message Id Address)
    (proper : message.Proper) (small : (message.encodable proto).encodedLen ≤ maxLen) :
    (message.encodable proto).encode.Fits (message.encodable proto).encodedLen 0 := by
  cases message with
  | leave message => exact leave_encodes encoders.toGossipEncoders message trivial small
  | join message => exact join_encodes encoders.toGossipEncoders message trivial small
  | pushPull message => exact pushPull_encodes encoders.toGossipEncoders message trivial small
  | userEvent message =>
    exact userEventMessage_encodes encoders.toGossipEncoders message trivial small
  | query message => exact query_encodes encoders.toQueryEncoders message proper small
  | queryResponse message =>
    exact queryResponse_encodes encoders.toQueryEncoders message trivial small
  | conflictResponse message =>
    exact conflictResponse_encodes encoders.toMemberEncoders message trivial small
  | keyRequest message => exact keyRequest_encodes encoders.toKeyEncoders message trivial small
  | keyResponse message => exact keyResponse_encodes encoders.toKeyEncoders message trivial small

theorem message_encodes (encoders : Encoders proto) (message : Message Id Address)
    (proper : message.Proper) (small : (message.encodable proto).encodedLen ≤ maxLen) :
    ∃ bytes, encodeMessageToBytes proto (message.encodable proto) = .ok bytes ∧
      bytes.length = encodedMessageLen proto (message.encodable proto) ∧
      (encodeMessage proto (message.encodable proto)
        (encodedMessageLen proto (message.encodable proto))).Makes bytes :=
  encodeMessageToBytes_exact _ (encodeMessage_fits encoders.toFrameEncoders _
    (message_fits encoders message proper small) small)

section Reads

variable {Value : Type} {codec : Data Value} {good : Value → Prop} {same : Value → Value → Prop}
  {tag : UInt8}

theorem message_reads (laws : FrameLaws proto) (lawful : Lawful codec good same 0)
    (wrap : Outcome Value → MessageRef Id Address)
    (arm : messageArms proto (merge .lengthDelimited tag) =
      messageArm proto tag codec.decode wrap)
    (message : Message Id Address) (value : Value)
    (encodes : message.encodable proto = .ofData (merge .lengthDelimited tag) codec value)
    (decodes : ∀ back, Yields (same value) back →
      (wrap back).ty = message.ty ∧ message.DecodesTo (wrap back))
    (valid : good value) (len room : Nat) (bytes : Bytes)
    (made : (messageWriter proto (message.encodable proto) len room).Makes bytes) :
    ∃ ref, decodeMessage proto bytes = .ok ref ∧ ref.ty = message.ty ∧ message.DecodesTo ref := by
  rw [encodes] at made
  obtain ⟨back, yields, decoded⟩ := body_decodes laws arm (.ofData _ codec value) rfl
    (lawful.fits value valid) (lawful_decodes lawful value valid) len room bytes made
  exact ⟨wrap back, decoded, decodes back yields⟩

end Reads

theorem query_decodes (laws : QueryLaws proto) (message : QueryMessage Id Address)
    (good : GoodQuery proto message) (len room : Nat) (bytes : Bytes)
    (made : (messageWriter proto ((Message.query message).encodable proto) len
      room).Makes bytes) :
    ∃ ref, decodeMessage proto bytes = .ok ref ∧ ref.ty = .query ∧
      (Message.query message).DecodesTo ref :=
  message_reads laws.toFrameLaws (query_lawful laws) .query rfl (.query message) message rfl
    (fun _ yields => ⟨rfl, yields⟩) good len room bytes made

theorem queryResponse_decodes (laws : QueryLaws proto)
    (message : QueryResponseMessage Id Address) (len room : Nat) (bytes : Bytes)
    (made : (messageWriter proto ((Message.queryResponse message).encodable proto) len
      room).Makes bytes) :
    ∃ ref, decodeMessage proto bytes = .ok ref ∧ ref.ty = .queryResponse ∧
      (Message.queryResponse message).DecodesTo ref :=
  message_reads laws.toFrameLaws (queryResponse_lawful laws) .queryResponse rfl
    (.queryResponse message) message rfl (fun _ yields => ⟨rfl, yields⟩) trivial len room bytes made

theorem pushPull_decodes (laws : GossipLaws proto) (message : PushPullMessage Id)
    (len room : Nat) (bytes : Bytes)
    (made : (messageWriter proto ((Message.pushPull message : Message Id Address).encodable proto)
      len room).Makes bytes) :
    ∃ ref, decodeMessage proto bytes = .ok ref ∧ ref.ty = .pushPull ∧
      (Message.pushPull message : Message Id Address).DecodesTo ref :=
  message_reads laws.toFrameLaws (pushPull_lawful laws) .pushPull rfl (.pushPull message) message
    rfl (fun _ yields => ⟨rfl, yields⟩) trivial len room bytes made

theorem keyRequest_decodes (laws : KeyLaws proto) (message : KeyRequestMessage)
    (len room : Nat) (bytes : Bytes)
    (made : (messageWriter proto ((Message.keyRequest message : Message Id Address).encodable
      proto) len room).Makes bytes) :
    ∃ ref, decodeMessage proto bytes = .ok ref ∧ ref.ty = .keyRequest ∧
      (Message.keyRequest message : Message Id Address).DecodesTo ref :=
  message_reads laws.toFrameLaws (keyRequest_lawful laws) .keyRequest rfl (.keyRequest message)
    message rfl (fun _ yields => ⟨rfl, yields⟩) trivial len room bytes made

theorem keyResponse_decodes (laws : KeyLaws proto) (message : KeyResponseMessage)
    (len room : Nat) (bytes : Bytes)
    (made : (messageWriter proto ((Message.keyResponse message : Message Id Address).encodable
      proto) len room).Makes bytes) :
    ∃ ref, decodeMessage proto bytes = .ok ref ∧ ref.ty = .keyResponse ∧
      (Message.keyResponse message : Message Id Address).DecodesTo ref :=
  message_reads laws.toFrameLaws (keyResponse_lawful laws) .keyResponse rfl (.keyResponse message)
    message rfl (fun _ yields => ⟨rfl, yields⟩) trivial len room bytes made

theorem conflictResponse_decodes (laws : MemberLaws proto)
    (message : ConflictResponseMessage Id Address) (canonical : CanonicalResponse message)
    (len room : Nat) (bytes : Bytes)
    (made : (messageWriter proto ((Message.conflictResponse message).encodable proto) len
      room).Makes bytes) :
    ∃ ref, decodeMessage proto bytes = .ok (.conflictResponse ref) ∧
      BorrowsConflict message ref := by
  have encodes := conflictResponse_encodes laws.encoders
  obtain ⟨ref, borrows, decoded⟩ := body_decodes laws.toFrameLaws rfl
    ((Message.conflictResponse message).encodable proto) rfl (encodes message trivial)
    (conflictResponse_borrows laws message canonical) len room bytes made
  exact ⟨ref, decoded, borrows⟩

theorem message_decodes (laws : ProtoLaws proto) (message : Message Id Address)
    (wellFormed : message.WellFormed proto) (len room : Nat) (bytes : Bytes)
    (made : (messageWriter proto (message.encodable proto) len room).Makes bytes) :
    ∃ ref, decodeMessage proto bytes = .ok ref ∧ ref.ty = message.ty ∧ message.DecodesTo ref := by
  have frames := laws.toGossipLaws.toFrameLaws
  cases message with
  | leave message =>
    exact message_reads frames (leave_lawful laws.toGossipLaws) .leave rfl (.leave message)
      message rfl (fun _ yields => ⟨rfl, yields⟩) trivial len room bytes made
  | join message =>
    exact message_reads frames (join_lawful laws.toGossipLaws) .join rfl (.join message)
      message rfl (fun _ yields => ⟨rfl, yields⟩) trivial len room bytes made
  | pushPull message =>
    exact pushPull_decodes laws.toGossipLaws message len room bytes made
  | userEvent message =>
    exact message_reads frames (userEventMessage_lawful laws.toGossipLaws) .userEvent rfl
      (.userEvent message) message rfl (fun _ yields => ⟨rfl, yields⟩) trivial len room bytes made
  | query message =>
    exact query_decodes laws.toQueryLaws message wellFormed len room bytes made
  | queryResponse message =>
    exact queryResponse_decodes laws.toQueryLaws message len room bytes made
  | conflictResponse message =>
    obtain ⟨ref, decoded, borrows⟩ :=
      conflictResponse_decodes laws.toMemberLaws message wellFormed len room bytes made
    exact ⟨.conflictResponse ref, decoded, rfl, borrows⟩
  | keyRequest message =>
    exact keyRequest_decodes laws.toKeyLaws message len room bytes made
  | keyResponse message =>
    exact keyResponse_decodes laws.toKeyLaws message len room bytes made

omit [DecidableEq Id] in
theorem proper_of_wellFormed (message : Message Id Address)
    (wellFormed : message.WellFormed proto) : message.Proper := by
  cases message with
  | query message => exact wellFormed.timeout
  | _ => trivial

/-- Every encodable message is written in its announced length and read back as
a message of its kind that converts to an equal one. -/
theorem message_round_trip (laws : ProtoLaws proto) (message : Message Id Address)
    (wellFormed : message.WellFormed proto)
    (small : (message.encodable proto).encodedLen ≤ maxLen) :
    ∃ bytes ref, encodeMessageToBytes proto (message.encodable proto) = .ok bytes ∧
      bytes.length = encodedMessageLen proto (message.encodable proto) ∧
      decodeMessage proto bytes = .ok ref ∧ ref.ty = message.ty ∧ message.DecodesTo ref := by
  have proper := proper_of_wellFormed message wellFormed
  obtain ⟨bytes, encoded, length, made⟩ := message_encodes laws.encoders message proper small
  obtain ⟨ref, decoded⟩ := message_decodes laws message wellFormed _ _ bytes made
  exact ⟨bytes, ref, encoded, length, decoded⟩

def deployQuery : QueryMessage UInt8 UInt8 where
  ltime := 7
  id := 1
  fromNode := { id := 1, address := 2 }
  filters := [.id [3, 4], .tag { tag := "role", expr := some ⟨"web", fun _ => true⟩ }]
  flags := 1
  relayFactor := 2
  timeout := 5
  name := "deploy"
  payload := [9]

theorem deployQuery_good : GoodQuery reference deployQuery where
  flags := by decide
  timeout := by unfold IsDuration; decide
  filters := by
    intro one inside
    simp only [deployQuery, List.mem_cons, List.not_mem_nil, or_false] at inside
    rcases inside with rfl | rfl
    · trivial
    · rintro expr ⟨⟩
      exact ⟨by decide, _, rfl⟩

theorem deployQuery_round_trip :
    ∃ bytes ref, encodeMessageToBytes reference ((Message.query deployQuery).encodable reference) =
        .ok bytes ∧
      bytes.length = encodedMessageLen reference ((Message.query deployQuery).encodable reference) ∧
      decodeMessage reference bytes = .ok ref ∧ ref.ty = .query ∧
      (Message.query deployQuery).DecodesTo ref :=
  message_round_trip reference_laws (.query deployQuery) deployQuery_good (by decide)

def octalQuery : QueryMessage UInt8 UInt8 :=
  { deployQuery with filters := [.tag { tag := "role", expr := some ⟨octal, fun _ => true⟩ }] }

theorem octalQuery_refused :
    octal ≠ "" ∧ truncateFlags octalQuery.flags = octalQuery.flags ∧
      queryLen reference octalQuery ≤ maxLen ∧
      ∃ bytes, encodeMessageToBytes reference ((Message.query octalQuery).encodable reference) =
          .ok bytes ∧
        decodeMessage reference bytes =
          .ok (.query (.error (.error (.custom "backreferences are not supported")))) := by
  refine ⟨by decide, by decide, by decide, _, rfl, rfl⟩

end RoundTrip

section Totality

def Overruns (bytes : Bytes) : Prop :=
  2 ≤ bytes.length ∧ ∃ read length, proto.u32.decodeOwned bytes.tail = .ok (read, length) ∧
    bytes.length < 1 + read + length.toNat

def OverrunRelay (bytes : Bytes) : Prop :=
  ∃ offset fields rest,
    Reaches (fieldTurn (relayArms proto)) (0, {}) bytes (offset, fields)
      (merge .lengthDelimited 2 :: rest) ∧
    fields.msg = none ∧ Overruns proto rest

/-- The first message of the buffer is an answer to an id conflict with a member
that is cut, or a relay message with an overrun. -/
def Fatal (bytes : Bytes) : Prop :=
  ∃ offset rest,
    (Reaches (fieldTurn (messageArms proto)) (0, none) bytes (offset, none)
        (merge .lengthDelimited 7 :: rest) ∧
      ∃ slice, Announces proto.u32 rest slice ∧ CutConflictResponse proto slice) ∨
    (Reaches (fieldTurn (messageArms proto)) (0, none) bytes (offset, none)
        (merge .lengthDelimited 8 :: rest) ∧
      OverrunRelay proto rest)

variable {proto}

section Relay

omit [DecidableEq Id]

variable (total : FrameTotal proto)

theorem relayPayload_cuts (bytes : Bytes) (taken : Nat) (payload : Bytes)
    (now : relayPayload proto bytes = .ok (taken, payload)) :
    1 ≤ taken ∧ taken ≤ bytes.length ∧ payload = bytes.take taken := by
  unfold relayPayload at now
  split at now
  · cases now
  · split at now
    · cases now
    · split at now
      · cases now
      · cases now
        exact ⟨by omega, by omega, rfl⟩

theorem relayPayload_takes : Takes (relayPayload proto) 1 fun _ => True := by
  intro bytes taken payload now
  obtain ⟨least, most, _⟩ := relayPayload_cuts bytes taken payload now
  exact ⟨least, most, trivial⟩

include total

theorem relayPayload_returns_iff (bytes : Bytes) :
    Returns (relayPayload proto bytes) ↔ ¬ Overruns proto bytes := by
  have lengths := total.lengths.returns bytes.tail
  unfold relayPayload
  split
  · rename_i short
    refine iff_of_true trivial ?_
    rintro ⟨enough, _⟩
    omega
  · rename_i enough
    split
    · rename_i fault failed
      rw [failed] at lengths
      refine iff_of_true lengths ?_
      rintro ⟨_, read, length, announced, _⟩
      rw [failed] at announced
      cases announced
    · rename_i read length announced
      split
      · rename_i past
        refine iff_of_false id ?_
        exact not_not_intro ⟨by omega, read, length, announced, past⟩
      · rename_i inside
        refine iff_of_true trivial ?_
        rintro ⟨_, other, size, again, past⟩
        rw [announced] at again
        cases again
        exact inside past

variable (nodes : TotalNode proto.nodeData)

include nodes

theorem relayArms_steady (byte : UInt8) :
    Steady (fun offset fields => SettledNode fields.node ∧ (fields.msg.getD []).length ≤ offset)
      (relayArms proto byte) := by
  unfold relayArms
  split_ifs
  · exact (once_safe (total.readNode nodes) fun _ taken _ _ held back =>
      ⟨settledNode_some back, Nat.le_add_right_of_le held.2⟩).toSteady
  · refine unlessHeld_steady (latest_steady_of_reads relayPayload_takes ?_)
    intro offset bytes taken fields payload held reads
    -- The payload is all that this arm takes behind the tag byte.
    obtain ⟨_, _, rfl⟩ := relayPayload_cuts bytes taken payload reads
    refine ⟨held.1, ?_⟩
    change (bytes.take taken).length ≤ offset + (1 + taken)
    rw [List.length_take]
    omega
  · exact (pass_safe (total.skip _) fun _ _ _ held =>
      ⟨held.1, Nat.le_add_right_of_le held.2⟩).toSteady

theorem decodeRelay_ends (bytes : Bytes) (back : Returns (scan (relayArms proto) {} bytes)) :
    Ends (fun (taken, node, payload) =>
      taken ≤ bytes.length ∧ payload.length ≤ taken ∧ Returns node.id ∧ Returns node.address)
      (decodeRelay proto bytes) := by
  refine ends_steady (relayArms_steady total nodes) {} ⟨settledNode_none, le_rfl⟩ bytes back ?_
  intro fields held
  exact ends_need _ _ _ fun node given => ⟨le_rfl, held.2, held.1 node given⟩

theorem decodeRelay_returns_iff (bytes : Bytes) :
    Returns (decodeRelay proto bytes) ↔ ¬ OverrunRelay proto bytes := by
  refine (scan_bind_returns_iff (relayArms_steady total nodes) {} bytes
    (decodeRelay_ends total nodes bytes)).trans ?_
  constructor
  · rintro all ⟨offset, fields, rest, reached, fresh, overruns⟩
    have back := all offset fields _ rest reached
    rw [relayArms, if_neg (by decide), if_pos rfl, once_returns_iff] at back
    exact (relayPayload_returns_iff total rest).mp (back fresh) overruns
  · intro inside offset fields tag rest reached
    unfold relayArms
    split_ifs with isNode isMessage
    · exact (once_returns_iff _ _ _).mpr fun _ => (total.readNode nodes).returns _
    · subst isMessage
      refine (once_returns_iff _ _ _).mpr fun fresh =>
        (relayPayload_returns_iff total rest).mpr fun overruns => ?_
      exact inside ⟨offset, fields, rest, reached, fresh, overruns⟩
    · exact (returns_map _ _).mpr ((total.skip _).returns _)

theorem relayArm_decoded (offset : Nat) (state : Option (MessageRef Id Address)) (bytes : Bytes)
    (readed : Nat) (node : NodeRef Id Address) (payload : Bytes)
    (decoded : decodeRelay proto bytes.tail = .ok (readed, node, payload)) :
    relayArm proto offset state bytes =
        .ok (some (.relay node (offset + (1 + readed) - payload.length) payload), 1 + readed) ∧
      readed ≤ bytes.tail.length ∧ Returns node.id ∧ Returns node.address := by
  have returned : Returns (decodeRelay proto bytes.tail) := by
    rw [decoded]
    trivial
  have fine := decodeRelay_ends total nodes bytes.tail (returns_of_bind returned)
  rw [decoded] at fine
  obtain ⟨inside, shorter, back⟩ := fine
  refine ⟨?_, inside, back⟩
  rw [relayArm, decoded]
  exact if_neg (by omega)

theorem relayArm_returns_iff (offset : Nat) (state : Option (MessageRef Id Address))
    (bytes : Bytes) :
    Returns (relayArm proto offset state bytes) ↔ ¬ OverrunRelay proto bytes.tail := by
  rw [← decodeRelay_returns_iff total nodes]
  constructor
  · exact returns_of_bind
  · intro back
    cases decoded : decodeRelay proto bytes.tail with
    | error fault =>
      rw [decoded] at back
      rw [relayArm, decoded]
      exact back
    | ok result =>
      obtain ⟨readed, node, payload⟩ := result
      rw [(relayArm_decoded total nodes offset state bytes readed node payload decoded).1]
      trivial

theorem relayArm_steady :
    Steady (fun _ msg => ∀ ref, msg = some ref → ref.Converts) (relayArm proto) := by
  have decodes : ∀ offset state bytes final taken,
      relayArm proto offset state bytes = .ok (final, taken) →
        ∃ readed node payload, decodeRelay proto bytes.tail = .ok (readed, node, payload) := by
    intro offset state bytes final taken now
    cases decoded : decodeRelay proto bytes.tail with
    | error fault =>
      rw [relayArm, decoded] at now
      cases now
    | ok result => exact ⟨result.1, result.2.1, result.2.2, rfl⟩
  constructor
  · intro offset state bytes final taken given now
    obtain ⟨readed, node, payload, decoded⟩ := decodes offset state bytes final taken now
    obtain ⟨equal, inside, _⟩ :=
      relayArm_decoded total nodes offset state bytes readed node payload decoded
    rw [equal] at now
    cases now
    have positive := List.length_pos_iff.mpr given
    rw [List.length_tail] at inside
    omega
  · rintro offset state bytes final taken _ now ref rfl
    obtain ⟨readed, node, payload, decoded⟩ := decodes offset state bytes _ taken now
    obtain ⟨equal, _, back⟩ :=
      relayArm_decoded total nodes offset state bytes readed node payload decoded
    rw [equal] at now
    cases now
    exact back

end Relay

omit [DecidableEq Id] in
theorem messageArm_safe {Value : Type} {decode : Read DecodeError (Outcome Value)} (tag : UInt8)
    (wrap : Outcome Value → MessageRef Id Address) (total : FrameTotal proto)
    (back : Total decode 0 Returns) (converts : ∀ back, Returns back → (wrap back).Converts) :
    Safe (fun _ msg => ∀ ref, msg = some ref → ref.Converts)
      (messageArm proto tag decode wrap) := by
  refine once_safe (total_mapRead MessageRef.Converts (total_framed total.lengths back)
    converts) ?_
  rintro _ _ _ _ _ fine ref ⟨⟩
  exact fine

variable (total : ProtoTotal proto) (keys : TotalCodec proto.secretKey)

include total keys

theorem messageArms_safe (byte : UInt8) (notConflict : byte ≠ merge .lengthDelimited 7)
    (notRelay : byte ≠ merge .lengthDelimited 8) :
    Safe (fun _ msg => ∀ ref, msg = some ref → ref.Converts) (messageArms proto byte) := by
  rw [messageArms, if_neg notConflict, if_neg notRelay]
  apply safe_ite
  · exact messageArm_safe 1 .leave total.toFrameTotal (leave_total total) fun _ back => back
  apply safe_ite
  · exact messageArm_safe 2 .join total.toFrameTotal (join_total total) fun _ back => back
  apply safe_ite
  · exact messageArm_safe 3 .pushPull total.toFrameTotal (pushPull_total total) fun _ back => back
  apply safe_ite
  · exact messageArm_safe 4 .userEvent total.toFrameTotal (userEventMessage_total total)
      fun _ back => back
  apply safe_ite
  · exact messageArm_safe 5 .query total.toFrameTotal (query_total total) fun _ back => back
  apply safe_ite
  · exact messageArm_safe 6 .queryResponse total.toFrameTotal (queryResponse_total total)
      fun _ back => back
  apply safe_ite
  · exact messageArm_safe 9 .keyRequest total.toFrameTotal
      (keyRequest_total total.toFrameTotal keys) fun _ back => back
  apply safe_ite
  · exact messageArm_safe 10 .keyResponse total.toFrameTotal
      (keyResponse_total total.toFrameTotal total.str keys) fun _ back => back
  exact pass_safe (total.skip _) fun _ _ _ held => held

theorem messageArms_steady (byte : UInt8) :
    Steady (fun _ msg => ∀ ref, msg = some ref → ref.Converts) (messageArms proto byte) := by
  by_cases isConflict : byte = merge .lengthDelimited 7
  · subst isConflict
    refine once_steady (takes_mapRead MessageRef.Converts (takes_framed
      total.lengths.takes (conflictResponse_takes total)) fun _ back => back) ?_
    rintro _ _ _ _ _ fine ref ⟨⟩
    exact fine
  by_cases isRelay : byte = merge .lengthDelimited 8
  · subst isRelay
    exact unlessHeld_steady (relayArm_steady total.toFrameTotal total.node)
  exact (messageArms_safe total keys byte isConflict isRelay).toSteady

omit keys in
theorem messageArms_conflict_returns_iff (offset : Nat) (state : Option (MessageRef Id Address))
    (rest : Bytes) :
    Returns (messageArms proto (merge .lengthDelimited 7) offset state
        (merge .lengthDelimited 7 :: rest)) ↔
      (state = none → ∀ slice, Announces proto.u32 rest slice →
        ¬ CutConflictResponse proto slice) := by
  have arm : messageArms proto (merge .lengthDelimited 7) =
    messageArm proto 7 (conflictResponseRefDecode proto) .conflictResponse := rfl
  have body : Returns (proto.framing.decodeFramed .lengthDelimited
        (conflictResponseRefDecode proto) rest) ↔
      ∀ slice, Announces proto.u32 rest slice → ¬ CutConflictResponse proto slice := by
    rw [framed_returns_iff total.lengths.returns rfl]
    exact forall₂_congr fun slice _ => conflictResponse_returns_iff total slice
  rw [arm, messageArm, once_returns_iff, mapRead, returns_map, List.tail_cons, body]
  rfl

omit keys in
theorem messageArms_relay_returns_iff (offset : Nat) (state : Option (MessageRef Id Address))
    (rest : Bytes) :
    Returns (messageArms proto (merge .lengthDelimited 8) offset state
        (merge .lengthDelimited 8 :: rest)) ↔
      (state = none → ¬ OverrunRelay proto rest) := by
  have arm : messageArms proto (merge .lengthDelimited 8) = unlessHeld messageSlot
    (.duplicateField "Message" "value" 8) (relayArm proto) := rfl
  rw [arm, unlessHeld_returns_iff, relayArm_returns_iff total.toFrameTotal total.node,
    List.tail_cons]
  rfl

theorem decodeMessage_ends (bytes : Bytes) (back : Returns (scan (messageArms proto) none bytes)) :
    Ends MessageRef.Converts (decodeMessage proto bytes) := by
  refine ends_steady (messageArms_steady total keys) none (fun _ => nofun) bytes back ?_
  intro msg converts
  cases msg with
  | none => trivial
  | some ref => exact converts ref rfl

theorem decodeMessage_returns_iff (bytes : Bytes) :
    Returns (decodeMessage proto bytes) ↔ ¬ Fatal proto bytes := by
  refine (scan_bind_returns_iff (messageArms_steady total keys) none bytes
    (decodeMessage_ends total keys bytes)).trans ?_
  constructor
  · rintro all ⟨offset, rest, ⟨reached, slice, announced, cut⟩ | ⟨reached, overrun⟩⟩
    · have back := all offset none _ rest reached
      exact (messageArms_conflict_returns_iff total offset none rest).mp back rfl slice announced
        cut
    · have back := all offset none _ rest reached
      exact (messageArms_relay_returns_iff total offset none rest).mp back rfl overrun
  · -- A message that is held already turns every arm into the report of a duplicate.
    intro harmless offset state tag rest reached
    by_cases isConflict : tag = merge .lengthDelimited 7
    · subst isConflict
      rw [messageArms_conflict_returns_iff total]
      rintro rfl slice announced cut
      exact harmless ⟨offset, rest, .inl ⟨reached, slice, announced, cut⟩⟩
    by_cases isRelay : tag = merge .lengthDelimited 8
    · subst isRelay
      rw [messageArms_relay_returns_iff total]
      rintro rfl overrun
      exact harmless ⟨offset, rest, .inr ⟨reached, overrun⟩⟩
    exact (messageArms_safe total keys tag isConflict isRelay).returns offset state (tag :: rest)

/-- Decoding comes back on any bytes, and so does the conversion of what was
decoded, except that a message panics where it is fatal and a member where it
is cut. -/
theorem decoding_returns_iff (bytes : Bytes) :
    (Ends MessageRef.Converts (decodeMessage proto bytes) ↔ ¬ Fatal proto bytes) ∧
      (Ends (fun decoded => Returns decoded.2) (memberDecode proto bytes) ↔
        ¬ CutMember proto bytes) ∧
      Ends (fun decoded => Returns decoded.2) (tagsDecode proto bytes) ∧
      Ends (fun decoded => Returns decoded.2) (coordinateDecode proto bytes) := by
  refine ⟨?_, ?_, ?_, ?_⟩
  · rw [← decodeMessage_returns_iff total keys]
    exact ⟨returns_of_ends, fun back => decodeMessage_ends total keys bytes (returns_of_bind back)⟩
  · rw [← member_returns_iff total]
    have takes : Takes (memberDecode proto) 0 Returns :=
      takes_mapRead Returns (memberRef_takes total) convertMember_returns
    rw [← returns_map]
    exact ⟨returns_of_ends, fun back => ends_of_takes takes back⟩
  · have back := tags_total total.toFrameTotal total.tag
    exact ends_of_takes back.takes (back.returns bytes)
  · have back := coordinate_total total.toFrameTotal total.f64
    exact ends_of_takes back.takes (back.returns bytes)

omit total keys in
/-- A relayed message of five bytes where none is left, and a member that ends
in the tag byte of its status. -/
theorem decoding_panics :
    decodeMessage reference [24, 18, 17, 5] = .error .panic ∧
      decodeMessage reference [23, 3, 17, 1, 3] = .error .panic ∧
      memberDecode reference [3] = .error .panic :=
  ⟨rfl, rfl, rfl⟩

omit total keys in
theorem relay_fatal : Fatal guarded [24, 18, 17, 5] := by
  by_contra harmless
  have ends := (decoding_returns_iff guarded_total (secretKeyData_total _) [24, 18, 17, 5]).1.mpr
    harmless
  exact absurd (returns_of_ends ends) (by decide)

end Totality

end Serf.Wire
