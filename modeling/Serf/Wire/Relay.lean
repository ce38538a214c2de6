import Serf.Library.Occurrences
import Serf.Wire.Message

/-!
Relay messages: a node and a whole message behind it. What `encode_relay_message`
writes is decoded as a relay to that node, whose payload is the message, byte for byte;
the offset of the payload is where the message starts in the buffer. In a buffer that
came from elsewhere other fields may stand behind the message, and then it is not.
-/

namespace Serf.Wire

open Library.Collections Library.Encoding Library.Fields Library.RecordLog QueryHandler

variable {Id Address : Type} (proto : Proto Id Address)

section Encode

def encodedRelayMessageLen (message : Encodable) (node : Node Id Address) : Nat :=
  1 + (1 + proto.framing.framedLen proto.node node + (1 + encodedMessageLen proto message))

def encodeRelayMessage (message : Encodable) (node : Node Id Address) (room : Nat) : Writer :=
  let len := encodedRelayMessageLen proto message node
  tagged len room (merge .lengthDelimited 8)
    ((tagged len room (merge .lengthDelimited 1)
        (proto.updated len room (proto.framing.framed proto.node node))).andThen
      (tagged len room (merge .lengthDelimited 2) (messageWriter proto message len room)))

/-- The buffer is zeroed before the message is written into it. -/
def encodeRelayMessageToBytes (message : Encodable) (node : Node Id Address) :
    Except EncodeError Bytes :=
  let len := encodedRelayMessageLen proto message node
  ((encodeRelayMessage proto message node len).write len).map fun written =>
    written ++ List.replicate (len - written.length) 0

end Encode

section Written

variable {proto} (message : Encodable) (node : Node Id Address)

theorem encodeRelayMessage_parts (room slice : Nat) (bytes : Bytes)
    (written : (encodeRelayMessage proto message node room).write slice = .ok bytes) :
    ∃ nodeBytes payload,
      bytes = merge .lengthDelimited 8 :: (nodeBytes ++ merge .lengthDelimited 2 :: payload) ∧
      (tagged (encodedRelayMessageLen proto message node) room (merge .lengthDelimited 1)
        (proto.updated (encodedRelayMessageLen proto message node) room
          (proto.framing.framed proto.node node))).Makes nodeBytes ∧
      (messageWriter proto message (encodedRelayMessageLen proto message node) room).write
        (slice - 1 - nodeBytes.length - 1) = .ok payload := by
  obtain ⟨content, rfl, _, inside⟩ := (Writer.field_ok_iff slice bytes _ _ _).mp written
  obtain ⟨nodeBytes, tail, rfl, madeNode, behind⟩ :=
    (Writer.andThen_ok_iff _ _ _ content).mp inside
  obtain ⟨payload, rfl, _, made⟩ := (Writer.field_ok_iff _ tail _ _ _).mp behind
  exact ⟨nodeBytes, payload, rfl, ⟨_, madeNode⟩, made⟩

theorem messageWriter_ok_iff (len other room size slice : Nat) (bytes : Bytes) :
    (messageWriter proto message len room).write slice = .ok bytes ↔
      (messageWriter proto message other size).write slice = .ok bytes := by
  simp only [messageWriter, tagged, Proto.updated, Writer.field_ok_iff, Writer.checking_ok_iff,
    Writer.andThen_ok_iff, Writer.mapErr_ok_iff]

variable (laws : FrameLaws proto) (nodes : Lawful proto.node (fun _ => True) Eq 0)
  (fits : message.encode.Fits message.encodedLen 0)

include laws fits

include nodes in
theorem encodeRelayMessage_fits (small : message.encodedLen ≤ maxLen)
    (short : proto.node.encodedLen node ≤ maxLen) (room : Nat) :
    (encodeRelayMessage proto message node room).Fits
      (encodedRelayMessageLen proto message node) 0 := by
  have destination := fits_frame laws.u32.encodes node (nodes.fits node trivial short) short
  have inner := messageWriter_fits laws.lengths message fits small
    (encodedRelayMessageLen proto message node) room
  exact Writer.fits_field (Writer.fits_andThen _ _ _ _ 0 0
    (Writer.fits_field (Writer.fits_mapErr destination)) (Writer.fits_field inner)
    (Nat.zero_le _))

theorem relayPayload_reads (len room : Nat) (payload : Bytes)
    (made : (messageWriter proto message len room).Makes payload) (more : Bytes) :
    relayPayload proto (payload ++ more) = .ok (payload.length, payload) := by
  obtain ⟨front, body, rfl, small, head, _⟩ := messageWriter_parts message fits len room payload
    made
  have announced := length_reads laws.u32 body.length front head (body ++ more)
  rw [← List.append_assoc] at announced
  have positive := List.length_pos_iff.mpr (length_nonempty laws.u32 _ front head)
  have long : ¬ (message.id :: (front ++ body) ++ more).length < 2 := by
    simp only [List.cons_append, List.length_cons, List.length_append]
    omega
  have inside : ¬ (message.id :: (front ++ body) ++ more).length <
      1 + front.length + body.length := by
    simp only [List.cons_append, List.length_cons, List.length_append]
    omega
  have size : 1 + front.length + body.length = (message.id :: (front ++ body)).length := by
    simp only [List.length_cons, List.length_append]
    omega
  rw [relayPayload, if_neg long, List.cons_append, List.tail_cons, announced]
  simp only [toNat_length _ small]
  rw [← List.cons_append, if_neg inside, size, List.take_left]

include nodes in
theorem decodeRelay_reads (short : proto.node.encodedLen node ≤ maxLen)
    (len room : Nat) (nodeBytes payload : Bytes)
    (madeNode : (tagged len room (merge .lengthDelimited 1)
      (proto.updated len room (proto.framing.framed proto.node node))).Makes nodeBytes)
    (made : (messageWriter proto message len room).Makes payload) :
    decodeRelay proto (nodeBytes ++ merge .lengthDelimited 2 :: payload) =
      .ok ((nodeBytes ++ merge .lengthDelimited 2 :: payload).length, borrowNode node,
        payload) := by
  obtain ⟨content, rfl, inside⟩ := Writer.makes_field madeNode
  obtain ⟨_, rfl, readsNode⟩ := laws.readsNode nodes node short content
    (Writer.makes_mapErr inside)
  have reads := relayPayload_reads message laws fits len room payload made
  have first : Stores (relayArms proto) (merge .lengthDelimited 1) RelayFields.nodeSlot
    proto.readNode {} := once_stores rfl rfl
  have second : Stores (relayArms proto) (merge .lengthDelimited 2) RelayFields.msgSlot
    (relayPayload proto) { node := some (borrowNode node) } := once_stores rfl rfl
  have scanned := scan_of_advances _ _ _ (advances_append 0 _ _ _ _ _
    (stored_advances first readsNode 0) (stored_advances second reads _))
  rw [decodeRelay, scanned]
  rfl

include nodes in
theorem encodeRelayMessageToBytes_exact (small : message.encodedLen ≤ maxLen)
    (short : proto.node.encodedLen node ≤ maxLen) :
    ∃ bytes, encodeRelayMessageToBytes proto message node = .ok bytes ∧
      bytes.length = encodedRelayMessageLen proto message node ∧
      (encodeRelayMessage proto message node (encodedRelayMessageLen proto message node)).write
        (encodedRelayMessageLen proto message node) = .ok bytes := by
  have whole := encodeRelayMessage_fits message node laws nodes fits small short
    (encodedRelayMessageLen proto message node)
  obtain ⟨bytes, written⟩ := whole.writes (encodedRelayMessageLen proto message node) le_rfl
  have length := whole.exact bytes ⟨_, written⟩
  refine ⟨bytes, ?_, length, written⟩
  simp [encodeRelayMessageToBytes, written, Except.map, length]

omit laws fits in
theorem encodeRelayMessageToBytes_small (nodeWire : proto.node.wireType = .lengthDelimited)
    (bytes : Bytes) (encoded : encodeRelayMessageToBytes proto message node = .ok bytes) :
    message.encodedLen ≤ maxLen ∧ proto.node.encodedLen node ≤ maxLen := by
  rw [encodeRelayMessageToBytes] at encoded
  obtain ⟨written, wrote, _⟩ := map_ok encoded
  obtain ⟨nodeBytes, payload, _, madeNode, made⟩ := encodeRelayMessage_parts message node _ _
    written wrote
  obtain ⟨_, _, nodeInside⟩ := Writer.makes_field madeNode
  exact ⟨messageWriter_small _ _ _ payload ⟨_, made⟩,
    framed_made_small nodeWire node _ (Writer.makes_mapErr nodeInside)⟩

variable [DecidableEq Id]

omit laws fits in
theorem relay_offset (front payload : Bytes) (target : NodeRef Id Address)
    (relayed : decodeRelay proto (front ++ payload) = .ok ((front ++ payload).length, target,
      payload)) :
    decodeMessage proto (merge .lengthDelimited 8 :: (front ++ payload)) =
      .ok (.relay target (1 + front.length) payload) := by
  have inside : ¬ 0 + (1 + (front ++ payload).length) < payload.length := by
    rw [List.length_append]
    omega
  have offset : 0 + (1 + (front ++ payload).length) - payload.length = 1 + front.length := by
    rw [List.length_append]
    omega
  have taken : 1 + (front ++ payload).length =
      (merge .lengthDelimited 8 :: (front ++ payload)).length := Nat.add_comm _ _
  have arm : messageArms proto (merge .lengthDelimited 8) 0 none
      (merge .lengthDelimited 8 :: (front ++ payload)) =
      .ok (some (.relay target (1 + front.length) payload),
        (merge .lengthDelimited 8 :: (front ++ payload)).length) := by
    change relayArm proto 0 none (merge .lengthDelimited 8 :: (front ++ payload)) = _
    rw [relayArm, List.tail_cons, relayed]
    change (if 0 + (1 + (front ++ payload).length) < payload.length then _ else _) = _
    rw [if_neg inside, offset, taken]
  rw [decodeMessage, scan_whole _ _ _ _ arm]
  rfl

include nodes in
theorem relay_decodes (small : message.encodedLen ≤ maxLen)
    (short : proto.node.encodedLen node ≤ maxLen) (bytes : Bytes)
    (encoded : encodeRelayMessageToBytes proto message node = .ok bytes) :
    ∃ offset payload, decodeMessage proto bytes = .ok (.relay (borrowNode node) offset payload) ∧
      bytes.drop offset = payload ∧
      (encodeMessage proto message (encodedMessageLen proto message)).write
        (encodedMessageLen proto message) = .ok payload := by
  obtain ⟨again, sent, length, written⟩ := encodeRelayMessageToBytes_exact message node laws nodes
    fits small short
  rw [encoded] at sent
  cases sent
  obtain ⟨nodeBytes, payload, rfl, madeNode, made⟩ := encodeRelayMessage_parts message node _ _
    bytes written
  have relayed := decodeRelay_reads message node laws nodes fits short _ _ nodeBytes payload
    madeNode ⟨_, made⟩
  -- What is left behind the node and the two tag bytes is the length of the message.
  have size := (messageWriter_fits laws.lengths message fits small _ _).exact payload ⟨_, made⟩
  have left : encodedRelayMessageLen proto message node - 1 - nodeBytes.length - 1 =
      encodedMessageLen proto message := by
    simp only [List.length_cons, List.length_append] at length
    omega
  rw [left] at made
  rw [List.append_cons] at relayed ⊢
  refine ⟨_, payload, relay_offset _ payload _ relayed, ?_,
    (messageWriter_ok_iff message _ _ _ _ _ payload).mp made⟩
  rw [Nat.add_comm, List.drop_succ_cons, List.drop_left]

omit laws fits in
/-- Wrapping is transparent: the relay message has its announced length, goes to its node,
and carries the very bytes of the message, which are read as they would be without it. -/
theorem relay_transparent (laws : ProtoLaws proto) (message : Message Id Address)
    (proper : message.Proper) (small : (message.encodable proto).encodedLen ≤ maxLen)
    (short : proto.node.encodedLen node ≤ maxLen) :
    ∃ bytes offset payload,
      encodeRelayMessageToBytes proto (message.encodable proto) node = .ok bytes ∧
      bytes.length = encodedRelayMessageLen proto (message.encodable proto) node ∧
      decodeMessage proto bytes = .ok (.relay (borrowNode node) offset payload) ∧
      encodeMessageToBytes proto (message.encodable proto) = .ok payload ∧
      (message.WellFormed proto → ∃ ref, decodeMessage proto payload = .ok ref ∧
        ref.ty = message.ty ∧ message.DecodesTo ref) := by
  have frames := laws.toGossipLaws.toFrameLaws
  have fits := message_fits laws.encoders message proper small
  obtain ⟨bytes, encoded, length, _⟩ := encodeRelayMessageToBytes_exact _ node frames laws.node
    fits small short
  obtain ⟨offset, payload, decoded, _, written⟩ := relay_decodes _ node frames laws.node fits
    small short bytes encoded
  have size := (encodeMessage_fits frames.lengths _ fits small _).exact payload ⟨_, written⟩
  refine ⟨bytes, offset, payload, encoded, length, decoded, ?_, ?_⟩
  · simp [encodeMessageToBytes, written, Except.map, size]
  · intro wellFormed
    exact message_decodes laws message wellFormed _ _ payload ⟨_, written⟩

omit laws fits [DecidableEq Id] in
theorem relay_transparent_deploy :
    ∃ bytes offset payload,
      encodeRelayMessageToBytes reference ((Message.query deployQuery).encodable reference)
        ⟨1, 2⟩ = .ok bytes ∧
      bytes.length = encodedRelayMessageLen reference
        ((Message.query deployQuery).encodable reference) ⟨1, 2⟩ ∧
      decodeMessage reference bytes = .ok (.relay (borrowNode ⟨1, 2⟩) offset payload) ∧
      encodeMessageToBytes reference ((Message.query deployQuery).encodable reference) =
        .ok payload ∧
      ∃ ref, decodeMessage reference payload = .ok ref ∧ ref.ty = .query ∧
        (Message.query deployQuery).DecodesTo ref := by
  obtain ⟨bytes, offset, payload, encoded, length, decoded, inner, reads⟩ :=
    relay_transparent ⟨1, 2⟩ reference_laws (.query deployQuery) deployQuery_good.timeout
      (by decide) (by decide)
  exact ⟨bytes, offset, payload, encoded, length, decoded, inner, reads deployQuery_good⟩

omit laws fits in
theorem queryResponse_relayed (laws : QueryLaws proto)
    (nodeWire : proto.node.wireType = .lengthDelimited)
    (response : QueryResponseMessage Id Address) (bytes : Bytes)
    (encoded : encodeRelayMessageToBytes proto ((Message.queryResponse response).encodable proto)
      node = .ok bytes) :
    ∃ offset payload, decodeMessage proto bytes = .ok (.relay (borrowNode node) offset payload) ∧
      bytes.drop offset = payload ∧
      decodeMessage proto payload = .ok (.queryResponse (.ok response)) := by
  obtain ⟨small, short⟩ := encodeRelayMessageToBytes_small _ node nodeWire bytes encoded
  have fits : ((Message.queryResponse response).encodable proto).encode.Fits _ 0 :=
    queryResponse_encodes laws.encoders response trivial small
  obtain ⟨offset, payload, decoded, cut, written⟩ := relay_decodes _ node laws.toFrameLaws
    laws.node fits small short bytes encoded
  obtain ⟨back, ⟨_, rfl, rfl⟩, inner⟩ := body_decodes laws.toFrameLaws rfl
    ((Message.queryResponse response).encodable proto) rfl (fun _ => fits)
    (lawful_decodes (queryResponse_lawful laws) response trivial) _ _ payload ⟨_, written⟩
  exact ⟨offset, payload, decoded, cut, inner⟩

end Written

section Placement

variable {proto}

section Fields

theorem relayArms_msg (tag : UInt8) (offset : Nat) (fields final : RelayFields Id Address)
    (bytes : Bytes) (taken : Nat)
    (now : relayArms proto tag offset fields bytes = .ok (final, taken)) :
    tag ≠ merge .lengthDelimited 2 ∧ final.msg = fields.msg ∨
      tag = merge .lengthDelimited 2 ∧ fields.msg = none ∧ ∃ inner payload,
        relayPayload proto bytes.tail = .ok (inner, payload) ∧ final.msg = some payload ∧
        taken = 1 + inner := by
  unfold relayArms at now
  split_ifs at now with isNode isMessage
  · obtain ⟨_, inner, value, _, rfl, _⟩ := once_ok now
    exact Or.inl ⟨isNode ▸ merge_ne _ _ _ _ (by decide), rfl⟩
  · obtain ⟨fresh, inner, payload, cut, rfl, rfl⟩ := once_ok now
    exact Or.inr ⟨isMessage, fresh, inner, payload, cut, rfl, rfl⟩
  · obtain ⟨rfl, _⟩ := pass_ok now
    exact Or.inl ⟨isMessage, rfl⟩

def relayPlaces : List (RelayFields Id Address → Bool) :=
  [RelayFields.nodeSlot.full, RelayFields.msgSlot.full]

theorem relayArms_regular (tag : UInt8) : Regular relayPlaces {} (relayArms proto tag) := by
  unfold relayArms
  refine regular_ite (regular_once rfl fun _ _ => ⟨fun _ => rfl, id⟩) ?_
  refine regular_ite (regular_once rfl fun _ _ => ⟨id, fun _ => rfl⟩) ?_
  exact regular_pass

theorem relay_message (fuel offset stop : Nat) (fields final : RelayFields Id Address)
    (bytes : Bytes)
    (replayed : replay (fieldTurn (relayArms proto)) fuel (offset, fields) bytes =
      some (.ok (stop, final))) :
    final.msg = fields.msg ∧
        (∀ field ∈ (cut (relayArms proto) {} fuel offset bytes).fields,
          field.1 ≠ merge .lengthDelimited 2) ∨
      fields.msg = none ∧ ∃ before message behind,
        (cut (relayArms proto) {} fuel offset bytes).fields =
          before ++ (merge .lengthDelimited 2, message) :: behind ∧
        (∀ field ∈ before ++ behind, field.1 ≠ merge .lengthDelimited 2) ∧
        final.msg = some message := by
  induction fuel generalizing offset fields bytes with
  | zero => cases replayed
  | succ fuel ih =>
    cases bytes with
    | nil =>
      cases replayed
      exact Or.inl ⟨rfl, List.forall_mem_nil _⟩
    | cons tag rest =>
      obtain ⟨next, taken, now, behind⟩ := replay_field replayed
      have later := ih _ _ _ behind
      rw [cut_field (fun tag => (relayArms_regular tag).uniform) _ _ _ _ _ _ _ now]
      rcases relayArms_msg tag _ _ _ _ _ now with
        ⟨other, kept⟩ | ⟨rfl, fresh, inner, payload, read, stored, rfl⟩
      · rw [kept] at later
        rcases later with ⟨held, none⟩ | ⟨fresh, before, message, behind, parts, none, held⟩
        · exact Or.inl ⟨held, List.forall_mem_cons.mpr ⟨other, none⟩⟩
        · refine Or.inr ⟨fresh, (tag, rest.take (taken - 1)) :: before, message, behind, ?_,
            List.forall_mem_cons.mpr ⟨other, none⟩, held⟩
          rw [parts, List.cons_append]
      · obtain ⟨_, _, rfl⟩ := relayPayload_cuts _ inner payload read
        rw [stored] at later
        rcases later with ⟨held, none⟩ | ⟨full, _⟩
        · refine Or.inr ⟨fresh, [], _, _, rfl, none, ?_⟩
          rw [held, Nat.add_sub_cancel_left]
          rfl
        · cases full

variable (total : FrameTotal proto) (nodes : TotalNode proto.nodeData)

include total nodes

theorem decodeRelay_fields (body : Bytes) (readed : Nat) (target : NodeRef Id Address)
    (payload : Bytes) (decoded : decodeRelay proto body = .ok (readed, target, payload)) :
    readed = body.length ∧ spelled (fieldsIn (relayArms proto) {} body) = body ∧
      (payload = [] ∧ (∀ field ∈ fieldsIn (relayArms proto) {} body,
          field.1 ≠ merge .lengthDelimited 2) ∨
        ∃ before behind, fieldsIn (relayArms proto) {} body =
            before ++ (merge .lengthDelimited 2, payload) :: behind ∧
          ∀ field ∈ before ++ behind, field.1 ≠ merge .lengthDelimited 2) := by
  obtain ⟨⟨offset, fields⟩, scanned, rest⟩ := bind_ok decoded
  obtain ⟨found, _, equal⟩ := bind_ok rest
  cases equal
  have steady := relayArms_steady total nodes
  obtain ⟨length, _⟩ := scan_takes steady {} ⟨settledNode_none, le_rfl⟩ body readed fields scanned
  have replayed := replay_of_scan scanned
  have whole := spelled_cut (fun tag => (relayArms_regular tag).uniform)
    (fun tag _ _ _ _ _ now => ((steady tag).takes _ _ _ _ _ (List.cons_ne_nil _ _) now).1)
    _ 0 {} body _ _ replayed
  obtain held | ⟨_, before, message, behind, parts, others, held⟩ :=
    relay_message _ 0 _ {} _ body replayed
  · refine ⟨length, whole, Or.inl ⟨?_, held.2⟩⟩
    rw [held.1]
    rfl
  · refine ⟨length, whole, Or.inr ⟨before, behind, ?_, others⟩⟩
    rw [held]
    exact parts

end Fields

variable [DecidableEq Id]

theorem messageArms_other (tag : UInt8) (notRelay : tag ≠ merge .lengthDelimited 8) (offset : Nat)
    (state final : Option (MessageRef Id Address)) (bytes : Bytes) (taken : Nat)
    (now : messageArms proto tag offset state bytes = .ok (final, taken)) :
    (∃ ref, final = some ref ∧ ref.ty ≠ .relay) ∨
      final = state ∧ proto.skip "Message" bytes = .ok taken := by
  have apart {Found : Type} {number : UInt8} {decode : Read DecodeError Found}
      {wrap : Found → MessageRef Id Address} (other : ∀ found, (wrap found).ty ≠ .relay)
      (now : messageArm proto number decode wrap offset state bytes = .ok (final, taken)) :
      ∃ ref, final = some ref ∧ ref.ty ≠ .relay := by
    obtain ⟨_, inner, value, reads, rfl, _⟩ := once_ok now
    obtain ⟨⟨_, found⟩, _, equal⟩ := map_ok reads
    cases equal
    exact ⟨wrap found, rfl, other found⟩
  rw [messageArms, if_neg notRelay] at now
  split_ifs at now
  all_goals first
    | exact Or.inl (apart (fun _ => MessageType.noConfusion) now)
    | exact Or.inr (pass_ok now)

variable (total : FrameTotal proto) (nodes : TotalNode proto.nodeData)

include total nodes

omit [DecidableEq Id] in
theorem relayArm_ok (offset : Nat) (state final : Option (MessageRef Id Address)) (body : Bytes)
    (taken : Nat)
    (now : relayArm proto offset state (merge .lengthDelimited 8 :: body) = .ok (final, taken)) :
    ∃ target payload, decodeRelay proto body = .ok (body.length, target, payload) ∧
      taken = 1 + body.length ∧ payload.length ≤ offset + (1 + body.length) ∧
      final = some (.relay target (offset + (1 + body.length) - payload.length) payload) := by
  obtain ⟨⟨readed, target, payload⟩, decoded, stored⟩ := bind_ok now
  obtain ⟨rfl, _⟩ := decodeRelay_fields total nodes body readed target payload decoded
  dsimp only at stored
  split at stored
  · cases stored
  · cases stored
    exact ⟨target, payload, decoded, rfl, by omega, rfl⟩

theorem message_fields (fuel offset last : Nat) (bytes : Bytes) (target : NodeRef Id Address)
    (start : Nat) (payload : Bytes)
    (replayed : replay (fieldTurn (messageArms proto)) fuel (offset, none) bytes =
      some (.ok (last, some (.relay target start payload)))) :
    ∃ passed body,
      (cut (messageArms proto) none fuel offset bytes).fields =
        passed ++ [(merge .lengthDelimited 8, body)] ∧
      (∀ field ∈ passed, field.1 ≠ merge .lengthDelimited 8) ∧
      spelled passed ++ merge .lengthDelimited 8 :: body = bytes ∧
      decodeRelay proto body = .ok (body.length, target, payload) ∧
      start + payload.length = offset + bytes.length := by
  induction fuel generalizing offset bytes with
  | zero => cases replayed
  | succ fuel ih =>
    cases bytes with
    | nil => cases replayed
    | cons tag rest =>
      obtain ⟨next, taken, now, later⟩ := replay_field replayed
      simp only [cut, now]
      by_cases isRelay : tag = merge .lengthDelimited 8
      · subst isRelay
        obtain ⟨found, inner, decoded, rfl, most, rfl⟩ := relayArm_ok total nodes offset
          none next rest taken (unlessHeld_ok (show unlessHeld messageSlot
            (.duplicateField "Message" "value" 8) (relayArm proto) offset none _ = _
            from now)).2
        cases message_held proto later
        have whole : (merge .lengthDelimited 8 :: rest).drop (1 + rest.length) = [] :=
          List.drop_of_length_le (by rw [List.length_cons]; omega)
        refine ⟨[], rest, ?_, List.forall_mem_nil _, rfl, decoded, ?_⟩
        · rw [whole, Nat.add_sub_cancel_left, List.take_length]
          cases fuel <;> rfl
        · rw [List.length_cons]
          omega
      · rcases messageArms_other tag isRelay offset none next _ taken now with
          ⟨ref, rfl, other⟩ | ⟨rfl, skipped⟩
        · cases message_held proto later
          exact absurd rfl other
        · obtain ⟨least, most⟩ := (total.skip _).takes _ _ (List.cons_ne_nil tag rest) skipped
          obtain ⟨less, rfl⟩ : ∃ less, taken = less + 1 := ⟨taken - 1, by omega⟩
          obtain ⟨passed, body, parts, others, whole, decoded, counted⟩ := ih _ _ later
          rw [List.drop_succ_cons] at whole counted parts ⊢
          refine ⟨(tag, rest.take less) :: passed, body, ?_,
            List.forall_mem_cons.mpr ⟨isRelay, others⟩, ?_, decoded, ?_⟩
          · rw [parts, Nat.add_sub_cancel, List.cons_append]
          · change tag :: (rest.take less ++ spelled passed) ++ _ = _
            rw [List.cons_append, List.append_assoc, whole, List.take_append_drop]
          · rw [List.length_drop] at counted
            rw [List.length_cons] at most ⊢
            omega

omit total nodes in
variable (proto) in
/-- The message of the relay is its last field, or the fields behind it are bytes of which the
message is a tail if they are written over and over. -/
def InOrder (buffer : Bytes) : Prop :=
  ∀ body, (merge .lengthDelimited 8, body) ∈ fieldsIn (messageArms proto) none buffer →
    ∀ before message behind, fieldsIn (relayArms proto) {} body =
        before ++ (merge .lengthDelimited 2, message) :: behind →
      behind = [] ∨ Trails message (spelled behind)

theorem decodeMessage_fields (buffer : Bytes) (target : NodeRef Id Address) (offset : Nat)
    (payload : Bytes) (decoded : decodeMessage proto buffer = .ok (.relay target offset payload)) :
    ∃ front body, buffer = front ++ body ∧
      (∀ other, (merge .lengthDelimited 8, other) ∈ fieldsIn (messageArms proto) none buffer ↔
        other = body) ∧
      decodeRelay proto body = .ok (body.length, target, payload) ∧
      offset + payload.length = buffer.length := by
  obtain ⟨⟨last, msg⟩, scanned, needed⟩ := bind_ok decoded
  cases msg with
  | none => cases needed
  | some ref =>
    cases needed
    obtain ⟨passed, body, parts, others, rfl, relayed, counted⟩ := message_fields total nodes _ 0
      last buffer target offset payload (replay_of_scan scanned)
    rw [Nat.zero_add] at counted
    refine ⟨spelled passed ++ [merge .lengthDelimited 8], body, ?_, ?_, relayed, counted⟩
    · rw [List.append_assoc, List.singleton_append]
    · intro other
      rw [fieldsIn, parts, List.mem_append, List.mem_singleton, Prod.mk.injEq]
      constructor
      · rintro (early | same)
        · exact absurd rfl (others _ early)
        · exact same.2
      · intro same
        exact Or.inr ⟨rfl, same⟩

theorem decodeMessage_relay (buffer : Bytes) (target : NodeRef Id Address) (offset : Nat)
    (payload : Bytes) (decoded : decodeMessage proto buffer = .ok (.relay target offset payload)) :
    offset + payload.length = buffer.length ∧ (payload <:+ buffer ↔ InOrder proto buffer) := by
  obtain ⟨front, body, rfl, only, relayed, counted⟩ := decodeMessage_fields total nodes buffer
    target offset payload decoded
  refine ⟨counted, ?_⟩
  have ordered : InOrder proto (front ++ body) ↔ ∀ before message behind,
      fieldsIn (relayArms proto) {} body =
        before ++ (merge .lengthDelimited 2, message) :: behind →
      behind = [] ∨ Trails message (spelled behind) := by
    simp only [InOrder, only, forall_eq]
  obtain ⟨_, whole, none | ⟨before, behind, fields, apart⟩⟩ := decodeRelay_fields total nodes body
    _ target payload relayed
  · rw [none.1, ordered]
    refine iff_of_true List.nil_suffix ?_
    intro before message behind fields
    refine absurd rfl (none.2 (merge .lengthDelimited 2, message) ?_)
    rw [fields]
    exact List.mem_append_right _ List.mem_cons_self
  · have place : front ++ body = (front ++ spelled before ++ [merge .lengthDelimited 2]) ++
        (payload ++ spelled behind) := by
      rw [← whole, fields, spelled_append]
      simp [spelled]
    rw [ordered, place, suffix_behind, suffix_append_iff, spelled_eq_nil_iff, fields]
    constructor
    · intro placed first message later split
      -- The message is the only field of its tag.
      obtain ⟨rfl, same, rfl⟩ := (List.append_cons_inj_of_notMem
        (fun early => apart _ (List.mem_append_left _ early) rfl)
        (fun late => apart _ (List.mem_append_right _ late) rfl)).mp split
      cases same
      exact placed
    · intro ordered
      exact ordered before payload behind rfl

end Placement

end Serf.Wire
