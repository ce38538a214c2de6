import Serf.QueryAnswers

/-!
Where relayed answers end up. A relay message is forwarded to the node it names. For an
acknowledgement that is the node which the query came from. For a response it is the
node which the response comes from, and that is the responder: the peers send it back
to the responder, unless the responder answers a query of its own. A peer that owns its
buffer cuts the payload out at its offset, which is right only where no field stands
behind the message; one that borrowed it sends the payload that was decoded.
-/

namespace Serf.RelayDestination

open Library.Collections Library.Encoding Library.Machine QueryHandler QueryAnswers Wire

variable {Id Address : Type} [DecidableEq Id]

/-- The relay message names the node, and a peer that gets it, borrowed or owned, sends
to the address of that node the response that is wrapped in it. -/
structure Carries (proto : Proto Id Address) (node : Node Id Address)
    (response : QueryResponseMessage Id Address) (raw : Bytes) : Prop where
  names : ∃ offset payload, decodeMessage proto raw = .ok (.relay (borrowNode node) offset payload)
  forwards : ∃ payload, (∀ isOwned, forwardRelay proto isOwned raw = some (node.address, payload)) ∧
    decodeMessage proto payload = .ok (.queryResponse (.ok response))

structure AnswerTo (responder : Node Id Address) (event : QueryEvent Id Address)
    (response : QueryResponseMessage Id Address) : Prop where
  ltime : response.ltime = event.ltime
  id : response.id = event.id
  fromNode : response.fromNode = responder

/-- The relay message brings an answer back to where the query came from. -/
def Returned (responder : Responder Id Address) (event : QueryEvent Id Address)
    (relay : Relayed Id Address) : Prop :=
  ∃ response, AnswerTo responder.env.advertiseNode event response ∧
    Carries responder.proto event.fromNode response relay.raw

section Relaying

variable (responder : Responder Id Address)

theorem relayResponse_raw (moment : Moment Id Address) (relayFactor : UInt8)
    (node : Node Id Address) (resp : QueryResponseMessage Id Address)
    (relays : List (Relayed Id Address))
    (done : relayResponse responder moment relayFactor node resp = .ok relays) :
    ∀ relay ∈ relays, encodeRelayMessageToBytes responder.proto
      ((Message.queryResponse resp).encodable responder.proto) node = .ok relay.raw := by
  intro relay member
  unfold relayResponse at done
  split at done
  · cases done
    cases member
  · split at done
    · cases done
      cases member
    · dsimp only at done
      split at done
      · cases done
        cases member
      · split at done
        · cases done
        · split at done
          · cases done
          · rename_i raw encoded
            cases done
            obtain ⟨peer, _, rfl⟩ := List.mem_map.mp member
            exact encoded

variable (laws : QueryLaws responder.proto)
  (nodeWire : responder.proto.node.wireType = .lengthDelimited)

include laws nodeWire

theorem encoded_carries (node : Node Id Address) (resp : QueryResponseMessage Id Address)
    (raw : Bytes) (encoded : encodeRelayMessageToBytes responder.proto
      ((Message.queryResponse resp).encodable responder.proto) node = .ok raw) :
    Carries responder.proto node resp raw := by
  obtain ⟨offset, payload, decoded, cut, inner⟩ := queryResponse_relayed node laws nodeWire resp raw
    encoded
  have present : raw.isEmpty = false := by
    cases raw with
    | nil => cases decoded
    | cons byte rest => rfl
  refine ⟨⟨offset, payload, decoded⟩, payload, ?_, inner⟩
  intro isOwned
  simp only [forwardRelay, present, decoded, cut, List.take_length, ite_self]
  rfl

end Relaying

section Forwarding

variable {proto : Proto Id Address} (total : FrameTotal proto) (nodes : TotalNode proto.nodeData)
  (buffer : Bytes) (target : NodeRef Id Address) (offset : Nat) (payload : Bytes)
  (decoded : decodeMessage proto buffer = .ok (.relay target offset payload))

theorem cut_iff (counted : offset + payload.length = buffer.length) :
    (buffer.drop offset).take payload.length = payload ↔ payload <:+ buffer := by
  have whole : (buffer.drop offset).take payload.length = buffer.drop offset := by
    apply List.take_of_length_le
    rw [List.length_drop]
    omega
  rw [whole, List.suffix_iff_eq_drop, eq_comm]
  have start : buffer.length - payload.length = offset := by omega
  rw [start]

include total nodes decoded

/-- The offset of a payload is counted back from the end of the buffer, so the cut at the
offset is the payload, and both branches forward the same bytes, exactly if the fields are in
order. -/
theorem forwarding_agrees_iff :
    offset + payload.length = buffer.length ∧
    ((buffer.drop offset).take payload.length = payload ↔ InOrder proto buffer) ∧
    ∀ address, target.address = .ok address →
      (forwardRelay proto true buffer = forwardRelay proto false buffer ↔
        InOrder proto buffer) := by
  obtain ⟨counted, ordered⟩ := decodeMessage_relay total nodes buffer target offset payload decoded
  have cut := (cut_iff buffer offset payload counted).trans ordered
  refine ⟨counted, cut, ?_⟩
  intro address converts
  have present : buffer.isEmpty = false := by
    cases buffer with
    | nil => cases decoded
    | cons byte rest => rfl
  rw [← cut]
  simp [forwardRelay, present, decoded, converts]

omit total nodes decoded in
theorem forwarding_agrees_written :
    InOrder reference [24, 17, 4, 1, 1, 2, 2, 18, 25, 0] ∧
      forwardRelay reference true [24, 17, 4, 1, 1, 2, 2, 18, 25, 0] = some (2, [25, 0]) ∧
      forwardRelay reference true [24, 17, 4, 1, 1, 2, 2, 18, 25, 0] =
        forwardRelay reference false [24, 17, 4, 1, 1, 2, 2, 18, 25, 0] := by
  have ordered : InOrder reference [24, 17, 4, 1, 1, 2, 2, 18, 25, 0] := by
    have relay : Library.Fields.fieldsIn (messageArms reference) none
      [24, 17, 4, 1, 1, 2, 2, 18, 25, 0] = [(24, [17, 4, 1, 1, 2, 2, 18, 25, 0])] := rfl
    have parts : Library.Fields.fieldsIn (relayArms reference) {} [17, 4, 1, 1, 2, 2, 18, 25, 0] =
      [(17, [4, 1, 1, 2, 2]), (18, [25, 0])] := rfl
    intro body inside before message behind fields
    rw [relay, List.mem_singleton] at inside
    cases inside
    rw [parts] at fields
    obtain _ | ⟨first, _ | ⟨second, rest⟩⟩ := before
    · cases fields
    · cases fields
      exact .inl rfl
    · simp at fields
  have agrees := (forwarding_agrees_iff reference_total.toFrameTotal reference_total.node
    [24, 17, 4, 1, 1, 2, 2, 18, 25, 0] (borrowNode ⟨1, 2⟩) 8 [25, 0] rfl).2.2
  exact ⟨ordered, rfl, (agrees 2 rfl).mpr ordered⟩

omit total nodes decoded in
/-- With the node behind the message an owned buffer is cut inside the node, and with an
unknown field behind it, inside that field. -/
theorem payload_missed :
    decodeMessage reference [24, 18, 25, 0, 17, 4, 1, 1, 2, 2] =
        .ok (.relay (borrowNode ⟨1, 2⟩) 8 [25, 0]) ∧
      forwardRelay reference false [24, 18, 25, 0, 17, 4, 1, 1, 2, 2] = some (2, [25, 0]) ∧
      forwardRelay reference true [24, 18, 25, 0, 17, 4, 1, 1, 2, 2] = some (2, [2, 2]) ∧
      forwardRelay reference false [24, 17, 4, 1, 1, 2, 2, 18, 25, 0, 7, 9] =
        some (2, [25, 0]) ∧
      forwardRelay reference true [24, 17, 4, 1, 1, 2, 2, 18, 25, 0, 7, 9] = some (2, [7, 9]) :=
  ⟨rfl, rfl, rfl, rfl, rfl⟩

end Forwarding

section Answering

variable (responder : Responder Id Address) (event : QueryEvent Id Address)

def OwnRelay (relay : Relayed Id Address) : Prop :=
  ∃ response, AnswerTo responder.env.advertiseNode event response ∧
    encodeRelayMessageToBytes responder.proto
      ((Message.queryResponse response).encodable responder.proto) responder.env.advertiseNode =
        .ok relay.raw

theorem respondWithMessageAndResponse_own (respondTo : Address) (raw buf : Bytes)
    (moment : Moment Id Address) (span : Option Epoch) :
    ∀ relay ∈ (respondWithMessageAndResponse responder event.queryTimeout respondTo
      event.relayFactor raw (createResponse responder event buf) moment span).2.relays,
      OwnRelay responder event relay := by
  intro relay member
  unfold respondWithMessageAndResponse at member
  split at member
  · cases member
  · split at member
    · cases member
    · split at member
      · cases member
      · split at member
        · cases member
        · split at member
          · cases member
          · rename_i relays done
            exact ⟨_, ⟨rfl, rfl, rfl⟩, relayResponse_raw responder moment _ _ _ relays done relay
              member⟩

theorem respond_own (msg : Bytes) (moment : Moment Id Address) (span : Option Epoch) :
    ∀ relay ∈ (respond responder event msg moment span).2.relays,
      OwnRelay responder event relay := by
  intro relay member
  unfold respond at member
  dsimp only at member
  split at member
  · cases member
  · exact respondWithMessageAndResponse_own responder event _ _ msg moment span relay member

theorem handleConflict_own (conflict : Id) (known : Table Id (MemberState Id Address))
    (moment : Moment Id Address) (span : Option Epoch) :
    ∀ relay ∈ (handleConflict responder conflict known event moment span).2.relays,
      OwnRelay responder event relay := by
  intro relay member
  unfold handleConflict at member
  split at member
  · cases member
  · split at member
    · exact respond_own responder event [] moment span relay member
    · dsimp only at member
      split at member
      · cases member
      · exact respond_own responder event _ moment span relay member

theorem fitKeyList_some_iff (resp : KeyResponseMessage) (raw : Bytes)
    (qresp : QueryResponseMessage Id Address) :
    fitKeyList responder event resp = .ok (some (raw, qresp)) ↔
      ∃ kraw, encodeMessageToBytes responder.proto
          ((Message.keyResponse resp : Message Id Address).encodable responder.proto) = .ok kraw ∧
        qresp = createResponse responder event kraw ∧
        encodedMessageLen responder.proto
          ((Message.queryResponse qresp).encodable responder.proto) ≤
            responder.queryResponseSizeLimit ∧
        encodeMessageToBytes responder.proto
          ((Message.queryResponse qresp).encodable responder.proto) = .ok raw := by
  unfold fitKeyList
  dsimp only
  cases encodeMessageToBytes responder.proto
      ((Message.keyResponse resp : Message Id Address).encodable responder.proto) with
  | error reason => simp
  | ok kraw =>
    dsimp only
    rw [checkResponseSize]
    by_cases large : responder.queryResponseSizeLimit < encodedMessageLen responder.proto
        ((Message.queryResponse (createResponse responder event kraw)).encodable responder.proto)
    · rw [if_pos large]
      simp only [Except.ok.injEq, reduceCtorEq, false_iff, not_exists, not_and]
      rintro other rfl rfl small
      omega
    · rw [if_neg large]
      cases encoded : encodeMessageToBytes responder.proto
          ((Message.queryResponse (createResponse responder event kraw)).encodable
            responder.proto) with
      | error reason =>
        simp only [Except.ok.injEq, reduceCtorEq, false_iff, not_exists, not_and]
        rintro other rfl rfl _
        rw [encoded]
        simp
      | ok bytes =>
        simp only [Except.ok.injEq, Option.some.injEq, Prod.mk.injEq, exists_eq_left']
        constructor
        · rintro ⟨rfl, rfl⟩
          exact ⟨rfl, by omega, encoded⟩
        · rintro ⟨rfl, _, again⟩
          rw [encoded] at again
          cases again
          exact ⟨rfl, rfl⟩

theorem keyListLoop_made (actual i : Nat) (resp : KeyResponseMessage) (raw : Bytes)
    (qresp : QueryResponseMessage Id Address)
    (done : keyListLoop responder event actual i resp = .ok (raw, qresp)) :
    ∃ buf, qresp = createResponse responder event buf := by
  induction i generalizing resp with
  | zero =>
    unfold keyListLoop at done
    split at done
    · cases done
    · rename_i made fits
      cases done
      obtain ⟨buf, _, created, _⟩ := (fitKeyList_some_iff responder event resp raw qresp).mp fits
      exact ⟨buf, created⟩
    · cases done
  | succ i ih =>
    unfold keyListLoop at done
    split at done
    · cases done
    · rename_i made fits
      cases done
      obtain ⟨buf, _, created, _⟩ := (fitKeyList_some_iff responder event resp raw qresp).mp fits
      exact ⟨buf, created⟩
    · exact ih _ done

theorem sendKeyResponse_own (resp : KeyResponseMessage) (moment : Moment Id Address)
    (span : Option Epoch) :
    ∀ relay ∈ (sendKeyResponse responder event resp moment span).2.relays,
      OwnRelay responder event relay := by
  intro relay member
  unfold sendKeyResponse at member
  split at member
  · split at member
    · cases member
    · rename_i raw qresp done
      obtain ⟨buf, rfl⟩ := keyListLoop_made responder event _ _ resp raw qresp done
      exact respondWithMessageAndResponse_own responder event _ raw buf moment span relay member
  · dsimp only at member
    split at member
    · cases member
    · exact respond_own responder event _ moment span relay member

theorem answer_own (span : Option Epoch) (call : Answer Id Address × Moment Id Address) :
    ∀ relay ∈ (answer responder event span call).2.relays, OwnRelay responder event relay := by
  rcases call with ⟨call, moment⟩
  cases call with
  | respond msg => exact respond_own responder event msg moment span
  | conflict id known => exact handleConflict_own responder event id known moment span
  | key resp => exact sendKeyResponse_own responder event resp moment span

end Answering

section Outcomes

variable (responder : Responder Id Address) (ty : Option (InternalQueryEvent Id))
  (q : QueryInput Id Address) (event : QueryEvent Id Address) (received : q.event = .ok event)
  (state : QueryState)

include received

theorem handleQuery_passes :
    ((handleQuery responder.env ty q state).ack = none ∨
      (handleQuery responder.env ty q state).ack = makeAck responder.env q event) ∧
    ∀ sent ∈ (handleQuery responder.env ty q state).sent, eventOf sent = some event := by
  unfold handleQuery
  dsimp only
  split
  · exact ⟨Or.inl rfl, by simp⟩
  · exact ⟨Or.inl rfl, by simp⟩
  · unfold processQuery
    dsimp only
    split
    · exact ⟨Or.inl rfl, by simp⟩
    · exact ⟨Or.inl rfl, by simp⟩
    · rw [received]
      refine ⟨Or.inr rfl, ?_⟩
      cases ty <;> simp [eventOf]

omit [DecidableEq Id] in
theorem event_names : event.ltime = q.ltime ∧ event.id = q.id := by
  cases q with
  | left q =>
    cases sender : q.fromNode with
    | error reason => simp [QueryInput.event, sender] at received
    | ok node =>
      simp only [QueryInput.event, sender, Except.ok.injEq] at received
      subst event
      exact ⟨rfl, rfl⟩
  | right q =>
    cases received
    exact ⟨rfl, rfl⟩

omit [DecidableEq Id] in
theorem makeAck_made (ack : Ack Id Address) (made : makeAck responder.env q event = some ack) :
    ack.destination = event.fromNode ∧
      AnswerTo responder.env.advertiseNode event ack.response := by
  obtain ⟨ltime, id⟩ := event_names q event received
  unfold makeAck at made
  split at made
  · dsimp only at made
    split at made
    · cases made
      exact ⟨rfl, ltime.symm, id.symm, rfl⟩
    · cases made
  · cases made

variable (laws : QueryLaws responder.proto)
  (nodeWire : responder.proto.node.wireType = .lengthDelimited)

include laws nodeWire

theorem ackRelays_returned (moment : Moment Id Address) :
    ∀ relay ∈ ackRelays responder (handleQuery responder.env ty q state) moment,
      Returned responder event relay := by
  intro relay member
  unfold ackRelays at member
  split at member
  · cases member
  · rename_i ack there
    split at member
    · cases member
    · rename_i relays done
      rcases (handleQuery_passes responder ty q event received state).1 with missing | made
      · rw [missing] at there
        cases there
      · rw [made] at there
        obtain ⟨destination, answers⟩ := makeAck_made responder q event received ack there
        have encoded := relayResponse_raw responder moment _ _ _ relays done relay member
        rw [destination] at encoded
        exact ⟨ack.response, answers,
          encoded_carries responder laws nodeWire _ ack.response relay.raw encoded⟩

omit laws nodeWire in
theorem answerRelays_own (start : Epoch) (calls : List (Answer Id Address × Moment Id Address)) :
    ∀ relay ∈ answerRelays responder (handleQuery responder.env ty q state) start calls,
      OwnRelay responder event relay := by
  intro relay member
  obtain ⟨other, inside, member⟩ := List.mem_flatMap.mp member
  obtain ⟨sent, here, found⟩ := List.mem_filterMap.mp inside
  rw [(handleQuery_passes responder ty q event received state).2 sent here] at found
  cases found
  obtain ⟨entry, during, member⟩ := List.mem_flatMap.mp member
  obtain ⟨before, _, _, result⟩ := mem_answers _ _ calls entry during
  rw [result] at member
  exact answer_own responder event _ entry.1 relay member

omit received in
theorem own_returned_iff (relay : Relayed Id Address) (own : OwnRelay responder event relay) :
    Returned responder event relay ↔ responder.env.advertiseNode = event.fromNode := by
  obtain ⟨response, answers, encoded⟩ := own
  have carries := encoded_carries responder laws nodeWire _ response relay.raw encoded
  constructor
  · rintro ⟨_, _, other⟩
    obtain ⟨_, _, first⟩ := carries.names
    obtain ⟨_, _, second⟩ := other.names
    rw [first] at second
    simp only [Except.ok.injEq, MessageRef.relay.injEq] at second
    exact borrowNode_injective second.1
  · intro same
    rw [same] at carries
    exact ⟨response, answers, carries⟩

/-- A relay message of an acknowledgement brings it back to the node which the query came
from. One of a response does so exactly if the responder is itself that node. -/
theorem relays_return_iff (ackMoment : Moment Id Address) (start : Epoch)
    (calls : List (Answer Id Address × Moment Id Address)) :
    (∀ relay ∈ ackRelays responder (handleQuery responder.env ty q state) ackMoment,
      Returned responder event relay) ∧
    ∀ relay ∈ answerRelays responder (handleQuery responder.env ty q state) start calls,
      (Returned responder event relay ↔ responder.env.advertiseNode = event.fromNode) := by
  refine ⟨ackRelays_returned responder ty q event received state laws nodeWire ackMoment, ?_⟩
  intro relay member
  exact own_returned_iff responder event laws nodeWire relay
    (answerRelays_own responder ty q event received state start calls relay member)

end Outcomes

section Cluster

def clusterNode (id address : UInt8) : Node UInt8 UInt8 := ⟨id, address⟩

/-- The node 2 of a cluster of three, with room for its relay messages. -/
def second : Responder UInt8 UInt8 where
  env :=
    { advertiseNode := clusterNode 2 20
      tags := ∅
      regexNew := fun pattern => (reference.regexNew pattern).toOption
      encodeResponse := fun resp => (encodeMessageToBytes reference
        ((Message.queryResponse resp).encodable reference)).mapError fun _ => "not encodable"
      querySizeLimit := 1024
      encodedMessageLen := fun q =>
        encodedMessageLen reference ((Message.query q).encodable reference)
      encodeMessageToBytes := fun q => (encodeMessageToBytes reference
        ((Message.query q).encodable reference)).mapError fun _ => "not encodable" }
  proto := reference
  queryResponseSizeLimit := 1024

def aliveMember (id address : UInt8) : MemberState UInt8 UInt8 :=
  ⟨⟨clusterNode id address, ∅, .alive, .v1, .v1, .v1, .v1⟩, 1, none⟩

def quietMoment : Moment UInt8 UInt8 where
  now := 0
  reaches := true
  states := ((∅ : Table UInt8 (MemberState UInt8 UInt8)).insert 2 (aliveMember 2 20)).insert 3
    (aliveMember 3 30)
  draws _ := 0

def relayedQuery (sender : Node UInt8 UInt8) : QueryMessage UInt8 UInt8 :=
  ⟨1, 7, sender, [], .ACK, 1, 5, "uptime", []⟩

def freshQueries : QueryState := ⟨0, ∅, 0, Library.Slots.vacant 4 (by decide)⟩

def relayedEvent (sender : Node UInt8 UInt8) : QueryEvent UInt8 UInt8 :=
  ⟨1, "uptime", [], 5, 7, sender, 1⟩

def received (sender : Node UInt8 UInt8) : QueryOutcome UInt8 UInt8 :=
  handleQuery second.env none (.right (relayedQuery sender)) freshQueries

def responseRelays (sender : Node UInt8 UInt8) : List (Relayed UInt8 UInt8) :=
  answerRelays second (received sender) 0 [(.respond [9], quietMoment)]

theorem own_relays_return :
    (ackRelays second (received (clusterNode 2 20)) quietMoment).length = 1 ∧
      (∀ relay ∈ ackRelays second (received (clusterNode 2 20)) quietMoment,
        Returned second (relayedEvent (clusterNode 2 20)) relay) ∧
      (responseRelays (clusterNode 2 20)).length = 1 ∧
      ∀ relay ∈ responseRelays (clusterNode 2 20),
        Returned second (relayedEvent (clusterNode 2 20)) relay := by
  obtain ⟨acks, responses⟩ := relays_return_iff second none
    (.right (relayedQuery (clusterNode 2 20))) (relayedEvent (clusterNode 2 20)) rfl freshQueries
    reference_laws.toQueryLaws rfl quietMoment 0 [(.respond [9], quietMoment)]
  exact ⟨by decide +kernel, acks, by decide +kernel, fun relay member =>
    (responses relay member).mpr rfl⟩

theorem responseRelays_forwarded :
    (responseRelays (clusterNode 1 10)).map
      (fun relay => (forwardRelay reference false relay.raw).map Prod.fst) = [some 20] := by
  decide +kernel

theorem response_comes_back :
    ∃ relay ∈ responseRelays (clusterNode 1 10),
      (∃ payload, forwardRelay reference false relay.raw = some (20, payload)) ∧
      ¬ Returned second (relayedEvent (clusterNode 1 10)) relay := by
  obtain ⟨relay, only, forwarded⟩ := List.map_eq_singleton_iff.mp responseRelays_forwarded
  obtain ⟨⟨address, payload⟩, sent, rfl⟩ := Option.map_eq_some_iff.mp forwarded
  refine ⟨relay, by simp [only], ⟨payload, sent⟩, ?_⟩
  rintro ⟨response, _, carries⟩
  obtain ⟨other, forwards, _⟩ := carries.forwards
  have wrong := (forwards false).symm.trans sent
  simp [relayedEvent, clusterNode] at wrong

end Cluster

end Serf.RelayDestination
