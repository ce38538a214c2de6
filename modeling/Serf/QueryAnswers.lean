import Serf.Library.Machine
import Serf.Wire.Relay

/-!
The answers of a node to a query it has received. `respond` sends a response to the
querying node and relays it through random members; the internal queries about an id
conflict and about keys go the same way. What the clones of a `QueryEvent` share is
the moment at which it came in, which is taken away once the response is out, so the
calls are the steps of a machine over that moment. The clock, the members, the random
words and the success of the direct send are read from outside at each call. A relay
peer forwards what it gets to the node that the relay message names.
-/

namespace Serf.QueryAnswers

open Library.Collections Library.Encoding Library.Machine QueryHandler Wire

variable {Id Address : Type} [DecidableEq Id]

structure Responder (Id Address : Type) where
  env : QueryEnvironment Id Address
  proto : Proto Id Address
  queryResponseSizeLimit : Nat

inductive RespondError where
  | queryResponseTooLarge (limit got : Nat)
  | queryTimeout
  | queryAlreadyResponsed
  | relayedResponseTooLarge (limit : Nat)
  | failTruncateResponse
  | encode (reason : EncodeError)
  | send

/-- What a call reads from outside. -/
structure Moment (Id Address : Type) where
  now : Epoch
  /-- The direct send succeeds. -/
  reaches : Bool
  states : Table Id (MemberState Id Address)
  draws : Nat → UInt32

structure Relayed (Id Address : Type) where
  peer : Member Id Address
  raw : Bytes

section Relay

/-- The loop of `random_members` at its counter; it ends within `n` turns. -/
def randomLoop {Value : Type} (k n rounds : Nat) (draws : Nat → UInt32) :
    (turns i : Nat) → Array Value → Array Value
  | 0, _, members => members
  | turns + 1, i, members =>
    if i < rounds ∧ i < n then
      let j := (draws i).toNat % (n - i) + i
      let members := members.swapIfInBounds i j
      if k ≤ i + 1 ∧ rounds ≤ i + 1 then members
      else randomLoop k n rounds draws turns (i + 1) members
    else members

def randomMembers {Value : Type} (k : Nat) (draws : Nat → UInt32) (members : Array Value) :
    Array Value :=
  let n := members.size
  if n = 0 then #[]
  else (randomLoop k n (3 * n) draws n 0 members).take k

def relayCandidates (localId : Id) (states : Table Id (MemberState Id Address)) :
    List (Member Id Address) :=
  states.entries.filterMap fun entry =>
    if entry.2.member.status = .alive ∧ entry.1 ≠ localId then some entry.2.member else none

/-- Failed sends to the peers are collected and dropped. -/
def relayResponse (responder : Responder Id Address) (moment : Moment Id Address)
    (relayFactor : UInt8) (node : Node Id Address) (resp : QueryResponseMessage Id Address) :
    Except RespondError (List (Relayed Id Address)) :=
  if relayFactor = 0 then .ok []
  else if moment.states.entries.length < relayFactor.toNat + 1 then .ok []
  else
    let members := relayCandidates responder.env.advertiseNode.id moment.states
    if members.isEmpty then .ok []
    else
      let message := (Message.queryResponse resp).encodable responder.proto
      if responder.queryResponseSizeLimit < encodedRelayMessageLen responder.proto message node then
        .error (.relayedResponseTooLarge responder.queryResponseSizeLimit)
      else
        match encodeRelayMessageToBytes responder.proto message node with
        | .error reason => .error (.encode reason)
        | .ok raw =>
          .ok ((randomMembers relayFactor.toNat moment.draws members.toArray).toList.map
            fun peer => ⟨peer, raw⟩)

/-- The relay branch of `notify_message`: the address to send to and the bytes. An owned
buffer is cut at the offset of the payload, a borrowed one is copied from. -/
def forwardRelay (proto : Proto Id Address) (isOwned : Bool) (buf : Bytes) :
    Option (Address × Bytes) :=
  if buf.isEmpty then none
  else
    match decodeMessage proto buf with
    | .ok (.relay node offset payload) =>
      -- Of the node only the address is converted.
      match node.address with
      | .ok address =>
        some (address, if isOwned then (buf.drop offset).take payload.length else payload)
      | .error _ => none
    | _ => none

end Relay

section Answers

/-- What one call has done. `direct` is what was handed to the network for the querying
node; the internal queries only log what `respond` returned to them. -/
structure Answered (Id Address : Type) where
  direct : Option (Address × Bytes)
  relays : List (Relayed Id Address)
  returned : Except RespondError Unit

variable (responder : Responder Id Address)

def checkResponseSize (size : Nat) : Except RespondError Unit :=
  if responder.queryResponseSizeLimit < size then
    .error (.queryResponseTooLarge responder.queryResponseSizeLimit size)
  else .ok ()

def refused (span : Option Epoch) (reason : RespondError) : Option Epoch × Answered Id Address :=
  (span, ⟨none, [], .error reason⟩)

def respondWithMessageAndResponse (queryTimeout : Duration) (respondTo : Address)
    (relayFactor : UInt8) (raw : Bytes) (resp : QueryResponseMessage Id Address)
    (moment : Moment Id Address) (span : Option Epoch) : Option Epoch × Answered Id Address :=
  match checkResponseSize responder raw.length with
  | .error reason => refused span reason
  | .ok () =>
    match span with
    | none => refused none .queryAlreadyResponsed
    | some start =>
      if queryTimeout < moment.now - start then refused span .queryTimeout
      else if !moment.reaches then (span, ⟨some (respondTo, raw), [], .error .send⟩)
      else
        -- The node given to the relays is the one the response comes from.
        match relayResponse responder moment relayFactor resp.fromNode resp with
        | .error reason => (span, ⟨some (respondTo, raw), [], .error reason⟩)
        | .ok relays => (none, ⟨some (respondTo, raw), relays, .ok ()⟩)

def createResponse (event : QueryEvent Id Address) (buf : Bytes) :
    QueryResponseMessage Id Address :=
  ⟨event.ltime, event.id, responder.env.advertiseNode, 0, buf⟩

def respond (event : QueryEvent Id Address) (msg : Bytes) (moment : Moment Id Address)
    (span : Option Epoch) : Option Epoch × Answered Id Address :=
  let resp := createResponse responder event msg
  let message := (Message.queryResponse resp).encodable responder.proto
  match encodeMessageToBytes responder.proto message with
  | .error reason => refused span (.encode reason)
  | .ok buf =>
    respondWithMessageAndResponse responder event.queryTimeout event.fromNode.address
      event.relayFactor buf resp moment span

/-- `known` is the table when the member is looked up. -/
def handleConflict (conflict : Id) (known : Table Id (MemberState Id Address))
    (event : QueryEvent Id Address) (moment : Moment Id Address) (span : Option Epoch) :
    Option Epoch × Answered Id Address :=
  if conflict = responder.env.advertiseNode.id then (span, ⟨none, [], .ok ()⟩)
  else
    match known.lookup conflict with
    | none => respond responder event [] moment span
    | some state =>
      let message := (Message.conflictResponse ⟨state.member⟩).encodable responder.proto
      match encodeMessageToBytes responder.proto message with
      | .error reason => refused span (.encode reason)
      | .ok raw => respond responder event raw moment span

def minEncodedKeyLength : Nat := 25

def truncatedMessage (i actual : Nat) : String :=
  "truncated key list response, showing first " ++ toString i ++ " of " ++ toString actual ++
    " keys"

/-- One turn of the loop up to the size check; `none` is a response over the limit. -/
def fitKeyList (event : QueryEvent Id Address) (resp : KeyResponseMessage) :
    Except RespondError (Option (Bytes × QueryResponseMessage Id Address)) :=
  let message := (Message.keyResponse resp : Message Id Address).encodable responder.proto
  match encodeMessageToBytes responder.proto message with
  | .error reason => .error (.encode reason)
  | .ok kraw =>
    let qresp := createResponse responder event kraw
    let message := (Message.queryResponse qresp).encodable responder.proto
    match checkResponseSize responder (encodedMessageLen responder.proto message) with
    | .error _ => .ok none
    | .ok () =>
      match encodeMessageToBytes responder.proto message with
      | .error reason => .error (.encode reason)
      | .ok qraw => .ok (some (qraw, qresp))

def keyListLoop (event : QueryEvent Id Address) (actual : Nat) :
    (i : Nat) → KeyResponseMessage →
      Except RespondError (Bytes × QueryResponseMessage Id Address)
  | 0, resp =>
    match fitKeyList responder event resp with
    | .error reason => .error reason
    | .ok (some made) => .ok made
    | .ok none => .error .failTruncateResponse
  | i + 1, resp =>
    match fitKeyList responder event resp with
    | .error reason => .error reason
    | .ok (some made) => .ok made
    | .ok none =>
      keyListLoop event actual i
        { resp with keys := resp.keys.take (i + 1), message := truncatedMessage (i + 1) actual }

def keyListResponseWithCorrectSize (event : QueryEvent Id Address) (resp : KeyResponseMessage) :
    Except RespondError (Bytes × QueryResponseMessage Id Address) :=
  let actual := resp.keys.length
  let maxListKeys := min (responder.queryResponseSizeLimit / minEncodedKeyLength) actual
  keyListLoop responder event actual maxListKeys resp

def internalListKeys : String := "_serf_list_keys"

def sendKeyResponse (event : QueryEvent Id Address) (resp : KeyResponseMessage)
    (moment : Moment Id Address) (span : Option Epoch) : Option Epoch × Answered Id Address :=
  if event.name = internalListKeys then
    match keyListResponseWithCorrectSize responder event resp with
    | .error reason => refused span reason
    | .ok (raw, qresp) =>
      respondWithMessageAndResponse responder event.queryTimeout event.fromNode.address
        event.relayFactor raw qresp moment span
  else
    let message := (Message.keyResponse resp : Message Id Address).encodable responder.proto
    match encodeMessageToBytes responder.proto message with
    | .error reason => refused span (.encode reason)
    | .ok raw => respond responder event raw moment span

/-- The calls that answer a query event. The handlers of the four key queries each end
in one `send_key_response`, with a response of their own. -/
inductive Answer (Id Address : Type) where
  | respond (msg : Bytes)
  | conflict (id : Id) (known : Table Id (MemberState Id Address))
  | key (resp : KeyResponseMessage)

def answer (event : QueryEvent Id Address) (span : Option Epoch)
    (call : Answer Id Address × Moment Id Address) : Option Epoch × Answered Id Address :=
  match call.1 with
  | .respond msg => respond responder event msg call.2 span
  | .conflict id known => handleConflict responder id known event call.2 span
  | .key resp => sendKeyResponse responder event resp call.2 span

def eventOf : CrateEvent Id Address → Option (QueryEvent Id Address)
  | .query event => some event
  | .internalQuery _ event => some event
  | _ => none

/-- All relay messages for the answers to a query that `handle_query` let through;
`start` is the time at which its event was made. -/
def answerRelays (outcome : QueryOutcome Id Address) (start : Epoch)
    (calls : List (Answer Id Address × Moment Id Address)) : List (Relayed Id Address) :=
  (outcome.sent.filterMap eventOf).flatMap fun event =>
    (answers (answer responder event) (some start) calls).flatMap fun entry => entry.2.relays

/-- The relay messages for the acknowledgement; an error is logged. -/
def ackRelays (outcome : QueryOutcome Id Address) (moment : Moment Id Address) :
    List (Relayed Id Address) :=
  match outcome.ack with
  | none => []
  | some ack =>
    match relayResponse responder moment ack.relayFactor ack.destination ack.response with
    | .error _ => []
    | .ok relays => relays

end Answers

end Serf.QueryAnswers
