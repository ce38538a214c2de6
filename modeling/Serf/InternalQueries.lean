import Serf.QueryAnswers
import Serf.QueryResponses

/-!
Queries that the nodes of a cluster ask each other. They are known by their names; the one
about an id conflict carries the id, the others say no more by their kind. What a node
answers reaches the querying node as a response with the payload that was handed to
`respond`; `handle_query_response` lets one response of each node through.
-/

namespace Serf.InternalQueries

open Library.Collections Library.Encoding Library.Fields QueryAnswers QueryHandler QueryResponses
open Wire

variable {Id Address : Type}

section Names

def internalPing : String := "_serf_ping"

def internalConflict : String := "_serf_conflict"

def internalInstallKey : String := "_serf_install_key"

def internalUseKey : String := "_serf_use_key"

def internalRemoveKey : String := "_serf_remove_key"

def decodeInternalQuery (proto : Proto Id Address) (name : String) (payload : Bytes) :
    Option (Outcome (InternalQueryEvent Id)) :=
  if name = internalPing then some (.ok .ping)
  else if name = internalConflict then
    some ((proto.id.decodeOwned payload).map fun decoded => .conflict decoded.2)
  else if name = internalInstallKey then some (.ok .installKey)
  else if name = internalUseKey then some (.ok .useKey)
  else if name = internalRemoveKey then some (.ok .removeKey)
  else if name = internalListKeys then some (.ok .listKey)
  else none

end Names

section Arrival

variable [DecidableEq Id] {proto : Proto Id Address}

variable (proto) in
def arrival (moment : Moment Id Address) (answered : Answered Id Address) :
    Option (NodeResponse Id Address) :=
  match answered.direct with
  | none => none
  | some (_, raw) =>
    if !moment.reaches then none
    else
      match decodeMessage proto raw with
      | .ok (.queryResponse (.ok resp)) => some ⟨resp.fromNode, resp.payload⟩
      | _ => none

variable {responder : Responder Id Address} {event : QueryEvent Id Address} {msg : Bytes}
  {moment : Moment Id Address} {span : Option Epoch}

theorem respond_direct {sent : Address × Bytes}
    (direct : (respond responder event msg moment span).2.direct = some sent) :
    encodeMessageToBytes responder.proto
      ((Message.queryResponse (createResponse responder event msg)).encodable responder.proto) =
        .ok sent.2 := by
  rw [respond] at direct
  cases encoded : encodeMessageToBytes responder.proto
      ((Message.queryResponse (createResponse responder event msg)).encodable responder.proto) with
  | error reason => simp [encoded, refused] at direct
  | ok raw =>
    simp only [encoded, respondWithMessageAndResponse] at direct
    -- Every exit after the size check and the deadline has sent the same bytes.
    repeat' split at direct
    all_goals simp [refused] at direct
    all_goals rw [← direct]

theorem arrival_respond (laws : QueryLaws proto) (own : responder.proto = proto) :
    arrival proto moment (respond responder event msg moment span).2 =
      if (respond responder event msg moment span).2.direct.isSome ∧ moment.reaches then
        some ⟨responder.env.advertiseNode, msg⟩
      else none := by
  cases direct : (respond responder event msg moment span).2.direct with
  | none => simp [arrival, direct]
  | some sent =>
    have encoded := respond_direct direct
    rw [own] at encoded
    have made := encodeMessageToBytes_makes laws.lengths _ (queryResponse_encodes laws.encoders
      (createResponse responder event msg) trivial (encodeMessageToBytes_small _ _ encoded))
      sent.2 encoded
    obtain ⟨ref, decoded, _, same⟩ := queryResponse_decodes laws _ _ _ _ made
    cases ref with
    | queryResponse back =>
      obtain ⟨_, rfl, rfl⟩ := same
      cases arrives : moment.reaches <;>
        simp [arrival, direct, arrives, decoded, createResponse]
    | _ => exact same.elim

end Arrival

end Serf.InternalQueries
