import Serf.InternalQueries
import Serf.QueryDedup
import Serf.RelayDestination

/-!
An id that two nodes claim. A claimant asks the cluster for the address at which its id is
recorded, and shuts down unless more than half of the records are its own. The query
carries the id; a node answers it with its record of the id, with an empty payload if it
has none, and not at all if the id is its own: the claimants have no vote. What counts are
the answers that come in while the query is open, not the members.
-/

namespace Serf.ConflictVote

open Library.Collections Library.Encoding Library.Fields InternalQueries QueryAnswers
open QueryHandler RelayDestination Wire

variable {Id Address : Type} [DecidableEq Id] [DecidableEq Address]

section Claimant

variable (proto : Proto Id Address)

/-- One turn of the loop over the responses, on the numbers of responses and of matching
ones. `none` is a panic of the decoder. -/
def countResponse (own : Address) (counts : Nat × Nat) (payload : Bytes) : Option (Nat × Nat) :=
  match decodeMessage proto payload with
  | .ok (.conflictResponse resp) =>
    match resp.member.node.address with
    | .ok address => some (counts.1 + 1, if address = own then counts.2 + 1 else counts.2)
    | .error (.error _) => some (counts.1 + 1, counts.2)
    | .error _ => none
  | .ok _ => some counts
  | .error (.error _) => some counts
  | .error _ => none

inductive ConflictError where
  | encode (reason : EncodeError)
  | query (reason : QueryError)

inductive Resolution where
  | failed (reason : ConflictError)
  | stays
  | shutsDown

/-- `query` starts a query of this name and payload, or fails to, and gives the payloads
that come in for it. The result `none` is a panic, of the query or of the decoder. -/
def resolveNodeConflict (own : Node Id Address)
    (query : String → Bytes → Option (Except QueryError (List Bytes))) : Option Resolution :=
  match proto.id.encodeToBytes own.id with
  | .error reason => some (.failed (.encode reason))
  | .ok payload => do
      match ← query internalConflict payload with
      | .error reason => return .failed (.query reason)
      | .ok responses =>
        let (responses, matching) ← responses.foldlM (countResponse proto own.address) (0, 0)
        return if responses / 2 + 1 ≤ matching then .stays else .shutsDown

end Claimant

section Voters

/-- A node that the query has come to: what it knows, and what its answer goes through. Its
records have no status or version that is a named one in disguise. -/
structure Voter (proto : Proto Id Address) where
  responder : Responder Id Address
  own : responder.proto = proto
  known : Table Id (MemberState Id Address)
  canonical : ∀ id state, known.lookup id = some state → Canonical state.member
  event : QueryEvent Id Address
  start : Epoch
  moment : Moment Id Address

variable {proto : Proto Id Address}

def Voter.handle (voter : Voter proto) (conflict : Id) : Answered Id Address :=
  (handleConflict voter.responder conflict voter.known voter.event voter.moment
    (some voter.start)).2

/-- The payload that comes in at the claimant. -/
def Voter.answer (name : String) (payload : Bytes) (voter : Voter proto) : Option Bytes :=
  match decodeInternalQuery proto name payload with
  | some (.ok (.conflict id)) =>
    (arrival proto voter.moment (voter.handle id)).map fun response => response.payload
  | _ => none

def ask (voters : List (Voter proto)) (name : String) (payload : Bytes) : List Bytes :=
  voters.filterMap (Voter.answer name payload)

def Voter.vote (conflict : Id) (voter : Voter proto) : Option Address :=
  if (voter.handle conflict).direct.isSome ∧ voter.moment.reaches then
    (voter.known.lookup conflict).map fun state => state.member.node.address
  else none

def votes (conflict : Id) (voters : List (Voter proto)) : List Address :=
  voters.filterMap (Voter.vote conflict)

omit [DecidableEq Id] [DecidableEq Address] in
theorem conflict_decoded (laws : IdLaws proto) (id : Id) (small : proto.id.encodedLen id ≤ maxLen) :
    ∃ payload, proto.id.encodeToBytes id = .ok payload ∧
      decodeInternalQuery proto internalConflict payload = some (.ok (.conflict id)) := by
  obtain ⟨payload, _, encoded, _, rfl, decoded⟩ := laws.id.encodeToBytes id trivial small
  refine ⟨payload, encoded, ?_⟩
  rw [decodeInternalQuery, if_neg (by decide), if_pos rfl, decoded]
  rfl

theorem countResponse_answer (laws : QueryLaws proto) (members : MemberLaws proto)
    (own : Node Id Address) {name : String} {payload : Bytes}
    (asked : decodeInternalQuery proto name payload = some (.ok (.conflict own.id)))
    (voter : Voter proto) (counts : Nat × Nat) :
    (voter.answer name payload).toList.foldlM (countResponse proto own.address) counts =
      some (counts.1 + (voter.vote own.id).toList.length,
        counts.2 + (voter.vote own.id).toList.count own.address) := by
  simp only [Voter.answer, asked, Voter.vote]
  rw [Voter.handle, handleConflict]
  split
  · simp [arrival]
  · cases known : voter.known.lookup own.id with
    | none =>
      have nothing : decodeMessage proto [] =
        .error (.error (.missingField "Message" "value")) := rfl
      simp only [arrival_respond laws voter.own]
      split <;> simp [countResponse, nothing]
    | some state =>
      simp only [voter.own]
      cases written : encodeMessageToBytes proto
          ((Message.conflictResponse ⟨state.member⟩).encodable proto) with
      | error reason => simp [arrival, refused]
      | ok raw =>
        have made := encodeMessageToBytes_makes laws.lengths _ (conflictResponse_encodes
          members.encoders ⟨state.member⟩ trivial (encodeMessageToBytes_small _ _ written))
          raw written
        obtain ⟨ref, read, borrows⟩ := conflictResponse_decodes members ⟨state.member⟩
          (voter.canonical own.id state known) _ _ _ made
        have address : ref.member.node.address = .ok state.member.node.address :=
          congrArg Node.address borrows.node
        simp only [arrival_respond laws voter.own]
        split
        · by_cases mine : state.member.node.address = own.address <;>
            simp [countResponse, read, address, mine]
        · simp

omit [DecidableEq Id] [DecidableEq Address] in
theorem filterMap_front {Item Value : Type*} (f : Item → Option Value) (item : Item)
    (rest : List Item) : (item :: rest).filterMap f = (f item).toList ++ rest.filterMap f := by
  cases made : f item <;> simp [made]

theorem countResponses (laws : QueryLaws proto) (members : MemberLaws proto) (own : Node Id Address)
    {name : String} {payload : Bytes}
    (asked : decodeInternalQuery proto name payload = some (.ok (.conflict own.id)))
    (voters : List (Voter proto)) (counts : Nat × Nat) :
    (ask voters name payload).foldlM (countResponse proto own.address) counts =
      some (counts.1 + (votes own.id voters).length,
        counts.2 + (votes own.id voters).count own.address) := by
  induction voters generalizing counts with
  | nil => rfl
  | cons voter rest ih =>
    have first := countResponse_answer laws members own asked voter counts
    simp only [ask, votes, filterMap_front, List.foldlM_append, first, List.length_append,
      List.count_append, ← Nat.add_assoc]
    exact ih _

end Voters

section Resolving

variable {proto : Proto Id Address}

/-- A node whose id is claimed by another one too, when it starts its query. What it
encodes is what the wire format says. -/
structure Claimant (proto : Proto Id Address) where
  env : QueryEnvironment Id Address
  lengths : ∀ q, env.encodedMessageLen q =
    encodedMessageLen proto ((Message.query q).encodable proto)
  encodes : ∀ q raw, env.encodeMessageToBytes q = .ok raw ↔
    encodeMessageToBytes proto ((Message.query q).encodable proto) = .ok raw
  queries : QueryState
  slots : Library.Slots.size queries.core.buffer ≠ 0
  defaultTimeout : Duration
  numNodes : Nat
  queryId : UInt32

/-- `internal_query` with the default parameters, and what the voters make of it. -/
def Claimant.internalQuery (claimant : Claimant proto) (voters : List (Voter proto))
    (name : String) (payload : Bytes) : Option (Except QueryError (List Bytes)) :=
  match queryIn claimant.env claimant.defaultTimeout claimant.numNodes claimant.queryId name
      payload none (some (.conflict claimant.env.advertiseNode.id)) claimant.queries with
  | .error reason => some (.error reason)
  | .ok (_, some _) => some (.ok (ask voters name payload))
  | .ok (_, none) => none

def Claimant.resolve (claimant : Claimant proto) (voters : List (Voter proto)) :
    Option Resolution :=
  resolveNodeConflict proto claimant.env.advertiseNode (claimant.internalQuery voters)

def Claimant.message (claimant : Claimant proto) (payload : Bytes) :
    QueryMessage Id Address :=
  stampQuery claimant.env claimant.queries.clock claimant.queryId
    (queryParams claimant.defaultTimeout none) internalConflict payload

/-- The query with the encoded id is within the size limit and can be encoded. -/
def Claimant.Starts (claimant : Claimant proto) : Prop :=
  ∀ payload, proto.id.encodeToBytes claimant.env.advertiseNode.id = .ok payload →
    encodedMessageLen proto ((Message.query (claimant.message payload)).encodable proto) ≤
      claimant.env.querySizeLimit ∧
    ∃ raw, encodeMessageToBytes proto
      ((Message.query (claimant.message payload)).encodable proto) = .ok raw

omit [DecidableEq Address] in
theorem own_query_returns (env : QueryEnvironment Id Address)
    (ty : Option (InternalQueryEvent Id)) (q : QueryMessage Id Address) (state : QueryState)
    (slots : Library.Slots.size state.core.buffer ≠ 0) :
    ∃ rebroadcast, (handleQuery env ty (.right q) state).returned = some (.ok rebroadcast) := by
  simp only [handleQuery]
  cases recorded : recordQuery (LamportClock.witness state.clock (QueryInput.right q).ltime)
      (QueryInput.right q).ltime (QueryInput.right q).id state.core with
  | none =>
    by_cases admitted : QueryDedup.Admissible
        (LamportClock.witness state.clock (QueryInput.right q).ltime)
        (QueryInput.right q).ltime state.core
    · by_cases seen : QueryDedup.Holds state.core (QueryInput.right q).ltime
          (QueryInput.right q).id
      · cases recorded.symm.trans (QueryDedup.recordQuery_seen _ _ _ _ seen)
      · cases recorded.symm.trans (QueryDedup.recordQuery_fresh _ _ _ _ slots admitted seen)
    · cases recorded.symm.trans (QueryDedup.recordQuery_refused _ _ _ _ admitted)
  | some result =>
    obtain ⟨core, fresh⟩ := result
    cases fresh with
    | false => exact ⟨false, rfl⟩
    | true =>
      simp only [processQuery, shouldProcessQuery, QueryInput.event]
      split
      · cases ‹_›
      · exact ⟨_, rfl⟩
      · exact ⟨_, rfl⟩

omit [DecidableEq Address] in
theorem internalQuery_started (claimant : Claimant proto) (voters : List (Voter proto))
    (payload : Bytes)
    (fits : encodedMessageLen proto ((Message.query (claimant.message payload)).encodable proto) ≤
      claimant.env.querySizeLimit)
    (raw : Bytes)
    (encoded : encodeMessageToBytes proto
      ((Message.query (claimant.message payload)).encodable proto) = .ok raw) :
    claimant.internalQuery voters internalConflict payload =
      some (.ok (ask voters internalConflict payload)) := by
  obtain ⟨_, returned⟩ := own_query_returns claimant.env
    (some (.conflict claimant.env.advertiseNode.id)) (claimant.message payload)
    (registerQueryResponse claimant.numNodes (claimant.message payload) claimant.queries)
    claimant.slots
  rw [← claimant.lengths, Claimant.message] at fits
  rw [← claimant.encodes, Claimant.message] at encoded
  rw [Claimant.message] at returned
  simp only [Claimant.internalQuery, queryIn, if_neg (Nat.not_lt.mpr fits), encoded, returned]

omit [DecidableEq Address] in
theorem internalQuery_refused (claimant : Claimant proto) (voters : List (Voter proto))
    (payload : Bytes)
    (refused : ¬ (encodedMessageLen proto
        ((Message.query (claimant.message payload)).encodable proto) ≤
          claimant.env.querySizeLimit ∧
      ∃ raw, encodeMessageToBytes proto
        ((Message.query (claimant.message payload)).encodable proto) = .ok raw)) :
    ∃ reason, claimant.internalQuery voters internalConflict payload = some (.error reason) := by
  simp only [← claimant.lengths, ← claimant.encodes, Claimant.message] at refused
  simp only [Claimant.internalQuery, queryIn]
  by_cases fits : claimant.env.encodedMessageLen (stampQuery claimant.env claimant.queries.clock
      claimant.queryId (queryParams claimant.defaultTimeout none) internalConflict payload) ≤
        claimant.env.querySizeLimit
  · rw [if_neg (Nat.not_lt.mpr fits)]
    cases encoded : claimant.env.encodeMessageToBytes (stampQuery claimant.env
        claimant.queries.clock claimant.queryId (queryParams claimant.defaultTimeout none)
        internalConflict payload) with
    | error reason => exact ⟨_, rfl⟩
    | ok raw => exact absurd ⟨fits, raw, encoded⟩ refused
  · rw [if_pos (Nat.lt_of_not_le fits)]
    exact ⟨_, rfl⟩

section Verdicts

variable (laws : QueryLaws proto) (members : MemberLaws proto) (claimant : Claimant proto)
  (small : proto.id.encodedLen claimant.env.advertiseNode.id ≤ maxLen) (voters : List (Voter proto))

include laws members small

theorem resolve_counts (starts : claimant.Starts) :
    claimant.resolve voters =
      some (if (votes claimant.env.advertiseNode.id voters).length / 2 + 1 ≤
          (votes claimant.env.advertiseNode.id voters).count claimant.env.advertiseNode.address
        then .stays else .shutsDown) := by
  obtain ⟨payload, encoded, asked⟩ :=
    conflict_decoded laws.toIdLaws claimant.env.advertiseNode.id small
  obtain ⟨fits, raw, made⟩ := starts payload encoded
  have counted := countResponses laws members claimant.env.advertiseNode asked voters (0, 0)
  simp only [Claimant.resolve, resolveNodeConflict, encoded,
    internalQuery_started claimant voters payload fits raw made, counted, Option.bind_eq_bind,
    Option.bind_some, Option.pure_def, Nat.zero_add]

/-- What the claimant comes to, whichever answers get through and in whatever order: it
stays if its query does not start, and otherwise exactly if more than half of the votes
are for its address. Without a vote it shuts down. -/
theorem conflict_settled :
    (claimant.Starts → claimant.resolve voters =
      some (if (votes claimant.env.advertiseNode.id voters).length <
          2 * (votes claimant.env.advertiseNode.id voters).count
            claimant.env.advertiseNode.address
        then .stays else .shutsDown)) ∧
    (¬ claimant.Starts → ∃ reason, claimant.resolve voters =
      some (.failed (.query reason))) := by
  constructor
  · intro starts
    rw [resolve_counts laws members claimant small voters starts]
    congr 2
    rw [eq_iff_iff]
    omega
  · intro idle
    obtain ⟨payload, encoded, _⟩ :=
      conflict_decoded laws.toIdLaws claimant.env.advertiseNode.id small
    obtain ⟨reason, refused⟩ := internalQuery_refused claimant voters payload fun starts =>
      idle fun other again => by
        obtain rfl : payload = other := Except.ok.inj (encoded.symm.trans again)
        exact starts
    refine ⟨reason, ?_⟩
    simp only [Claimant.resolve, resolveNodeConflict, encoded, refused, Option.bind_eq_bind,
      Option.bind_some, Option.pure_def]

end Verdicts

def informed (recorded : UInt8) : Voter reference where
  responder := second
  own := rfl
  known := (∅ : Table UInt8 (MemberState UInt8 UInt8)).insert 1 (aliveMember 1 recorded)
  canonical id state found := by
    rw [lookup_insert_eq] at found
    split at found
    · cases found
      constructor <;> simp [aliveMember]
    · cases found
  event := relayedEvent (clusterNode 1 10)
  start := 0
  moment := quietMoment

theorem freshQueries_slots : Library.Slots.size freshQueries.core.buffer ≠ 0 := by decide

def claiming (address : UInt8) (querySizeLimit : Nat) : Claimant reference where
  env := { second.env with advertiseNode := clusterNode 1 address, querySizeLimit }
  lengths _ := rfl
  encodes q raw := by
    simp only [second]
    cases encodeMessageToBytes reference ((Message.query q).encodable reference) <;>
      simp [Except.mapError]
  queries := freshQueries
  slots := freshQueries_slots
  defaultTimeout := 5
  numNodes := 3
  queryId := 7

theorem claiming_length : ∀ address ∈ [10, 11], ∀ limit ∈ [36, 1024],
    encodedMessageLen reference
      ((Message.query ((claiming address limit).message [1])).encodable reference) = 37 := by
  decide +kernel

theorem claiming_starts : ∀ address ∈ [10, 11], (claiming address 1024).Starts := by
  intro address member payload encoded
  obtain rfl : [1] = payload := Except.ok.inj encoded
  have length := claiming_length address member 1024 (by decide)
  obtain ⟨raw, made, _⟩ := message_encodes reference_laws.encoders
    (.query ((claiming address 1024).message [1]))
    (by decide : 5 < 2 ^ 64 * 1000000000) (by
      rw [encodedMessageLen] at length
      exact le_trans (by omega) (by decide : 37 ≤ maxLen))
  exact ⟨length.trans_le (by decide : 37 ≤ 1024), raw, made⟩

theorem conflict_settled_informed :
    (claiming 10 1024).resolve [informed 10, informed 11, informed 10] = some .stays ∧
    (claiming 10 1024).resolve ([] : List (Voter reference)) = some .shutsDown ∧
    ∃ reason, (claiming 10 36).resolve [informed 11] = some (.failed (.query reason)) := by
  have settled := fun voters =>
    (conflict_settled reference_laws.toQueryLaws reference_laws.toMemberLaws (claiming 10 1024)
      (by decide) voters).1 (claiming_starts 10 (by decide))
  refine ⟨(settled _).trans (congrArg some (if_pos (by decide +kernel))), settled [], ?_⟩
  refine (conflict_settled reference_laws.toQueryLaws reference_laws.toMemberLaws (claiming 10 36)
    (by decide) _).2 fun starts => ?_
  exact absurd (starts _ rfl).1 (by decide)

end Resolving

section Claimants

variable {proto : Proto Id Address}

omit [DecidableEq Id] in
theorem count_disjoint {first second : Address} (apart : first ≠ second) (found : List Address) :
    found.count first + found.count second ≤ found.length := by
  induction found with
  | nil => simp
  | cons vote rest ih =>
    by_cases one : vote = first
    · simp [one, apart]
      omega
    · simp only [List.count_cons, List.length_cons, beq_iff_eq, one, if_false]
      split <;> omega

/-- Of two nodes that claim an id at different addresses, that both get their query
started and that hear the same votes, at least one shuts down. -/
theorem at_most_one_stays (laws : QueryLaws proto) (members : MemberLaws proto)
    (first second : Claimant proto)
    (small : proto.id.encodedLen first.env.advertiseNode.id ≤ maxLen)
    (same : first.env.advertiseNode.id = second.env.advertiseNode.id)
    (apart : first.env.advertiseNode.address ≠ second.env.advertiseNode.address)
    (startsFirst : first.Starts) (startsSecond : second.Starts) (voters others : List (Voter proto))
    (heard : (votes first.env.advertiseNode.id voters).Perm
      (votes second.env.advertiseNode.id others)) :
    first.resolve voters = some .shutsDown ∨ second.resolve others = some .shutsDown := by
  have bound := count_disjoint apart (votes first.env.advertiseNode.id voters)
  rw [resolve_counts laws members first small voters startsFirst,
    resolve_counts laws members second (same ▸ small) others startsSecond, ← heard.length_eq,
    ← heard.count_eq]
  by_cases wins : (votes first.env.advertiseNode.id voters).length / 2 + 1 ≤
      (votes first.env.advertiseNode.id voters).count first.env.advertiseNode.address
  · exact Or.inr (by rw [if_neg (by omega)])
  · exact Or.inl (by rw [if_neg wins])

theorem at_most_one_stays_informed :
    (claiming 10 1024).resolve [informed 10, informed 11] = some .shutsDown ∨
      (claiming 11 1024).resolve [informed 11, informed 10] = some .shutsDown := by
  refine at_most_one_stays reference_laws.toQueryLaws reference_laws.toMemberLaws (claiming 10 1024)
    (claiming 11 1024) (by decide) rfl
    (by decide) (claiming_starts 10 (by decide)) (claiming_starts 11 (by decide)) _ _ ?_
  have both : votes 1 [informed 10, informed 11] = [10, 11] := by decide +kernel
  have turned : votes 1 [informed 11, informed 10] = [11, 10] := by decide +kernel
  exact both ▸ turned ▸ List.Perm.swap 11 10 []

end Claimants

end Serf.ConflictVote
