import Serf.AnswerDelivery
import Serf.InternalQueries
import Serf.KeyHandlers
import Serf.KeyTotals
import Serf.RelayDestination

/-!
A change of keys in the whole cluster. The key manager encodes a request and asks all
nodes; each node applies the request to its keyring and answers; the manager counts the
answers that come in. Answers may be lost or come in any order. A node that panics, that
does not hear the query or whose answer is lost is not counted, so the totals alone say
whether the keys of the cluster are changed. The manager reads the answers from the channel
of its query, which has at most one of each node.
-/

namespace Serf.KeyRotation

open Library.Collections Library.Encoding Library.Machine Library.Tasks
open AnswerDelivery InternalQueries KeyHandlers KeyTotals QueryAnswers QueryHandler QueryResponses
open Wire

variable {Id Address Ring : Type} [DecidableEq Id]

section Manager

/-- `KeyManager::handle_key_request`, on the responses that a query with this payload
brings in; `numNodes` is the number of members. -/
def KeyManager.handleKeyRequest (proto : Proto Id Address) (texts : ErrorTexts) (numNodes : Nat)
    (key : Option SecretKey) (query : Bytes → List (NodeResponse Id Address)) :
    Except EncodeError (Option (KeyResponse Id)) :=
  (encodeMessageToBytes proto ((Message.keyRequest ⟨key⟩).encodable proto)).map fun payload =>
    streamKeyResponse proto texts numNodes (query payload)

/-- The names under which the manager asks. -/
def asStr : KeyChange → String
  | .installKey => internalInstallKey
  | .useKey => internalUseKey
  | .removeKey => internalRemoveKey

def keyChange : InternalQueryEvent Id → Option KeyChange
  | .installKey => some .installKey
  | .useKey => some .useKey
  | .removeKey => some .removeKey
  | _ => none

omit [DecidableEq Id] in
theorem keyChange_asStr (proto : Proto Id Address) (change : KeyChange) (payload : Bytes) :
    ∃ kind, decodeInternalQuery proto (asStr change) payload = some (.ok kind) ∧
      keyChange kind = some change := by
  cases change with
  | installKey => exact ⟨.installKey, rfl, rfl⟩
  | useKey => exact ⟨.useKey, rfl, rfl⟩
  | removeKey => exact ⟨.removeKey, rfl, rfl⟩

end Manager

section Holders

/-- A node that the query comes to, and what its answer goes through. -/
structure Holder (proto : Proto Id Address) (Ring : Type) where
  responder : Responder Id Address
  own : responder.proto = proto
  node : KeyNode Ring
  event : QueryEvent Id Address
  start : Epoch
  moment : Moment Id Address

variable {proto : Proto Id Address} (ops : KeyringOps Ring)
  (write : String → List SecretKey → Except String Unit)

/-- What the node does with the query: `none` if it changes no keys, or panics. -/
def Holder.handle (name : String) (payload : Bytes) (holder : Holder proto Ring) :
    Option (KeyHandled Ring) :=
  match decodeInternalQuery proto name payload with
  | some (.ok kind) =>
    (keyChange kind).bind fun change => handleKeyChange proto ops write change payload holder.node
  | _ => none

/-- The response that comes in at the manager. -/
def Holder.answer (name : String) (payload : Bytes) (holder : Holder proto Ring) :
    Option (NodeResponse Id Address) :=
  (holder.handle ops write name payload).bind fun handled =>
    handled.sent.head?.bind fun resp =>
      arrival proto holder.moment (sendKeyResponse holder.responder
        { holder.event with name, payload } resp holder.moment (some holder.start)).2

/-- The node has applied the change to its keyring, and has it in its file. -/
def Holder.Changed (change : KeyChange) (key : SecretKey) (payload : Bytes)
    (holder : Holder proto Ring) : Prop :=
  ∃ ring changed sent, holder.node.keyring = some ring ∧
    change.operation ops ring key = .ok changed ∧
    holder.handle ops write (asStr change) payload = some ⟨some changed, sent⟩ ∧
    ∀ path, holder.node.keyringFile = some path → write path (ops.keys changed) = .ok ()

variable {ops write}

theorem reading_good (laws : KeyLaws proto) (resp : KeyResponseMessage) (raw : Bytes)
    (encoded : encodeMessageToBytes proto
      ((Message.keyResponse resp : Message Id Address).encodable proto) = .ok raw)
    (node : Node Id Address) (x : Reading) (read : reading proto ⟨node, raw⟩ = some x)
    (good : x.faults = 0) : resp.result = true := by
  have made := encodeMessageToBytes_makes laws.lengths _ (keyResponse_encodes laws.encoders resp
    trivial (encodeMessageToBytes_small _ _ encoded)) raw encoded
  obtain ⟨ref, decoded, _, same⟩ := keyResponse_decodes laws resp _ _ raw made
  cases ref with
  | keyResponse back =>
    obtain ⟨_, rfl, rfl⟩ := same
    rw [decodeMessage_eq] at decoded
    unfold reading at read
    split at read
    · cases read
      cases good
    · cases reply : decodeKeyReply proto raw with
      | error fault => simp [reply, Except.map] at decoded
      | ok found =>
        cases found with
        | other message =>
          simp only [reply] at read
          cases read
          cases good
        | keyResponse message =>
          simp only [reply, Except.map, KeyReply.converted, Except.ok.injEq,
            MessageRef.keyResponse.injEq] at decoded
          obtain ⟨keys, _, made⟩ := bind_ok decoded
          cases made
          simp only [reply] at read
          split at read
          · cases read
          · cases read
            by_contra bad
            simp [Reading.faults, bad] at good
  | _ => exact same.elim

theorem arrival_sendKeyResponse (laws : QueryLaws proto) {responder : Responder Id Address}
    (own : responder.proto = proto) {event : QueryEvent Id Address}
    (change : event.name ≠ internalListKeys) {resp : KeyResponseMessage}
    {moment : Moment Id Address} {span : Option Epoch} {r : NodeResponse Id Address}
    (came : arrival proto moment (sendKeyResponse responder event resp moment span).2 = some r) :
    ∃ raw, encodeMessageToBytes proto
        ((Message.keyResponse resp : Message Id Address).encodable proto) = .ok raw ∧
      r = ⟨responder.env.advertiseNode, raw⟩ := by
  rw [sendKeyResponse, if_neg change, own] at came
  cases encoded : encodeMessageToBytes proto
      ((Message.keyResponse resp : Message Id Address).encodable proto) with
  | error reason => simp [encoded, arrival, refused] at came
  | ok raw =>
    simp only [encoded, arrival_respond laws own] at came
    split at came
    · exact ⟨raw, rfl, (Option.some.inj came).symm⟩
    · cases came

theorem answer_changed (keys : KeyLaws proto) (laws : QueryLaws proto) (change : KeyChange)
    {key : SecretKey} {payload : Bytes} (request : Requests proto payload (some key))
    {holder : Holder proto Ring} {r : NodeResponse Id Address}
    (answered : holder.answer ops write (asStr change) payload = some r) {x : Reading}
    (read : reading proto r = some x) (good : x.faults = 0) :
    holder.Changed ops write change key payload := by
  obtain ⟨kind, decoded, changes⟩ := keyChange_asStr proto change payload
  have handles : holder.handle ops write (asStr change) payload =
      handleKeyRequest proto ops write (change.operation ops) payload holder.node := by
    simp [Holder.handle, decoded, changes, handleKeyChange_eq]
  have other : asStr change ≠ internalListKeys := by cases change <;> decide
  have back : Returns (decodeMessage proto payload) := by
    rw [Requests] at request
    rw [request]
    trivial
  -- The handler has sent one response, whose result has come in.
  have sent : ∀ keyring response, handleKeyRequest proto ops write (change.operation ops) payload
      holder.node = some ⟨keyring, [response]⟩ → response.result = true := by
    intro keyring response handled
    rw [Holder.answer, handles, handled] at answered
    obtain ⟨raw, encoded, rfl⟩ := arrival_sendKeyResponse laws holder.own other answered
    exact reading_good keys response raw encoded _ x read good
  rcases handleKeyRequest_cases proto ops write (change.operation ops) payload holder.node back with
    ⟨panicked, _⟩ | ⟨response, handled, refused, _⟩ | ⟨changed, response, applies, handled, kept⟩
  · rw [Holder.answer, handles, panicked] at answered
    cases answered
  · rw [sent _ _ handled] at refused
    cases refused
  · obtain ⟨_, other, ring, requested, held, applied⟩ := applies
    rw [Requests, request] at requested
    cases requested
    exact ⟨ring, changed, [response], held, applied, handles.trans handled,
      (written_iff ops write holder.node changed).mp (kept.mp (sent _ _ handled))⟩

theorem request_encoded (laws : KeyLaws proto) (key : Option SecretKey)
    (payload : Bytes) (encoded : encodeMessageToBytes proto
      ((Message.keyRequest ⟨key⟩ : Message Id Address).encodable proto) = .ok payload) :
    Requests proto payload key := by
  have made := encodeMessageToBytes_makes laws.lengths _ (keyRequest_encodes laws.encoders ⟨key⟩
    trivial (encodeMessageToBytes_small _ _ encoded)) payload encoded
  obtain ⟨ref, decoded, _, alike⟩ := keyRequest_decodes laws ⟨key⟩ _ _ payload made
  cases ref with
  | keyRequest back =>
    obtain ⟨_, rfl, rfl⟩ := alike
    exact decoded
  | _ => exact alike.elim

theorem stream_clean (texts : ErrorTexts) {numNodes : Nat} (nodes : 0 < numNodes)
    {responses : List (NodeResponse Id Address)} {resp : KeyResponse Id}
    (streamed : streamKeyResponse proto texts numNodes responses = some resp)
    (full : resp.numResp = numNodes) (clean : resp.numErr = 0) :
    numNodes ≤ responses.length ∧
      ∀ r ∈ responses.take numNodes, ∃ x, reading proto r = some x ∧ x.faults = 0 := by
  have run := streamLoop_totals proto texts responses (totals_start numNodes) nodes
  simp only [List.length_nil, Nat.sub_zero, List.nil_append] at run
  change Option.Rel _ _ (streamKeyResponse proto texts numNodes responses) at run
  rw [streamed] at run
  generalize read : (responses.take numNodes).mapM (reading proto) = readings at run
  obtain @⟨readings, _, totals⟩ := run
  obtain ⟨all, found⟩ := (mapM_some_iff _ _ _).mp read
  have counted : (responses.take numNodes).length = numNodes := by
    rw [← List.filterMap_length_eq_length.mpr all, found, ← totals.numResp, full]
  refine ⟨?_, ?_⟩
  · rw [List.length_take] at counted
    omega
  · intro r inside
    obtain ⟨x, made⟩ := Option.isSome_iff_exists.mp (all r inside)
    refine ⟨x, made, ?_⟩
    have member : x ∈ readings := by
      rw [← found]
      exact List.mem_filterMap.mpr ⟨r, inside, made⟩
    have none : (readings.map Reading.faults).sum = 0 := totals.numErr.symm.trans clean
    exact List.sum_eq_zero_iff.mp none _ (List.mem_map_of_mem member)

/-- If as many responses as there are nodes were counted and none of them as an error, then
every node has changed its keys, whichever answers came in and in whatever order. -/
theorem rotation_complete (keys : KeyLaws proto) (laws : QueryLaws proto) (texts : ErrorTexts)
    (change : KeyChange) (key : SecretKey) (holders : List (Holder proto Ring))
    (query : Bytes → List (NodeResponse Id Address))
    (heard : ∀ payload, (query payload).Subperm
      (holders.filterMap (Holder.answer ops write (asStr change) payload)))
    (resp : KeyResponse Id)
    (done : KeyManager.handleKeyRequest proto texts holders.length (some key) query =
      .ok (some resp))
    (full : resp.numResp = holders.length) (clean : resp.numErr = 0) :
    ∃ payload, encodeMessageToBytes proto
        ((Message.keyRequest ⟨some key⟩ : Message Id Address).encodable proto) = .ok payload ∧
      ∀ holder ∈ holders, holder.Changed ops write change key payload := by
  obtain ⟨payload, encoded, streamed⟩ := map_ok done
  refine ⟨payload, encoded, ?_⟩
  have request := request_encoded keys (some key) payload encoded
  intro holder inside
  obtain ⟨enough, good⟩ := stream_clean texts (List.length_pos_of_mem inside) streamed full clean
  -- No answer is missing, so every node has one, and all of them were read.
  have few := List.length_filterMap_le
    (Holder.answer ops write (asStr change) payload : Holder proto Ring → _) holders
  have most := (heard payload).length_le
  have answers := (heard payload).perm_of_length_le (by omega)
  have everyone := List.filterMap_length_eq_length.mp (few.antisymm (by omega))
  obtain ⟨r, answered⟩ := Option.isSome_iff_exists.mp (everyone holder inside)
  have came : r ∈ (query payload).take holders.length := by
    rw [List.take_of_length_le (by omega), answers.mem_iff]
    exact List.mem_filterMap.mpr ⟨holder, inside, answered⟩
  obtain ⟨x, read, faultless⟩ := good r came
  exact answer_changed keys laws change request answered read faultless

section Delivery

variable [DecidableEq Address]

theorem delivered_heard (env : QueryEnvironment Id Address) (clock : LamportTime)
    (turns : List (Turn (Call Id Address) Input Change)) (handle : Nat) (query : Query Id Address)
    (there : (run (querying env).turn ⟨Registry.empty clock, []⟩ turns).shared.queries[handle]? =
      some query)
    (name : String) (payload : Bytes) (holders : List (Holder proto Ring))
    (honest : ∀ resp, Answers (fun resp => .start (.answer resp) ∈ turns) query.fixed false resp →
      ∃ holder ∈ holders, ∃ r, holder.answer ops write name payload = some r ∧
        resp.fromNode = .ok r.fromNode ∧ resp.payload = r.payload) :
    query.responses.sent.Subperm (holders.filterMap (Holder.answer ops write name payload)) := by
  have sound := ((run_tracked env _ clock turns fun _ member => member).queries handle query
    there).responses
  refine List.subperm_of_subset (List.Nodup.of_map _ sound.once) ?_
  intro item sent
  obtain ⟨resp, answers, sender, content⟩ := sound.source item sent
  obtain ⟨holder, inside, r, answered, node, same⟩ := honest resp answers
  obtain rfl : r = item := by
    obtain ⟨rNode, rPayload⟩ := r
    obtain ⟨iNode, iPayload⟩ := item
    cases sender.symm.trans node
    cases content.symm.trans same
    rfl
  exact List.mem_filterMap.mpr ⟨holder, inside, answered⟩

end Delivery

theorem second_own : RelayDestination.second.proto = reference := rfl

def keyed : Holder reference (SecretKey × List SecretKey) where
  responder := RelayDestination.second
  own := second_own
  node := encrypted
  event := RelayDestination.relayedEvent (RelayDestination.clusterNode 1 10)
  start := 0
  moment := RelayDestination.quietMoment

def filed : Holder reference (SecretKey × List SecretKey) :=
  { keyed with
    responder := { RelayDestination.second with
      env := { RelayDestination.second.env with
        advertiseNode := RelayDestination.clusterNode 3 30 } }
    own := second_own
    node := { encrypted with keyringFile := some "keyring.json" } }

def onlyKeyring (path : String) (_ : List SecretKey) : Except String Unit :=
  if path = "keyring.json" then .ok () else .error "permission denied"

def atOnce : Input := ⟨0, 7, 2, 10⟩

def installing (answers : List (NodeResponse UInt8 UInt8)) :
    List (Turn (Call UInt8 UInt8) Input Change) :=
  .start (.query ⟨internalInstallKey, [], none⟩) :: .advance 0 atOnce :: .advance 0 atOnce ::
    .advance 0 atOnce :: answers.zipIdx.flatMap fun (r, i) =>
      .start (.answer ⟨1, 7, .ok r.fromNode, 0, r.payload⟩) ::
        List.replicate 3 (.advance (i + 1) atOnce)

def installed (payload : Bytes) : List (NodeResponse UInt8 UInt8) :=
  match (run (querying RelayDestination.second.env).turn ⟨Registry.empty 1, []⟩ (installing
      ([keyed, filed].filterMap (Holder.answer listedKeys onlyKeyring (asStr .installKey)
        payload)))).shared.queries[0]? with
  | some query => query.responses.sent
  | none => []

theorem installed_heard (payload : Bytes) :
    (installed payload).Subperm ([keyed, filed].filterMap
      (Holder.answer listedKeys onlyKeyring (asStr .installKey) payload)) := by
  unfold installed
  split
  · rename_i query there
    refine delivered_heard _ 1 _ 0 query there _ payload [keyed, filed] fun resp answers => ?_
    obtain ⟨r, sent, rfl⟩ : ∃ r ∈ [keyed, filed].filterMap
        (Holder.answer listedKeys onlyKeyring (asStr .installKey) payload),
        resp = ⟨1, 7, .ok r.fromNode, 0, r.payload⟩ := by
      have arrived := answers.arrived
      simp only [installing, List.mem_cons, List.mem_flatMap, List.mem_replicate] at arrived
      obtain started | started | started | started | ⟨⟨r, i⟩, member, came | ⟨_, step⟩⟩ := arrived
      · cases started
      · cases started
      · cases started
      · cases started
      · cases came
        exact ⟨r, List.fst_mem_of_mem_zipIdx member, rfl⟩
      · cases step
    obtain ⟨holder, inside, answered⟩ := List.mem_filterMap.mp sent
    exact ⟨holder, inside, r, answered, rfl, rfl⟩
  · exact List.nil_subperm

theorem rotation_complete_keyed :
    ∃ payload, encodeMessageToBytes reference
        ((Message.keyRequest ⟨some (.filled 8)⟩ : Message UInt8 UInt8).encodable reference) =
          .ok payload ∧
      ∀ holder ∈ [keyed, filed],
        holder.Changed listedKeys onlyKeyring .installKey (.filled 8) payload := by
  have totals : (KeyManager.handleKeyRequest reference silent 2 (some (.filled 8))
      installed).toOption.map (Option.map fun resp => (resp.numResp, resp.numErr)) =
        some (some (2, 0)) := by
    decide +kernel
  cases handled : KeyManager.handleKeyRequest reference silent 2 (some (.filled 8)) installed with
  | error reason =>
    rw [handled] at totals
    cases totals
  | ok result =>
    simp only [handled, Except.toOption, Option.map_some, Option.some.injEq] at totals
    obtain ⟨resp, rfl, counts⟩ := Option.map_eq_some_iff.mp totals
    obtain ⟨full, clean⟩ := Prod.mk.inj counts
    exact rotation_complete reference_laws.toKeyLaws reference_laws.toQueryLaws silent .installKey
      (.filled 8) [keyed, filed] installed installed_heard resp handled full clean

end Holders

end Serf.KeyRotation
