import Serf.Library.Tasks
import Serf.Library.Delivery
import Serf.QueryHandler

/-!
The queries a node is running, as tasks that share them. A call of `query_in` reads
the query clock, registers its `QueryResponse` under that time and moves the clock
past it when `handle_query` starts; the rest of `handle_query` does not touch what is
modelled here. An answer looks its query up, checks it under the read lock and sends
under the write lock. The task spawned for the timeout takes whatever is registered
under its time and closes it. A `QueryResponse` is shared by reference, so the table
of running queries holds handles, which are positions in `queries`. A timeout may
come at any time after the registration, and the lock on the table is not held while
it closes what it found; both only add interleavings.
-/

namespace Serf.QueryResponses

open Library.Collections Library.Machine Library.Tasks Library.Delivery
open LamportClock QueryHandler

variable {Id Address : Type} [DecidableEq Id] [DecidableEq Address]

structure NodeResponse (Id Address : Type) where
  fromNode : Node Id Address
  payload : Bytes
  deriving DecidableEq

/-- What the clones of one `QueryResponse` share, with the part that never changes. -/
structure Query (Id Address : Type) where
  fixed : QueryResponse
  deadline : Epoch
  closed : Bool
  acks : Inbox (Node Id Address) (Node Id Address)
  responses : Inbox (Node Id Address) (NodeResponse Id Address)
  deriving DecidableEq

/-- `QueryResponse::from_query`. A channel without room panics. -/
def fromQuery (q : QueryMessage Id Address) (numNodes : Nat) (now : Epoch) :
    Option (Query Id Address) :=
  if numNodes = 0 then none
  else
    some
      { fixed := ⟨q.id, q.ltime, numNodes, q.timeout, contains q.flags .ACK⟩
        deadline := now + q.timeout
        closed := false
        acks := if contains q.flags .ACK then .ofCapacity numNodes else .absent
        responses := .ofCapacity numNodes }

structure QueryResponseMessageRef (Id Address : Type) where
  ltime : LamportTime
  id : UInt32
  fromNode : Except DecodeError (Node Id Address)
  flags : QueryFlag
  payload : Bytes

def fromRef (resp : QueryResponseMessageRef Id Address) :
    Except DecodeError (QueryResponseMessage Id Address) :=
  match resp.fromNode with
  | .error reason => .error reason
  | .ok node => .ok ⟨resp.ltime, resp.id, node, resp.flags, resp.payload⟩

namespace Query

def finished (now : Epoch) (query : Query Id Address) : Bool :=
  query.closed || decide (query.deadline < now)

def close (query : Query Id Address) : Query Id Address :=
  if query.closed then query
  else
    { query with
      closed := true
      acks := query.acks.close
      responses := query.responses.close }

def sendAck (nr : QueryResponseMessage Id Address) (query : Query Id Address) :
    Query Id Address × Bool :=
  let offered := query.acks.offer query.closed nr.fromNode nr.fromNode
  ({ query with acks := offered.1 }, offered.2)

def sendResponse (nr : NodeResponse Id Address) (query : Query Id Address) :
    Query Id Address × Bool :=
  let offered := query.responses.offer query.closed nr.fromNode nr
  ({ query with responses := offered.1 }, offered.2)

/-- The early exit of `handle_query_response`. -/
def duplicate (resp : QueryResponseMessage Id Address) (query : Query Id Address) : Bool :=
  if contains resp.flags .ACK then decide (resp.fromNode ∈ query.acks.seen.items)
  else decide (resp.fromNode ∈ query.responses.seen.items)

/-- The section of `handle_query_response` under the write lock. -/
def send (resp : QueryResponseMessage Id Address) (query : Query Id Address) :
    Query Id Address × Bool :=
  if contains resp.flags .ACK then query.sendAck resp
  else query.sendResponse ⟨resp.fromNode, resp.payload⟩

/-- The reader of `ack_rx` receives. -/
def takeAck (query : Query Id Address) : Query Id Address := { query with acks := query.acks.take }

/-- The reader of `response_rx` receives. -/
def takeResponse (query : Query Id Address) : Query Id Address :=
  { query with responses := query.responses.take }

end Query

/-- The task that `register_query_response` spawns, and what it has found under
its time. -/
inductive Timer where
  | waiting (ltime : LamportTime)
  | removed (ltime : LamportTime) (found : Option Nat)
  | ended (ltime : LamportTime) (found : Option Nat)
  deriving DecidableEq

/-- `clock` is `query_clock`, `responses` the table in `query_core`. The query and
the timer of one registration stand at the same position. -/
structure Registry (Id Address : Type) where
  clock : LamportTime
  queries : List (Query Id Address)
  timers : List Timer
  responses : Table LamportTime Nat

namespace Registry

def empty (clock : LamportTime) : Registry Id Address := ⟨clock, [], [], ∅⟩

def register (query : Query Id Address) (registry : Registry Id Address) : Registry Id Address :=
  { registry with
    queries := registry.queries ++ [query]
    timers := registry.timers ++ [.waiting query.fixed.ltime]
    responses := registry.responses.insert query.fixed.ltime registry.queries.length }

def update (handle : Nat) (f : Query Id Address → Query Id Address)
    (registry : Registry Id Address) : Registry Id Address :=
  { registry with queries := registry.queries.modify handle f }

def fire (own : Nat) (ltime : LamportTime) (registry : Registry Id Address) :
    Registry Id Address :=
  { registry with
    timers := registry.timers.set own (.removed ltime (registry.responses.lookup ltime))
    responses := registry.responses.erase ltime }

def expire (own : Nat) (ltime : LamportTime) (found : Option Nat)
    (registry : Registry Id Address) : Registry Id Address :=
  let ended := { registry with timers := registry.timers.set own (.ended ltime found) }
  match found with
  | none => ended
  | some handle => ended.update handle Query.close

def stepTimer (own : Nat) (registry : Registry Id Address) : Registry Id Address :=
  match registry.timers[own]? with
  | some (.waiting ltime) => registry.fire own ltime
  | some (.removed ltime found) => registry.expire own ltime found
  | _ => registry

omit [DecidableEq Id] [DecidableEq Address] in
theorem expire_timers (own : Nat) (ltime : LamportTime) (found : Option Nat)
    (registry : Registry Id Address) :
    (registry.expire own ltime found).timers = registry.timers.set own (.ended ltime found) := by
  cases found <;> rfl

omit [DecidableEq Id] [DecidableEq Address] in
theorem expire_responses (own : Nat) (ltime : LamportTime) (found : Option Nat)
    (registry : Registry Id Address) :
    (registry.expire own ltime found).responses = registry.responses := by
  cases found <;> rfl

end Registry

structure QueryCall (Id : Type) where
  name : String
  payload : Bytes
  params : Option (QueryParam Id)

/-- Where a call of `query_in` is. -/
inductive QueryPhase (Id Address : Type) where
  | called (call : QueryCall Id)
  | failed (reason : QueryError)
  | stamped (q : QueryMessage Id Address) (raw : Bytes)
  | panicked (q : QueryMessage Id Address)
  | registered (handle : Nat) (q : QueryMessage Id Address) (raw : Bytes)
  | witnessed (handle : Nat) (q : QueryMessage Id Address) (raw : Bytes)

/-- How an answer ended. `returned` is the result of `send_ack` or `send_response`,
where `false` is a failed delivery. -/
inductive Ending (Id Address : Type) where
  | notRunning
  | idMismatch (handle : Nat)
  | undecodable (reason : DecodeError)
  | finished (handle : Nat)
  | duplicate (handle : Nat)
  | returned (handle : Nat) (msg : QueryResponseMessage Id Address) (delivered : Bool)

/-- Where `handle_query_response` is. -/
inductive AnswerPhase (Id Address : Type) where
  | arrived
  | found (handle : Nat) (msg : QueryResponseMessage Id Address)
  | checked (handle : Nat) (msg : QueryResponseMessage Id Address)
  | ended (ending : Ending Id Address)

inductive Activity (Id Address : Type) where
  | query (phase : QueryPhase Id Address)
  | answer (resp : QueryResponseMessageRef Id Address) (phase : AnswerPhase Id Address)

inductive Call (Id Address : Type) where
  | query (call : QueryCall Id)
  | answer (resp : QueryResponseMessageRef Id Address)

/-- What a step reads from outside: the time, a random id, the online members and the
default timeout. -/
structure Input where
  now : Epoch
  id : UInt32
  numNodes : Nat
  defaultTimeout : Duration

/-- What else happens: a received query or a merge witnesses a time, a timeout goes
on, a query is closed or read from. -/
inductive Change where
  | witness (time : LamportTime)
  | timer (own : Nat)
  | close (handle : Nat)
  | takeAck (handle : Nat)
  | takeResponse (handle : Nat)

/-- The first part of `query_in`, up to the encoded message. -/
def prepareQuery (env : QueryEnvironment Id Address) (input : Input) (clock : LamportTime)
    (call : QueryCall Id) : Except QueryError (QueryMessage Id Address × Bytes) :=
  let q := stampQuery env clock input.id (queryParams input.defaultTimeout call.params)
    call.name call.payload
  let len := env.encodedMessageLen q
  if env.querySizeLimit < len then .error (.queryTooLarge len)
  else
    match env.encodeMessageToBytes q with
    | .error reason => .error (.encode reason)
    | .ok raw => .ok (q, raw)

def advanceQuery (env : QueryEnvironment Id Address) (input : Input)
    (registry : Registry Id Address) :
    QueryPhase Id Address → Registry Id Address × QueryPhase Id Address
  | .called call =>
    match prepareQuery env input registry.clock call with
    | .error reason => (registry, .failed reason)
    | .ok (q, raw) => (registry, .stamped q raw)
  | .stamped q raw =>
    match fromQuery q input.numNodes input.now with
    | none => (registry, .panicked q)
    | some query => (registry.register query, .registered registry.queries.length q raw)
  | .registered handle q raw =>
    ({ registry with clock := witness registry.clock q.ltime }, .witnessed handle q raw)
  | phase => (registry, phase)

/-- `Serf::handle_query_response` up to the query it found. -/
def route (registry : Registry Id Address) (resp : QueryResponseMessageRef Id Address) :
    AnswerPhase Id Address :=
  match registry.responses.lookup resp.ltime with
  | none => .ended .notRunning
  | some handle =>
    match registry.queries[handle]? with
    | none => .ended .notRunning
    | some query =>
      if query.fixed.id ≠ resp.id then .ended (.idMismatch handle)
      else
        match fromRef resp with
        | .error reason => .ended (.undecodable reason)
        | .ok msg => .found handle msg

/-- The section of `handle_query_response` under the read lock. -/
def check (now : Epoch) (handle : Nat) (msg : QueryResponseMessage Id Address)
    (query : Query Id Address) : AnswerPhase Id Address :=
  if query.finished now then .ended (.finished handle)
  else if query.duplicate msg then .ended (.duplicate handle)
  else .checked handle msg

def advanceAnswer (input : Input) (registry : Registry Id Address)
    (resp : QueryResponseMessageRef Id Address) :
    AnswerPhase Id Address → Registry Id Address × AnswerPhase Id Address
  | .arrived => (registry, route registry resp)
  | .found handle msg =>
    match registry.queries[handle]? with
    | none => (registry, .found handle msg)
    | some query => (registry, check input.now handle msg query)
  | .checked handle msg =>
    match registry.queries[handle]? with
    | none => (registry, .checked handle msg)
    | some query =>
      (registry.update handle fun query => (query.send msg).1,
        .ended (.returned handle msg (query.send msg).2))
  | .ended ending => (registry, .ended ending)

def advance (env : QueryEnvironment Id Address) (input : Input) (registry : Registry Id Address) :
    Activity Id Address → Registry Id Address × Activity Id Address
  | .query phase =>
    let (after, next) := advanceQuery env input registry phase
    (after, .query next)
  | .answer resp phase =>
    let (after, next) := advanceAnswer input registry resp phase
    (after, .answer resp next)

def change (registry : Registry Id Address) : Change → Registry Id Address
  | .witness time => { registry with clock := witness registry.clock time }
  | .timer own => registry.stepTimer own
  | .close handle => registry.update handle Query.close
  | .takeAck handle => registry.update handle Query.takeAck
  | .takeResponse handle => registry.update handle Query.takeResponse

def querying (env : QueryEnvironment Id Address) :
    System (Registry Id Address) (Activity Id Address) (Call Id Address) Input Change where
  spawn
    | .query call => .query (.called call)
    | .answer resp => .answer resp .arrived
  advance := advance env
  change c registry := change registry c

/-- The response registered under a time. -/
def Registry.running (registry : Registry Id Address) (ltime : LamportTime) :
    Option QueryResponse :=
  (registry.responses.lookup ltime).bind fun handle =>
    (registry.queries[handle]?).map Query.fixed

structure Mirrors (registry : Registry Id Address) (state : QueryState) : Prop where
  clock : registry.clock = state.clock
  responses : ∀ ltime, registry.running ltime = state.core.responses.lookup ltime
  handles : ∀ ltime handle, registry.responses.lookup ltime = some handle →
    handle < registry.queries.length

omit [DecidableEq Id] [DecidableEq Address] in
theorem fromQuery_fixed (q : QueryMessage Id Address) (numNodes : Nat) (now : Epoch)
    (query : Query Id Address) (made : fromQuery q numNodes now = some query) :
    query.fixed = ⟨q.id, q.ltime, numNodes, q.timeout, contains q.flags .ACK⟩ := by
  unfold fromQuery at made
  split at made
  · cases made
  · cases made
    rfl

omit [DecidableEq Id] [DecidableEq Address] in
theorem register_mirrors (registry : Registry Id Address) (state : QueryState)
    (mirrors : Mirrors registry state) (q : QueryMessage Id Address) (numNodes : Nat) (now : Epoch)
    (query : Query Id Address) (made : fromQuery q numNodes now = some query) :
    Mirrors (registry.register query) (registerQueryResponse numNodes q state) := by
  have fixed := fromQuery_fixed q numNodes now query made
  have ltime : query.fixed.ltime = q.ltime := by rw [fixed]
  constructor
  · exact mirrors.clock
  · intro other
    have before := mirrors.responses other
    simp only [Registry.running, Registry.register, registerQueryResponse, lookup_insert_eq,
      ltime] at before ⊢
    by_cases same : other = q.ltime
    · simp [same, fixed]
    · rw [if_neg same, if_neg same, ← before]
      -- The handles of the other times still point where they did.
      cases found : registry.responses.lookup other with
      | none => rfl
      | some handle =>
        have inside := mirrors.handles other handle found
        simp only [Option.bind_some]
        rw [List.getElem?_append_left inside]
  · intro other handle found
    simp only [Registry.register, lookup_insert_eq, List.length_append, List.length_singleton]
      at found ⊢
    split at found
    · cases found
      omega
    · have inside := mirrors.handles other handle found
      omega

theorem recordQuery_responses (curTime ltime : LamportTime) (id : UInt32) (core after : QueryCore)
    (recorded : Bool) (result : recordQuery curTime ltime id core = some (after, recorded)) :
    after.responses = core.responses := by
  unfold recordQuery at result
  split at result
  · cases result
    rfl
  · split at result
    · cases result
      rfl
    · split at result
      · cases result
      · split at result
        · split at result <;> cases result <;> rfl
        · cases result
          rfl
      · cases result
        rfl

variable (env : QueryEnvironment Id Address)

omit [DecidableEq Address] in
theorem handleQuery_witnesses (ty : Option (InternalQueryEvent Id)) (q : QueryInput Id Address)
    (state : QueryState) :
    (handleQuery env ty q state).state.clock = witness state.clock q.ltime ∧
    (handleQuery env ty q state).state.core.responses = state.core.responses := by
  simp only [handleQuery]
  cases result : recordQuery (witness state.clock q.ltime) q.ltime q.id state.core with
  | none => exact ⟨rfl, rfl⟩
  | some recorded =>
    obtain ⟨core, fresh⟩ := recorded
    have kept := recordQuery_responses _ _ _ _ _ _ result
    cases fresh with
    | false => exact ⟨rfl, kept⟩
    | true =>
      simp only [processQuery]
      split
      · exact ⟨rfl, kept⟩
      · exact ⟨rfl, kept⟩
      · split <;> exact ⟨rfl, kept⟩

omit [DecidableEq Address] in
theorem queryIn_prepared (input : Input) (call : QueryCall Id) (ty : Option (InternalQueryEvent Id))
    (state : QueryState) (q : QueryMessage Id Address) (raw : Bytes)
    (prepared : prepareQuery env input state.clock call = .ok (q, raw)) :
    ∃ queued, queryIn env input.defaultTimeout input.numNodes input.id call.name call.payload
        call.params ty state =
      .ok (handleQuery env ty (.right q) (registerQueryResponse input.numNodes q state),
        queued) := by
  simp only [prepareQuery] at prepared
  simp only [queryIn]
  split at prepared
  · cases prepared
  · rename_i fits
    rw [if_neg fits]
    cases encoded : env.encodeMessageToBytes (stampQuery env state.clock input.id
        (queryParams input.defaultTimeout call.params) call.name call.payload) with
    | error reason =>
      rw [encoded] at prepared
      cases prepared
    | ok bytes =>
      rw [encoded] at prepared
      cases prepared
      dsimp only
      split
      · exact ⟨_, rfl⟩
      · exact ⟨_, rfl⟩

theorem uninterrupted_query (input : Input) (call : QueryCall Id)
    (ty : Option (InternalQueryEvent Id)) (registry : Registry Id Address) (state : QueryState)
    (mirrors : Mirrors registry state) (online : input.numNodes ≠ 0) (q : QueryMessage Id Address)
    (raw : Bytes) (prepared : prepareQuery env input state.clock call = .ok (q, raw)) :
    ∃ outcome queued, queryIn env input.defaultTimeout input.numNodes input.id call.name
        call.payload call.params ty state = .ok (outcome, queued) ∧
      Mirrors (run (querying env).turn ⟨registry, []⟩ [.start (.query call), .advance 0 input,
        .advance 0 input, .advance 0 input]).shared outcome.state := by
  obtain ⟨queued, result⟩ := queryIn_prepared env input call ty state q raw prepared
  refine ⟨_, queued, result, ?_⟩
  obtain ⟨query, made⟩ : ∃ query, fromQuery q input.numNodes input.now = some query := by
    simp [fromQuery, online]
  have registered := register_mirrors registry state mirrors q _ _ query made
  obtain ⟨clock, responses⟩ := handleQuery_witnesses env ty (.right q)
    (registerQueryResponse input.numNodes q state)
  have reached : (run (querying env).turn ⟨registry, []⟩ [.start (.query call), .advance 0 input,
      .advance 0 input, .advance 0 input]).shared =
      { registry.register query with clock := witness registry.clock q.ltime } := by
    rw [← mirrors.clock] at prepared
    simp [run, System.turn, System.started, System.advanced, querying, advance, advanceQuery,
      prepared, made, Registry.register]
  rw [reached]
  constructor
  · rw [clock, mirrors.clock]
    rfl
  · intro ltime
    rw [responses]
    exact registered.responses ltime
  · exact registered.handles

inductive QueryStep (tasks : List (Activity Id Address)) (handle : Nat)
    (query : Query Id Address) : Query Id Address → Prop where
  | same : QueryStep tasks handle query query
  | close : QueryStep tasks handle query query.close
  | takeAck : QueryStep tasks handle query query.takeAck
  | takeResponse : QueryStep tasks handle query query.takeResponse
  | send (resp : QueryResponseMessageRef Id Address) (msg : QueryResponseMessage Id Address)
      (waiting : .answer resp (.checked handle msg) ∈ tasks) :
      QueryStep tasks handle query (query.send msg).1

section Effects

variable (world : World (Registry Id Address) (Activity Id Address))
  (turn : Turn (Call Id Address) Input Change)

inductive Effect : Registry Id Address → Prop where
  | clock (time : LamportTime) : Effect { world.shared with clock := time }
  | register (index : Nat) (input : Input) (q : QueryMessage Id Address) (raw : Bytes)
      (query : Query Id Address) (is : turn = .advance index input)
      (stamped : world.tasks[index]? = some (.query (.stamped q raw)))
      (made : fromQuery q input.numNodes input.now = some query) :
      Effect (world.shared.register query)
  | update (handle : Nat) (f : Query Id Address → Query Id Address)
      (allowed : ∀ query, QueryStep world.tasks handle query (f query)) :
      Effect (world.shared.update handle f)
  | fire (own : Nat) (ltime : LamportTime)
      (waiting : world.shared.timers[own]? = some (.waiting ltime)) :
      Effect (world.shared.fire own ltime)
  | expire (own : Nat) (ltime : LamportTime) (found : Option Nat)
      (removed : world.shared.timers[own]? = some (.removed ltime found)) :
      Effect (world.shared.expire own ltime found)

theorem Effect.unchanged : Effect world turn world.shared :=
  -- The clock may stay where it is.
  .clock world.shared.clock

theorem change_effect (c : Change) : Effect world turn (change world.shared c) := by
  cases c with
  | witness time => exact .clock _
  | timer own =>
    rw [change, Registry.stepTimer]
    cases there : world.shared.timers[own]? with
    | none => exact .unchanged world turn
    | some timer =>
      cases timer with
      | waiting ltime => exact .fire own ltime there
      | removed ltime found => exact .expire own ltime found there
      | ended ltime found => exact .unchanged world turn
  | close handle => exact .update handle _ fun _ => .close
  | takeAck handle => exact .update handle _ fun _ => .takeAck
  | takeResponse handle => exact .update handle _ fun _ => .takeResponse

theorem advance_effect (env : QueryEnvironment Id Address) (index : Nat) (input : Input)
    (is : turn = .advance index input) (task : Activity Id Address)
    (found : world.tasks[index]? = some task) :
    Effect world turn (advance env input world.shared task).1 := by
  cases task with
  | query phase =>
    cases phase with
    | called call =>
      simp only [advance, advanceQuery]
      cases prepareQuery env input world.shared.clock call <;> exact .unchanged world turn
    | stamped q raw =>
      simp only [advance, advanceQuery]
      cases made : fromQuery q input.numNodes input.now with
      | none => exact .unchanged world turn
      | some query => exact .register index input q raw query is found made
    | registered handle q raw => exact .clock _
    | failed reason => exact .unchanged world turn
    | panicked q => exact .unchanged world turn
    | witnessed handle q raw => exact .unchanged world turn
  | answer resp phase =>
    cases phase with
    | arrived => exact .unchanged world turn
    | found handle msg =>
      simp only [advance, advanceAnswer]
      cases world.shared.queries[handle]? <;> exact .unchanged world turn
    | checked handle msg =>
      simp only [advance, advanceAnswer]
      cases world.shared.queries[handle]? with
      | none => exact .unchanged world turn
      | some query =>
        exact .update handle _ fun _ => .send resp msg (List.mem_of_getElem? found)
    | ended ending => exact .unchanged world turn

theorem turn_effect (env : QueryEnvironment Id Address) :
    Effect world turn ((querying env).turn world turn).1.shared := by
  cases turn with
  | start call => exact .unchanged _ _
  | advance index input =>
    rw [System.turn]
    cases found : world.tasks[index]? with
    | none => exact .unchanged _ _
    | some task => exact advance_effect world _ env index input rfl task found
  | change c => exact change_effect world _ c

omit [DecidableEq Id] [DecidableEq Address] in
theorem getElem?_update (registry : Registry Id Address) (handle other : Nat)
    (f : Query Id Address → Query Id Address) :
    (registry.update handle f).queries[other]? =
      (registry.queries[other]?).map fun query => if handle = other then f query else query := by
  simp only [Registry.update, List.getElem?_modify]
  rfl

variable (after : Registry Id Address) (effect : Effect world turn after)

include effect

theorem effect_keeps (handle : Nat) (query : Query Id Address)
    (there : world.shared.queries[handle]? = some query) :
    ∃ next, after.queries[handle]? = some next ∧ QueryStep world.tasks handle query next := by
  have updated : ∀ (registry : Registry Id Address) (target : Nat)
      (f : Query Id Address → Query Id Address), registry.queries = world.shared.queries →
      (∀ query, QueryStep world.tasks target query (f query)) →
      ∃ next, (registry.update target f).queries[handle]? = some next ∧
        QueryStep world.tasks handle query next := by
    intro registry target f same allowed
    rw [getElem?_update, same, there, Option.map_some]
    refine ⟨_, rfl, ?_⟩
    split
    · rename_i equal
      rw [← equal]
      exact allowed query
    · exact .same
  cases effect with
  | clock time => exact ⟨query, there, .same⟩
  | register index input q raw new is stamped made =>
    refine ⟨query, ?_, .same⟩
    have inside := (List.getElem?_eq_some_iff.mp there).1
    simp only [Registry.register]
    rw [List.getElem?_append_left inside]
    exact there
  | update target f allowed => exact updated world.shared target f rfl allowed
  | fire own ltime waiting => exact ⟨query, there, .same⟩
  | expire own ltime found removed =>
    cases found with
    | none => exact ⟨query, there, .same⟩
    | some target => exact updated _ target _ rfl fun _ => .close

theorem effect_origin (handle : Nat) (next : Query Id Address)
    (there : after.queries[handle]? = some next) :
    (∃ query, world.shared.queries[handle]? = some query ∧
      QueryStep world.tasks handle query next) ∨
    (∃ q numNodes now, fromQuery q numNodes now = some next) := by
  cases known : world.shared.queries[handle]? with
  | some query =>
    obtain ⟨reached, here, step⟩ := effect_keeps world turn after effect handle query known
    cases here.symm.trans there
    exact Or.inl ⟨query, rfl, step⟩
  | none =>
    -- Only a registration makes the list longer.
    cases effect with
    | register index input q raw new is stamped made =>
      have outside := List.getElem?_eq_none_iff.mp known
      simp only [Registry.register] at there
      rw [List.getElem?_append_right outside, List.getElem?_singleton] at there
      split at there
      · cases there
        exact Or.inr ⟨q, input.numNodes, input.now, made⟩
      · cases there
    | clock time => cases known.symm.trans there
    | fire own ltime waiting => cases known.symm.trans there
    | update target f allowed =>
      rw [getElem?_update, known] at there
      cases there
    | expire own ltime found removed =>
      cases found with
      | none => cases known.symm.trans there
      | some target =>
        simp only [Registry.expire, getElem?_update, known] at there
        cases there

end Effects

theorem queryStep_fixed (tasks : List (Activity Id Address)) (handle : Nat)
    (query next : Query Id Address) (step : QueryStep tasks handle query next) :
    next.fixed = query.fixed := by
  cases step with
  | same => rfl
  | close =>
    unfold Query.close
    split <;> rfl
  | takeAck => rfl
  | takeResponse => rfl
  | send resp msg waiting =>
    unfold Query.send
    split <;> rfl

end Serf.QueryResponses
