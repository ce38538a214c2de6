import Serf.Library.Slots
import Serf.LamportClock

/-!
`handle_query` and `query_in`. Like the event store, the query store is a ring
indexed by the Lamport time modulo its size, but here a slot that holds another
time is replaced. `recordQuery` is the dedup stage under the lock; what follows
it (filtering, the acknowledgement and the event) runs on a query that passed.
A query arrives decoded but borrowed, with filters and sender that may still
fail to convert, or owned. Regular expressions, the codec of the messages and
the network are parameters; timers are left out.
-/

namespace Serf.QueryHandler

open Library.Collections Library.Window Library.Slots LamportClock

variable {Id Address : Type} [DecidableEq Id]

structure Queries where
  ltime : LamportTime
  queryIds : List UInt32
  deriving DecidableEq

/-- The part of a registered response that `query_in` fixes. -/
structure QueryResponse where
  id : UInt32
  ltime : LamportTime
  numNodes : Nat
  timeout : Duration
  ack : Bool
  deriving DecidableEq

structure QueryCore where
  responses : Table LamportTime QueryResponse
  minTime : LamportTime
  buffer : SlotRing Queries

structure QueryState where
  clock : LamportTime
  core : QueryCore

structure Regex where
  pattern : String
  isMatch : String → Bool

structure TagFilter where
  tag : String
  expr : Option Regex

inductive Filter (Id : Type) where
  | id (nodes : List Id)
  | tag (filter : TagFilter)

structure TagFilterRef where
  tag : String
  expr : Option String

inductive FilterRef (Id : Type) where
  | id (ids : List (Except DecodeError Id))
  | tag (filter : TagFilterRef)

abbrev QueryFlag := UInt32

def QueryFlag.ACK : QueryFlag := 1
def QueryFlag.NO_BROADCAST : QueryFlag := 2

def contains (flags flag : QueryFlag) : Bool := flags &&& flag == flag

structure QueryMessage (Id Address : Type) where
  ltime : LamportTime
  id : UInt32
  fromNode : Node Id Address
  filters : List (Filter Id)
  flags : QueryFlag
  relayFactor : UInt8
  timeout : Duration
  name : String
  payload : Bytes

structure QueryMessageRef (Id Address : Type) where
  ltime : LamportTime
  id : UInt32
  fromNode : Except DecodeError (Node Id Address)
  filters : List (Except DecodeError (FilterRef Id))
  flags : QueryFlag
  relayFactor : UInt8
  timeout : Duration
  name : String
  payload : Bytes

inductive QueryInput (Id Address : Type) where
  | left (q : QueryMessageRef Id Address)
  | right (q : QueryMessage Id Address)

structure QueryResponseMessage (Id Address : Type) where
  ltime : LamportTime
  id : UInt32
  fromNode : Node Id Address
  flags : QueryFlag
  payload : Bytes

inductive InternalQueryEvent (Id : Type) where
  | ping
  | conflict (id : Id)
  | installKey
  | useKey
  | removeKey
  | listKey

structure QueryEvent (Id Address : Type) where
  ltime : LamportTime
  name : String
  payload : Bytes
  queryTimeout : Duration
  id : UInt32
  fromNode : Node Id Address
  relayFactor : UInt8

inductive CrateEvent (Id Address : Type) where
  | member (event : MemberEvent Id Address)
  | user (event : UserEventMessage)
  | query (event : QueryEvent Id Address)
  | internalQuery (kind : InternalQueryEvent Id) (query : QueryEvent Id Address)

/-- The local id is the id of the advertised node. -/
structure QueryEnvironment (Id Address : Type) where
  advertiseNode : Node Id Address
  tags : Tags
  regexNew : String → Option Regex
  encodeResponse : QueryResponseMessage Id Address → Except String Bytes
  querySizeLimit : Nat
  encodedMessageLen : QueryMessage Id Address → Nat
  encodeMessageToBytes : QueryMessage Id Address → Except String Bytes

structure Ack (Id Address : Type) where
  destination : Node Id Address
  response : QueryResponseMessage Id Address
  raw : Bytes
  relayFactor : UInt8

structure QueryOutcome (Id Address : Type) where
  state : QueryState
  /-- The query passed the dedup stage. -/
  recorded : Bool
  ack : Option (Ack Id Address)
  sent : List (CrateEvent Id Address)
  /-- `none` is a panic. -/
  returned : Option (Except DecodeError Bool)

def recordQuery (curTime ltime : LamportTime) (id : UInt32) (core : QueryCore) :
    Option (QueryCore × Bool) :=
  if ltime < core.minTime then some (core, false)
  else if TooOld curTime (size core.buffer) ltime then some (core, false)
  else
    match readSlot core.buffer ltime with
    | none => none
    | some (some seen) =>
      if seen.ltime = ltime then
        if id ∈ seen.queryIds then some (core, false)
        else
          let slot := { seen with queryIds := seen.queryIds ++ [id] }
          some ({ core with buffer := writeSlot core.buffer ltime slot }, true)
      else some ({ core with buffer := writeSlot core.buffer ltime ⟨ltime, [id]⟩ }, true)
    | some none => some ({ core with buffer := writeSlot core.buffer ltime ⟨ltime, [id]⟩ }, true)

def targeted (localId : Id) : List (Except DecodeError Id) → Except DecodeError Bool
  | [] => .ok false
  | .error reason :: _ => .error reason
  | .ok id :: rest => if id = localId then .ok true else targeted localId rest

def tagRefPasses (env : QueryEnvironment Id Address) (filter : TagFilterRef) :
    Except DecodeError Bool :=
  if env.tags.keys.isEmpty then .ok false
  else
    match env.tags.lookup filter.tag with
    | none => .ok false
    | some value =>
      match filter.expr with
      | none => .ok true
      | some expr =>
        match env.regexNew expr with
        | none => .error (.custom "invalid regex")
        | some regex => .ok (regex.isMatch value)

def filterRefPasses (env : QueryEnvironment Id Address) : FilterRef Id → Except DecodeError Bool
  | .id ids => targeted env.advertiseNode.id ids
  | .tag filter => tagRefPasses env filter

def filterPasses (env : QueryEnvironment Id Address) : Filter Id → Bool
  | .id nodes => nodes.any fun n => n = env.advertiseNode.id
  | .tag filter =>
    if env.tags.keys.isEmpty then false
    else
      match env.tags.lookup filter.tag with
      | none => false
      | some value =>
        match filter.expr with
        | none => true
        | some regex => regex.isMatch value

/-- The borrowed filters, one by one, up to the first that fails to decode or
does not pass. -/
def filterRefsPass (env : QueryEnvironment Id Address) :
    List (Except DecodeError (FilterRef Id)) → Except DecodeError Bool
  | [] => .ok true
  | .error reason :: _ => .error reason
  | .ok filter :: rest =>
    match filterRefPasses env filter with
    | .error reason => .error reason
    | .ok false => .ok false
    | .ok true => filterRefsPass env rest

def shouldProcessQuery (env : QueryEnvironment Id Address) (q : QueryInput Id Address) :
    Except DecodeError Bool :=
  match q with
  | .left q => filterRefsPass env q.filters
  | .right q => .ok (q.filters.all (filterPasses env))

namespace QueryInput

def ltime : QueryInput Id Address → LamportTime
  | .left q => q.ltime
  | .right q => q.ltime

def id : QueryInput Id Address → UInt32
  | .left q => q.id
  | .right q => q.id

def flags : QueryInput Id Address → QueryFlag
  | .left q => q.flags
  | .right q => q.flags

/-- The owned name, payload, sender and relay factor and the timeout, under
the query's time and id. -/
def event : QueryInput Id Address → Except DecodeError (QueryEvent Id Address)
  | .left q =>
    match q.fromNode with
    | .error reason => .error reason
    | .ok node => .ok ⟨q.ltime, q.name, q.payload, q.timeout, q.id, node, q.relayFactor⟩
  | .right q => .ok ⟨q.ltime, q.name, q.payload, q.timeout, q.id, q.fromNode, q.relayFactor⟩

end QueryInput

def makeAck (env : QueryEnvironment Id Address) (q : QueryInput Id Address)
    (event : QueryEvent Id Address) : Option (Ack Id Address) :=
  if contains q.flags .ACK then
    let response := ⟨q.ltime, q.id, env.advertiseNode, .ACK, []⟩
    match env.encodeResponse response with
    | .ok raw => some ⟨event.fromNode, response, raw, event.relayFactor⟩
    | .error _ => none
  else none

/-- What `handle_query` does with a query that passed the dedup stage. -/
def processQuery (env : QueryEnvironment Id Address) (ty : Option (InternalQueryEvent Id))
    (q : QueryInput Id Address) (state : QueryState) : QueryOutcome Id Address :=
  let rebroadcast := !contains q.flags .NO_BROADCAST
  match shouldProcessQuery env q with
  | .error reason => ⟨state, true, none, [], some (.error reason)⟩
  | .ok false => ⟨state, true, none, [], some (.ok rebroadcast)⟩
  | .ok true =>
    match q.event with
    | .error reason => ⟨state, true, none, [], some (.error reason)⟩
    | .ok event =>
      let sent :=
        match ty with
        | some kind => CrateEvent.internalQuery kind event
        | none => CrateEvent.query event
      ⟨state, true, makeAck env q event, [sent], some (.ok rebroadcast)⟩

def handleQuery (env : QueryEnvironment Id Address) (ty : Option (InternalQueryEvent Id))
    (q : QueryInput Id Address) (state : QueryState) : QueryOutcome Id Address :=
  let clock := witness state.clock q.ltime
  match recordQuery clock q.ltime q.id state.core with
  | none => ⟨{ state with clock := clock }, false, none, [], none⟩
  | some (core, false) => ⟨⟨clock, core⟩, false, none, [], some (.ok false)⟩
  | some (core, true) => processQuery env ty q ⟨clock, core⟩

structure QueryParam (Id : Type) where
  filters : List (Filter Id)
  requestAck : Bool
  relayFactor : UInt8
  timeout : Duration

inductive QueryError where
  | queryTooLarge (len : Nat)
  | encode (reason : String)
  deriving DecidableEq

def queryParams (defaultTimeout : Duration) : Option (QueryParam Id) → QueryParam Id
  | some params => if params.timeout ≠ 0 then params else { params with timeout := defaultTimeout }
  | none => ⟨[], false, 0, defaultTimeout⟩

/-- The query that `query_in` stamps with the current query time. -/
def stampQuery (env : QueryEnvironment Id Address) (clock : LamportTime) (id : UInt32)
    (params : QueryParam Id) (name : String) (payload : Bytes) : QueryMessage Id Address where
  ltime := clock
  id := id
  fromNode := env.advertiseNode
  filters := params.filters
  flags := if params.requestAck then .ACK else 0
  relayFactor := params.relayFactor
  timeout := params.timeout
  name := name
  payload := payload

def registerQueryResponse (numNodes : Nat) (q : QueryMessage Id Address) (state : QueryState) :
    QueryState :=
  let response := ⟨q.id, q.ltime, numNodes, q.timeout, contains q.flags .ACK⟩
  { state with
    core := { state.core with responses := state.core.responses.insert q.ltime response } }

/-- `id` is the random query id, `numNodes` the online members and
`defaultTimeout` the default timeout at the call. The bytes are queued for
broadcast once the local handling has returned without an error. -/
def queryIn (env : QueryEnvironment Id Address) (defaultTimeout : Duration) (numNodes : Nat)
    (id : UInt32) (name : String) (payload : Bytes) (params : Option (QueryParam Id))
    (ty : Option (InternalQueryEvent Id)) (state : QueryState) :
    Except QueryError (QueryOutcome Id Address × Option Bytes) :=
  let q := stampQuery env state.clock id (queryParams defaultTimeout params) name payload
  let len := env.encodedMessageLen q
  if env.querySizeLimit < len then .error (.queryTooLarge len)
  else
    match env.encodeMessageToBytes q with
    | .error reason => .error (.encode reason)
    | .ok raw =>
      let outcome := handleQuery env ty (.right q) (registerQueryResponse numNodes q state)
      match outcome.returned with
      | some (.ok _) => .ok (outcome, some raw)
      | _ => .ok (outcome, none)

def queryStep (env : QueryEnvironment Id Address) (state : QueryState)
    (op : QueryInput Id Address × Option (InternalQueryEvent Id)) :
    QueryState × QueryOutcome Id Address :=
  ((handleQuery env op.2 op.1 state).state, handleQuery env op.2 op.1 state)

def plainEnvironment : QueryEnvironment String Nat where
  advertiseNode := ⟨"a", 1⟩
  tags := ∅
  regexNew _ := none
  encodeResponse _ := .ok []
  querySizeLimit := 1024
  encodedMessageLen _ := 16
  encodeMessageToBytes _ := .ok []

end Serf.QueryHandler
