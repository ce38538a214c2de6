import Serf.CoordinateRuns
import Serf.Wire.Coordinate

/-!
Coordinates travel on pings. A node that is pinged puts its coordinate into the
acknowledgement; when the ping completes, the other side updates its client by it and
caches it. The client and the cache have a lock each, and so a ping that completes takes
two steps, between which other pings and the reaper run. The reaper makes the client
forget a node and then takes it out of the cache.
-/

namespace Serf.Ping

open Library.Collections Library.Encoding Library.Fields Library.FloatingPoint Library.Machine
open Coordinates CoordinateClient Wire

variable {Id Address : Type} [DecidableEq Id] [Floating F64] (proto : Proto Id Address)

structure CoordCore (Id : Type) where
  client : CoordinateClient Id F64
  cache : Table Id (Coordinates.Coordinate F64)

def ofWire (coord : Wire.Coordinate) : Coordinates.Coordinate F64 :=
  ⟨coord.portion, coord.error, coord.adjustment, coord.height⟩

def toWire (coord : Coordinates.Coordinate F64) : Wire.Coordinate :=
  ⟨coord.portion, coord.error, coord.adjustment, coord.height⟩

def pingVersion : UInt8 := 1

/-- `ack_payload`. What the buffer holds after an error of the encoder is left out. -/
def ackPayload (core : Option (CoordCore Id)) : Except EncodeError Bytes :=
  match core with
  | none => .ok []
  | some core =>
    ((Wire.coordinate proto).encodeToBytes (toWire core.client.coord)).map (pingVersion :: ·)

structure Pinging (Id : Type) where
  core : CoordCore Id
  pending : List (Id × Coordinates.Coordinate F64)

/-- The first half of `notify_ping_complete`: `none` is a panic. -/
def receiveAck (draws : Draws F64) (node : Id) (rtt : Duration) (payload : Bytes)
    (state : Pinging Id) : Option (Pinging Id) :=
  match payload with
  | [] => some state
  | version :: rest =>
    if version ≠ pingVersion then some state
    else
      match (Wire.coordinate proto).decodeOwned rest with
      | .error (.error _) => some state
      | .error _ => none
      | .ok (_, coord) =>
        (state.core.client.update draws node (ofWire coord) rtt).map fun (client, result) =>
          { core := { state.core with client }
            pending :=
              match result with
              | .ok _ => state.pending ++ [(node, ofWire coord)]
              | .error _ => state.pending }

/-- The second half, of any ping that has come so far: the coordinate of the node goes into
the cache, and the own one as it is by then. -/
def cacheCoordinate (localId : Id) (i : Nat) (state : Pinging Id) : Pinging Id :=
  match state.pending[i]? with
  | none => state
  | some (node, coord) =>
    { core := { state.core with
        cache := (state.core.cache.insert node coord).insert localId state.core.client.coord }
      pending := state.pending.eraseIdx i }

inductive PingOp (Id : Type) where
  | receiveAck (draws : Draws F64) (node : Id) (rtt : Duration) (payload : Bytes)
  | cacheCoordinate (i : Nat)
  /-- The two halves of `erase_node!`. -/
  | forgetNode (node : Id)
  | removeCached (node : Id)

def pingStep (localId : Id) (state : Option (Pinging Id)) (op : PingOp Id) :
    Option (Pinging Id) × Unit :=
  (state.bind fun state =>
    match op with
    | .receiveAck draws node rtt payload => receiveAck proto draws node rtt payload state
    | .cacheCoordinate i => some (cacheCoordinate localId i state)
    | .forgetNode node =>
      some { state with core := { state.core with client := state.core.client.forgetNode node } }
    | .removeCached node =>
      some { state with core := { state.core with cache := state.core.cache.erase node } }, ())

def newPinging (opts : CoordinateOptions F64) : Pinging Id :=
  ⟨⟨withOptions opts, ∅⟩, []⟩

/-- What a node is at after such steps, if none of them panics. -/
def pingsAfter (localId : Id) (opts : CoordinateOptions F64) (ops : List (PingOp Id)) :
    Option (Pinging Id) :=
  run (pingStep proto localId) (some (newPinging opts)) ops

@[reducible] def wholeNumbers : Floating F64 where
  add := (· + ·)
  sub := (· - ·)
  mul := (· * ·)
  div := (· / ·)
  neg x := 0 - x
  max x y := if x ≤ y then y else x
  min x y := if x ≤ y then x else y
  natCast := UInt64.ofNat
  ofScientific mantissa _ _ := UInt64.ofNat mantissa
  abs x := x
  sqrt x := x
  recip x := x
  powf x _ := x * x
  less x y := x < y
  isFinite _ := true
  toU64 x := x

section Safety

variable {proto}

/-- A coordinate that a client with these options accepts. -/
def Usable (opts : CoordinateOptions F64) (coord : Coordinates.Coordinate F64) : Prop :=
  coord.isValid ∧ coord.portion.length = opts.dimensionality

variable (proto) in
/-- An acknowledgement of the node carried this coordinate, within the longest round trip. -/
def Acked (ops : List (PingOp Id)) (node : Id) (coord : Coordinates.Coordinate F64) : Prop :=
  ∃ draws rtt rest read found, .receiveAck draws node rtt (pingVersion :: rest) ∈ ops ∧
    rtt ≤ maxRtt ∧ (Wire.coordinate proto).decodeOwned rest = .ok (read, found) ∧
    ofWire found = coord

variable (proto) in
/-- What holds between the steps of a node, of all whose steps `ops` is the list. -/
structure Sound (localId : Id) (opts : CoordinateOptions F64) (ops : List (PingOp Id))
    (state : Pinging Id) : Prop where
  steady : Steady opts state.core.client
  valid : state.core.client.coord.isValid
  pending : ∀ entry ∈ state.pending, Usable opts entry.2 ∧ Acked proto ops entry.1 entry.2
  cached : ∀ node coord, state.core.cache.lookup node = some coord → Usable opts coord ∧
    (node ≠ localId → Acked proto ops node coord)

omit [DecidableEq Id] in
theorem accepts_usable {opts : CoordinateOptions F64} {client : CoordinateClient Id F64}
    {other : Coordinates.Coordinate F64} {rtt : Duration} (steady : Steady opts client)
    (accepted : client.accepts other rtt) : Usable opts other ∧ rtt ≤ maxRtt := by
  simp only [accepts, Bool.and_eq_true, decide_eq_true_eq] at accepted
  obtain ⟨⟨compatible, valid⟩, early⟩ := accepted
  refine ⟨⟨valid, ?_⟩, early⟩
  rw [← steady.dimension, eq_comm]
  simpa [Coordinates.Coordinate.isCompatibleWith] using compatible

theorem update_returns {opts : CoordinateOptions F64} {client : CoordinateClient Id F64}
    (work : Workable opts) (steady : Steady opts client) (draws : Draws F64) (node : Id)
    (other : Coordinates.Coordinate F64) (rtt : Duration) :
    ∃ after result, client.update draws node other rtt = some (after, result) ∧
      Called client (.update draws node other rtt) after ∧
      (client.accepts other rtt = false → ∃ reason, result = .error reason) ∧
      (client.accepts other rtt → result = .ok after.coord) := by
  cases accepted : client.accepts other rtt with
  | false =>
    obtain ⟨reason, refused⟩ := update_rejected draws node other rtt accepted
    exact ⟨client, _, refused, .rejected _ _ _ _ accepted, fun _ => ⟨reason, rfl⟩, nofun⟩
  | true =>
    obtain ⟨moved, sample, sampled, updated, moves⟩ :=
      update_moves work steady draws node other rtt accepted
    exact ⟨_, _, updated, .moved _ _ _ _ _ _ accepted sampled moves, nofun, fun _ => rfl⟩

omit [DecidableEq Id] [Floating F64] in
theorem decodeOwned_returns (total : FrameTotal proto) (f64 : TotalCodec proto.f64)
    (bytes : Bytes) :
    Returns ((Wire.coordinate proto).decodeOwned bytes) := by
  have back : TotalCodec (Wire.coordinate proto) := coordinate_total total f64
  exact (total_decodeOwned back).returns bytes

variable {localId : Id} {opts : CoordinateOptions F64} {all : List (PingOp Id)} {state : Pinging Id}

theorem receiveAck_sound (total : FrameTotal proto) (f64 : TotalCodec proto.f64)
    (work : Workable opts) (sound : Sound proto localId opts all state)
    (draws : Draws F64) (node : Id) (rtt : Duration) (payload : Bytes)
    (inside : .receiveAck draws node rtt payload ∈ all) :
    ∃ after, receiveAck proto draws node rtt payload state = some after ∧
      Sound proto localId opts all after := by
  cases payload with
  | nil => exact ⟨state, rfl, sound⟩
  | cons version rest =>
    rw [receiveAck]
    by_cases other : version ≠ pingVersion
    · rw [if_pos other]
      exact ⟨state, rfl, sound⟩
    rw [if_neg other]
    obtain rfl : version = pingVersion := not_not.mp other
    have back := decodeOwned_returns total f64 rest
    cases decoded : (Wire.coordinate proto).decodeOwned rest with
    | error fault =>
      rw [decoded] at back
      cases fault with
      | error reason => exact ⟨state, rfl, sound⟩
      | panic => cases back
      | stuck => cases back
    | ok result =>
      obtain ⟨read, coord⟩ := result
      obtain ⟨client, result, updated, called, refused, done⟩ :=
        update_returns work sound.steady draws node (ofWire coord) rtt
      simp only [updated, Option.map_some]
      refine ⟨_, rfl, called.steady sound.steady,
        called.valid work sound.steady sound.valid, ?_, sound.cached⟩
      cases accepted : state.core.client.accepts (ofWire coord) rtt with
      | false =>
        obtain ⟨reason, rfl⟩ := refused accepted
        exact sound.pending
      | true =>
        obtain ⟨usable, early⟩ := accepts_usable sound.steady accepted
        rw [done accepted]
        intro entry member
        rcases List.mem_append.mp member with old | new
        · exact sound.pending entry old
        · rw [List.mem_singleton.mp new]
          exact ⟨usable, draws, rtt, rest, read, coord, inside, early, decoded, rfl⟩

theorem cacheCoordinate_sound (sound : Sound proto localId opts all state) (i : Nat) :
    Sound proto localId opts all (cacheCoordinate localId i state) := by
  rw [cacheCoordinate]
  cases taken : state.pending[i]? with
  | none => exact sound
  | some entry =>
    obtain ⟨node, coord⟩ := entry
    have waited := sound.pending _ (List.mem_of_getElem? taken)
    refine ⟨sound.steady, sound.valid,
      fun entry member => sound.pending entry (List.mem_of_mem_eraseIdx member), ?_⟩
    intro other found cached
    simp only [lookup_insert_eq] at cached
    split at cached
    · rename_i isLocal
      cases cached
      exact ⟨⟨sound.valid, sound.steady.dimension⟩, fun foreign => absurd isLocal foreign⟩
    split at cached
    · rename_i isNode
      cases cached
      rw [isNode]
      exact ⟨waited.1, fun _ => waited.2⟩
    · exact sound.cached other found cached

theorem pingStep_sound (total : FrameTotal proto) (f64 : TotalCodec proto.f64)
    (work : Workable opts) (sound : Sound proto localId opts all state)
    (op : PingOp Id) (inside : op ∈ all) :
    ∃ after, (pingStep proto localId (some state) op).1 = some after ∧
      Sound proto localId opts all after := by
  cases op with
  | receiveAck draws node rtt payload =>
    exact receiveAck_sound total f64 work sound draws node rtt payload inside
  | cacheCoordinate i => exact ⟨_, rfl, cacheCoordinate_sound sound i⟩
  | forgetNode node =>
    exact ⟨_, rfl, (Called.forgotten node).steady sound.steady, sound.valid, sound.pending,
      sound.cached⟩
  | removeCached node =>
    refine ⟨_, rfl, sound.steady, sound.valid, sound.pending, ?_⟩
    intro other coord cached
    simp only [lookup_erase_eq] at cached
    split at cached
    · cases cached
    · exact sound.cached other coord cached

theorem pingsAfter_sound (total : FrameTotal proto) (f64 : TotalCodec proto.f64) (localId : Id)
    (work : Workable opts) (ops : List (PingOp Id)) :
    ∃ state, pingsAfter proto localId opts ops = some state ∧
      Sound proto localId opts ops state := by
  refine run_invariant (pingStep proto localId) (· ∈ ops)
    (fun state => ∃ reached, state = some reached ∧ Sound proto localId opts ops reached) ?_
    (some (newPinging opts)) ops (fun _ member => member) ?_
  · rintro _ op inside ⟨state, rfl, sound⟩
    exact pingStep_sound total f64 work sound op inside
  · refine ⟨_, rfl, steady_withOptions opts, work.fresh, by simp [newPinging], ?_⟩
    intro node coord cached
    simp [newPinging] at cached

/-- Whatever bytes come with the acknowledgements and however the pings and the reaper
interleave, nothing panics, the own coordinate is valid, and so is every cached one, which
an acknowledgement of that very node carried within the longest round trip. -/
theorem cache_sound (total : FrameTotal proto) (f64 : TotalCodec proto.f64) (localId : Id)
    (opts : CoordinateOptions F64) (work : Workable opts) (ops : List (PingOp Id)) :
    ∃ state, pingsAfter proto localId opts ops = some state ∧
      Usable opts state.core.client.coord ∧
      ∀ node coord, state.core.cache.lookup node = some coord → Usable opts coord ∧
        (node ≠ localId → Acked proto ops node coord) := by
  obtain ⟨state, reached, sound⟩ := pingsAfter_sound total f64 localId work ops
  exact ⟨state, reached, ⟨sound.valid, sound.steady.dimension⟩, sound.cached⟩

def distantAck : Bytes :=
  1 :: ([(33, 1), (33, 2), (33, 3), (33, 4), (33, 5), (33, 6), (33, 7), (33, 8), (34, 15), (35, 0),
    (36, 10)] : List (UInt8 × UInt8)).flatMap fun (tag, value) =>
      [tag, value, 0, 0, 0, 0, 0, 0, 0]

/-- The node 2 answers a ping, the node 3 answers one with bytes that are no coordinate, and
the reaper takes out the node 3. -/
def pingRun : List (PingOp UInt8) :=
  [.receiveAck ⟨fun _ => 0, fun _ => 0⟩ 2 7 distantAck,
    .receiveAck ⟨fun _ => 0, fun _ => 0⟩ 3 7 [1, 2, 3], .cacheCoordinate 0, .forgetNode 3,
    .removeCached 3]

omit [DecidableEq Id] [Floating F64] in
theorem cache_sound_reference :
    letI := wholeNumbers
    ∃ state, pingsAfter reference 1 .new pingRun = some state ∧
      state.core.cache.lookup 2 = some ⟨[1, 2, 3, 4, 5, 6, 7, 8], 15, 0, 10⟩ ∧
      state.core.cache.lookup 1 = some state.core.client.coord ∧
      Usable .new state.core.client.coord ∧
      ∀ node coord, state.core.cache.lookup node = some coord → Usable .new coord ∧
        (node ≠ 1 → Acked reference pingRun node coord) := by
  let := wholeNumbers
  obtain ⟨state, reached, usable, cached⟩ := cache_sound reference_total.toFrameTotal
    reference_total.f64 1 .new ⟨by decide, by decide, by decide⟩ pingRun
  have entries : (pingsAfter reference 1 .new pingRun).map (fun state =>
      (state.core.cache.lookup 2, decide (state.core.cache.lookup 1 =
        some state.core.client.coord))) =
      some (some ⟨[1, 2, 3, 4, 5, 6, 7, 8], 15, 0, 10⟩, true) := by decide +kernel
  rw [reached, Option.map_some, Option.some.injEq, Prod.mk.injEq, decide_eq_true_eq] at entries
  exact ⟨state, reached, entries.1, entries.2, usable, cached⟩

end Safety

section Exchange

variable {proto} (laws : FrameLaws proto) (numbers : CoordinateLaws proto)

include laws numbers

omit [DecidableEq Id] [Floating F64] in
theorem ackPayload_reads (core : CoordCore Id)
    (small : coordinateLen proto (toWire core.client.coord) ≤ maxLen) :
    ∃ bytes, ackPayload proto (some core) = .ok (pingVersion :: bytes) ∧
      (Wire.coordinate proto).decodeOwned bytes =
        .ok (bytes.length, toWire core.client.coord) := by
  obtain ⟨bytes, _, encoded, _, rfl, decoded⟩ :=
    (coordinate_lawful laws numbers).encodeToBytes (toWire core.client.coord) trivial small
  refine ⟨bytes, ?_, decoded⟩
  rw [ackPayload, encoded]
  rfl

/-- A ping between two nodes with the same options, whatever both have been through: the
acknowledgement is encoded, and once the ping is completed and cached, the cache of the
node that pinged has the very coordinate of the other one, and its own as it is. -/
theorem ping_caches_coordinate (total : FrameTotal proto) (f64 : TotalCodec proto.f64)
    (localId node : Id) (foreign : node ≠ localId) (opts : CoordinateOptions F64)
    (work : Workable opts)
    (small : ∀ coord : Wire.Coordinate, coord.portion.length = opts.dimensionality →
      coordinateLen proto coord ≤ maxLen)
    (ops others : List (PingOp Id)) (draws : Draws F64) (rtt : Duration) (early : rtt ≤ maxRtt) :
    ∃ prober responder payload after, pingsAfter proto localId opts ops = some prober ∧
      pingsAfter proto node opts others = some responder ∧
      ackPayload proto (some responder.core) = .ok payload ∧
      pingsAfter proto localId opts
        (ops ++ [.receiveAck draws node rtt payload, .cacheCoordinate prober.pending.length]) =
          some after ∧
      after.core.cache.lookup node = some responder.core.client.coord ∧
      after.core.cache.lookup localId = some after.core.client.coord := by
  obtain ⟨prober, reached, sound⟩ := pingsAfter_sound total f64 localId work ops
  obtain ⟨responder, there, theirs⟩ := pingsAfter_sound total f64 node work others
  obtain ⟨bytes, payload, reads⟩ := ackPayload_reads laws numbers responder.core
    (small _ theirs.steady.dimension)
  have same : ofWire (toWire responder.core.client.coord) = responder.core.client.coord := rfl
  have accepted : prober.core.client.accepts responder.core.client.coord rtt := by
    simp [accepts, Coordinates.Coordinate.isCompatibleWith, sound.steady.dimension,
      theirs.steady.dimension, theirs.valid, early]
  obtain ⟨client, result, updated, _, _, done⟩ := update_returns work sound.steady
    draws node responder.core.client.coord rtt
  have completed : receiveAck proto draws node rtt (pingVersion :: bytes) prober =
      some ⟨{ prober.core with client },
        prober.pending ++ [(node, responder.core.client.coord)]⟩ := by
    simp [receiveAck, reads, same, updated, done accepted]
  refine ⟨prober, responder, pingVersion :: bytes,
    cacheCoordinate localId prober.pending.length ⟨{ prober.core with client },
      prober.pending ++ [(node, responder.core.client.coord)]⟩,
    reached, there, payload, ?_, ?_, ?_⟩
  · rw [pingsAfter, run_append]
    rw [pingsAfter] at reached
    rw [reached]
    simp only [run, pingStep, Option.bind_some, completed]
  · simp [cacheCoordinate, foreign]
  · simp [cacheCoordinate]

omit laws numbers [DecidableEq Id] [Floating F64] in
theorem wholeNumbers_small (coord : Wire.Coordinate) (eight : coord.portion.length = 8) :
    coordinateLen reference coord ≤ maxLen := by
  have width : ∀ x : F64, reference.f64.encodedLen x = 8 :=
    fun x => Library.LittleEndian.length_toLeBytes 8 x.toNat
  have plain : ∀ x : F64, reference.framing.framedLen reference.f64 x = 8 :=
    fun x => (reference.framing.framedLen_plain reference_coordinateLaws.f64.plain x).trans
      (width x)
  simp only [coordinateLen, plain, width, List.map_const', eight, List.sum_replicate]
  decide

omit laws numbers [DecidableEq Id] [Floating F64] in
theorem ping_caches_coordinate_reference :
    letI := wholeNumbers
    ∃ prober responder payload after,
      pingsAfter reference 1 .new pingRun = some prober ∧
      pingsAfter reference 2 .new [] = some responder ∧
      ackPayload reference (some responder.core) = .ok payload ∧
      pingsAfter reference 1 .new
        (pingRun ++ [.receiveAck ⟨fun _ => 0, fun _ => 0⟩ 2 7 payload,
          .cacheCoordinate prober.pending.length]) = some after ∧
      after.core.cache.lookup 2 = some responder.core.client.coord ∧
      after.core.cache.lookup 1 = some after.core.client.coord :=
  letI := wholeNumbers
  ping_caches_coordinate reference_laws.toGossipLaws.toFrameLaws reference_coordinateLaws
    reference_total.toFrameTotal reference_total.f64 1 2 (by decide) .new
    ⟨by decide, by decide, by decide⟩ wholeNumbers_small pingRun [] ⟨fun _ => 0, fun _ => 0⟩ 7
    (by decide)

end Exchange

end Serf.Ping
