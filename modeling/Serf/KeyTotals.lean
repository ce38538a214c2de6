import Serf.QueryResponses
import Serf.Wire.KeyRef

/-!
The totals of a key request. `stream_key_response` goes through the responses of the
nodes until there are as many as nodes, and counts the responses, the errors and the
keys. It counts each key before it decodes the next, and a response of which the keys
cannot be decoded as an error even if it was one before. So the totals are right as long
as a list that cannot be decoded comes with a good result and fails at its first key.
-/

namespace Serf.KeyTotals

open Library.Collections Library.Encoding QueryHandler QueryResponses Wire

variable {Id Address : Type} [DecidableEq Id]

section Stream

structure KeyResponse (Id : Type) where
  numNodes : Nat
  messages : Table Id String
  numResp : Nat
  numErr : Nat
  keys : Table SecretKey Nat
  primaryKeys : Table SecretKey Nat

/-- How a decode error is printed, with `{}` and with `{:?}`. -/
structure ErrorTexts where
  display : DecodeError → String
  debug : DecodeError → String

/-- The `Display` of a message type. -/
def typeText : MessageType → String
  | .leave => "leave"
  | .join => "join"
  | .pushPull => "push_pull"
  | .userEvent => "user_event"
  | .query => "query"
  | .queryResponse => "query_response"
  | .conflictResponse => "conflict_response"
  | .relay => "relay"
  | .keyRequest => "key_request"
  | .keyResponse => "key_response"
  | .unknown value => "unknown(" ++ toString value ++ ")"

variable (proto : Proto Id Address) (texts : ErrorTexts)

def note (resp : KeyResponse Id) (r : NodeResponse Id Address) (text : String) : KeyResponse Id :=
  { resp with messages := resp.messages.insert r.fromNode.id text }

def fail (resp : KeyResponse Id) (r : NodeResponse Id Address) (text : String) : KeyResponse Id :=
  { note resp r text with numErr := resp.numErr + 1 }

/-- `try_for_each` over the keys, with the error that ended it. -/
def countKeys (counts : Table SecretKey Nat) :
    List (Except DecodeError SecretKey) → Table SecretKey Nat × Option DecodeError
  | [] => (counts, none)
  | .ok key :: rest => countKeys (bump counts key) rest
  | .error reason :: _ => (counts, some reason)

def report (resp : KeyResponse Id) (r : NodeResponse Id Address)
    (nodeResponse : KeyResponseMessageRef) : KeyResponse Id :=
  let resp := if !nodeResponse.result then fail resp r nodeResponse.message else resp
  if nodeResponse.result && !nodeResponse.message.isEmpty then
    note resp r nodeResponse.message
  else resp

def takeKeyResponse (resp : KeyResponse Id) (r : NodeResponse Id Address)
    (nodeResponse : KeyResponseMessageRef) : Option (KeyResponse Id) :=
  let resp := report resp r nodeResponse
  match nodeResponse.iterKeys proto with
  | .error _ => none
  | .ok items =>
    match countKeys resp.keys items with
    | (keys, some reason) =>
      some (fail { resp with keys } r
        ("Failed to decode key query response: " ++ texts.debug reason))
    | (keys, none) =>
      match nodeResponse.primaryKey with
      | some key => some { resp with keys, primaryKeys := bump resp.primaryKeys key }
      | none => some { resp with keys }

/-- One turn of the loop; `none` is a panic of the decoder. -/
def takeResponse (resp : KeyResponse Id) (r : NodeResponse Id Address) :
    Option (KeyResponse Id) :=
  let resp := { resp with numResp := resp.numResp + 1 }
  if r.payload.isEmpty then some (fail resp r "empty payload")
  else
    match decodeKeyReply proto r.payload with
    | .ok (.keyResponse nodeResponse) => takeKeyResponse proto texts resp r nodeResponse
    | .ok (.other msg) => some (fail resp r ("invalid key query response: " ++ typeText msg.ty))
    | .error (.error reason) => some (fail resp r (texts.display reason))
    | .error _ => none

def streamLoop : List (NodeResponse Id Address) → KeyResponse Id → Option (KeyResponse Id)
  | [], resp => some resp
  | r :: rest, resp =>
    match takeResponse proto texts resp r with
    | none => none
    | some resp => if resp.numResp = resp.numNodes then some resp else streamLoop rest resp

def streamKeyResponse (numNodes : Nat) (responses : List (NodeResponse Id Address)) :
    Option (KeyResponse Id) :=
  streamLoop proto texts responses ⟨numNodes, ∅, 0, 0, ∅, ∅⟩

end Stream

section Readings

inductive Reading where
  | unreadable
  | listed (result : Bool) (keys : List SecretKey) (complete : Bool)
      (primaryKey : Option SecretKey)
  deriving DecidableEq

def decodedKeys : List (Except DecodeError SecretKey) → List SecretKey × Bool
  | [] => ([], true)
  | .ok key :: rest => (key :: (decodedKeys rest).1, (decodedKeys rest).2)
  | .error _ :: _ => ([], false)

def reading (proto : Proto Id Address) (r : NodeResponse Id Address) : Option Reading :=
  if r.payload.isEmpty then some .unreadable
  else
    match decodeKeyReply proto r.payload with
    | .ok (.keyResponse message) =>
      match message.iterKeys proto with
      | .error _ => none
      | .ok items =>
        some (.listed message.result (decodedKeys items).1 (decodedKeys items).2
          message.primaryKey)
    | .ok (.other _) => some .unreadable
    | .error (.error _) => some .unreadable
    | .error _ => none

/-- The response was empty, not decodable, of another type, reported a failure or had keys
that are not decodable. -/
def Reading.faulty : Reading → Bool
  | .unreadable => true
  | .listed result _ complete _ => !result || !complete

def Reading.faults : Reading → Nat
  | .unreadable => 1
  | .listed result _ complete _ => (if result then 0 else 1) + if complete then 0 else 1

def Reading.shown : Reading → List SecretKey
  | .unreadable => []
  | .listed _ keys _ _ => keys

/-- The keys of a list that was decoded completely. -/
def Reading.full : Reading → List SecretKey
  | .unreadable => []
  | .listed _ keys complete _ => if complete then keys else []

def Reading.primary : Reading → Option SecretKey
  | .unreadable => none
  | .listed _ _ complete primaryKey => if complete then primaryKey else none

/-- A list that breaks off does so at its first key, and with a good result. -/
def Reading.Sound : Reading → Prop
  | .unreadable => True
  | .listed result keys complete _ => complete = true ∨ (result = true ∧ keys = [])

end Readings

section Step

structure Books (x : Reading) (before after : KeyResponse Id) : Prop where
  numNodes : after.numNodes = before.numNodes
  numResp : after.numResp = before.numResp + 1
  numErr : after.numErr = before.numErr + x.faults
  keys : after.keys = x.shown.foldl bump before.keys
  primaryKeys : after.primaryKeys = x.primary.toList.foldl bump before.primaryKeys

theorem countKeys_eq (counts : Table SecretKey Nat) (items : List (Except DecodeError SecretKey)) :
    (countKeys counts items).1 = (decodedKeys items).1.foldl bump counts ∧
      (countKeys counts items).2.isNone = (decodedKeys items).2 := by
  induction items generalizing counts with
  | nil => exact ⟨rfl, rfl⟩
  | cons item rest ih =>
    cases item with
    | ok key => exact ih (bump counts key)
    | error reason => exact ⟨rfl, rfl⟩

variable (proto : Proto Id Address) (texts : ErrorTexts)

variable (resp : KeyResponse Id) (r : NodeResponse Id Address)

theorem books_fail (text : String) :
    Books .unreadable resp (fail { resp with numResp := resp.numResp + 1 } r text) :=
  ⟨rfl, rfl, rfl, rfl, rfl⟩

theorem report_eq (message : KeyResponseMessageRef) :
    ∃ messages, report resp r message =
      { resp with messages, numErr := resp.numErr + if message.result then 0 else 1 } := by
  unfold report
  cases message.result with
  | false => exact ⟨_, rfl⟩
  | true => cases message.message.isEmpty <;> exact ⟨_, rfl⟩

theorem takeKeyResponse_books (message : KeyResponseMessageRef)
    (items : List (Except DecodeError SecretKey)) (gone : message.iterKeys proto = .ok items) :
    ∃ next, takeKeyResponse proto texts { resp with numResp := resp.numResp + 1 } r message =
        some next ∧
      Books (.listed message.result (decodedKeys items).1 (decodedKeys items).2
        message.primaryKey) resp next := by
  obtain ⟨messages, reported⟩ := report_eq { resp with numResp := resp.numResp + 1 } r message
  obtain ⟨counted, ended⟩ := countKeys_eq resp.keys items
  unfold takeKeyResponse
  simp only [reported, gone]
  generalize countKeys resp.keys items = total at counted ended
  obtain ⟨keys, failure⟩ := total
  rw [← ended]
  cases failure with
  | some reason => exact ⟨_, rfl, rfl, rfl, Nat.add_assoc _ _ _, counted, rfl⟩
  | none =>
    cases message.primaryKey with
    | some key => exact ⟨_, rfl, rfl, rfl, rfl, counted, rfl⟩
    | none => exact ⟨_, rfl, rfl, rfl, rfl, counted, rfl⟩

theorem takeResponse_books :
    Option.Rel (fun x next => Books x resp next) (reading proto r)
      (takeResponse proto texts resp r) := by
  unfold reading takeResponse
  by_cases empty : r.payload.isEmpty = true
  · rw [if_pos empty, if_pos empty]
    exact .some (books_fail resp r _)
  · rw [if_neg empty, if_neg empty]
    cases decodeKeyReply proto r.payload with
    | error fault =>
      cases fault with
      | error reason => exact .some (books_fail resp r _)
      | panic => exact .none
      | stuck => exact .none
    | ok reply =>
      cases reply with
      | other msg => exact .some (books_fail resp r _)
      | keyResponse message =>
        cases gone : message.iterKeys proto with
        | error fault =>
          simp only [takeKeyResponse, gone]
          exact .none
        | ok items =>
          obtain ⟨next, taken, booked⟩ :=
            takeKeyResponse_books proto texts resp r message items gone
          simp only [gone]
          rw [taken]
          exact .some booked

end Step

section Run

structure Totals (numNodes : Nat) (readings : List Reading) (resp : KeyResponse Id) : Prop where
  numNodes : resp.numNodes = numNodes
  numResp : resp.numResp = readings.length
  numErr : resp.numErr = (readings.map Reading.faults).sum
  keys : Tallies resp.keys (readings.flatMap Reading.shown)
  primaryKeys : Tallies resp.primaryKeys (readings.filterMap Reading.primary)

omit [DecidableEq Id] in
theorem totals_start (numNodes : Nat) :
    Totals numNodes [] (⟨numNodes, ∅, 0, 0, ∅, ∅⟩ : KeyResponse Id) :=
  ⟨rfl, rfl, rfl, tallies_empty, tallies_empty⟩

omit [DecidableEq Id] in
theorem totals_books {numNodes : Nat} {readings : List Reading} {x : Reading}
    {before after : KeyResponse Id} (totals : Totals numNodes readings before)
    (booked : Books x before after) : Totals numNodes (readings ++ [x]) after where
  numNodes := booked.numNodes.trans totals.numNodes
  numResp := by rw [booked.numResp, totals.numResp, List.length_append, List.length_singleton]
  numErr := by simp [booked.numErr, totals.numErr]
  keys := by
    rw [booked.keys, List.flatMap_append, List.flatMap_singleton]
    exact tallies_foldl_bump totals.keys x.shown
  primaryKeys := by
    rw [booked.primaryKeys, List.filterMap_append]
    have more := tallies_foldl_bump totals.primaryKeys x.primary.toList
    cases found : x.primary with
    | none => simpa [found] using more
    | some key => simpa [found] using more

variable (proto : Proto Id Address) (texts : ErrorTexts)

theorem streamLoop_totals (responses : List (NodeResponse Id Address)) {numNodes : Nat}
    {readings : List Reading} {resp : KeyResponse Id} (totals : Totals numNodes readings resp)
    (missing : readings.length < numNodes) :
    Option.Rel (fun more final => Totals numNodes (readings ++ more) final)
      ((responses.take (numNodes - readings.length)).mapM (reading proto))
      (streamLoop proto texts responses resp) := by
  induction responses generalizing readings resp with
  | nil =>
    rw [List.take_nil, List.mapM_nil]
    refine .some ?_
    rwa [List.append_nil]
  | cons r rest ih =>
    have left : numNodes - readings.length = numNodes - (readings.length + 1) + 1 := by omega
    rw [left, List.take_succ_cons, List.mapM_cons, streamLoop]
    have turn := takeResponse_books proto texts resp r
    revert turn
    generalize reading proto r = read
    generalize takeResponse proto texts resp r = taken
    rintro (@⟨x, next, booked⟩ | _)
    · have now := totals_books totals booked
      have counted := now.numResp
      rw [List.length_append, List.length_singleton] at counted
      simp only [Option.bind_eq_bind, Option.bind_some, now.numNodes, counted]
      by_cases full : readings.length + 1 = numNodes
      · rw [if_pos full, full, Nat.sub_self, List.take_zero, List.mapM_nil]
        exact .some now
      · rw [if_neg full]
        have later := ih now (by
          rw [List.length_append, List.length_singleton]
          omega)
        rw [List.length_append, List.length_singleton] at later
        revert later
        generalize (rest.take (numNodes - (readings.length + 1))).mapM (reading proto) = more
        generalize streamLoop proto texts rest next = final
        rintro (@⟨others, last, ended⟩ | _)
        · refine .some ?_
          rwa [List.append_cons]
        · exact .none
    · exact .none

end Run

section Consistency

variable (proto : Proto Id Address)

/-- The totals are those of the responses consumed. -/
structure Consistent (numNodes : Nat) (consumed : List (NodeResponse Id Address))
    (resp : KeyResponse Id) : Prop where
  numResp : resp.numResp = consumed.length
  bounds : resp.numErr ≤ resp.numResp ∧ resp.numResp ≤ numNodes
  numErr : resp.numErr = (consumed.filterMap (reading proto)).countP Reading.faulty
  keys : Tallies resp.keys ((consumed.filterMap (reading proto)).flatMap Reading.full)
  primaryKeys :
    Tallies resp.primaryKeys ((consumed.filterMap (reading proto)).filterMap Reading.primary)

theorem full_sublist (x : Reading) : x.full.Sublist x.shown := by
  cases x with
  | unreadable => exact .slnil
  | listed _ keys complete _ =>
    cases complete with
    | true => exact .refl keys
    | false => exact keys.nil_sublist

theorem faulty_le (x : Reading) : x.faulty.toNat ≤ x.faults := by
  cases x with
  | unreadable => exact Nat.le_refl 1
  | listed result _ complete _ =>
    cases result <;> cases complete <;> simp [Reading.faulty, Reading.faults]

theorem sound_iff (x : Reading) :
    x.Sound ↔ x.faults = x.faulty.toNat ∧ x.shown.length = x.full.length := by
  cases x with
  | unreadable => exact ⟨fun _ => ⟨rfl, rfl⟩, fun _ => trivial⟩
  | listed result keys complete _ =>
    cases result <;> cases complete <;>
      simp [Reading.faulty, Reading.faults, Reading.full, Reading.shown, Reading.Sound]

theorem shown_perm_iff (readings : List Reading) :
    (readings.flatMap Reading.shown).Perm (readings.flatMap Reading.full) ↔
      ∀ x ∈ readings, x.shown.length = x.full.length := by
  constructor
  · intro alike
    have lengths := alike.length_eq
    rw [List.length_flatMap, List.length_flatMap] at lengths
    exact (sum_map_eq_iff fun x _ => (full_sublist x).length_le).mp lengths
  · intro alike
    refine List.Perm.of_eq (List.flatMap_congr fun x inside => ?_)
    exact ((full_sublist x).eq_of_length (alike x inside).symm).symm

omit [DecidableEq Id] in
theorem totals_sound_iff {numNodes : Nat} {readings : List Reading} {resp : KeyResponse Id}
    (totals : Totals numNodes readings resp) :
    resp.numErr = readings.countP Reading.faulty ∧
        Tallies resp.keys (readings.flatMap Reading.full) ↔
      ∀ x ∈ readings, x.Sound := by
  rw [totals.numErr, ← sum_toNat, sum_map_eq_iff fun x _ => faulty_le x, tallies_iff totals.keys,
    shown_perm_iff, ← forall₂_and]
  exact forall₂_congr fun x _ => (sound_iff x).symm

theorem consistent_of_totals {numNodes : Nat} {readings : List Reading} {resp : KeyResponse Id}
    {consumed : List (NodeResponse Id Address)} (short : consumed.length ≤ numNodes)
    (all : ∀ r ∈ consumed, (reading proto r).isSome)
    (found : consumed.filterMap (reading proto) = readings) (totals : Totals numNodes readings resp)
    (errors : resp.numErr = readings.countP Reading.faulty)
    (keys : Tallies resp.keys (readings.flatMap Reading.full)) :
    Consistent proto numNodes consumed resp := by
  have counted : resp.numResp = consumed.length := by
    rw [totals.numResp, ← found]
    exact List.filterMap_length_eq_length.mpr all
  subst found
  refine ⟨counted, ⟨?_, counted.trans_le short⟩, errors, keys, totals.primaryKeys⟩
  rw [errors, totals.numResp]
  exact List.countP_le_length

variable {proto}

variable (proto) in
/-- The payload can be decoded or refused, and so can each of its keys: nothing panics. -/
def Readable (payload : Bytes) : Prop :=
  Returns (decodeMessage proto payload) ∧
    ∀ message, decodeKeyReply proto payload = .ok (.keyResponse message) →
      Returns (message.iterKeys proto)

theorem reading_isSome_iff (r : NodeResponse Id Address) :
    (reading proto r).isSome ↔ Readable proto r.payload := by
  rw [Readable, ← decodeKeyReply_returns_iff]
  unfold reading
  by_cases empty : r.payload.isEmpty = true
  · rw [if_pos empty, List.isEmpty_iff.mp empty]
    exact iff_of_true rfl ⟨trivial, fun message decoded => nomatch decoded⟩
  · rw [if_neg empty]
    cases decodeKeyReply proto r.payload with
    | error fault =>
      cases fault with
      | error reason => exact iff_of_true rfl ⟨trivial, fun _ => nofun⟩
      | panic => exact iff_of_false Bool.false_ne_true And.left
      | stuck => exact iff_of_false Bool.false_ne_true And.left
    | ok reply =>
      cases reply with
      | other msg => exact iff_of_true rfl ⟨trivial, fun _ => nofun⟩
      | keyResponse message =>
        have through := iterKeys_returns_iff proto message
        cases gone : message.iterKeys proto with
        | ok items =>
          simp only [gone]
          refine iff_of_true rfl ⟨trivial, fun other same => ?_⟩
          cases same
          exact through.mpr ⟨items, gone⟩
        | error fault =>
          simp only [gone]
          refine iff_of_false Bool.false_ne_true fun readable => ?_
          obtain ⟨items, all⟩ := through.mp (readable.2 message rfl)
          cases gone.symm.trans all

/-- The totals are consistent if and only if all responses can be read and no key list
that breaks off comes after a key that was decoded or with a bad result. -/
theorem totals_consistent_iff (texts : ErrorTexts) (numNodes : Nat)
    (nodes : 1 ≤ numNodes) (responses : List (NodeResponse Id Address)) :
    (∃ resp, streamKeyResponse proto texts numNodes responses = some resp ∧
        Consistent proto numNodes (responses.take numNodes) resp) ↔
      ∀ r ∈ responses.take numNodes, Readable proto r.payload ∧
        ∀ x, reading proto r = some x → x.Sound := by
  have run := streamLoop_totals proto texts responses (totals_start numNodes) nodes
  simp only [List.length_nil, Nat.sub_zero, List.nil_append] at run
  change Option.Rel _ _ (streamKeyResponse proto texts numNodes responses) at run
  revert run
  generalize streamKeyResponse proto texts numNodes responses = result
  generalize read : (responses.take numNodes).mapM (reading proto) = readings
  rintro (@⟨readings, resp, totals⟩ | _)
  · obtain ⟨all, found⟩ := (mapM_some_iff _ _ _).mp read
    constructor
    · rintro ⟨other, same, consistent⟩ r inside
      cases same
      refine ⟨(reading_isSome_iff r).mp (all r inside), fun x made => ?_⟩
      have errors := consistent.numErr
      have keys := consistent.keys
      rw [found] at errors keys
      apply (totals_sound_iff totals).mp ⟨errors, keys⟩
      rw [← found]
      exact List.mem_filterMap.mpr ⟨r, inside, made⟩
    · intro good
      have sound : ∀ x ∈ readings, x.Sound := by
        intro x inside
        rw [← found, List.mem_filterMap] at inside
        obtain ⟨r, member, made⟩ := inside
        exact (good r member).2 x made
      obtain ⟨errors, keys⟩ := (totals_sound_iff totals).mpr sound
      have short := List.length_take_le numNodes responses
      exact ⟨resp, rfl, consistent_of_totals proto short all found totals errors keys⟩
  · constructor
    · rintro ⟨resp, impossible, _⟩
      cases impossible
    · intro good
      have all := (mapM_some_iff (reading proto) (responses.take numNodes) _).mpr
        ⟨fun r inside => (reading_isSome_iff r).mpr (good r inside).1, rfl⟩
      rw [read] at all
      cases all

def silent : ErrorTexts := ⟨fun _ => "", fun _ => ""⟩

def answer (id : UInt8) (payload : Bytes) : NodeResponse UInt8 UInt8 := ⟨⟨id, id⟩, payload⟩

def sevens : Bytes := [19, 18, 17, 16] ++ List.replicate 16 7

def goodResult (more : Bytes) : Bytes :=
  [26, 22 + UInt8.ofNat more.length, merge .byte 1, 1] ++ sevens ++ more

def badResult (more : Bytes) : Bytes :=
  [26, 20 + UInt8.ofNat more.length] ++ sevens ++ more

/-- An empty payload, a list that breaks off at its first key, and a response with a key. -/
def heard : List (NodeResponse UInt8 UInt8) :=
  [answer 1 [], answer 2 [26, 5, 1, 1, 19, 1, 5], answer 3 (goodResult [])]

theorem totals_consistent_two :
    ∃ resp, streamKeyResponse reference silent 3 heard = some resp ∧
      Consistent reference 3 heard resp := by
  refine (totals_consistent_iff silent 3 (by decide) heard).mpr ?_
  have first : reading reference (answer 1 []) = some .unreadable := rfl
  have second : reading reference (answer 2 [26, 5, 1, 1, 19, 1, 5]) =
      some (.listed true [] false none) := by decide +kernel
  have third : reading reference (answer 3 (goodResult [])) =
      some (.listed true [.filled 7] true none) := by decide +kernel
  have sound : ∀ {r x}, reading reference r = some x → x.Sound → Readable reference r.payload ∧
      ∀ y, reading reference r = some y → y.Sound := by
    intro r x made good
    refine ⟨(reading_isSome_iff r).mp (made ▸ rfl), fun y again => ?_⟩
    cases made.symm.trans again
    exact good
  refine List.forall_mem_cons.mpr ⟨sound first trivial, List.forall_mem_cons.mpr
    ⟨sound second (Or.inr ⟨rfl, rfl⟩), List.forall_mem_singleton.mpr (sound third (Or.inl rfl))⟩⟩

/-- A list that breaks off at its second key, without and with a good result; a message and
a key that make the decoder panic. -/
theorem totals_inflated :
    (reading reference (answer 1 (badResult [19, 1, 5])) =
        some (.listed false [.filled 7] false none) ∧
      (streamKeyResponse reference silent 1 [answer 1 (badResult [19, 1, 5])]).map
          (fun resp => (resp.numResp, resp.numErr, resp.keys.lookup (.filled 7))) =
        some (1, 2, some 1)) ∧
    (reading reference (answer 1 (goodResult [19, 1, 5])) =
        some (.listed true [.filled 7] false none) ∧
      (streamKeyResponse reference silent 1 [answer 1 (goodResult [19, 1, 5])]).map
          (fun resp => (resp.numResp, resp.numErr, resp.keys.lookup (.filled 7))) =
        some (1, 1, some 1)) ∧
    (streamKeyResponse reference silent 1 [answer 1 [24, 18, 17, 5]]).isNone ∧
    (streamKeyResponse reference silent 1 [answer 1 [26, 6, 1, 1, 19, 2, 17, 5]]).isNone := by
  decide +kernel

end Consistency

end Serf.KeyTotals
