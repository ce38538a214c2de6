import Serf.Library.Encoding
import Serf.Library.LittleEndian
import Serf.Library.RecordLog
import Serf.Types

/-!
The records of a snapshot file: `SnapshotRecord::encode` and the turns of the
loop in `open_and_replay_snapshot`. A node record is its kind, the length of the
node as a little-endian word and the node itself. The encoder has two paths. A
record of at most 64 bytes is put together in a buffer on the stack; a longer
one in a `BytesMut` that holds the five bytes of the header, and the node is
then encoded into the slice that this buffer dereferences to, which is those
five bytes.
-/

namespace Serf.SnapshotFile

open Library.Collections Library.Encoding Library.LittleEndian Library.RecordLog

variable {Id Address : Type}

inductive IoError where
  | unexpectedEof
  | notFound
  /-- `invalid_data_io_error` of a codec's error. -/
  | invalidEncode (reason : EncodeError)
  | invalidDecode (reason : DecodeError)
  | other (code : Nat)
  deriving DecidableEq

inductive SnapshotError where
  | open (reason : IoError)
  | openNew (reason : IoError)
  | flush (reason : IoError)
  | sync (reason : IoError)
  | remove (reason : IoError)
  | install (reason : IoError)
  | writeNew (reason : IoError)
  | write (reason : IoError)
  | replay (reason : IoError)
  | unknownRecordType (value : UInt8)
  deriving DecidableEq

inductive SnapshotRecordType where
  | alive
  | notAlive
  | clock
  | eventClock
  | queryClock
  | coordinate
  | leave
  | comment
  deriving DecidableEq

def SnapshotRecordType.toByte : SnapshotRecordType → UInt8
  | .alive => 0
  | .notAlive => 1
  | .clock => 2
  | .eventClock => 3
  | .queryClock => 4
  | .coordinate => 5
  | .leave => 6
  | .comment => 7

def SnapshotRecordType.tryFrom (value : UInt8) : Except SnapshotError SnapshotRecordType :=
  if value = 0 then .ok .alive
  else if value = 1 then .ok .notAlive
  else if value = 2 then .ok .clock
  else if value = 3 then .ok .eventClock
  else if value = 4 then .ok .queryClock
  else if value = 5 then .ok .coordinate
  else if value = 6 then .ok .leave
  else if value = 7 then .ok .comment
  else .error (.unknownRecordType value)

@[simp] theorem tryFrom_toByte (kind : SnapshotRecordType) :
    SnapshotRecordType.tryFrom kind.toByte = .ok kind := by
  cases kind <;> rfl

inductive SnapshotRecord (Id Address : Type) where
  | alive (node : Node Id Address)
  | notAlive (node : Node Id Address)
  | clock (time : LamportTime)
  | eventClock (time : LamportTime)
  | queryClock (time : LamportTime)
  | coordinate
  | leave
  | comment
  deriving DecidableEq

abbrev NodeCodec (Id Address : Type) := Codec DecodeError (Node Id Address)

def maxInlinedBytes : Nat := 64

def overwrite (buffer written : Bytes) : Bytes := written ++ buffer.drop written.length

/-- The bytes that a record hands to `write_all`, and the length it reports. -/
def encodeNode (codec : NodeCodec Id Address) (kind : SnapshotRecordType)
    (node : Node Id Address) : Except IoError (Bytes × Nat) :=
  let encodedNodeLen := codec.encodedLen node
  let encodedLen := 4 + 1 + encodedNodeLen
  let header := kind.toByte :: toLeBytes 4 encodedNodeLen
  if encodedLen ≤ maxInlinedBytes then
    match codec.encode node (maxInlinedBytes - 5) with
    | .error reason => .error (.invalidEncode reason)
    | .ok written =>
      let buffer := header ++ overwrite (List.replicate (maxInlinedBytes - 5) 0) written
      .ok (buffer.take encodedLen, encodedLen)
  else
    match codec.encode node header.length with
    | .error reason => .error (.invalidEncode reason)
    | .ok written => .ok (overwrite header written, encodedLen)

def encodeTime (kind : SnapshotRecordType) (time : LamportTime) : Bytes × Nat :=
  (kind.toByte :: toLeBytes 8 time.toNat, 9)

def encode (codec : NodeCodec Id Address) :
    SnapshotRecord Id Address → Except IoError (Bytes × Nat)
  | .alive node => encodeNode codec .alive node
  | .notAlive node => encodeNode codec .notAlive node
  | .clock time => .ok (encodeTime .clock time)
  | .eventClock time => .ok (encodeTime .eventClock time)
  | .queryClock time => .ok (encodeTime .queryClock time)
  | .coordinate => .ok ([SnapshotRecordType.coordinate.toByte], 1)
  | .leave => .ok ([SnapshotRecordType.leave.toByte], 1)
  | .comment => .ok ([SnapshotRecordType.comment.toByte], 1)

def read (count : Nat) : Reader SnapshotError UInt8 Bytes :=
  readExact (.replay .unexpectedEof) count

def readNode (codec : NodeCodec Id Address) : Reader SnapshotError UInt8 (Node Id Address) :=
  andThen (read 4) fun len =>
    andThen (read (fromLeBytes len)) fun buf =>
      settle (match codec.decodeOwned buf with
        | .error reason => .error (.replay (.invalidDecode reason))
        | .ok (_, node) => .ok node)

def readTime : Reader SnapshotError UInt8 LamportTime :=
  andThen (read 8) fun time => settle (.ok (UInt64.ofNat (fromLeBytes time)))

def readBody (codec : NodeCodec Id Address) :
    SnapshotRecordType → Reader SnapshotError UInt8 (SnapshotRecord Id Address)
  | .alive => andThen (readNode codec) fun node => settle (.ok (.alive node))
  | .notAlive => andThen (readNode codec) fun node => settle (.ok (.notAlive node))
  | .clock => andThen readTime fun time => settle (.ok (.clock time))
  | .eventClock => andThen readTime fun time => settle (.ok (.eventClock time))
  | .queryClock => andThen readTime fun time => settle (.ok (.queryClock time))
  | .coordinate => settle (.ok .coordinate)
  | .leave => settle (.ok .leave)
  | .comment => settle (.ok .comment)

def readRecord (codec : NodeCodec Id Address) :
    Reader SnapshotError UInt8 (SnapshotRecord Id Address) :=
  andThen (read 1) fun kind =>
    andThen (settle (SnapshotRecordType.tryFrom (kind.headD 0))) (readBody codec)

/-- The state of the replay loop. -/
structure Replayed (Id Address : Type) where
  aliveNodes : ItemSet (Node Id Address)
  lastClock : LamportTime
  lastEventClock : LamportTime
  lastQueryClock : LamportTime
  deriving DecidableEq

def Replayed.initial : Replayed Id Address := ⟨.empty, 0, 0, 0⟩

variable [DecidableEq Id] [DecidableEq Address]

def applyRecord (rejoinAfterLeave : Bool) (state : Replayed Id Address) :
    SnapshotRecord Id Address → Replayed Id Address
  | .alive node => { state with aliveNodes := state.aliveNodes.insert node }
  | .notAlive node => { state with aliveNodes := state.aliveNodes.remove node }
  | .clock time => { state with lastClock := time }
  | .eventClock time => { state with lastEventClock := time }
  | .queryClock time => { state with lastQueryClock := time }
  | .coordinate => state
  | .leave => if rejoinAfterLeave then state else .initial
  | .comment => state

/-- One turn of the loop in `open_and_replay_snapshot`: the end of the file is
no error where the kind of a record is read, and one everywhere else. -/
def replayTurn (codec : NodeCodec Id Address) (rejoinAfterLeave : Bool) :
    Turn (Replayed Id Address) SnapshotError UInt8 :=
  turnOf (readRecord codec) (applyRecord rejoinAfterLeave)

/-- `open_and_replay_snapshot` on a file with these bytes that can be opened,
measured and sought. -/
def openAndReplaySnapshot (codec : NodeCodec Id Address) (rejoinAfterLeave : Bool)
    (file : Bytes) : Option (Except SnapshotError (Replayed Id Address)) :=
  replay (replayTurn codec rejoinAfterLeave) (file.length + 1) .initial file

section Reading

omit [DecidableEq Id] [DecidableEq Address]

variable (codec : NodeCodec Id Address)

theorem readNode_consumes : Consumes (readNode codec) := by
  refine andThen_consumes _ _ (readExact_consumes _ 4) fun len => ?_
  refine andThen_consumes _ _ (readExact_consumes _ _) fun buf => ?_
  exact settle_consumes _

theorem readTime_consumes : Consumes readTime :=
  andThen_consumes _ _ (readExact_consumes _ 8) fun _ => settle_consumes _

theorem readBody_consumes (kind : SnapshotRecordType) : Consumes (readBody codec kind) := by
  cases kind with
  | alive => exact andThen_consumes _ _ (readNode_consumes codec) fun _ => settle_consumes _
  | notAlive => exact andThen_consumes _ _ (readNode_consumes codec) fun _ => settle_consumes _
  | clock => exact andThen_consumes _ _ readTime_consumes fun _ => settle_consumes _
  | eventClock => exact andThen_consumes _ _ readTime_consumes fun _ => settle_consumes _
  | queryClock => exact andThen_consumes _ _ readTime_consumes fun _ => settle_consumes _
  | coordinate => exact settle_consumes (.ok SnapshotRecord.coordinate)
  | leave => exact settle_consumes (.ok SnapshotRecord.leave)
  | comment => exact settle_consumes (.ok SnapshotRecord.comment)

theorem readRecord_consumes : Consumes (readRecord codec) := by
  refine andThen_consumes _ _ (readExact_consumes _ 1) fun kind => ?_
  exact andThen_consumes _ _ (settle_consumes _) (readBody_consumes codec)

theorem readRecord_needs (record : SnapshotRecord Id Address) :
    readRecord codec [] ≠ .ok (record, []) := by
  simp [readRecord, andThen, read, readExact]

end Reading

variable (codec : NodeCodec Id Address) (rejoinAfterLeave : Bool)

theorem replayTurn_selfDelimiting : SelfDelimiting (replayTurn codec rejoinAfterLeave) :=
  turnOf_selfDelimiting _ _ (readRecord_consumes codec) (readRecord_needs codec)

theorem openAndReplaySnapshot_iff (file : Bytes) (state : Replayed Id Address) :
    openAndReplaySnapshot codec rejoinAfterLeave file = some (.ok state) ↔
      Reads (replayTurn codec rejoinAfterLeave) .initial file state :=
  replay_iff (replayTurn_selfDelimiting codec rejoinAfterLeave) _ _ state file
    (Nat.lt_succ_self _)

section Encoding

omit [DecidableEq Id] [DecidableEq Address]

/-- The record fits the buffer on the stack. -/
def Inlined (codec : NodeCodec Id Address) : SnapshotRecord Id Address → Prop
  | .alive node => codec.encodedLen node ≤ 59
  | .notAlive node => codec.encodedLen node ≤ 59
  | _ => True

instance (codec : NodeCodec Id Address) (record : SnapshotRecord Id Address) :
    Decidable (Inlined codec record) := by
  cases record <;> unfold Inlined <;> infer_instance

theorem encodeNode_inlined (laws : RoundTrips codec) (kind : SnapshotRecordType)
    (node : Node Id Address) (short : codec.encodedLen node ≤ 59) :
    ∃ written, codec.encode node 59 = .ok written ∧
      encodeNode codec kind node =
        .ok (kind.toByte :: (toLeBytes 4 written.length ++ written), 5 + written.length) := by
  obtain ⟨written, encoded⟩ := laws.writes node 59 short (le_trans short (by decide))
  have exact := laws.exact node 59 written encoded
  refine ⟨written, encoded, ?_⟩
  have fits : 4 + 1 + written.length ≤ maxInlinedBytes := by
    simp only [maxInlinedBytes]
    omega
  have room : maxInlinedBytes - 5 = 59 := rfl
  have total : 4 + 1 + written.length = (toLeBytes 4 written.length ++ written).length + 1 := by
    simp only [List.length_append, length_toLeBytes]
    omega
  simp only [encodeNode, ← exact]
  rw [if_pos fits, room, encoded]
  -- The zeros behind the node are cut off.
  simp only [overwrite, List.cons_append, Except.ok.injEq, Prod.mk.injEq]
  refine ⟨?_, trivial⟩
  rw [total, List.take_succ_cons, ← List.append_assoc, List.take_left]

theorem encodeNode_long (laws : RoundTrips codec) (kind : SnapshotRecordType)
    (node : Node Id Address) (long : 59 < codec.encodedLen node) :
    ∃ reason, encodeNode codec kind node = .error (.invalidEncode reason) := by
  have spills : ¬ 4 + 1 + codec.encodedLen node ≤ maxInlinedBytes := by
    simp only [maxInlinedBytes]
    omega
  simp only [encodeNode, spills, ↓reduceIte]
  have header : (kind.toByte :: toLeBytes 4 (codec.encodedLen node)).length = 5 := by simp
  rw [header]
  cases encoded : codec.encode node 5 with
  | error reason => exact ⟨reason, rfl⟩
  | ok written => exact absurd encoded (laws.refuses node 5 (by omega) written)

theorem readRecord_kind (kind : SnapshotRecordType) (bytes : Bytes) :
    readRecord codec (kind.toByte :: bytes) = readBody codec kind bytes := by
  simp [readRecord, andThen, read, readExact, settle]

theorem readTime_encoded (time : LamportTime) (more : Bytes) :
    readTime (toLeBytes 8 time.toNat ++ more) = .ok (time, more) := by
  have taken := readExact_append (SnapshotError.replay .unexpectedEof) (toLeBytes 8 time.toNat) more
  rw [length_toLeBytes] at taken
  have small := time.toNat_lt
  have value : fromLeBytes (toLeBytes 8 time.toNat) = time.toNat := by
    rw [fromLeBytes_toLeBytes]
    omega
  simp [readTime, andThen, read, taken, settle, value]

theorem readNode_encoded (laws : RoundTrips codec) (node : Node Id Address) (room : Nat)
    (written more : Bytes) (encoded : codec.encode node room = .ok written)
    (small : written.length < 2 ^ 32) :
    readNode codec (toLeBytes 4 written.length ++ written ++ more) = .ok (node, more) := by
  have head := readExact_append (SnapshotError.replay .unexpectedEof)
    (toLeBytes 4 written.length) (written ++ more)
  have body := readExact_append (SnapshotError.replay .unexpectedEof) written more
  rw [length_toLeBytes] at head
  have len : fromLeBytes (toLeBytes 4 written.length) = written.length := by
    rw [fromLeBytes_toLeBytes]
    omega
  simp [readNode, andThen, read, head, len, body, settle,
    laws.readsOwned node room written encoded]

section Inlining

variable (codec : NodeCodec Id Address) (kind : SnapshotRecordType)

theorem encodeNode_read (laws : RoundTrips codec) (node : Node Id Address)
    (wrap : Node Id Address → SnapshotRecord Id Address)
    (arm : readBody codec kind = andThen (readNode codec) fun node => settle (.ok (wrap node)))
    (short : codec.encodedLen node ≤ 59) :
    ∃ bytes, encodeNode codec kind node = .ok (bytes, bytes.length) ∧ bytes ≠ [] ∧
      ∀ more, readRecord codec (bytes ++ more) = .ok (wrap node, more) := by
  obtain ⟨written, encoded, made⟩ := encodeNode_inlined codec laws kind node short
  have small : written.length < 2 ^ 32 := by
    have exact := laws.exact node 59 written encoded
    omega
  refine ⟨kind.toByte :: (toLeBytes 4 written.length ++ written), ?_, List.cons_ne_nil _ _, ?_⟩
  · have total : 5 + written.length =
        (kind.toByte :: (toLeBytes 4 written.length ++ written)).length := by
      simp only [List.length_cons, List.length_append, length_toLeBytes]
      omega
    rw [made, total]
  · intro more
    rw [List.cons_append, readRecord_kind, arm, andThen,
      readNode_encoded codec laws node 59 written more encoded small]
    rfl

theorem encodeTime_read (time : LamportTime) (wrap : LamportTime → SnapshotRecord Id Address)
    (arm : readBody codec kind = andThen readTime fun time => settle (.ok (wrap time)))
    (more : Bytes) :
    readRecord codec ((encodeTime kind time).1 ++ more) = .ok (wrap time, more) := by
  rw [encodeTime, List.cons_append, readRecord_kind, arm, andThen, readTime_encoded]
  rfl

theorem bareRecord_read (record : SnapshotRecord Id Address)
    (arm : readBody codec kind = settle (.ok record)) (more : Bytes) :
    readRecord codec ([kind.toByte] ++ more) = .ok (record, more) := by
  rw [List.singleton_append, readRecord_kind, arm]
  rfl

end Inlining

theorem encode_inlined (laws : RoundTrips codec) (record : SnapshotRecord Id Address)
    (inlined : Inlined codec record) :
    ∃ bytes, encode codec record = .ok (bytes, bytes.length) ∧ bytes ≠ [] ∧
      ∀ more, readRecord codec (bytes ++ more) = .ok (record, more) := by
  cases record with
  | alive node => exact encodeNode_read codec .alive laws node .alive rfl inlined
  | notAlive node => exact encodeNode_read codec .notAlive laws node .notAlive rfl inlined
  | clock time =>
    exact ⟨_, rfl, List.cons_ne_nil _ _, encodeTime_read codec .clock time .clock rfl⟩
  | eventClock time =>
    exact ⟨_, rfl, List.cons_ne_nil _ _, encodeTime_read codec .eventClock time .eventClock rfl⟩
  | queryClock time =>
    exact ⟨_, rfl, List.cons_ne_nil _ _, encodeTime_read codec .queryClock time .queryClock rfl⟩
  | coordinate =>
    exact ⟨_, rfl, List.cons_ne_nil _ _, bareRecord_read codec .coordinate .coordinate rfl⟩
  | leave => exact ⟨_, rfl, List.cons_ne_nil _ _, bareRecord_read codec .leave .leave rfl⟩
  | comment => exact ⟨_, rfl, List.cons_ne_nil _ _, bareRecord_read codec .comment .comment rfl⟩

theorem encode_long (laws : RoundTrips codec) (record : SnapshotRecord Id Address)
    (long : ¬ Inlined codec record) :
    ∃ reason, encode codec record = .error (.invalidEncode reason) := by
  cases record with
  | alive node => exact encodeNode_long codec laws .alive node (Nat.lt_of_not_ge long)
  | notAlive node => exact encodeNode_long codec laws .notAlive node (Nat.lt_of_not_ge long)
  | _ => exact absurd trivial long

end Encoding

/-- Encoding succeeds, the reported length is the number of bytes written, and
one turn of the replay loop consumes exactly these bytes and applies exactly
this record. -/
def RecordRoundTrips (codec : NodeCodec Id Address) (record : SnapshotRecord Id Address) : Prop :=
  ∃ bytes, encode codec record = .ok (bytes, bytes.length) ∧
    ∀ rejoinAfterLeave state more, replayTurn codec rejoinAfterLeave state (bytes ++ more) =
      .ok (some (applyRecord rejoinAfterLeave state record, more))

theorem replayTurn_record (state : Replayed Id Address) (record : SnapshotRecord Id Address)
    (bytes more : Bytes) (some : bytes ≠ [])
    (reads : readRecord codec (bytes ++ more) = .ok (record, more)) :
    replayTurn codec rejoinAfterLeave state (bytes ++ more) =
      .ok (.some (applyRecord rejoinAfterLeave state record, more)) := by
  rw [replayTurn, turnOf_nonempty _ _ _ _ (List.append_ne_nil_of_left_ne_nil some more), reads]

def paddedCodec : NodeCodec UInt8 UInt8 where
  wireType := .lengthDelimited
  encodedLen node := 2 + node.id.toNat
  encode node room :=
    if 2 + node.id.toNat ≤ room then
      .ok (node.id :: node.address :: List.replicate node.id.toNat 0)
    else .error (.insufficientBuffer (2 + node.id.toNat) room)
  decode bytes :=
    match bytes with
    | id :: address :: _ => .ok (bytes.length, .ok ⟨id, address⟩)
    | _ => .error (.custom "truncated node")
  bounded := by
    intro node room bytes written
    split at written
    · rename_i fits
      cases written
      simp only [List.length_cons, List.length_replicate]
      omega
    · cases written

theorem paddedCodec_encode (node : Node UInt8 UInt8) (room : Nat) (bytes : Bytes)
    (written : paddedCodec.encode node room = .ok bytes) :
    bytes = node.id :: node.address :: List.replicate node.id.toNat 0 := by
  simp only [paddedCodec] at written
  split at written
  · cases written
    rfl
  · cases written

theorem paddedCodec_roundTrips : RoundTrips paddedCodec where
  exact node room bytes written := by
    rw [paddedCodec_encode node room bytes written]
    simp only [paddedCodec, List.length_cons, List.length_replicate]
    omega
  writes node room fits _ := by
    simp only [paddedCodec] at fits ⊢
    exact ⟨_, if_pos fits⟩
  reads node room bytes written := by
    rw [paddedCodec_encode node room bytes written]
    rfl

/-- A record round-trips exactly when it fits the buffer on the stack. -/
theorem recordRoundTrips_iff (laws : RoundTrips codec) (record : SnapshotRecord Id Address) :
    RecordRoundTrips codec record ↔ Inlined codec record := by
  constructor
  · rintro ⟨bytes, encoded, _⟩
    by_contra long
    obtain ⟨reason, failed⟩ := encode_long codec laws record long
    rw [failed] at encoded
    cases encoded
  · intro inlined
    obtain ⟨bytes, encoded, some, reads⟩ := encode_inlined codec laws record inlined
    refine ⟨bytes, encoded, ?_⟩
    intro rejoinAfterLeave state more
    exact replayTurn_record codec rejoinAfterLeave state record bytes more some (reads more)


theorem recordRoundTrips_padded :
    RecordRoundTrips paddedCodec (.alive ⟨3, 7⟩) ∧
      ¬ RecordRoundTrips paddedCodec (.alive ⟨58, 7⟩) := by
  constructor
  · exact (recordRoundTrips_iff paddedCodec paddedCodec_roundTrips _).mpr (by decide)
  · rw [recordRoundTrips_iff paddedCodec paddedCodec_roundTrips]
    decide

theorem long_node_not_encoded :
    paddedCodec.encodedLen ⟨58, 7⟩ = 60 ∧
    encode paddedCodec (.alive ⟨58, 7⟩) = .error (.invalidEncode (.insufficientBuffer 60 5)) ∧
    ¬ RecordRoundTrips paddedCodec (.alive ⟨58, 7⟩) := by
  have failed : encode paddedCodec (.alive ⟨58, 7⟩) =
      .error (.invalidEncode (.insufficientBuffer 60 5)) := by decide
  refine ⟨by decide, failed, ?_⟩
  rintro ⟨bytes, encoded, _⟩
  rw [failed] at encoded
  cases encoded

end Serf.SnapshotFile
