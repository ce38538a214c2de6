import Serf.Library.Machine
import Serf.QueryHandler
import Serf.SnapshotFile

/-!
The snapshotter: its memory, the file it appends to and the loop that feeds it.
A call into the file system fails or not as the environment says; the bytes of
the file are those at its path together with those still buffered. Every result
of `append_line` is kept, so that a run can be said to have lost no record.
Clock readings are arguments, waiting and logging are left out.
-/

namespace Serf.Snapshotter

open Library.Collections Library.Machine Library.Encoding Library.RecordLog
open SnapshotFile QueryHandler

variable {Id Address : Type}

/-- An `Err` of the file or an `unwrap` of the writer that a failed compaction
has closed. -/
inductive Failure where
  | error (reason : SnapshotError)
  | panic
  deriving DecidableEq

/-- The file system during one compaction, and the order in which the set of
alive nodes is visited. -/
structure CompactIo (Id Address : Type) where
  openNew : Option IoError
  /-- The write of the record with this number. -/
  writeNew : Nat → Option IoError
  flush : Option IoError
  sync : Option IoError
  /-- `old.flush()` and the drop of the old writer leave so many bytes unwritten. That
  they fail is ignored. -/
  unflushed : Nat
  remove : Option IoError
  install : Option IoError
  reopen : Option IoError
  visit : List (Node Id Address) → List (Node Id Address)
  visits : ∀ nodes, (visit nodes).Perm nodes

structure AppendIo (Id Address : Type) where
  /-- `write_all` fails after so many bytes. -/
  write : Option (IoError × Nat)
  /-- The last flush is longer ago than the flush interval. -/
  flushDue : Bool
  flush : Option IoError
  compact : CompactIo Id Address
  /-- The last attempt is longer ago than the recovery interval. -/
  recoveryDue : Bool
  recovery : CompactIo Id Address

structure Snapshot (Id Address : Type) where
  aliveNodes : ItemSet (Node Id Address)
  lastClock : LamportTime
  lastEventClock : LamportTime
  lastQueryClock : LamportTime
  leaving : Bool
  minCompactSize : Nat
  offset : Nat
  rejoinAfterLeave : Bool
  file : Bytes
  /-- `fh` holds a writer. -/
  fh : Bool
  /-- The results of `append_line`, in order. -/
  appended : List (Except Failure Unit)
  panicked : Bool

/-- The codec of nodes, and the file system at each append of the session. -/
structure SnapshotEnv (Id Address : Type) where
  codec : NodeCodec Id Address
  io : Nat → AppendIo Id Address

/-- The part of `from_replay_result` that makes the snapshotter. -/
def fromReplayResult (replayed : Replayed Id Address) (file : Bytes) (minCompactSize : Nat)
    (rejoinAfterLeave : Bool) : Snapshot Id Address where
  aliveNodes := replayed.aliveNodes
  lastClock := replayed.lastClock
  lastEventClock := replayed.lastEventClock
  lastQueryClock := replayed.lastQueryClock
  leaving := false
  minCompactSize := minCompactSize
  offset := file.length
  rejoinAfterLeave := rejoinAfterLeave
  file := file
  fh := true
  appended := []
  panicked := false

/-- `SNAPSHOT_BYTES_PER_NODE` and `SNAPSHOT_COMPACTION_THRESHOLD` -/
def snapshotMaxSize (snapshot : Snapshot Id Address) : Nat :=
  max (snapshot.aliveNodes.items.length * 128 * 2) snapshot.minCompactSize

def compactRecords (io : CompactIo Id Address) (snapshot : Snapshot Id Address) :
    List (SnapshotRecord Id Address) :=
  (io.visit snapshot.aliveNodes.items).map .alive ++
    [.clock snapshot.lastClock, .eventClock snapshot.lastEventClock,
      .queryClock snapshot.lastQueryClock]

/-- The records one after the other, from number `i` on, and their total length. -/
def encodeAll (codec : NodeCodec Id Address) (writeNew : Nat → Option IoError) :
    Nat → List (SnapshotRecord Id Address) → Except IoError (Bytes × Nat)
  | _, [] => .ok ([], 0)
  | i, record :: rest =>
    match encode codec record, writeNew i with
    | .error reason, _ => .error reason
    | .ok _, some reason => .error reason
    | .ok (bytes, n), none =>
      match encodeAll codec writeNew (i + 1) rest with
      | .error reason => .error reason
      | .ok (tail, m) => .ok (bytes ++ tail, n + m)

def stage (fault : Option IoError) (wrap : IoError → SnapshotError)
    (snapshot : Snapshot Id Address) (next : Snapshot Id Address × Except Failure Unit) :
    Snapshot Id Address × Except Failure Unit :=
  match fault with
  | some reason => (snapshot, .error (.error (wrap reason)))
  | none => next

def compact (codec : NodeCodec Id Address) (io : CompactIo Id Address)
    (snapshot : Snapshot Id Address) : Snapshot Id Address × Except Failure Unit :=
  stage io.openNew .openNew snapshot <|
  match encodeAll codec io.writeNew 0 (compactRecords io snapshot) with
  | .error reason => (snapshot, .error (.error (.writeNew reason)))
  | .ok (bytes, offset) =>
    stage io.flush .flush snapshot <|
    stage io.sync .sync snapshot <|
    -- The old writer is taken out and dropped before the old file is removed.
    if snapshot.fh = false then (snapshot, .error .panic)
    else
      let closed := { snapshot with
        fh := false
        file := snapshot.file.take (snapshot.file.length - io.unflushed) }
      stage (if io.remove = some .notFound then none else io.remove) .remove closed <|
      let removed := { closed with file := [] }
      stage io.install .install removed <|
      let installed := { removed with file := bytes }
      stage io.reopen .open installed
        ({ installed with fh := true, offset := offset }, .ok ())

def appendLine (codec : NodeCodec Id Address) (io : AppendIo Id Address)
    (record : SnapshotRecord Id Address) (snapshot : Snapshot Id Address) :
    Snapshot Id Address × Except Failure Unit :=
  if snapshot.fh = false then (snapshot, .error .panic)
  else
    match encode codec record with
    | .error reason => (snapshot, .error (.error (.write reason)))
    | .ok (bytes, n) =>
      match io.write with
      | some (reason, count) =>
        ({ snapshot with file := snapshot.file ++ bytes.take count },
          .error (.error (.write reason)))
      | none =>
        let written := { snapshot with file := snapshot.file ++ bytes }
        stage (if io.flushDue then io.flush else none) .flush written <|
        let moved := { written with offset := written.offset + n }
        if snapshotMaxSize moved < moved.offset then compact codec io.compact moved
        else (moved, .ok ())

def tryAppend (env : SnapshotEnv Id Address) (record : SnapshotRecord Id Address)
    (snapshot : Snapshot Id Address) : Snapshot Id Address :=
  let io := env.io snapshot.appended.length
  let (after, result) := appendLine env.codec io record snapshot
  let after := { after with appended := after.appended ++ [result] }
  match result with
  | .ok () => after
  | .error .panic => { after with panicked := true }
  | .error (.error _) =>
    if io.recoveryDue then
      match compact env.codec io.recovery after with
      | (recovered, .error .panic) => { recovered with panicked := true }
      | (recovered, _) => recovered
    else after

def processUserEvent (env : SnapshotEnv Id Address) (ltime : LamportTime)
    (snapshot : Snapshot Id Address) : Snapshot Id Address :=
  if ltime ≤ snapshot.lastEventClock then snapshot
  else tryAppend env (.eventClock ltime) { snapshot with lastEventClock := ltime }

def processQueryEvent (env : SnapshotEnv Id Address) (ltime : LamportTime)
    (snapshot : Snapshot Id Address) : Snapshot Id Address :=
  if ltime ≤ snapshot.lastQueryClock then snapshot
  else tryAppend env (.queryClock ltime) { snapshot with lastQueryClock := ltime }

/-- `time` is the reading of the Lamport clock. -/
def updateClock (env : SnapshotEnv Id Address) (time : LamportTime)
    (snapshot : Snapshot Id Address) : Snapshot Id Address :=
  let lastSeen := if time = 0 then 0 else time - 1
  if snapshot.lastClock < lastSeen then
    tryAppend env (.clock lastSeen) { snapshot with lastClock := lastSeen }
  else snapshot

variable [DecidableEq Id] [DecidableEq Address]

def processMember (env : SnapshotEnv Id Address) (ty : MemberEventType)
    (node : Node Id Address) (snapshot : Snapshot Id Address) : Snapshot Id Address :=
  match ty with
  | .join =>
    tryAppend env (.alive node)
      { snapshot with aliveNodes := snapshot.aliveNodes.insert node }
  | .leave | .failed =>
    tryAppend env (.notAlive node)
      { snapshot with aliveNodes := snapshot.aliveNodes.remove node }
  | .update | .reap => snapshot

def unlessPanicked (next : Snapshot Id Address → Snapshot Id Address)
    (snapshot : Snapshot Id Address) : Snapshot Id Address :=
  if snapshot.panicked then snapshot else next snapshot

def processMembers (env : SnapshotEnv Id Address) (ty : MemberEventType) :
    List (Member Id Address) → Snapshot Id Address → Snapshot Id Address
  | [], snapshot => snapshot
  | m :: rest, snapshot =>
    processMembers env ty rest (unlessPanicked (processMember env ty m.node) snapshot)

def processMemberEvent (env : SnapshotEnv Id Address) (time : LamportTime)
    (event : MemberEvent Id Address) (snapshot : Snapshot Id Address) : Snapshot Id Address :=
  unlessPanicked (updateClock env time) (processMembers env event.ty event.members snapshot)

/-- One step of a session without a leave. -/
inductive SnapshotOp (Id Address : Type) where
  | memberEvent (time : LamportTime) (event : MemberEvent Id Address)
  | userEvent (event : UserEventMessage)
  | queryEvent (ltime : LamportTime)
  | updateClock (time : LamportTime)

def applySnapshotOp (env : SnapshotEnv Id Address) (snapshot : Snapshot Id Address) :
    SnapshotOp Id Address → Snapshot Id Address
  | .memberEvent time event => processMemberEvent env time event snapshot
  | .userEvent event => processUserEvent env event.ltime snapshot
  | .queryEvent ltime => processQueryEvent env ltime snapshot
  | .updateClock time => updateClock env time snapshot

def snapshotStep (env : SnapshotEnv Id Address) (snapshot : Snapshot Id Address)
    (op : SnapshotOp Id Address) : Snapshot Id Address × Unit :=
  (unlessPanicked (fun snapshot => applySnapshotOp env snapshot op) snapshot, ())

/-- `handle_leave`; its flush and sync report errors to the log only. -/
def handleLeave (env : SnapshotEnv Id Address) (snapshot : Snapshot Id Address) :
    Snapshot Id Address :=
  tryAppend env .leave
    { snapshot with
      leaving := true
      aliveNodes := if snapshot.rejoinAfterLeave then snapshot.aliveNodes else .empty }

/-- The arms of `stream_flush_event!` behind its check for a leave. -/
def flushEvent (time : LamportTime) : CrateEvent Id Address → SnapshotOp Id Address
  | .member event => .memberEvent time event
  | .user event => .userEvent event
  | .query event => .queryEvent event.ltime
  | .internalQuery _ event => .queryEvent event.ltime

/-- Where `stream` is: in its first loop, behind it, in the loop that clears
the buffers, and at its end. -/
inductive Phase where
  | running
  | stopping
  | draining
  | done
  deriving DecidableEq

structure Session (Id Address : Type) where
  snapshot : Snapshot Id Address
  phase : Phase

/-- What the loops of `stream` may receive. -/
inductive StreamOp (Id Address : Type) where
  | leave
  | event (time : LamportTime) (event : CrateEvent Id Address)
  | closed
  | tick (time : LamportTime)
  | shutdown
  /-- The code between the loops; a leave may be waiting in its channel. -/
  | wrapUp (leaveWaiting : Bool) (time : LamportTime)
  | timeout

def streamEvent (env : SnapshotEnv Id Address) (ends : Phase) (time : LamportTime)
    (event : CrateEvent Id Address) (session : Session Id Address) : Session Id Address :=
  if session.snapshot.leaving then { session with phase := ends }
  else { session with snapshot := applySnapshotOp env session.snapshot (flushEvent time event) }

def applyStreamOp (env : SnapshotEnv Id Address) (session : Session Id Address)
    (op : StreamOp Id Address) : Session Id Address :=
  match session.phase, op with
  | .running, .leave => { session with snapshot := handleLeave env session.snapshot }
  | .running, .event time event => streamEvent env .stopping time event session
  | .running, .tick time => { session with snapshot := updateClock env time session.snapshot }
  | .running, .closed => { session with phase := .stopping }
  | .running, .shutdown => { session with phase := .stopping }
  | .stopping, .wrapUp leaveWaiting time =>
    let left := if leaveWaiting then handleLeave env session.snapshot else session.snapshot
    ⟨unlessPanicked (updateClock env time) left, .draining⟩
  | .draining, .event time event => streamEvent env .done time event session
  | .draining, .closed => { session with phase := .done }
  | .draining, .timeout => { session with phase := .done }
  | _, _ => session

def streamStep (env : SnapshotEnv Id Address) (session : Session Id Address)
    (op : StreamOp Id Address) : Session Id Address × Unit :=
  (if session.snapshot.panicked then session else applyStreamOp env session op, ())

end Serf.Snapshotter
