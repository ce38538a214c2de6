import Mathlib.Data.List.DropRight
import Serf.Library.FileSwap
import Serf.SnapshotPanic

/-!
A process that stops in the middle of a compaction. The new file is complete and synced
before the old one is touched, but the old one is removed before the new one takes its
place, so a process that stops in between leaves nothing at the path, and a restart
begins with an empty file. Before that the path holds the old file, without the records
that its writer still buffers until the swap flushes them, and without those that the
flush fails to write. What a restart makes of the old file is told by the last record
about each node and the last one of each clock.
-/

namespace Serf.CompactCrash

open Library.Collections Library.Machine Library.Encoding Library.FileSwap Library.RecordLog
open SnapshotFile Snapshotter SnapshotReplay SnapshotPanic

variable {Id Address : Type}

section Operations

variable (codec : NodeCodec Id Address) (io : CompactIo Id Address)

/-- The writes of the records up to the first that fails. Behind the write of the record
with number `i` the writer has passed on `spill i` of the bytes it holds. -/
def chunks (spill : Nat → Nat) : Nat → List (SnapshotRecord Id Address) → List (Bytes × Nat)
  | _, [] => []
  | i, record :: rest =>
    match encode codec record, io.writeNew i with
    | .ok (bytes, _), none => (bytes, spill i) :: chunks spill (i + 1) rest
    | _, _ => []

def stageOps (fault : Option IoError) (op : FileOp UInt8) (next : List (FileOp UInt8)) :
    List (FileOp UInt8) :=
  match fault with
  | some _ => []
  | none => op :: next

/-- The file-system operations that `compact` gets done. `old.flush()` lets so many of
the buffered bytes reach the old file. -/
def compactOps (spill : Nat → Nat) (flushed : Nat) (snapshot : Snapshot Id Address) :
    List (FileOp UInt8) :=
  stageOps io.openNew .createTemp <|
  ((chunks codec io spill 0 (compactRecords io snapshot)).map fun chunk =>
    .writeTemp chunk.1 chunk.2) ++
  match encodeAll codec io.writeNew 0 (compactRecords io snapshot) with
  | .error _ => []
  | .ok _ =>
    -- Up to the sync a fault leaves the old file and its writer alone.
    stageOps io.flush .flushTemp <|
    stageOps io.sync .syncTemp <|
    .closeTemp ::
    if snapshot.fh = false then []
    else
      .flushOld flushed :: .closeOld io.unflushed ::
      (stageOps (if io.remove = some .notFound then none else io.remove) .removePath <|
      stageOps io.install .renameTemp <|
      stageOps io.reopen .reopenPath [])

/-- The files as `compact` finds them. -/
def found (durable buffered : Bytes) : Files UInt8 := ⟨some durable, none, buffered, []⟩

variable (spill : Nat → Nat) (records : List (SnapshotRecord Id Address))

theorem chunks_whole (i : Nat) (bytes : Bytes) (n : Nat)
    (encoded : encodeAll codec io.writeNew i records = .ok (bytes, n)) :
    ((chunks codec io spill i records).map Prod.fst).flatten = bytes := by
  induction records generalizing i bytes n with
  | nil =>
    cases encoded
    rfl
  | cons record rest ih =>
    unfold encodeAll at encoded
    cases first : encode codec record with
    | error reason => simp [first] at encoded
    | ok pair =>
      cases fault : io.writeNew i with
      | some reason => simp [first, fault] at encoded
      | none =>
        simp only [first, fault] at encoded
        cases later : encodeAll codec io.writeNew (i + 1) rest with
        | error reason => simp [later] at encoded
        | ok tail =>
          simp only [later, Except.ok.injEq, Prod.mk.injEq] at encoded
          simp [chunks, first, fault, ih (i + 1) tail.1 tail.2 later, encoded.1]

theorem stageOps_front (fault : Option IoError) (op : FileOp UInt8)
    (next whole : List (FileOp UInt8)) (front : next <+: whole) :
    stageOps fault op next <+: op :: whole := by
  cases fault with
  | some reason => exact List.nil_prefix
  | none => exact (List.prefix_cons_inj op).mpr front

variable (flushed : Nat) (snapshot : Snapshot Id Address)

theorem compactOps_front :
    compactOps codec io spill flushed snapshot <+:
      writingOps (chunks codec io spill 0 (compactRecords io snapshot)) ++
        swapOps flushed io.unflushed := by
  rw [writingOps, List.cons_append, List.cons_append, List.append_assoc]
  refine stageOps_front _ _ _ _ ((List.prefix_append_right_inj _).mpr ?_)
  split
  · exact List.nil_prefix
  · refine stageOps_front _ _ _ _ (stageOps_front _ _ _ _ ?_)
    refine (List.prefix_cons_inj _).mpr ?_
    split
    · exact List.nil_prefix
    · refine (List.prefix_cons_inj _).mpr ((List.prefix_cons_inj _).mpr ?_)
      refine stageOps_front _ _ _ _ (stageOps_front _ _ _ _ (stageOps_front _ _ _ _ ?_))
      exact List.nil_prefix

def contents (files : Files UInt8) : Bytes := files.path.getD [] ++ files.oldBuffer

theorem compactOps_unreached (unreached : ¬ SwapReached codec io snapshot) :
    ∀ op ∈ compactOps codec io spill flushed snapshot, Beside op := by
  have writes : ∀ op ∈ (chunks codec io spill 0 (compactRecords io snapshot)).map
      (fun chunk => FileOp.writeTemp chunk.1 chunk.2), Beside op := by
    intro op member
    obtain ⟨chunk, _, rfl⟩ := List.mem_map.mp member
    trivial
  unfold compactOps
  cases opened : io.openNew with
  | some reason => nofun
  | none =>
    refine List.forall_mem_cons.mpr ⟨trivial, ?_⟩
    cases encoded : encodeAll codec io.writeNew 0 (compactRecords io snapshot) with
    | error reason => simpa using writes
    | ok written =>
      refine List.forall_mem_append.mpr ⟨writes, ?_⟩
      cases flushed : io.flush with
      | some reason => nofun
      | none =>
        cases synced : io.sync with
        | some reason => simp [stageOps, Beside]
        | none => exact absurd ⟨opened, ⟨written, encoded⟩, flushed, synced⟩ unreached

theorem compactOps_reached (reached : SwapReached codec io snapshot) :
    compactOps codec io spill flushed snapshot =
      writingOps (chunks codec io spill 0 (compactRecords io snapshot)) ++
        if snapshot.fh = false then []
        else
          .flushOld flushed :: .closeOld io.unflushed ::
          (stageOps (if io.remove = some .notFound then none else io.remove) .removePath <|
          stageOps io.install .renameTemp <|
          stageOps io.reopen .reopenPath []) := by
  obtain ⟨opened, ⟨written, encoded⟩, flushed, synced⟩ := reached
  simp [compactOps, writingOps, stageOps, opened, encoded, flushed, synced]

theorem written_part (durable buffered : Bytes) (reached lost : Nat)
    (rest : lost ≤ (buffered.drop reached).length) :
    durable ++ buffered.take reached ++
        (buffered.drop reached).take ((buffered.drop reached).length - lost) =
      (durable ++ buffered).take ((durable ++ buffered).length - lost) := by
  have split : durable ++ buffered = durable ++ buffered.take reached ++ buffered.drop reached := by
    rw [List.append_assoc, List.take_append_drop]
  generalize durable ++ buffered.take reached = front at split
  generalize buffered.drop reached = held at split rest
  have kept : front.take (front.length + held.length - lost) = front :=
    List.take_of_length_le (by omega)
  have cut : front.length + held.length - lost - front.length = held.length - lost := by omega
  rw [split, List.length_append, List.take_append, kept, cut]

theorem compactOps_file (durable buffered : Bytes) (whole : durable ++ buffered = snapshot.file)
    (rest : io.unflushed ≤ (buffered.drop flushed).length) :
    contents (run fileStep (found durable buffered) (compactOps codec io spill flushed snapshot)) =
      (compact codec io snapshot).1.file := by
  by_cases reached : SwapReached codec io snapshot
  · have beside := writingOps_beside (chunks codec io spill 0 (compactRecords io snapshot))
    obtain ⟨path, old⟩ := run_beside (found durable buffered) _ beside
    have temp := run_writing (found durable buffered)
      (chunks codec io spill 0 (compactRecords io snapshot))
    rw [compactOps_reached codec io spill flushed snapshot reached, run_append]
    obtain ⟨opened, ⟨⟨bytes, offset⟩, encoded⟩, done, synced⟩ := reached
    rw [chunks_whole codec io spill _ 0 bytes offset encoded] at temp
    generalize run fileStep (found durable buffered) _ = files at path old temp
    simp only [found] at path old
    cases writer : snapshot.fh with
    -- Without a writer `compact` panics before it touches the old file.
    | false =>
      simp [compact, opened, encoded, done, synced, writer, stage, run, contents, path, old,
        whole]
    | true =>
      simp only [compact, opened, encoded, done, synced, writer, stage, Bool.true_eq_false,
        if_false, run, fileStep, path, old, Option.map_some, contents]
      rw [written_part durable buffered flushed io.unflushed rest, whole]
      cases (if io.remove = some .notFound then none else io.remove) with
      | some reason => simp [stageOps, run]
      | none =>
        cases io.install with
        | some reason => simp [stageOps, run, fileStep]
        | none => cases io.reopen <;> simp [stageOps, run, fileStep, temp]
  · have beside := compactOps_unreached codec io spill flushed snapshot reached
    obtain ⟨path, old⟩ := run_beside (found durable buffered) _ beside
    obtain ⟨reason, failed⟩ := compact_unreached codec io snapshot reached
    rw [failed, contents, path, old]
    exact whole

end Operations

variable [DecidableEq Id] [DecidableEq Address]

section Records

variable (rejoinAfterLeave : Bool)

/-- The records that count in a replay: those behind the last leave, unless the node is
to rejoin. -/
def counting (records : List (SnapshotRecord Id Address)) : List (SnapshotRecord Id Address) :=
  if rejoinAfterLeave then records else records.rtakeWhile (· ≠ .leave)

def lastSaid {Value : Type} (said : SnapshotRecord Id Address → Option Value)
    (records : List (SnapshotRecord Id Address)) : Option Value :=
  (records.filterMap said).getLast?

def saysAlive (node : Node Id Address) : SnapshotRecord Id Address → Option Bool
  | .alive other => if other = node then some true else none
  | .notAlive other => if other = node then some false else none
  | _ => none

def saysClock : SnapshotRecord Id Address → Option LamportTime
  | .clock time => some time
  | _ => none

def saysEventClock : SnapshotRecord Id Address → Option LamportTime
  | .eventClock time => some time
  | _ => none

def saysQueryClock : SnapshotRecord Id Address → Option LamportTime
  | .queryClock time => some time
  | _ => none

/-- The records tell the nodes and clocks: a node is alive if the last record about it
says so, and a clock is what its last record says. -/
structure Tells (records : List (SnapshotRecord Id Address)) (state : Replayed Id Address) :
    Prop where
  nodes : ∀ node, node ∈ state.aliveNodes ↔
    lastSaid (saysAlive node) (counting rejoinAfterLeave records) = some true
  clock : state.lastClock = (lastSaid saysClock (counting rejoinAfterLeave records)).getD 0
  eventClock : state.lastEventClock =
    (lastSaid saysEventClock (counting rejoinAfterLeave records)).getD 0
  queryClock : state.lastQueryClock =
    (lastSaid saysQueryClock (counting rejoinAfterLeave records)).getD 0

variable {Value : Type} (said : SnapshotRecord Id Address → Option Value)
  (records : List (SnapshotRecord Id Address))

omit [DecidableEq Id] [DecidableEq Address] in
theorem lastSaid_concat (record : SnapshotRecord Id Address) :
    lastSaid said (records ++ [record]) = (said record).or (lastSaid said records) := by
  cases now : said record <;> simp [lastSaid, now]

theorem counting_concat (record : SnapshotRecord Id Address) :
    counting rejoinAfterLeave (records ++ [record]) =
      if record = .leave ∧ rejoinAfterLeave = false then []
      else counting rejoinAfterLeave records ++ [record] := by
  cases rejoinAfterLeave with
  | true => simp [counting]
  | false => by_cases leaves : record = .leave <;> simp [counting, leaves]

theorem foldl_alive_said (node : Node Id Address) :
    node ∈ (records.foldl (applyRecord rejoinAfterLeave) .initial).aliveNodes ↔
      lastSaid (saysAlive node) (counting rejoinAfterLeave records) = some true := by
  induction records using List.reverseRecOn with
  | nil => cases rejoinAfterLeave <;> simp [counting, lastSaid, Replayed.initial]
  | append_singleton records record ih =>
    rw [List.foldl_append, List.foldl_cons, List.foldl_nil, counting_concat]
    cases record with
    | alive other =>
      by_cases same : other = node
      · simp [lastSaid_concat, saysAlive, applyRecord, same]
      · simp [lastSaid_concat, saysAlive, applyRecord, ih, same, Ne.symm same]
    | notAlive other =>
      by_cases same : other = node
      · simp [lastSaid_concat, saysAlive, applyRecord, same]
      · simp [lastSaid_concat, saysAlive, applyRecord, ih, same, Ne.symm same]
    | leave =>
      cases rejoinAfterLeave with
      | true => simpa [lastSaid_concat, saysAlive, applyRecord] using ih
      | false => simp [applyRecord, lastSaid, Replayed.initial]
    | _ => simpa [lastSaid_concat, saysAlive, applyRecord] using ih

theorem foldl_clock_said (clock : Replayed Id Address → LamportTime)
    (said : SnapshotRecord Id Address → Option LamportTime) (zero : clock .initial = 0)
    (silent : said .leave = none)
    (sets : ∀ state record, record ≠ .leave →
      clock (applyRecord rejoinAfterLeave state record) = (said record).getD (clock state))
    (records : List (SnapshotRecord Id Address)) :
    clock (records.foldl (applyRecord rejoinAfterLeave) .initial) =
      (lastSaid said (counting rejoinAfterLeave records)).getD 0 := by
  induction records using List.reverseRecOn with
  | nil => cases rejoinAfterLeave <;> simpa [counting, lastSaid] using zero
  | append_singleton records record ih =>
    rw [List.foldl_append, List.foldl_cons, List.foldl_nil, counting_concat]
    by_cases leaves : record = .leave
    · subst leaves
      cases rejoinAfterLeave with
      | true => simpa [lastSaid_concat, silent, applyRecord] using ih
      | false => simpa [applyRecord, lastSaid] using zero
    · rw [sets _ record leaves, ih, if_neg fun both => leaves both.1, lastSaid_concat]
      cases said record <;> rfl

theorem foldl_tells :
    Tells rejoinAfterLeave records (records.foldl (applyRecord rejoinAfterLeave) .initial) where
  nodes := foldl_alive_said rejoinAfterLeave records
  clock := foldl_clock_said rejoinAfterLeave (fun state => state.lastClock) saysClock rfl rfl
    (by rintro state (_ | _) leaves <;> first | rfl | exact absurd rfl leaves) records
  eventClock := foldl_clock_said rejoinAfterLeave (fun state => state.lastEventClock)
    saysEventClock rfl rfl
    (by rintro state (_ | _) leaves <;> first | rfl | exact absurd rfl leaves) records
  queryClock := foldl_clock_said rejoinAfterLeave (fun state => state.lastQueryClock)
    saysQueryClock rfl rfl
    (by rintro state (_ | _) leaves <;> first | rfl | exact absurd rfl leaves) records

end Records

/-- A restart from what is at the path recovers the nodes and clocks in memory. A file
that is not there is created empty. -/
def Restores (codec : NodeCodec Id Address) (rejoinAfterLeave : Bool) (content : Option Bytes)
    (snapshot : Snapshot Id Address) : Prop :=
  ∃ replayed, openAndReplaySnapshot codec rejoinAfterLeave (content.getD []) =
      some (.ok replayed) ∧ Same replayed (memory snapshot)

/-- There is nothing to recover. -/
def Blank (snapshot : Snapshot Id Address) : Prop :=
  (∀ node, node ∉ snapshot.aliveNodes) ∧ snapshot.lastClock = 0 ∧
    snapshot.lastEventClock = 0 ∧ snapshot.lastQueryClock = 0

section Restarts

variable (codec : NodeCodec Id Address) (laws : RoundTrips codec) (rejoinAfterLeave : Bool)
  (io : CompactIo Id Address) (snapshot : Snapshot Id Address)

theorem restores_missing : Restores codec rejoinAfterLeave none snapshot ↔ Blank snapshot := by
  have empty : openAndReplaySnapshot codec rejoinAfterLeave [] = some (.ok .initial) :=
    (openAndReplaySnapshot_iff codec rejoinAfterLeave [] .initial).mpr (.done Replayed.initial)
  simp only [Restores, Option.getD_none, empty, Option.some.injEq, Except.ok.injEq,
    exists_eq_left']
  constructor
  · intro same
    refine ⟨?_, same.clock.symm, same.eventClock.symm, same.queryClock.symm⟩
    intro node member
    have none := (same.nodes node).mpr member
    simp [Replayed.initial] at none
  · rintro ⟨nodes, clock, eventClock, queryClock⟩
    refine ⟨?_, clock.symm, eventClock.symm, queryClock.symm⟩
    intro node
    simpa [Replayed.initial, memory] using nodes node

include laws in
theorem restores_written (bytes : Bytes) (offset : Nat)
    (encoded : encodeAll codec io.writeNew 0 (compactRecords io snapshot) = .ok (bytes, offset)) :
    Restores codec rejoinAfterLeave (some bytes) snapshot := by
  have reads := encodeAll_reads codec laws rejoinAfterLeave io.writeNew _ 0 bytes offset encoded
    .initial
  refine ⟨_, (openAndReplaySnapshot_iff codec rejoinAfterLeave bytes _).mpr reads, ?_⟩
  exact compactRecords_same rejoinAfterLeave io snapshot

theorem restores_some_iff (file : Bytes) :
    Restores codec rejoinAfterLeave (some file) snapshot ↔
      ∃ records, Lists (readRecord codec) file records ∧
        Tells rejoinAfterLeave records (memory snapshot) := by
  have lists : ∀ state, Reads (turnOf (readRecord codec) (applyRecord rejoinAfterLeave)) .initial
      file state ↔ _ := fun state =>
    reads_iff_lists (readRecord_consumes codec) (readRecord_needs codec) .initial state file
  simp only [Restores, Option.getD_some, openAndReplaySnapshot_iff, replayTurn, lists]
  constructor
  · rintro ⟨state, ⟨records, listed, rfl⟩, same⟩
    have told := foldl_tells rejoinAfterLeave records
    refine ⟨records, listed, fun node => (same.nodes node).symm.trans (told.nodes node), ?_, ?_, ?_⟩
    · exact same.clock.symm.trans told.clock
    · exact same.eventClock.symm.trans told.eventClock
    · exact same.queryClock.symm.trans told.queryClock
  · rintro ⟨records, listed, tells⟩
    have told := foldl_tells rejoinAfterLeave records
    refine ⟨_, ⟨records, listed, rfl⟩, fun node => (told.nodes node).trans (tells.nodes node).symm,
      ?_, ?_, ?_⟩
    · exact told.clock.trans tells.clock.symm
    · exact told.eventClock.trans tells.eventClock.symm
    · exact told.queryClock.trans tells.queryClock.symm

include laws in
/-- Wherever a compaction stops, a restart recovers the memory exactly if the new file
is in place; or if the old file is removed and there is nothing to recover; or if what
has reached the old file are complete records, the last of which about each node and of
each clock tell the memory. -/
theorem stopped_compaction_restores_iff (spill : Nat → Nat) (flushed : Nat)
    (durable buffered : Bytes) (done : List (FileOp UInt8))
    (stops : done <+: compactOps codec io spill flushed snapshot) :
    Restores codec rejoinAfterLeave (run fileStep (found durable buffered) done).path snapshot ↔
      if .renameTemp ∈ done then True
      else if .removePath ∈ done then Blank snapshot
      else ∃ records,
        Lists (readRecord codec) (oldFile durable buffered flushed io.unflushed done) records ∧
        Tells rejoinAfterLeave records (memory snapshot) := by
  rw [stopped_path (found durable buffered) _ flushed io.unflushed durable rfl done
    (stops.trans (compactOps_front codec io spill flushed snapshot))]
  split
  · rename_i renamed
    -- The rename is behind the swap, so all records were written.
    have reached : SwapReached codec io snapshot := by
      by_contra unreached
      exact compactOps_unreached codec io spill flushed snapshot unreached _ (stops.subset renamed)
    obtain ⟨_, ⟨⟨bytes, offset⟩, encoded⟩, _, _⟩ := reached
    rw [chunks_whole codec io spill _ 0 bytes offset encoded]
    exact iff_of_true (restores_written codec laws rejoinAfterLeave io snapshot bytes offset
      encoded) trivial
  · split
    · exact restores_missing codec rejoinAfterLeave snapshot
    · exact restores_some_iff codec rejoinAfterLeave snapshot _

end Restarts

def oneAlive : Snapshot UInt8 UInt8 :=
  run (snapshotStep calmEnv) (fromReplayResult .initial [] 100 false)
    [.memberEvent 3 ⟨.join, [plainMember 1]⟩]

def lossyOps (unflushed : Nat) : List (FileOp UInt8) :=
  compactOps paddedCodec
    { (calmIo : AppendIo UInt8 UInt8).compact with unflushed := unflushed } (fun _ => 64) 0 oneAlive

theorem finished_compaction_restores :
    Restores paddedCodec false
      (run fileStep (found oneAlive.file []) (lossyOps 0)).path oneAlive := by
  refine (stopped_compaction_restores_iff paddedCodec paddedCodec_roundTrips false
    (calmIo : AppendIo UInt8 UInt8).compact oneAlive (fun _ => 64) 0 oneAlive.file []
    (lossyOps 0) List.prefix_rfl).mpr ?_
  rw [if_pos (by decide)]
  trivial

/-- Stopped right behind the removal of the old file, the compaction leaves none. Before
it the records that are only buffered are missing until they are flushed, and for good
where the flush fails. -/
theorem stopped_compaction_loses :
    let removed := (lossyOps 0).takeWhile (· ≠ .renameTemp)
    let synced := (lossyOps 0).takeWhile (· ≠ .flushOld 0)
    let unflushed := (lossyOps oneAlive.file.length).takeWhile (· ≠ .removePath)
    (removed <+: lossyOps 0 ∧ ¬ Restores paddedCodec false
      (run fileStep (found oneAlive.file []) removed).path oneAlive) ∧
    (synced <+: lossyOps 0 ∧ ¬ Restores paddedCodec false
      (run fileStep (found [] oneAlive.file) synced).path oneAlive) ∧
    (unflushed <+: lossyOps oneAlive.file.length ∧ ¬ Restores paddedCodec false
      (run fileStep (found [] oneAlive.file) unflushed).path oneAlive) := by
  intro removed synced unflushed
  have member : (⟨1, 7⟩ : Node UInt8 UInt8) ∈ oneAlive.aliveNodes.items := by decide
  have missing : ¬ Restores paddedCodec false none oneAlive := fun restores =>
    ((restores_missing paddedCodec false oneAlive).mp restores).1 ⟨1, 7⟩ member
  refine ⟨⟨List.takeWhile_prefix _, ?_⟩, ⟨List.takeWhile_prefix _, ?_⟩,
    List.takeWhile_prefix _, ?_⟩
  · have gone : (run fileStep (found oneAlive.file []) removed).path = none := by decide
    rw [gone]
    exact missing
  · have empty : (run fileStep (found [] oneAlive.file) synced).path = some [] := by decide
    rw [empty]
    exact missing
  · have empty : (run fileStep (found [] oneAlive.file) unflushed).path = some [] := by decide
    rw [empty]
    exact missing

end Serf.CompactCrash
