import Serf.SnapshotReplay

/-!
Faults of the file system. Every step of the snapshotter comes down to appends, each
behind a change of the memory. An append that finds no writer panics. `compact` takes
the writer out before it removes the old file and puts a new one back at its very end,
so a fault in between leaves none; nothing opens the file again, and the next append,
or the compaction that is to recover from the fault, runs into the missing writer.
-/

namespace Serf.SnapshotPanic

open Library.Collections Library.Machine Library.RecordLog
open SnapshotFile Snapshotter SnapshotReplay

variable {Id Address : Type}

section Faults

variable (codec : NodeCodec Id Address) (io : CompactIo Id Address)

def SwapReached (snapshot : Snapshot Id Address) : Prop :=
  io.openNew = none ∧
  (∃ written, encodeAll codec io.writeNew 0 (compactRecords io snapshot) = .ok written) ∧
  io.flush = none ∧ io.sync = none

def SwapFails : Prop :=
  (io.remove ≠ none ∧ io.remove ≠ some .notFound) ∨ io.install ≠ none ∨ io.reopen ≠ none

def LosesWriter (snapshot : Snapshot Id Address) : Prop :=
  SwapReached codec io snapshot ∧ SwapFails io

theorem compact_unreached (snapshot : Snapshot Id Address)
    (unreached : ¬ SwapReached codec io snapshot) :
    ∃ reason, compact codec io snapshot = (snapshot, .error (.error reason)) := by
  unfold compact
  cases opened : io.openNew with
  | some reason => exact ⟨_, rfl⟩
  | none =>
    cases encoded : encodeAll codec io.writeNew 0 (compactRecords io snapshot) with
    | error reason => exact ⟨_, rfl⟩
    | ok written =>
      cases flushed : io.flush with
      | some reason => exact ⟨_, rfl⟩
      | none =>
        cases synced : io.sync with
        | some reason => exact ⟨_, rfl⟩
        | none => exact absurd ⟨opened, ⟨written, encoded⟩, flushed, synced⟩ unreached

theorem compact_lost (snapshot : Snapshot Id Address) (lost : snapshot.fh = false) :
    (compact codec io snapshot).1 = snapshot ∧
    ((compact codec io snapshot).2 = .error .panic ↔ SwapReached codec io snapshot) := by
  by_cases reached : SwapReached codec io snapshot
  · obtain ⟨opened, ⟨written, encoded⟩, flushed, synced⟩ := id reached
    have panics : compact codec io snapshot = (snapshot, .error .panic) := by
      simp [compact, opened, encoded, flushed, synced, lost, stage]
    rw [panics]
    exact ⟨rfl, iff_of_true rfl reached⟩
  · obtain ⟨reason, failed⟩ := compact_unreached codec io snapshot reached
    rw [failed]
    exact ⟨rfl, iff_of_false nofun reached⟩

theorem compact_held (snapshot : Snapshot Id Address) (held : snapshot.fh = true) :
    (compact codec io snapshot).2 ≠ .error .panic ∧
    ((compact codec io snapshot).2 = .ok () → (compact codec io snapshot).1.fh = true) ∧
    ((compact codec io snapshot).1.fh = false ↔ LosesWriter codec io snapshot) := by
  by_cases reached : SwapReached codec io snapshot
  · obtain ⟨opened, ⟨written, encoded⟩, flushed, synced⟩ := id reached
    rw [LosesWriter, and_iff_right reached]
    simp only [compact, opened, encoded, flushed, synced, held, stage, SwapFails]
    cases removed : io.remove with
    | some reason =>
      -- A file that is not there need not be removed.
      by_cases missing : reason = .notFound
      · subst missing
        cases io.install <;> cases io.reopen <;> simp
      · simp [missing]
    | none => cases io.install <;> cases io.reopen <;> simp
  · obtain ⟨reason, failed⟩ := compact_unreached codec io snapshot reached
    rw [failed, LosesWriter]
    exact ⟨nofun, nofun, iff_of_false (by simp [held]) fun loses => reached loses.1⟩

theorem swapReached_congr (before after : Snapshot Id Address)
    (same : memory after = memory before) :
    SwapReached codec io after ↔ SwapReached codec io before := by
  have records : compactRecords io after = compactRecords io before := by
    have nodes := congrArg Replayed.aliveNodes same
    have clock := congrArg Replayed.lastClock same
    have eventClock := congrArg Replayed.lastEventClock same
    have queryClock := congrArg Replayed.lastQueryClock same
    simp only [memory] at nodes clock eventClock queryClock
    simp only [compactRecords, nodes, clock, eventClock, queryClock]
  simp only [SwapReached, records]

end Faults

section Appends

variable (env : SnapshotEnv Id Address) (record : SnapshotRecord Id Address)
  (snapshot : Snapshot Id Address)

def Triggers (codec : NodeCodec Id Address) (io : AppendIo Id Address) : Prop :=
  ∃ bytes n, encode codec record = .ok (bytes, n) ∧ io.write = none ∧
    (io.flushDue = true → io.flush = none) ∧ snapshotMaxSize snapshot < snapshot.offset + n

theorem appendLine_triggers (codec : NodeCodec Id Address) (io : AppendIo Id Address)
    (held : snapshot.fh = true) (triggers : Triggers record snapshot codec io) :
    ∃ moved, appendLine codec io record snapshot = compact codec io.compact moved ∧
      moved.fh = true ∧ memory moved = memory snapshot := by
  obtain ⟨bytes, n, encoded, wrote, flushed, long⟩ := triggers
  have flushes : (if io.flushDue = true then io.flush else none) = none := by
    split
    · rename_i due
      exact flushed due
    · rfl
  refine ⟨{ snapshot with file := snapshot.file ++ bytes, offset := snapshot.offset + n }, ?_,
    held, rfl⟩
  unfold appendLine
  rw [if_neg (by simp [held])]
  simp only [encoded, wrote, flushes, stage]
  exact if_pos long

theorem appendLine_quiet (codec : NodeCodec Id Address) (io : AppendIo Id Address)
    (held : snapshot.fh = true) (quiet : ¬ Triggers record snapshot codec io) :
    (appendLine codec io record snapshot).1.fh = true ∧
    (appendLine codec io record snapshot).2 ≠ .error .panic := by
  unfold appendLine
  rw [if_neg (by simp [held])]
  cases encoded : encode codec record with
  | error reason => exact ⟨held, nofun⟩
  | ok written =>
    obtain ⟨bytes, n⟩ := written
    cases wrote : io.write with
    | some fault => exact ⟨held, nofun⟩
    | none =>
      dsimp only
      cases flushed : (if io.flushDue = true then io.flush else none) with
      | some reason => exact ⟨held, nofun⟩
      | none =>
        simp only [stage]
        split
        · rename_i long
          refine absurd ⟨bytes, n, encoded, wrote, ?_, long⟩ quiet
          intro due
          simpa [due] using flushed
        · exact ⟨held, nofun⟩

def OwnLoss : Prop :=
  let io := env.io snapshot.appended.length
  Triggers record snapshot env.codec io ∧ LosesWriter env.codec io.compact snapshot

def RecoveryLoss : Prop :=
  let io := env.io snapshot.appended.length
  (appendLine env.codec io record snapshot).2 ≠ .ok () ∧ io.recoveryDue = true ∧
    LosesWriter env.codec io.recovery snapshot

def RecoversWithout : Prop :=
  let io := env.io snapshot.appended.length
  OwnLoss env record snapshot ∧ io.recoveryDue = true ∧
    SwapReached env.codec io.recovery snapshot

theorem appendLine_held (held : snapshot.fh = true) :
    let io := env.io snapshot.appended.length
    (appendLine env.codec io record snapshot).2 ≠ .error .panic ∧
    ((appendLine env.codec io record snapshot).2 = .ok () →
      (appendLine env.codec io record snapshot).1.fh = true) ∧
    ((appendLine env.codec io record snapshot).1.fh = false ↔ OwnLoss env record snapshot) := by
  intro io
  by_cases triggers : Triggers record snapshot env.codec io
  · obtain ⟨moved, made, writer, same⟩ := appendLine_triggers record snapshot env.codec io held
      triggers
    obtain ⟨sane, whole, loses⟩ := compact_held env.codec io.compact moved writer
    rw [made]
    refine ⟨sane, whole, loses.trans ?_⟩
    rw [LosesWriter, swapReached_congr env.codec io.compact snapshot moved same]
    exact ⟨fun lost => ⟨triggers, lost⟩, fun lost => lost.2⟩
  · obtain ⟨writer, sane⟩ := appendLine_quiet record snapshot env.codec io held triggers
    refine ⟨sane, fun _ => writer, iff_of_false (by simp [writer]) ?_⟩
    exact fun lost => triggers lost.1

theorem tryAppend_lost (lost : snapshot.fh = false) :
    (tryAppend env record snapshot).panicked = true := by
  simp [tryAppend, appendLine, lost]

/-- The result of `append_line` is noted. -/
def noted (appended : Snapshot Id Address × Except Failure Unit) : Snapshot Id Address :=
  { appended.1 with appended := appended.1.appended ++ [appended.2] }

def afterRecovery (compacted : Snapshot Id Address × Except Failure Unit) :
    Snapshot Id Address :=
  { compacted.1 with
    panicked := compacted.1.panicked || decide (compacted.2 = .error .panic) }

theorem tryAppend_eq (sane : (appendLine env.codec (env.io snapshot.appended.length) record
      snapshot).2 ≠ .error .panic) :
    let io := env.io snapshot.appended.length
    let appended := appendLine env.codec io record snapshot
    tryAppend env record snapshot =
      if appended.2 ≠ .ok () ∧ io.recoveryDue = true then
        afterRecovery (compact env.codec io.recovery (noted appended))
      else noted appended := by
  intro io appended
  have same : appended = appendLine env.codec (env.io snapshot.appended.length) record snapshot :=
    rfl
  unfold tryAppend
  dsimp only
  rw [← same] at sane ⊢
  obtain ⟨after, result⟩ := appended
  cases result with
  | ok done => rfl
  | error failure =>
    cases failure with
    | panic => exact absurd rfl sane
    | error reason =>
      cases due : io.recoveryDue with
      | false => simp [noted]
      | true =>
        rw [if_pos rfl, if_pos ⟨nofun, rfl⟩]
        simp only [io, noted]
        generalize compact env.codec _ _ = compacted
        obtain ⟨recovered, outcome⟩ := compacted
        cases outcome with
        | ok done => simp [afterRecovery]
        | error failure => cases failure <;> simp [afterRecovery]

theorem tryAppend_held (held : snapshot.fh = true) (running : snapshot.panicked = false) :
    ((tryAppend env record snapshot).panicked = true ↔ RecoversWithout env record snapshot) ∧
    ((tryAppend env record snapshot).panicked = false →
      ((tryAppend env record snapshot).fh = false ↔
        OwnLoss env record snapshot ∨ RecoveryLoss env record snapshot)) := by
  obtain ⟨sane, whole, loses⟩ := appendLine_held env record snapshot held
  have memoryKept := appendLine_view memory (fun _ _ _ _ => rfl) env.codec
    (env.io snapshot.appended.length) record snapshot
  have calm := appendLine_view (fun snapshot : Snapshot Id Address => snapshot.panicked)
    (fun _ _ _ _ => rfl) env.codec (env.io snapshot.appended.length) record snapshot
  rw [tryAppend_eq env record snapshot sane]
  unfold RecoversWithout RecoveryLoss
  dsimp only
  generalize appendLine env.codec (env.io snapshot.appended.length) record snapshot = appended
    at sane whole loses memoryKept calm ⊢
  generalize env.io snapshot.appended.length = io
  by_cases recovers : appended.2 ≠ .ok () ∧ io.recoveryDue = true
  · rw [if_pos recovers]
    have same := swapReached_congr env.codec io.recovery snapshot (noted appended) memoryKept
    have untouched := compact_view (fun snapshot : Snapshot Id Address => snapshot.panicked)
      (fun _ _ _ _ => rfl) env.codec io.recovery (noted appended)
    have still : (compact env.codec io.recovery (noted appended)).1.panicked = false :=
      untouched.trans (calm.trans running)
    cases writer : appended.1.fh with
    -- The append lost the writer itself, so a recovery that gets to its swap panics.
    | false =>
      obtain ⟨unchanged, panics⟩ := compact_lost env.codec io.recovery (noted appended) writer
      rw [same] at panics
      refine ⟨?_, fun _ => ?_⟩
      · simp [afterRecovery, still, panics, loses.mp writer, recovers.2]
      · have gone : (compact env.codec io.recovery (noted appended)).1.fh = false := by
          rw [unchanged]
          exact writer
        simp [afterRecovery, gone, loses.mp writer]
    | true =>
      obtain ⟨fine, _, lost⟩ := compact_held env.codec io.recovery (noted appended) writer
      have kept : ¬ OwnLoss env record snapshot := by
        rw [← loses, writer]
        nofun
      rw [LosesWriter, same] at lost
      refine ⟨?_, fun _ => ?_⟩
      · simp [afterRecovery, still, fine, kept]
      · simp [afterRecovery, lost, LosesWriter, kept, recovers]
  · rw [if_neg recovers]
    refine ⟨iff_of_false (by simp [noted, calm.trans running]) ?_, fun _ => ?_⟩
    · rintro ⟨own, due, _⟩
      have failed : appended.2 = .ok () := by
        by_contra other
        exact recovers ⟨other, due⟩
      have lost := loses.mpr own
      rw [whole failed] at lost
      cases lost
    · rw [← loses]
      refine ⟨Or.inl, ?_⟩
      rintro (own | ⟨failed, due, _⟩)
      · exact own
      · exact absurd ⟨failed, due⟩ recovers

end Appends

variable [DecidableEq Id] [DecidableEq Address]

inductive Edit (Id Address : Type) where
  | alive (node : Node Id Address)
  | notAlive (node : Node Id Address)
  | clock (time : LamportTime)
  | eventClock (time : LamportTime)
  | queryClock (time : LamportTime)
  | leave
  deriving DecidableEq

def Edit.record : Edit Id Address → SnapshotRecord Id Address
  | .alive node => .alive node
  | .notAlive node => .notAlive node
  | .clock time => .clock time
  | .eventClock time => .eventClock time
  | .queryClock time => .queryClock time
  | .leave => .leave

def Edit.apply (snapshot : Snapshot Id Address) : Edit Id Address → Snapshot Id Address
  | .alive node => { snapshot with aliveNodes := snapshot.aliveNodes.insert node }
  | .notAlive node => { snapshot with aliveNodes := snapshot.aliveNodes.remove node }
  | .clock time => { snapshot with lastClock := time }
  | .eventClock time => { snapshot with lastEventClock := time }
  | .queryClock time => { snapshot with lastQueryClock := time }
  | .leave =>
    { snapshot with
      leaving := true
      aliveNodes := if snapshot.rejoinAfterLeave then snapshot.aliveNodes else .empty }

def appendStep (env : SnapshotEnv Id Address) (snapshot : Snapshot Id Address)
    (edit : Edit Id Address) : Snapshot Id Address × Unit :=
  (unlessPanicked (fun snapshot => tryAppend env edit.record (edit.apply snapshot)) snapshot, ())

def clockEdits (time : LamportTime) (lastClock : LamportTime) : List (Edit Id Address) :=
  let lastSeen := if time = 0 then 0 else time - 1
  if lastClock < lastSeen then [.clock lastSeen] else []

def memberEdits (ty : MemberEventType) (members : List (Member Id Address)) :
    List (Edit Id Address) :=
  match ty with
  | .join => members.map fun m => .alive m.node
  | .leave | .failed => members.map fun m => .notAlive m.node
  | .update | .reap => []

def opEdits (snapshot : Snapshot Id Address) : SnapshotOp Id Address → List (Edit Id Address)
  | .memberEvent time event =>
    memberEdits event.ty event.members ++ clockEdits time snapshot.lastClock
  | .userEvent event =>
    if event.ltime ≤ snapshot.lastEventClock then [] else [.eventClock event.ltime]
  | .queryEvent ltime => if ltime ≤ snapshot.lastQueryClock then [] else [.queryClock ltime]
  | .updateClock time => clockEdits time snapshot.lastClock

def eventEdits (session : Session Id Address) (time : LamportTime)
    (event : QueryHandler.CrateEvent Id Address) : List (Edit Id Address) :=
  if session.snapshot.leaving then [] else opEdits session.snapshot (flushEvent time event)

def streamEdits (session : Session Id Address) (op : StreamOp Id Address) :
    List (Edit Id Address) :=
  match session.phase, op with
  | .running, .leave => [.leave]
  | .running, .event time event => eventEdits session time event
  | .running, .tick time => clockEdits time session.snapshot.lastClock
  | .stopping, .wrapUp leaveWaiting time =>
    (if leaveWaiting then [.leave] else []) ++ clockEdits time session.snapshot.lastClock
  | .draining, .event time event => eventEdits session time event
  | _, _ => []

def sessionEdits (env : SnapshotEnv Id Address) :
    Session Id Address → List (StreamOp Id Address) → List (Edit Id Address)
  | _, [] => []
  | session, op :: rest =>
    streamEdits session op ++ sessionEdits env (streamStep env session op).1 rest

section Sessions

variable (env : SnapshotEnv Id Address)

variable (snapshot : Snapshot Id Address) (edits : List (Edit Id Address))

theorem run_panicked (panicked : snapshot.panicked = true) :
    run (appendStep env) snapshot edits = snapshot := by
  induction edits with
  | nil => rfl
  | cons edit rest ih => simpa [run, appendStep, unlessPanicked, panicked] using ih

theorem run_single (edit : Edit Id Address) (running : snapshot.panicked = false) :
    run (appendStep env) snapshot [edit] = tryAppend env edit.record (edit.apply snapshot) := by
  simp [run, appendStep, unlessPanicked, running]

theorem updateClock_appends (time : LamportTime) (snapshot : Snapshot Id Address)
    (running : snapshot.panicked = false) :
    updateClock env time snapshot =
      run (appendStep env) snapshot (clockEdits time snapshot.lastClock) := by
  unfold updateClock clockEdits
  generalize (if time = 0 then 0 else time - 1) = lastSeen
  dsimp only
  split
  · rw [run_single env snapshot _ running]
    rfl
  · rfl

theorem clock_behind (time : LamportTime) (snapshot : Snapshot Id Address)
    (edits : List (Edit Id Address))
    (kept : (run (appendStep env) snapshot edits).lastClock = snapshot.lastClock) :
    unlessPanicked (updateClock env time) (run (appendStep env) snapshot edits) =
      run (appendStep env) snapshot (edits ++ clockEdits time snapshot.lastClock) := by
  rw [run_append, unlessPanicked]
  split
  · rename_i panicked
    rw [run_panicked env _ _ panicked]
  · rename_i running
    rw [updateClock_appends env time _ (by simpa using running), kept]

theorem processMembers_appends (ty : MemberEventType) (members : List (Member Id Address))
    (snapshot : Snapshot Id Address) :
    processMembers env ty members snapshot =
      run (appendStep env) snapshot (memberEdits ty members) := by
  induction members generalizing snapshot with
  | nil => cases ty <;> rfl
  | cons m rest ih =>
    rw [processMembers, ih]
    cases ty with
    | join => rfl
    | leave => rfl
    | failed => rfl
    | update => simp [memberEdits, processMember, unlessPanicked, run]
    | reap => simp [memberEdits, processMember, unlessPanicked, run]

theorem applySnapshotOp_appends (op : SnapshotOp Id Address) (snapshot : Snapshot Id Address)
    (running : snapshot.panicked = false) :
    applySnapshotOp env snapshot op = run (appendStep env) snapshot (opEdits snapshot op) := by
  cases op with
  | memberEvent time event =>
    have kept := processMembers_view (fun snapshot : Snapshot Id Address => snapshot.lastClock)
      ⟨fun _ _ _ _ => rfl, fun _ _ _ => rfl⟩ env (fun _ _ => rfl) event.ty event.members snapshot
    simp only [applySnapshotOp, processMemberEvent, opEdits]
    rw [processMembers_appends] at kept ⊢
    exact clock_behind env time snapshot _ kept
  | userEvent event =>
    simp only [applySnapshotOp, processUserEvent, opEdits]
    split
    · rfl
    · rw [run_single env snapshot _ running]
      rfl
  | queryEvent ltime =>
    simp only [applySnapshotOp, processQueryEvent, opEdits]
    split
    · rfl
    · rw [run_single env snapshot _ running]
      rfl
  | updateClock time => exact updateClock_appends env time snapshot running

theorem streamEvent_appends (ends : Phase) (time : LamportTime)
    (event : QueryHandler.CrateEvent Id Address) (session : Session Id Address)
    (running : session.snapshot.panicked = false) :
    (streamEvent env ends time event session).snapshot =
      run (appendStep env) session.snapshot (eventEdits session time event) := by
  unfold streamEvent eventEdits
  split
  · rfl
  · exact applySnapshotOp_appends env _ session.snapshot running

theorem wrapUp_appends (leaveWaiting : Bool) (time : LamportTime)
    (snapshot : Snapshot Id Address) (running : snapshot.panicked = false) :
    unlessPanicked (updateClock env time)
      (if leaveWaiting then handleLeave env snapshot else snapshot) =
    run (appendStep env) snapshot
      ((if leaveWaiting then [.leave] else []) ++ clockEdits time snapshot.lastClock) := by
  cases leaveWaiting with
  | false => exact clock_behind env time snapshot [] rfl
  | true =>
    -- The append of the leave may panic, and then the clock is not recorded.
    have left : handleLeave env snapshot = run (appendStep env) snapshot [.leave] :=
      (run_single env snapshot .leave running).symm
    rw [if_pos rfl, left]
    refine clock_behind env time snapshot [.leave] ?_
    rw [← left]
    exact tryAppend_view (fun snapshot => snapshot.lastClock)
      ⟨fun _ _ _ _ => rfl, fun _ _ _ => rfl⟩ env .leave _

theorem streamStep_appends (session : Session Id Address) (op : StreamOp Id Address) :
    (streamStep env session op).1.snapshot =
      run (appendStep env) session.snapshot (streamEdits session op) := by
  unfold streamStep
  split
  · rename_i panicked
    exact (run_panicked env _ _ panicked).symm
  · rename_i running
    have running : session.snapshot.panicked = false := by simpa using running
    unfold applyStreamOp streamEdits
    dsimp only
    cases phase : session.phase with
    | running =>
      cases op with
      | leave => exact (run_single env session.snapshot .leave running).symm
      | event time event => exact streamEvent_appends env .stopping time event session running
      | tick time => exact updateClock_appends env time session.snapshot running
      | _ => rfl
    | stopping =>
      cases op with
      | wrapUp leaveWaiting time =>
        exact wrapUp_appends env leaveWaiting time session.snapshot running
      | _ => rfl
    | draining =>
      cases op with
      | event time event => exact streamEvent_appends env .done time event session running
      | _ => rfl
    | done => rfl

theorem session_appends (ops : List (StreamOp Id Address)) (session : Session Id Address) :
    (run (streamStep env) session ops).snapshot =
      run (appendStep env) session.snapshot (sessionEdits env session ops) := by
  induction ops generalizing session with
  | nil => rfl
  | cons op rest ih =>
    rw [run, ih, sessionEdits, run_append, streamStep_appends]

theorem apply_kept (edit : Edit Id Address) :
    (edit.apply snapshot).fh = snapshot.fh ∧
      (edit.apply snapshot).panicked = snapshot.panicked := by
  cases edit <;> exact ⟨rfl, rfl⟩

def Loses (snapshot : Snapshot Id Address) (edit : Edit Id Address) : Prop :=
  OwnLoss env edit.record (edit.apply snapshot) ∨
    RecoveryLoss env edit.record (edit.apply snapshot)

def PanicsAtOnce (snapshot : Snapshot Id Address) (edit : Edit Id Address) : Prop :=
  RecoversWithout env edit.record (edit.apply snapshot)

theorem appends_panic_iff (held : snapshot.fh = true) (running : snapshot.panicked = false) :
    (run (appendStep env) snapshot edits).panicked = true ↔
      ∃ before edit after, edits = before ++ edit :: after ∧
        (PanicsAtOnce env (run (appendStep env) snapshot before) edit ∨
          Loses env (run (appendStep env) snapshot before) edit ∧ after ≠ []) := by
  have step : ∀ (snapshot : Snapshot Id Address) (edit : Edit Id Address),
      ¬ snapshot.panicked = true → (appendStep env snapshot edit).1 =
        tryAppend env edit.record (edit.apply snapshot) := by
    intro snapshot edit running
    exact if_neg running
  apply run_dead_iff (appendStep env) (fun snapshot => snapshot.panicked = true)
    (fun snapshot => snapshot.fh = false) (PanicsAtOnce env) (Loses env)
  · intro snapshot edit panicked
    simp [appendStep, unlessPanicked, panicked]
  · intro snapshot edit lost
    by_cases panicked : snapshot.panicked = true
    · simp [appendStep, unlessPanicked, panicked]
    · rw [step snapshot edit panicked]
      exact tryAppend_lost env edit.record _ ((apply_kept snapshot edit).1.trans lost)
  · intro snapshot edit running held
    obtain ⟨writer, calm⟩ := apply_kept snapshot edit
    rw [step snapshot edit running]
    exact (tryAppend_held env edit.record _ (writer.trans (by simpa using held))
      (calm.trans (by simpa using running))).1
  · intro snapshot edit running held still
    obtain ⟨writer, calm⟩ := apply_kept snapshot edit
    rw [step snapshot edit running] at still ⊢
    exact (tryAppend_held env edit.record _ (writer.trans (by simpa using held))
      (calm.trans (by simpa using running))).2 (by simpa using still)
  · simp [running]
  · simp [held]

/-- A session panics exactly if the compaction of an append, or its recovery, fails
between taking the writer out and opening the new file, and another append or a
recovery comes behind it. Any other faults are survived. -/
theorem snapshotter_panics_iff (replayed : Replayed Id Address) (file : Bytes)
    (minCompactSize : Nat) (rejoinAfterLeave : Bool) (ops : List (StreamOp Id Address)) :
    let opened := fromReplayResult replayed file minCompactSize rejoinAfterLeave
    (run (streamStep env) ⟨opened, .running⟩ ops).snapshot.panicked = true ↔
      ∃ before edit after, sessionEdits env ⟨opened, .running⟩ ops = before ++ edit :: after ∧
        (PanicsAtOnce env (run (appendStep env) opened before) edit ∨
          Loses env (run (appendStep env) opened before) edit ∧ after ≠ []) := by
  intro opened
  rw [session_appends]
  exact appends_panic_iff env opened _ rfl rfl

end Sessions

def brokenEnv : SnapshotEnv UInt8 UInt8 where
  codec := paddedCodec
  io i := if i = 0 then
      { calmIo with
        compact := { (calmIo : AppendIo UInt8 UInt8).compact with install := some (.other 1) } }
    else calmIo

theorem snapshotter_panics :
    (run (streamStep brokenEnv) ⟨fromReplayResult .initial [] 5 false, .running⟩
      [.event 1 (.user ⟨3, "deploy", [], false⟩),
        .event 1 (.user ⟨4, "deploy", [], false⟩)]).snapshot.panicked = true := by
  decide

end Serf.SnapshotPanic
