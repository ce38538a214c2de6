import Serf.Snapshotter

/-!
The snapshot file against the memory of the snapshotter. While every append
succeeds, the file replays to the memory, through every kind of event, every
tick of the clock and every compaction.
-/

namespace Serf.SnapshotReplay

open Library.Collections Library.Machine Library.Encoding Library.RecordLog
open SnapshotFile Snapshotter

variable {Id Address : Type}

def memory (snapshot : Snapshot Id Address) : Replayed Id Address :=
  ⟨snapshot.aliveNodes, snapshot.lastClock, snapshot.lastEventClock, snapshot.lastQueryClock⟩

def SameNodes (left right : Replayed Id Address) : Prop :=
  ∀ node, node ∈ left.aliveNodes ↔ node ∈ right.aliveNodes

structure Same (left right : Replayed Id Address) : Prop where
  nodes : SameNodes left right
  clock : left.lastClock = right.lastClock
  eventClock : left.lastEventClock = right.lastEventClock
  queryClock : left.lastQueryClock = right.lastQueryClock

theorem same_refl (state : Replayed Id Address) : Same state state :=
  ⟨fun _ => Iff.rfl, rfl, rfl, rfl⟩

/-- Every `append_line` so far has returned `Ok`. -/
def AllOk (snapshot : Snapshot Id Address) : Prop :=
  ∀ result ∈ snapshot.appended, result = .ok ()

instance (snapshot : Snapshot Id Address) : Decidable (AllOk snapshot) :=
  inferInstanceAs (Decidable (∀ result ∈ snapshot.appended, result = .ok ()))

section Appending

theorem stage_ok (fault : Option IoError) (wrap : IoError → SnapshotError)
    (snapshot : Snapshot Id Address) (next after : Snapshot Id Address × Except Failure Unit)
    (ok : stage fault wrap snapshot next = after) (fine : after.2 = .ok ()) : next = after := by
  cases fault with
  | some reason =>
    subst ok
    cases fine
  | none => exact ok

variable {View : Type} (view : Snapshot Id Address → View)

def IgnoresFile : Prop :=
  ∀ (snapshot : Snapshot Id Address) (file : Bytes) (offset : Nat) (fh : Bool),
    view { snapshot with file := file, offset := offset, fh := fh } = view snapshot

structure IgnoresAppends : Prop where
  file : IgnoresFile view
  results : ∀ (snapshot : Snapshot Id Address) appended panicked,
    view { snapshot with appended := appended, panicked := panicked } = view snapshot

theorem stage_view (fault : Option IoError) (wrap : IoError → SnapshotError)
    (snapshot : Snapshot Id Address) (next : Snapshot Id Address × Except Failure Unit)
    (held : View) (here : view snapshot = held) (there : view next.1 = held) :
    view (stage fault wrap snapshot next).1 = held := by
  cases fault with
  | some reason => exact here
  | none => exact there

theorem compact_view (ignores : IgnoresFile view) (codec : NodeCodec Id Address)
    (io : CompactIo Id Address) (snapshot : Snapshot Id Address) :
    view (compact codec io snapshot).1 = view snapshot := by
  unfold compact
  apply stage_view view _ _ _ _ _ rfl
  split
  · rfl
  · apply stage_view view _ _ _ _ _ rfl
    apply stage_view view _ _ _ _ _ rfl
    split
    · rfl
    · apply stage_view view _ _ _ _ _ (ignores snapshot _ _ _)
      apply stage_view view _ _ _ _ _ (ignores snapshot _ _ _)
      exact stage_view view _ _ _ _ _ (ignores snapshot _ _ _) (ignores snapshot _ _ _)

theorem appendLine_view (ignores : IgnoresFile view) (codec : NodeCodec Id Address)
    (io : AppendIo Id Address) (record : SnapshotRecord Id Address)
    (snapshot : Snapshot Id Address) :
    view (appendLine codec io record snapshot).1 = view snapshot := by
  unfold appendLine
  split
  · rfl
  · split
    · rfl
    · split
      · exact ignores snapshot _ _ _
      · apply stage_view view _ _ _ _ _ (ignores snapshot _ _ _)
        dsimp only
        split
        · rw [compact_view view ignores]
          exact ignores snapshot _ _ _
        · exact ignores snapshot _ _ _

theorem tryAppend_view (ignores : IgnoresAppends view) (env : SnapshotEnv Id Address)
    (record : SnapshotRecord Id Address) (snapshot : Snapshot Id Address) :
    view (tryAppend env record snapshot) = view snapshot := by
  obtain ⟨ignores, results⟩ := ignores
  have kept := appendLine_view view ignores env.codec (env.io snapshot.appended.length) record
    snapshot
  unfold tryAppend
  dsimp only
  split
  · rw [results, kept]
  · rw [results, kept]
  · split
    · split
      · rename_i recovered failed
        have same := congrArg (fun pair => view pair.1) failed
        simp only [compact_view view ignores] at same
        rw [results, ← same, results, kept]
      · rename_i recovered other failed
        have same := congrArg (fun pair => view pair.1) failed
        simp only [compact_view view ignores] at same
        rw [← same, results, kept]
    · rw [results, kept]

theorem tryAppend_appended (env : SnapshotEnv Id Address) (record : SnapshotRecord Id Address)
    (snapshot : Snapshot Id Address) :
    (tryAppend env record snapshot).appended = snapshot.appended ++
      [(appendLine env.codec (env.io snapshot.appended.length) record snapshot).2] := by
  have ignores : IgnoresFile fun snapshot : Snapshot Id Address => snapshot.appended :=
    fun _ _ _ _ => rfl
  have kept := appendLine_view _ ignores env.codec (env.io snapshot.appended.length) record
    snapshot
  have untouched := fun io after => compact_view _ ignores env.codec io after
  unfold tryAppend
  dsimp only
  split
  · rename_i result
    rw [kept, result]
  · rename_i result
    rw [kept, result]
  · rename_i reason result
    split
    · split
      · rename_i recovered failed
        have same := congrArg (fun pair => pair.1.appended) failed
        simp only [untouched] at same
        rw [← same, kept, result]
      · rename_i recovered other failed
        have same := congrArg (fun pair => pair.1.appended) failed
        simp only [untouched] at same
        rw [← same, kept, result]
    · rw [kept, result]

theorem tryAppend_aliveNodes (env : SnapshotEnv Id Address) (record : SnapshotRecord Id Address)
    (snapshot : Snapshot Id Address) :
    (tryAppend env record snapshot).aliveNodes = snapshot.aliveNodes :=
  tryAppend_view (fun snapshot => snapshot.aliveNodes) ⟨fun _ _ _ _ => rfl, fun _ _ _ => rfl⟩ env
    record snapshot

section Frames

variable (ignores : IgnoresAppends view) (env : SnapshotEnv Id Address)

include ignores

theorem updateClock_view
    (clock : ∀ (snapshot : Snapshot Id Address) time,
      view { snapshot with lastClock := time } = view snapshot)
    (time : LamportTime) (snapshot : Snapshot Id Address) :
    view (updateClock env time snapshot) = view snapshot := by
  unfold updateClock
  generalize (if time = 0 then 0 else time - 1) = lastSeen
  dsimp only
  split
  · rw [tryAppend_view view ignores, clock]
  · rfl

variable [DecidableEq Id] [DecidableEq Address]

theorem processMembers_view
    (nodes : ∀ (snapshot : Snapshot Id Address) alive,
      view { snapshot with aliveNodes := alive } = view snapshot)
    (ty : MemberEventType) (members : List (Member Id Address)) (snapshot : Snapshot Id Address) :
    view (processMembers env ty members snapshot) = view snapshot := by
  induction members generalizing snapshot with
  | nil => rfl
  | cons m rest ih =>
    rw [processMembers, ih, unlessPanicked]
    split
    · rfl
    · cases ty with
      | join => exact (tryAppend_view view ignores env _ _).trans (nodes snapshot _)
      | leave => exact (tryAppend_view view ignores env _ _).trans (nodes snapshot _)
      | failed => exact (tryAppend_view view ignores env _ _).trans (nodes snapshot _)
      | update => rfl
      | reap => rfl

theorem processMemberEvent_view
    (nodes : ∀ (snapshot : Snapshot Id Address) alive,
      view { snapshot with aliveNodes := alive } = view snapshot)
    (clock : ∀ (snapshot : Snapshot Id Address) time,
      view { snapshot with lastClock := time } = view snapshot)
    (time : LamportTime) (event : MemberEvent Id Address) (snapshot : Snapshot Id Address) :
    view (processMemberEvent env time event snapshot) = view snapshot := by
  rw [processMemberEvent, unlessPanicked]
  split
  · exact processMembers_view view ignores env nodes event.ty event.members snapshot
  · rw [updateClock_view view ignores env clock]
    exact processMembers_view view ignores env nodes event.ty event.members snapshot

end Frames

end Appending

variable [DecidableEq Id] [DecidableEq Address]

section Records

variable (codec : NodeCodec Id Address) (laws : RoundTrips codec) (rejoinAfterLeave : Bool)

theorem applyRecord_nodes (left right : Replayed Id Address) (record : SnapshotRecord Id Address)
    (same : SameNodes left right) :
    SameNodes (applyRecord rejoinAfterLeave left record)
      (applyRecord rejoinAfterLeave right record) := by
  intro other
  have here := same other
  cases record with
  | alive node => simp [applyRecord, here]
  | notAlive node => simp [applyRecord, here]
  | leave => cases rejoinAfterLeave <;> simp [applyRecord, here]
  | _ => simpa [applyRecord] using here

theorem applyRecord_same (left right : Replayed Id Address) (record : SnapshotRecord Id Address)
    (same : Same left right) :
    Same (applyRecord rejoinAfterLeave left record)
      (applyRecord rejoinAfterLeave right record) := by
  refine ⟨applyRecord_nodes rejoinAfterLeave left right record same.nodes, ?_, ?_, ?_⟩
  all_goals
    cases record with
    | leave =>
      cases rejoinAfterLeave <;>
        simp [applyRecord, same.clock, same.eventClock, same.queryClock]
    | _ => simp [applyRecord, same.clock, same.eventClock, same.queryClock]

include laws in
theorem encode_reads (record : SnapshotRecord Id Address) (bytes : Bytes) (n : Nat)
    (encoded : encode codec record = .ok (bytes, n)) (state : Replayed Id Address) :
    Reads (replayTurn codec rejoinAfterLeave) state bytes
      (applyRecord rejoinAfterLeave state record) := by
  by_cases inlined : Inlined codec record
  · obtain ⟨made, success, some, reads⟩ := encode_inlined codec laws record inlined
    rw [success] at encoded
    cases encoded
    apply reads_record _ _ _ some
    intro more
    exact replayTurn_record codec rejoinAfterLeave state record bytes more some (reads more)
  · obtain ⟨reason, failed⟩ := encode_long codec laws record inlined
    rw [failed] at encoded
    cases encoded

include laws in
theorem encodeAll_reads (writeNew : Nat → Option IoError)
    (records : List (SnapshotRecord Id Address)) (i : Nat) (bytes : Bytes) (n : Nat)
    (encoded : encodeAll codec writeNew i records = .ok (bytes, n)) (state : Replayed Id Address) :
    Reads (replayTurn codec rejoinAfterLeave) state bytes
      (records.foldl (applyRecord rejoinAfterLeave) state) := by
  induction records generalizing i bytes n state with
  | nil =>
    cases encoded
    exact .done state
  | cons record rest ih =>
    unfold encodeAll at encoded
    cases first : encode codec record with
    | error reason => simp [first] at encoded
    | ok pair =>
      cases fault : writeNew i with
      | some reason => simp [first, fault] at encoded
      | none =>
        simp only [first, fault] at encoded
        cases later : encodeAll codec writeNew (i + 1) rest with
        | error reason => simp [later] at encoded
        | ok tail =>
          simp only [later, Except.ok.injEq, Prod.mk.injEq] at encoded
          obtain ⟨rfl, rfl⟩ := encoded
          have head := encode_reads codec laws rejoinAfterLeave record pair.1 pair.2 first
            state
          exact reads_append _ _ _ _ _ head (ih (i + 1) tail.1 tail.2 later _)

theorem foldl_alive (nodes : List (Node Id Address)) (state : Replayed Id Address)
    (node : Node Id Address) :
    node ∈ ((nodes.map SnapshotRecord.alive).foldl (applyRecord rejoinAfterLeave)
      state).aliveNodes ↔ node ∈ nodes ∨ node ∈ state.aliveNodes := by
  induction nodes generalizing state with
  | nil => simp
  | cons first rest ih =>
    rw [List.map_cons, List.foldl_cons, ih, List.mem_cons, or_assoc, or_left_comm]
    simp [applyRecord]

theorem compactRecords_same (io : CompactIo Id Address) (snapshot : Snapshot Id Address) :
    Same ((compactRecords io snapshot).foldl (applyRecord rejoinAfterLeave) .initial)
      (memory snapshot) := by
  rw [compactRecords, List.foldl_append]
  refine ⟨?_, rfl, rfl, rfl⟩
  intro node
  have visited : node ∈ io.visit snapshot.aliveNodes.items ↔ node ∈ snapshot.aliveNodes.items :=
    (io.visits snapshot.aliveNodes.items).mem_iff
  have here := foldl_alive rejoinAfterLeave (io.visit snapshot.aliveNodes.items) .initial node
  simp only [Replayed.initial, ItemSet.mem_empty, or_false] at here
  simp only [List.foldl_cons, List.foldl_nil, applyRecord]
  exact here.trans visited

include laws in
theorem compact_ok (io : CompactIo Id Address) (snapshot after : Snapshot Id Address)
    (ok : compact codec io snapshot = (after, .ok ())) :
    ∃ file offset, after = { snapshot with file := file, offset := offset } ∧
      ∃ replayed, Reads (replayTurn codec rejoinAfterLeave) .initial file replayed ∧
        Same replayed (memory snapshot) := by
  unfold compact at ok
  have ok := stage_ok _ _ _ _ _ ok rfl
  cases encoded : encodeAll codec io.writeNew 0 (compactRecords io snapshot) with
  | error reason => simp [encoded] at ok
  | ok pair =>
    simp only [encoded] at ok
    have ok := stage_ok _ _ _ _ _ (stage_ok _ _ _ _ _ ok rfl) rfl
    split at ok
    · cases ok
    · rename_i opened
      have ok := stage_ok _ _ _ _ _ (stage_ok _ _ _ _ _ (stage_ok _ _ _ _ _ ok rfl) rfl) rfl
      cases ok
      refine ⟨pair.1, pair.2, ?_, _, encodeAll_reads codec laws rejoinAfterLeave io.writeNew _ 0
        pair.1 pair.2 encoded .initial, compactRecords_same rejoinAfterLeave io snapshot⟩
      have writer : snapshot.fh = true := by simpa using opened
      simp [writer]

include laws in
theorem appendLine_ok (io : AppendIo Id Address) (record : SnapshotRecord Id Address)
    (snapshot after : Snapshot Id Address)
    (ok : appendLine codec io record snapshot = (after, .ok ())) :
    ∃ file offset, after = { snapshot with file := file, offset := offset } ∧
      ∀ replayed, Reads (replayTurn codec rejoinAfterLeave) .initial snapshot.file replayed →
        ∃ next, Reads (replayTurn codec rejoinAfterLeave) .initial file next ∧
          (next = applyRecord rejoinAfterLeave replayed record ∨ Same next (memory snapshot)) := by
  unfold appendLine at ok
  split at ok
  · cases ok
  · cases encoded : encode codec record with
    | error reason => simp [encoded] at ok
    | ok pair =>
      simp only [encoded] at ok
      split at ok
      · cases ok
      · have ok := stage_ok _ _ _ _ _ ok rfl
        split at ok
        · obtain ⟨file, offset, rfl, next, reads, same⟩ := compact_ok codec laws rejoinAfterLeave
            io.compact _ after ok
          exact ⟨file, offset, rfl, fun _ _ => ⟨next, reads, Or.inr same⟩⟩
        · cases ok
          refine ⟨snapshot.file ++ pair.1, snapshot.offset + pair.2, rfl, ?_⟩
          intro replayed reads
          have tail := encode_reads codec laws rejoinAfterLeave record pair.1 pair.2 encoded
            replayed
          exact ⟨_, reads_append _ _ _ _ _ reads tail, Or.inl rfl⟩

end Records

section Steps

omit [DecidableEq Id] [DecidableEq Address]

def Keeps (held : Snapshot Id Address → Prop) (step : Snapshot Id Address → Snapshot Id Address) :
    Prop :=
  ∀ snapshot, AllOk (step snapshot) → AllOk snapshot ∧ (held snapshot → held (step snapshot))

variable (held : Snapshot Id Address → Prop)

theorem keeps_refl : Keeps held id := fun _ ok => ⟨ok, fun before => before⟩

theorem keeps_comp (first second : Snapshot Id Address → Snapshot Id Address)
    (one : Keeps held first) (two : Keeps held second) :
    Keeps held fun snapshot => second (first snapshot) := by
  intro snapshot ok
  obtain ⟨middle, later⟩ := two (first snapshot) ok
  obtain ⟨start, earlier⟩ := one snapshot middle
  exact ⟨start, fun before => later (earlier before)⟩

theorem keeps_ite (skip : Snapshot Id Address → Prop) [DecidablePred skip]
    (next : Snapshot Id Address → Snapshot Id Address) (keeps : Keeps held next) :
    Keeps held fun snapshot => if skip snapshot then snapshot else next snapshot := by
  intro snapshot ok
  by_cases skipped : skip snapshot
  · simp only [skipped, ↓reduceIte] at ok ⊢
    exact ⟨ok, fun before => before⟩
  · simp only [skipped, ↓reduceIte] at ok ⊢
    exact keeps snapshot ok

theorem keeps_unlessPanicked (next : Snapshot Id Address → Snapshot Id Address)
    (keeps : Keeps held next) : Keeps held (unlessPanicked next) :=
  keeps_ite held (fun snapshot => snapshot.panicked = true) next keeps

end Steps

section Sessions

variable (env : SnapshotEnv Id Address) (rejoinAfterLeave : Bool)
  (agree : Replayed Id Address → Replayed Id Address → Prop)

def Tracks (snapshot : Snapshot Id Address) : Prop :=
  ∃ replayed, Reads (replayTurn env.codec rejoinAfterLeave) .initial snapshot.file replayed ∧
    agree replayed (memory snapshot)

structure Agreement : Prop where
  same : ∀ left right, Same left right → agree left right
  applied : ∀ left right record, agree left right →
    agree (applyRecord rejoinAfterLeave left record) (applyRecord rejoinAfterLeave right record)

theorem nodes_agreement : Agreement rejoinAfterLeave (@SameNodes Id Address) :=
  ⟨fun _ _ same => same.nodes, fun left right record same =>
    applyRecord_nodes rejoinAfterLeave left right record same⟩

theorem same_agreement : Agreement rejoinAfterLeave (@Same Id Address) :=
  ⟨fun _ _ same => same, fun left right record same =>
    applyRecord_same rejoinAfterLeave left right record same⟩

structure Appends (record : SnapshotRecord Id Address) (before after : Snapshot Id Address) :
    Prop where
  allOk : AllOk before
  frame : ∃ file offset, after =
    { before with file := file, offset := offset, appended := before.appended ++ [.ok ()] }
  replays : ∀ replayed,
    Reads (replayTurn env.codec rejoinAfterLeave) .initial before.file replayed →
    ∃ next, Reads (replayTurn env.codec rejoinAfterLeave) .initial after.file next ∧
      (next = applyRecord rejoinAfterLeave replayed record ∨ Same next (memory before))

variable (laws : RoundTrips env.codec)

include laws in
theorem tryAppend_ok (record : SnapshotRecord Id Address) (snapshot : Snapshot Id Address)
    (ok : AllOk (tryAppend env record snapshot)) :
    Appends env rejoinAfterLeave record snapshot (tryAppend env record snapshot) := by
  have grown := tryAppend_appended env record snapshot
  have result : (appendLine env.codec (env.io snapshot.appended.length) record snapshot).2 =
      .ok () := by
    apply ok
    rw [grown]
    simp
  obtain ⟨after, appended⟩ : ∃ after,
      appendLine env.codec (env.io snapshot.appended.length) record snapshot = (after, .ok ()) :=
    ⟨_, Prod.ext rfl result⟩
  obtain ⟨file, offset, rfl, replays⟩ :=
    appendLine_ok env.codec laws rejoinAfterLeave _ record snapshot after appended
  have whole : tryAppend env record snapshot = { snapshot with
      file := file, offset := offset, appended := snapshot.appended ++ [.ok ()] } := by
    simp [tryAppend, appended]
  rw [whole]
  refine ⟨?_, ⟨file, offset, rfl⟩, replays⟩
  intro entry member
  apply ok
  rw [grown]
  exact List.mem_append_left _ member

def AppendKeeps (held : Snapshot Id Address → Prop) : Prop :=
  ∀ record before updated, updated.file = before.file → updated.appended = before.appended →
    updated.panicked = before.panicked →
    memory updated = applyRecord rejoinAfterLeave (memory before) record →
    AllOk (tryAppend env record updated) →
    AllOk before ∧ (held before → held (tryAppend env record updated))

include laws in
theorem appendKeeps_of (held : Snapshot Id Address → Prop)
    (kept : ∀ record before updated, updated.file = before.file →
      updated.panicked = before.panicked →
      memory updated = applyRecord rejoinAfterLeave (memory before) record →
      Appends env rejoinAfterLeave record updated (tryAppend env record updated) →
      held before → held (tryAppend env record updated)) :
    AppendKeeps env rejoinAfterLeave held := by
  intro record before updated file appended panicked applied ok
  have effect := tryAppend_ok env rejoinAfterLeave laws record updated ok
  refine ⟨?_, kept record before updated file panicked applied effect⟩
  have fine := effect.allOk
  rwa [AllOk, appended] at fine

include laws in
theorem tracks_appendKeeps (agreement : Agreement rejoinAfterLeave agree) :
    AppendKeeps env rejoinAfterLeave (Tracks env rejoinAfterLeave agree) := by
  apply appendKeeps_of env rejoinAfterLeave laws
  rintro record before updated file - applied effect ⟨replayed, reads, same⟩
  obtain ⟨next, later, reached⟩ := effect.replays replayed (by rw [file]; exact reads)
  have kept : memory (tryAppend env record updated) = memory updated := by
    obtain ⟨_, _, shape⟩ := effect.frame
    rw [shape]
    rfl
  refine ⟨next, later, ?_⟩
  rw [kept]
  rcases reached with recorded | compacted
  · rw [recorded, applied]
    exact agreement.applied _ _ record same
  · exact agreement.same _ _ compacted

theorem updateClock_keeps {held : Snapshot Id Address → Prop}
    (appends : AppendKeeps env rejoinAfterLeave held) (time : LamportTime) :
    Keeps held (updateClock env time) := by
  have recorded : ∀ lastSeen, Keeps held fun snapshot =>
      if ¬ snapshot.lastClock < lastSeen then snapshot
      else tryAppend env (.clock lastSeen) { snapshot with lastClock := lastSeen } := by
    intro lastSeen
    apply keeps_ite held (fun snapshot => ¬ snapshot.lastClock < lastSeen)
    intro snapshot ok
    exact appends _ snapshot _ rfl rfl rfl rfl ok
  have step := recorded (if time = 0 then 0 else time - 1)
  simp only [ite_not] at step
  exact step

variable {held : Snapshot Id Address → Prop} (appends : AppendKeeps env rejoinAfterLeave held)

include appends

theorem processMember_keeps (ty : MemberEventType) (node : Node Id Address) :
    Keeps held (processMember env ty node) := by
  intro snapshot ok
  cases ty with
  | join => exact appends _ snapshot _ rfl rfl rfl rfl ok
  | leave => exact appends _ snapshot _ rfl rfl rfl rfl ok
  | failed => exact appends _ snapshot _ rfl rfl rfl rfl ok
  | update => exact ⟨ok, fun before => before⟩
  | reap => exact ⟨ok, fun before => before⟩

theorem processMembers_keeps (ty : MemberEventType) (members : List (Member Id Address)) :
    Keeps held (processMembers env ty members) := by
  induction members with
  | nil => exact keeps_refl held
  | cons m rest ih =>
    have first := keeps_unlessPanicked held _
      (processMember_keeps env rejoinAfterLeave appends ty m.node)
    have both := keeps_comp held _ _ first ih
    exact both

theorem applySnapshotOp_keeps (op : SnapshotOp Id Address) :
    Keeps held fun snapshot => applySnapshotOp env snapshot op := by
  cases op with
  | memberEvent time event =>
    have nodes := processMembers_keeps env rejoinAfterLeave appends event.ty event.members
    have clock := keeps_unlessPanicked held _
      (updateClock_keeps env rejoinAfterLeave appends time)
    have both := keeps_comp held _ _ nodes clock
    exact both
  | userEvent event =>
    apply keeps_ite held (fun snapshot => event.ltime ≤ snapshot.lastEventClock)
    intro snapshot ok
    exact appends _ snapshot _ rfl rfl rfl rfl ok
  | queryEvent ltime =>
    apply keeps_ite held (fun snapshot => ltime ≤ snapshot.lastQueryClock)
    intro snapshot ok
    exact appends _ snapshot _ rfl rfl rfl rfl ok
  | updateClock time => exact updateClock_keeps env rejoinAfterLeave appends time

theorem run_keeps (ops : List (SnapshotOp Id Address)) :
    Keeps held fun snapshot => run (snapshotStep env) snapshot ops := by
  induction ops with
  | nil => exact keeps_refl held
  | cons op rest ih =>
    have first := keeps_unlessPanicked held _
      (applySnapshotOp_keeps env rejoinAfterLeave appends op)
    have both := keeps_comp held _ _ first ih
    exact both

end Sessions

/-- The snapshotter right after it has opened its file. -/
def Opened (env : SnapshotEnv Id Address) (rejoinAfterLeave : Bool) (start : Bytes)
    (minCompactSize : Nat) (snapshot : Snapshot Id Address) : Prop :=
  ∃ replayed, openAndReplaySnapshot env.codec rejoinAfterLeave start = some (.ok replayed) ∧
    snapshot = fromReplayResult replayed start minCompactSize rejoinAfterLeave

theorem opened_tracks (env : SnapshotEnv Id Address) (rejoinAfterLeave : Bool) (start : Bytes)
    (minCompactSize : Nat) (snapshot : Snapshot Id Address)
    (opened : Opened env rejoinAfterLeave start minCompactSize snapshot) :
    Tracks env rejoinAfterLeave Same snapshot := by
  obtain ⟨replayed, success, rfl⟩ := opened
  have reads := (openAndReplaySnapshot_iff env.codec rejoinAfterLeave start replayed).mp success
  exact ⟨replayed, reads, same_refl replayed⟩

theorem run_tracks (env : SnapshotEnv Id Address) (laws : RoundTrips env.codec)
    (rejoinAfterLeave : Bool) (start : Bytes) (minCompactSize : Nat) (opened : Snapshot Id Address)
    (opens : Opened env rejoinAfterLeave start minCompactSize opened)
    (ops : List (SnapshotOp Id Address)) (ok : AllOk (run (snapshotStep env) opened ops)) :
    Tracks env rejoinAfterLeave Same (run (snapshotStep env) opened ops) := by
  have first := opened_tracks env rejoinAfterLeave start minCompactSize opened opens
  have appends := tracks_appendKeeps env rejoinAfterLeave Same laws
    (same_agreement rejoinAfterLeave)
  exact (run_keeps env rejoinAfterLeave appends ops opened ok).2 first

/-- A session that loses no record leaves a file that replays to its memory. -/
theorem snapshot_replay_restores (env : SnapshotEnv Id Address) (laws : RoundTrips env.codec)
    (rejoinAfterLeave : Bool) (start : Bytes) (minCompactSize : Nat) (opened : Snapshot Id Address)
    (opens : Opened env rejoinAfterLeave start minCompactSize opened)
    (ops : List (SnapshotOp Id Address)) (ok : AllOk (run (snapshotStep env) opened ops)) :
    let reached := run (snapshotStep env) opened ops
    ∃ replayed, openAndReplaySnapshot env.codec rejoinAfterLeave reached.file =
        some (.ok replayed) ∧
      (∀ node, node ∈ replayed.aliveNodes ↔ node ∈ reached.aliveNodes) ∧
      replayed.lastClock = reached.lastClock ∧
      replayed.lastEventClock = reached.lastEventClock ∧
      replayed.lastQueryClock = reached.lastQueryClock := by
  intro reached
  obtain ⟨replayed, reads, same⟩ :=
    run_tracks env laws rejoinAfterLeave start minCompactSize opened opens ops ok
  refine ⟨replayed, ?_, same.nodes, same.clock, same.eventClock, same.queryClock⟩
  exact (openAndReplaySnapshot_iff env.codec rejoinAfterLeave reached.file replayed).mpr reads

def calmIo : AppendIo Id Address where
  write := none
  flushDue := false
  flush := none
  compact := ⟨none, fun _ => none, none, none, 0, none, none, none, id, fun nodes => .refl nodes⟩
  recoveryDue := false
  recovery := ⟨none, fun _ => none, none, none, 0, none, none, none, id, fun nodes => .refl nodes⟩

def calmEnv : SnapshotEnv UInt8 UInt8 := ⟨paddedCodec, fun _ => calmIo⟩

def plainMember (id : UInt8) : Member UInt8 UInt8 := ⟨⟨id, 7⟩, ∅, .alive, .v1, .v1, .v1, .v1⟩

/-- Two members join, the clocks move and both members fail. With nobody left the
file is longer than it may be, and is compacted. -/
def sampleOps : List (SnapshotOp UInt8 UInt8) :=
  [.memberEvent 5 ⟨.join, [plainMember 1, plainMember 2]⟩, .userEvent ⟨4, "deploy", [], false⟩,
    .queryEvent 6, .memberEvent 9 ⟨.failed, [plainMember 1, plainMember 2]⟩]

theorem snapshot_replay_restores_sample :
    ∃ replayed, openAndReplaySnapshot paddedCodec false
        (run (snapshotStep calmEnv) (fromReplayResult .initial [] 50 false) sampleOps).file =
          some (.ok replayed) ∧
      (∀ node, node ∈ replayed.aliveNodes ↔ node ∈ (run (snapshotStep calmEnv)
        (fromReplayResult .initial [] 50 false) sampleOps).aliveNodes) ∧
      replayed.lastClock = 8 ∧ replayed.lastEventClock = 4 ∧ replayed.lastQueryClock = 6 :=
  snapshot_replay_restores calmEnv paddedCodec_roundTrips false [] 50 _ ⟨.initial, rfl, rfl⟩
    sampleOps (by decide)

end Serf.SnapshotReplay
