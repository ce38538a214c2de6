import Serf.SnapshotReplay

/-!
A whole session of the snapshotter, from the opened file to the end of `stream`:
the first loop, what is done between the loops, and the loop that clears the
buffers. Every file that it leaves is complete records, so a file that a crash
cuts off is known up to the record that it tears. Behind a graceful leave no
event, tick or compaction brings a node back into the file.
-/

namespace Serf.SnapshotSession

open Library.Collections Library.Machine Library.Encoding Library.RecordLog
open SnapshotFile Snapshotter SnapshotReplay

variable {Id Address : Type} [DecidableEq Id] [DecidableEq Address]

section Stream

variable (env : SnapshotEnv Id Address) (held : Snapshot Id Address → Prop)
  (leave : Keeps held (handleLeave env))
  (event : ∀ op, Keeps held fun snapshot =>
    if snapshot.leaving = true then snapshot else applySnapshotOp env snapshot op)
  (tick : ∀ time, Keeps held (updateClock env time))

include event in
theorem streamEvent_keeps (ends : Phase) (time : LamportTime)
    (incoming : QueryHandler.CrateEvent Id Address) (session : Session Id Address)
    (ok : AllOk (streamEvent env ends time incoming session).snapshot) :
    AllOk session.snapshot ∧
      (held session.snapshot → held (streamEvent env ends time incoming session).snapshot) := by
  have same : (streamEvent env ends time incoming session).snapshot =
      if session.snapshot.leaving = true then session.snapshot
      else applySnapshotOp env session.snapshot (flushEvent time incoming) := by
    unfold streamEvent
    split <;> rfl
  rw [same] at ok ⊢
  exact event (flushEvent time incoming) session.snapshot ok

omit [DecidableEq Id] [DecidableEq Address] in
include leave tick in
theorem wrapUp_keeps (leaveWaiting : Bool) (time : LamportTime) :
    Keeps held fun snapshot => unlessPanicked (updateClock env time)
      (if leaveWaiting then handleLeave env snapshot else snapshot) := by
  have first : Keeps held fun snapshot =>
      if leaveWaiting then handleLeave env snapshot else snapshot := by
    cases leaveWaiting with
    | true => exact leave
    | false => exact keeps_refl held
  have both := keeps_comp held _ _ first (keeps_unlessPanicked held _ (tick time))
  exact both

include leave event tick in
theorem streamStep_keeps (session : Session Id Address) (op : StreamOp Id Address)
    (ok : AllOk (streamStep env session op).1.snapshot) :
    AllOk session.snapshot ∧
      (held session.snapshot → held (streamStep env session op).1.snapshot) := by
  unfold streamStep at ok ⊢
  split at ok
  · rename_i panicked
    rw [if_pos panicked]
    exact ⟨ok, fun before => before⟩
  · rename_i running
    rw [if_neg running]
    unfold applyStreamOp at ok ⊢
    split at ok
    · exact leave session.snapshot ok
    · exact streamEvent_keeps env held event .stopping _ _ session ok
    · exact tick _ session.snapshot ok
    · exact ⟨ok, fun before => before⟩
    · exact ⟨ok, fun before => before⟩
    · exact wrapUp_keeps env held leave tick _ _ session.snapshot ok
    · exact streamEvent_keeps env held event .done _ _ session ok
    · exact ⟨ok, fun before => before⟩
    · exact ⟨ok, fun before => before⟩
    · exact ⟨ok, fun before => before⟩

include leave event tick in
theorem run_stream_keeps (ops : List (StreamOp Id Address)) (session : Session Id Address)
    (ok : AllOk (run (streamStep env) session ops).snapshot) :
    AllOk session.snapshot ∧
      (held session.snapshot → held (run (streamStep env) session ops).snapshot) := by
  induction ops generalizing session with
  | nil => exact ⟨ok, fun before => before⟩
  | cons op rest ih =>
    obtain ⟨middle, later⟩ := ih (streamStep env session op).1 ok
    obtain ⟨first, earlier⟩ := streamStep_keeps env held leave event tick session op middle
    exact ⟨first, fun before => later (earlier before)⟩

end Stream

section Tearing

variable (env : SnapshotEnv Id Address) (laws : RoundTrips env.codec) (rejoinAfterLeave : Bool)

def Complete (snapshot : Snapshot Id Address) : Prop :=
  Tracks env rejoinAfterLeave (fun _ _ => True) snapshot

theorem complete_agreement : Agreement rejoinAfterLeave
    (fun _ _ : Replayed Id Address => True) :=
  ⟨fun _ _ _ => trivial, fun _ _ _ _ => trivial⟩

include laws in
theorem handleLeave_complete :
    Keeps (Complete env rejoinAfterLeave) (handleLeave env) := by
  intro snapshot ok
  have effect := tryAppend_ok env rejoinAfterLeave laws .leave _ ok
  refine ⟨effect.allOk, ?_⟩
  rintro ⟨replayed, reads, _⟩
  obtain ⟨next, later, _⟩ := effect.replays replayed reads
  exact ⟨next, later, trivial⟩

include laws in
theorem session_complete (start : Bytes) (minCompactSize : Nat) (opened : Snapshot Id Address)
    (opens : Opened env rejoinAfterLeave start minCompactSize opened)
    (ops : List (StreamOp Id Address))
    (ok : AllOk (run (streamStep env) ⟨opened, .running⟩ ops).snapshot) :
    Complete env rejoinAfterLeave (run (streamStep env) ⟨opened, .running⟩ ops).snapshot := by
  obtain ⟨replayed, reads, _⟩ :=
    opened_tracks env rejoinAfterLeave start minCompactSize opened opens
  have appends := tracks_appendKeeps env rejoinAfterLeave _ laws
    (complete_agreement rejoinAfterLeave)
  refine (run_stream_keeps env (Complete env rejoinAfterLeave)
    (handleLeave_complete env laws rejoinAfterLeave) ?_ ?_ ops _ ok).2 ⟨replayed, reads, trivial⟩
  · intro op
    exact keeps_ite _ _ _ (applySnapshotOp_keeps env rejoinAfterLeave appends op)
  · exact updateClock_keeps env rejoinAfterLeave appends

/-- The longest front of a file that is complete records, and the state that they
describe. -/
structure LongestComplete (codec : NodeCodec Id Address) (rejoinAfterLeave : Bool)
    (file complete : Bytes) (state : Replayed Id Address) : Prop where
  front : complete <+: file
  reads : Reads (replayTurn codec rejoinAfterLeave) .initial complete state
  longest : ∀ more final, complete ++ more <+: file →
    Reads (replayTurn codec rejoinAfterLeave) .initial (complete ++ more) final → more = []

theorem replay_front (codec : NodeCodec Id Address) (rejoinAfterLeave : Bool)
    (file cut : Bytes) (final : Replayed Id Address)
    (reads : Reads (replayTurn codec rejoinAfterLeave) .initial file final) (front : cut <+: file) :
    ∃ complete state, LongestComplete codec rejoinAfterLeave cut complete state ∧
      (openAndReplaySnapshot codec rejoinAfterLeave cut = some (.ok state) ↔ complete = cut) ∧
      (complete ≠ cut → ∃ reason,
        openAndReplaySnapshot codec rejoinAfterLeave cut = some (.error reason)) := by
  have delimiting := replayTurn_selfDelimiting codec rejoinAfterLeave
  obtain ⟨missing, split⟩ := front
  obtain ⟨complete, torn, state, rfl, head, fails⟩ :=
    reads_cut delimiting _ final file cut missing reads split.symm
  have answer := replay_cut delimiting _ _ state complete torn head fails (Nat.lt_succ_self _)
  refine ⟨complete, state, ⟨List.prefix_append complete torn, head, ?_⟩, ?_⟩
  · rintro more final ⟨rest, parts⟩ longer
    by_contra some
    rw [List.append_assoc] at parts
    have behind := List.append_cancel_left parts
    exact torn_incomplete _ state complete torn head fails more rest behind.symm some final longer
  · rcases answer with ⟨rfl, replayed⟩ | ⟨some, reason, failed⟩
    · rw [List.append_nil] at replayed ⊢
      exact ⟨⟨fun _ => rfl, fun _ => replayed⟩, fun other => absurd rfl other⟩
    · refine ⟨⟨?_, ?_⟩, fun _ => ⟨reason, failed⟩⟩
      · intro replayed
        have both := failed.symm.trans replayed
        cases both
      · intro whole
        exact absurd (List.self_eq_append_right.mp whole) some

end Tearing

/-- A file that a crash cuts off is replayed exactly when the cut lies between
two records. Otherwise the restart fails, with whatever flag it is made. -/
theorem torn_file_replays_iff (env : SnapshotEnv Id Address) (laws : RoundTrips env.codec)
    (rejoinAfterLeave : Bool) (start : Bytes) (minCompactSize : Nat) (opened : Snapshot Id Address)
    (opens : Opened env rejoinAfterLeave start minCompactSize opened)
    (ops : List (StreamOp Id Address))
    (ok : AllOk (run (streamStep env) ⟨opened, .running⟩ ops).snapshot) (cut : Bytes)
    (front : cut <+: (run (streamStep env) ⟨opened, .running⟩ ops).snapshot.file) (restart : Bool) :
    ∃ complete state, LongestComplete env.codec restart cut complete state ∧
      (openAndReplaySnapshot env.codec restart cut = some (.ok state) ↔ complete = cut) ∧
      (complete ≠ cut → ∃ reason,
        openAndReplaySnapshot env.codec restart cut = some (.error reason)) := by
  obtain ⟨replayed, reads, _⟩ :=
    session_complete env laws rejoinAfterLeave start minCompactSize opened opens ops ok
  obtain ⟨reached, again⟩ := reads_apply _ (readRecord_consumes env.codec)
    (applyRecord rejoinAfterLeave) (applyRecord restart) _ replayed _ reads .initial
  exact replay_front env.codec restart _ cut reached again front

def eventSession : List (StreamOp UInt8 UInt8) := [.event 3 (.user ⟨1, "deploy", [], false⟩)]

theorem torn_file_replays_sample :
    ∃ complete state, LongestComplete paddedCodec false [3, 1, 0] complete state ∧
      (openAndReplaySnapshot paddedCodec false [3, 1, 0] = some (.ok state) ↔
        complete = [3, 1, 0]) ∧
      (complete ≠ [3, 1, 0] → ∃ reason,
        openAndReplaySnapshot paddedCodec false [3, 1, 0] = some (.error reason)) :=
  torn_file_replays_iff calmEnv paddedCodec_roundTrips false [] 100 _ ⟨.initial, rfl, rfl⟩
    eventSession (by decide) [3, 1, 0] (by decide) false

theorem torn_file_refused :
    (run (streamStep calmEnv) ⟨fromReplayResult .initial [] 100 false, .running⟩
      eventSession).snapshot.file = [3, 1, 0, 0, 0, 0, 0, 0, 0] ∧
    AllOk (run (streamStep calmEnv) ⟨fromReplayResult .initial [] 100 false, .running⟩
      eventSession).snapshot ∧
    openAndReplaySnapshot paddedCodec false [3] = some (.error (.replay .unexpectedEof)) := by
  refine ⟨by decide, by decide, by decide⟩

section Leaving

variable (env : SnapshotEnv Id Address)

def settings (snapshot : Snapshot Id Address) : Bool × Bool :=
  (snapshot.leaving, snapshot.rejoinAfterLeave)

omit [DecidableEq Id] [DecidableEq Address] in
theorem settings_ignores : IgnoresAppends (@settings Id Address) :=
  ⟨fun _ _ _ _ => rfl, fun _ _ _ => rfl⟩

theorem applySnapshotOp_settings (op : SnapshotOp Id Address) (snapshot : Snapshot Id Address) :
    settings (applySnapshotOp env snapshot op) = settings snapshot := by
  cases op with
  | memberEvent time event =>
    exact processMemberEvent_view settings settings_ignores env (fun _ _ => rfl)
      (fun _ _ => rfl) time event snapshot
  | userEvent event =>
    rw [applySnapshotOp, processUserEvent]
    split
    · rfl
    · exact tryAppend_view settings settings_ignores env _ _
  | queryEvent ltime =>
    rw [applySnapshotOp, processQueryEvent]
    split
    · rfl
    · exact tryAppend_view settings settings_ignores env _ _
  | updateClock time =>
    exact updateClock_view settings settings_ignores env (fun _ _ => rfl) time snapshot

/-- The file of a node that does not rejoin: it replays to the alive nodes, and
behind a leave there are none. -/
structure LeftBehind (snapshot : Snapshot Id Address) : Prop where
  rejoin : snapshot.rejoinAfterLeave = false
  tracks : Tracks env false SameNodes snapshot
  nobody : snapshot.leaving = true → ∀ node, node ∉ snapshot.aliveNodes

variable (laws : RoundTrips env.codec)

include laws in
theorem handleLeave_keeps : Keeps (LeftBehind env) (handleLeave env) := by
  intro snapshot ok
  have effect := tryAppend_ok env false laws .leave _ ok
  refine ⟨effect.allOk, ?_⟩
  rintro ⟨rejoin, ⟨replayed, reads, _⟩, _⟩
  have settled := tryAppend_view settings settings_ignores env .leave
    { snapshot with
      leaving := true
      aliveNodes := if snapshot.rejoinAfterLeave then snapshot.aliveNodes else .empty }
  have nodes : (handleLeave env snapshot).aliveNodes = .empty := by
    rw [handleLeave, tryAppend_aliveNodes]
    simp [rejoin]
  obtain ⟨next, later, reached⟩ := effect.replays replayed reads
  refine ⟨?_, ⟨next, later, ?_⟩, ?_⟩
  · have second := congrArg Prod.snd settled
    exact second.trans rejoin
  · -- The record clears the nodes on replay; a compaction has none to write.
    intro node
    have none : node ∉ next.aliveNodes := by
      rcases reached with recorded | compacted
      · rw [recorded]
        simp [applyRecord, Replayed.initial]
      · rw [compacted.nodes node]
        simp [memory, rejoin]
    simp [memory, nodes, none]
  · intro _ node
    rw [nodes]
    exact ItemSet.mem_empty node

include laws in
theorem updateClock_leftBehind (time : LamportTime) :
    Keeps (LeftBehind env) (updateClock env time) := by
  intro snapshot ok
  obtain ⟨earlier, keeps⟩ := updateClock_keeps env false
    (tracks_appendKeeps env false SameNodes laws (nodes_agreement false)) time snapshot ok
  have settled := applySnapshotOp_settings env (.updateClock time) snapshot
  have nodes : (updateClock env time snapshot).aliveNodes = snapshot.aliveNodes :=
    updateClock_view _ ⟨fun _ _ _ _ => rfl, fun _ _ _ => rfl⟩ env (fun _ _ => rfl) time snapshot
  refine ⟨earlier, ?_⟩
  rintro ⟨rejoin, tracks, nobody⟩
  refine ⟨(congrArg Prod.snd settled).trans rejoin, keeps tracks, ?_⟩
  intro leaving
  rw [nodes]
  exact nobody ((congrArg Prod.fst settled).symm.trans leaving)

include laws in
theorem event_leftBehind (op : SnapshotOp Id Address) :
    Keeps (LeftBehind env) fun snapshot =>
      if snapshot.leaving = true then snapshot else applySnapshotOp env snapshot op := by
  intro snapshot ok
  by_cases leaving : snapshot.leaving = true
  · simp only [leaving, ↓reduceIte] at ok ⊢
    exact ⟨ok, fun before => before⟩
  · simp only [leaving, Bool.false_eq_true, ↓reduceIte] at ok ⊢
    obtain ⟨earlier, keeps⟩ := applySnapshotOp_keeps env false
      (tracks_appendKeeps env false SameNodes laws (nodes_agreement false)) op snapshot ok
    have settled := applySnapshotOp_settings env op snapshot
    refine ⟨earlier, ?_⟩
    rintro ⟨rejoin, tracks, _⟩
    refine ⟨(congrArg Prod.snd settled).trans rejoin, keeps tracks, ?_⟩
    intro now
    exact absurd ((congrArg Prod.fst settled).symm.trans now) leaving

end Leaving

/-- `leaving` is set by `handle_leave` alone. Whatever the loops receive behind
it, and however often the file is compacted, it replays to no alive node. -/
theorem graceful_leave_kept (env : SnapshotEnv Id Address) (laws : RoundTrips env.codec)
    (start : Bytes) (minCompactSize : Nat) (opened : Snapshot Id Address)
    (opens : Opened env false start minCompactSize opened) (ops : List (StreamOp Id Address))
    (ok : AllOk (run (streamStep env) ⟨opened, .running⟩ ops).snapshot)
    (left : (run (streamStep env) ⟨opened, .running⟩ ops).snapshot.leaving = true) :
    ∃ replayed, openAndReplaySnapshot env.codec false
        (run (streamStep env) ⟨opened, .running⟩ ops).snapshot.file = some (.ok replayed) ∧
      ∀ node, node ∉ replayed.aliveNodes := by
  have first : LeftBehind env opened := by
    obtain ⟨replayed, reads, same⟩ := opened_tracks env false start minCompactSize opened opens
    obtain ⟨_, _, rfl⟩ := opens
    exact ⟨rfl, ⟨replayed, reads, same.nodes⟩, fun leaving => by cases leaving⟩
  have last := (run_stream_keeps env (LeftBehind env) (handleLeave_keeps env laws)
    (event_leftBehind env laws) (updateClock_leftBehind env laws) ops ⟨opened, .running⟩ ok).2 first
  obtain ⟨_, ⟨replayed, reads, nodes⟩, nobody⟩ := last
  refine ⟨replayed, (openAndReplaySnapshot_iff env.codec false _ replayed).mpr reads, ?_⟩
  intro node
  rw [nodes node]
  exact nobody left node

def leaveSession : List (StreamOp UInt8 UInt8) :=
  [.event 3 (.member ⟨.join, [plainMember 1]⟩), .leave, .tick 9,
    .event 9 (.member ⟨.join, [plainMember 2]⟩), .wrapUp false 12]

theorem graceful_leave_kept_sample :
    ∃ replayed, openAndReplaySnapshot paddedCodec false
        (run (streamStep calmEnv) ⟨fromReplayResult .initial [] 100 false, .running⟩
          leaveSession).snapshot.file = some (.ok replayed) ∧
      ∀ node, node ∉ replayed.aliveNodes :=
  graceful_leave_kept calmEnv paddedCodec_roundTrips [] 100 _ ⟨.initial, rfl, rfl⟩ leaveSession
    (by decide) (by decide)

end Serf.SnapshotSession
