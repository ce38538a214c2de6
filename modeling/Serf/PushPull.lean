import Serf.Core

/-!
What a merge of a remote state consists of: the operations that
`merge_remote_state` makes, the times they carry and where these come from. The
time of a left member is made up, one past its status time, so a received time
has to stay two below the largest word.
-/

namespace Serf.PushPull

open Library.Collections Library.Window LamportClock Serf.Core

variable {Id Address : Type} [DecidableEq Id]

theorem witnessBefore_grows (clock ltime : LamportTime) : clock ≤ witnessBefore clock ltime := by
  unfold witnessBefore
  split
  · apply witness_grows
    grind
  · exact le_refl _

theorem witnessBefore_reaches (clock ltime : LamportTime) : ltime ≤ witnessBefore clock ltime := by
  unfold witnessBefore
  split
  · have passed := witness_passes clock (ltime - 1) (by grind)
    grind
  · grind

theorem witnessBefore_idle (clock ltime : LamportTime) (reached : ltime ≤ clock) :
    witnessBefore clock ltime = clock := by
  unfold witnessBefore
  split
  · apply witness_idle
    grind
  · rfl

/-- The Lamport times that an operation takes from a message, and the clock
value that a spawned refutation carries. -/
def stamps : NodeOp Id Address → List LamportTime
  | .joinIntent _ msg => [msg.ltime]
  | .leaveIntent _ msg => [msg.ltime]
  | .receiveUserEvent msg => [msg.ltime]
  | .receiveQuery q _ => [q.ltime]
  | .witnessRemote ltime eventLtime queryLtime => [ltime, eventLtime, queryLtime]
  | .ignoreOldEvents eventLtime => [eventLtime]
  | .refute _ ltime => [ltime]
  | _ => []

/-- The Lamport times of a remote state. -/
def remoteTimes : RemoteState Id → List LamportTime
  | .unreadable => []
  | .otherMessage => []
  | .badCollections ltime eventLtime queryLtime => [ltime, eventLtime, queryLtime]
  | .pushPull pp =>
    [pp.ltime, pp.eventLtime, pp.queryLtime] ++
      pp.statusLtimes.entries.map (fun entry => entry.2) ++ pp.events.map UserEvents.ltime

variable (pp : PushPullMessage Id)

theorem leftIntents_time (msg : LeaveMessage Id) (member : msg ∈ leftIntents pp) :
    ∃ ltime, pp.statusLtimes.lookup msg.id = some ltime ∧ msg = ⟨ltime + 1, msg.id, false⟩ := by
  obtain ⟨id, _, found⟩ := List.mem_filterMap.mp member
  obtain ⟨ltime, there, rfl⟩ := Option.map_eq_some_iff.mp found
  exact ⟨ltime, there, rfl⟩

theorem otherIntents_time (msg : JoinMessage Id) (member : msg ∈ otherIntents pp) :
    msg.id ∉ pp.leftMembers ∧ pp.statusLtimes.lookup msg.id = some msg.ltime := by
  obtain ⟨entry, filtered, rfl⟩ := List.mem_map.mp member
  obtain ⟨inside, outside⟩ := List.mem_filter.mp filtered
  exact ⟨by simpa using outside, AList.mem_lookup_iff.mpr inside⟩

omit [DecidableEq Id] in
theorem remoteEvents_time (msg : UserEventMessage) (member : msg ∈ remoteEvents pp) :
    ∃ events ∈ pp.events, msg.ltime = events.ltime := by
  obtain ⟨events, inside, here⟩ := List.mem_flatMap.mp member
  obtain ⟨event, _, rfl⟩ := List.mem_map.mp here
  exact ⟨events, inside, rfl⟩

theorem statusLtimes_time (id : Id) (ltime : LamportTime)
    (found : pp.statusLtimes.lookup id = some ltime) : ltime ∈ remoteTimes (.pushPull pp) := by
  have entry := AList.mem_lookup_iff.mp found
  simp only [remoteTimes, List.mem_append, List.mem_map]
  exact Or.inl (Or.inr ⟨_, entry, rfl⟩)

theorem mergeRemoteState_op (now : Id → Epoch) (isJoin : Bool) (pp : PushPullMessage Id)
    (op : NodeOp Id Address) (member : op ∈ mergeRemoteState now isJoin (.pushPull pp)) :
    op = .witnessRemote pp.ltime pp.eventLtime pp.queryLtime ∨
    (∃ msg ∈ leftIntents pp, op = .leaveIntent (now msg.id) msg) ∨
    (∃ msg ∈ otherIntents pp, op = .joinIntent (now msg.id) msg) ∨
    op = .ignoreOldEvents pp.eventLtime ∨
    (∃ msg ∈ remoteEvents pp, op = .receiveUserEvent msg) := by
  rw [mergeRemoteState] at member
  simp only [List.mem_cons, List.mem_append, List.mem_map] at member
  rcases member with same | ((⟨msg, sent, same⟩ | ⟨msg, sent, same⟩) | ignore) | ⟨msg, sent, same⟩
  · exact Or.inl same
  · exact Or.inr (Or.inl ⟨msg, sent, same.symm⟩)
  · exact Or.inr (Or.inr (Or.inl ⟨msg, sent, same.symm⟩))
  · split at ignore
    · exact Or.inr (Or.inr (Or.inr (Or.inl (List.mem_singleton.mp ignore))))
    · cases ignore
  · exact Or.inr (Or.inr (Or.inr (Or.inr ⟨msg, sent, same.symm⟩)))

theorem merge_stamps (now : Id → Epoch) (isJoin : Bool) (remote : RemoteState Id)
    (legal : ∀ time ∈ remoteTimes remote, time < u64Max - 1) (op : NodeOp Id Address)
    (member : op ∈ mergeRemoteState now isJoin remote) :
    ∀ time ∈ stamps op, time < u64Max := by
  have below : ∀ time, time < u64Max - 1 → time < u64Max ∧ time + 1 < u64Max := by
    intro time small
    constructor <;> grind
  intro time inside
  cases remote with
  | unreadable => cases member
  | otherMessage => cases member
  | badCollections ltime eventLtime queryLtime =>
    rw [mergeRemoteState, List.mem_singleton] at member
    subst op
    exact (below time (legal time inside)).1
  | pushPull pp =>
    rcases mergeRemoteState_op now isJoin pp op member with
      rfl | ⟨msg, sent, rfl⟩ | ⟨msg, sent, rfl⟩ | rfl | ⟨msg, sent, rfl⟩
    · refine (below time (legal time ?_)).1
      simp only [remoteTimes, List.append_assoc, List.mem_append]
      exact Or.inl inside
    · obtain ⟨ltime, found, shape⟩ := leftIntents_time pp msg sent
      rw [stamps, List.mem_singleton] at inside
      rw [inside, shape]
      exact (below ltime (legal ltime (statusLtimes_time pp msg.id ltime found))).2
    · rw [stamps, List.mem_singleton] at inside
      rw [inside]
      exact (below _ (legal _ (statusLtimes_time pp msg.id msg.ltime
        (otherIntents_time pp msg sent).2))).1
    · rw [stamps, List.mem_singleton] at inside
      subst time
      exact (below _ (legal _ (by simp [remoteTimes]))).1
    · obtain ⟨events, here, same⟩ := remoteEvents_time pp msg sent
      rw [stamps, List.mem_singleton] at inside
      rw [inside, same]
      refine (below _ (legal _ ?_)).1
      simp only [remoteTimes, List.mem_append, List.mem_map]
      exact Or.inr ⟨events, here, rfl⟩

end Serf.PushPull
