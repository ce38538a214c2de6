import Serf.EventDelivery
import Serf.Core

/-!
The times under which events are kept and passed on. A slot takes the time of
the first admissible call of its residue class and keeps it, while it goes on
collecting the events of the class; `local_state` sends every event under the
time of its slot. So an event is advertised at a time with which it was received
exactly when it was also received at the time that came first.
-/

namespace Serf.EventTimes

open Library.Machine Library.Window Library.Slots LamportClock EventHandler EventDelivery
open Serf.Core

def slotTime (core : EventCore) (stamp : LamportTime) : Option LamportTime :=
  match readSlot core.buffer stamp with
  | some (some seen) => some seen.ltime
  | _ => none

theorem slotTime_write (core : EventCore) (stamp other : LamportTime) (slot : UserEvents)
    (positive : size core.buffer ≠ 0) :
    slotTime { core with buffer := writeSlot core.buffer stamp slot } other =
      if stamp % size core.buffer = other % size core.buffer then some slot.ltime
      else slotTime core other := by
  unfold slotTime
  rw [readSlot_write core.buffer stamp other slot positive]
  by_cases same : stamp % size core.buffer = other % size core.buffer
  · rw [if_pos same, if_pos same]
  · rw [if_neg same, if_neg same]

theorem slotTime_congr (core : EventCore) (stamp other : LamportTime)
    (same : stamp % size core.buffer = other % size core.buffer) :
    slotTime core stamp = slotTime core other := by
  unfold slotTime readSlot index
  rw [same]

theorem recordUserEvent_time (curTime : LamportTime) (msg : UserEventMessage) (core : EventCore)
    (positive : size core.buffer ≠ 0) (late : core.minTime ≤ msg.ltime)
    (inside : InWindow curTime (size core.buffer) msg.ltime) :
    ∃ after accepted, recordUserEvent curTime msg core = some (after, accepted) ∧
      ∀ stamp, slotTime after stamp = (slotTime core stamp).or
        (if msg.ltime % size core.buffer = stamp % size core.buffer then some msg.ltime
          else none) := by
  have young := (inWindow_iff _ _ _).mp inside
  obtain ⟨held, found⟩ := readSlot_defined core.buffer msg.ltime positive
  rw [recordUserEvent, if_neg (not_lt_of_ge late), if_neg young, found]
  cases held with
  | none =>
    have vacant : slotTime core msg.ltime = none := by simp [slotTime, found]
    refine ⟨_, true, rfl, ?_⟩
    intro stamp
    rw [slotTime_write core msg.ltime stamp _ positive]
    by_cases same : msg.ltime % size core.buffer = stamp % size core.buffer
    · simp [same, ← slotTime_congr core _ _ same, vacant]
    · simp [same]
  | some seen =>
    have time : slotTime core msg.ltime = some seen.ltime := by simp [slotTime, found]
    have kept : ∀ stamp, slotTime core stamp = (slotTime core stamp).or
        (if msg.ltime % size core.buffer = stamp % size core.buffer then some msg.ltime
          else none) := by
      intro stamp
      by_cases same : msg.ltime % size core.buffer = stamp % size core.buffer
      · simp [← slotTime_congr core _ _ same, time]
      · simp [same]
    dsimp only
    split
    · exact ⟨core, false, rfl, kept⟩
    · refine ⟨_, true, rfl, ?_⟩
      intro stamp
      rw [slotTime_write core msg.ltime stamp _ positive, ← kept stamp]
      by_cases same : msg.ltime % size core.buffer = stamp % size core.buffer
      · simp [same, ← slotTime_congr core _ _ same, time]
      · simp [same]

theorem handleUserEvent_time (msg : UserEventMessage) (state : EventState)
    (positive : size state.core.buffer ≠ 0) (stamp : LamportTime) :
    slotTime (handleUserEvent msg state).state.core stamp = (slotTime state.core stamp).or
      (if Admissible state msg ∧
          msg.ltime % size state.core.buffer = stamp % size state.core.buffer
        then some msg.ltime else none) := by
  by_cases admitted : Admissible state msg
  · obtain ⟨after, accepted, recorded, times⟩ := recordUserEvent_time
      (witness state.clock msg.ltime) msg state.core positive admitted.1 admitted.2
    simp [handleUserEvent, recorded, times stamp, admitted]
  · simp [handleUserEvent_refused msg state admitted, admitted]

section Runs

variable (limits : EventLimits) (start : EventState) (ops : List EventOp)

def firstTime (stamp : LamportTime) : Option LamportTime :=
  ((calls limits start ops).find? fun call => decide (Admissible call.2 call.1 ∧
    call.1.ltime % size start.core.buffer = stamp % size start.core.buffer)).map
      fun call => call.1.ltime

/-- The event was handed to `handle_user_event` under this time. -/
def Received (time : LamportTime) (event : UserEvent) : Prop :=
  ∃ call ∈ calls limits start ops, call.1.ltime = time ∧ toUserEvent call.1 = event

theorem firstTime_residue (stamp time : LamportTime)
    (found : firstTime limits start ops stamp = some time) :
    time % size start.core.buffer = stamp % size start.core.buffer := by
  obtain ⟨call, first, rfl⟩ := Option.map_eq_some_iff.mp found
  have holds := List.find?_some first
  simp only [decide_eq_true_eq] at holds
  exact holds.2

theorem run_slotTime (positive : size start.core.buffer ≠ 0) (stamp : LamportTime) :
    slotTime (run (eventStep limits) start ops).core stamp =
      (slotTime start.core stamp).or (firstTime limits start ops stamp) := by
  induction ops generalizing start with
  | nil => simp [run, firstTime, calls, visits]
  | cons op rest ih =>
    have frame := eventStep_frame limits start op
    have tail := ih (eventStep limits start op).1 (eventStep_positive limits start op positive)
    rw [run, tail, firstTime, firstTime, frame.1]
    cases call : handled limits start op with
    | none =>
      obtain ⟨reason, idle⟩ := eventStep_idle limits start op call
      simp [calls, visits, call, idle]
    | some entry =>
      obtain ⟨core, handles⟩ := eventStep_handled limits start entry.2 op entry.1 call
      have step := handleUserEvent_time entry.1 entry.2 (core ▸ positive) stamp
      rw [core] at step
      rw [handles, step, Option.or_assoc]
      congr 1
      have unfolded : calls limits start (op :: rest) =
          entry :: calls limits (eventStep limits start op).1 rest := by
        simp [calls, visits, call]
      rw [unfolded, handles, List.find?_cons]
      by_cases here : Admissible entry.2 entry.1 ∧
          entry.1.ltime % size start.core.buffer = stamp % size start.core.buffer
      · simp [here]
      · simp [here]

end Runs

def Stored (core : EventCore) (time : LamportTime) (event : UserEvent) : Prop :=
  ∃ (i : Nat) (seen : UserEvents), core.buffer.slots[i]? = some (some seen) ∧
    seen.ltime = time ∧ event ∈ seen.events

theorem stored_iff_slot (core : EventCore) (time : LamportTime) (event : UserEvent) :
    Stored core time event ↔
      ∃ stamp, slotTime core stamp = some time ∧ event ∈ slotEvents core stamp := by
  constructor
  · rintro ⟨i, seen, here, rfl, inside⟩
    have read := readSlot_ofNat core.buffer i (some seen) here
    exact ⟨UInt64.ofNat i, by simp [slotTime, read], by simpa [slotEvents, read] using inside⟩
  · rintro ⟨stamp, timed, inside⟩
    rw [slotTime] at timed
    split at timed
    · rename_i seen read
      cases timed
      rw [slotEvents, read] at inside
      exact ⟨_, seen, readSlot_source core.buffer stamp seen read, rfl, inside⟩
    · cases timed

theorem remoteEvents_localState {Id Address : Type} [DecidableEq Id]
    (node : SerfCore Id Address) (time : LamportTime) (event : UserEvent) :
    (∃ msg ∈ remoteEvents (localState node), msg.ltime = time ∧ toUserEvent msg = event) ↔
      Stored node.events.core time event := by
  simp only [remoteEvents, localState, List.mem_flatMap, List.mem_filterMap, List.mem_map]
  constructor
  · rintro ⟨msg, ⟨seen, ⟨slot, among, rfl⟩, event, inside, rfl⟩, rfl, rfl⟩
    obtain ⟨i, here⟩ := List.mem_iff_getElem?.mp among
    exact ⟨i, seen, here, rfl, inside⟩
  · rintro ⟨i, seen, here, rfl, inside⟩
    exact ⟨⟨seen.ltime, event.name, event.payload, false⟩,
      ⟨seen, ⟨some seen, List.mem_of_getElem? here, rfl⟩, event, inside, rfl⟩, rfl, rfl⟩

def TrueTimes (limits : EventLimits) (start : EventState) (ops : List EventOp) : Prop :=
  ∀ time event, Stored (run (eventStep limits) start ops).core time event →
    Received limits start ops time event

/-- Every admissible event was also received at the time that was the first of
its residue class. -/
def OnTime (limits : EventLimits) (start : EventState) (ops : List EventOp) : Prop :=
  ∀ call ∈ calls limits start ops, Admissible call.2 call.1 →
    ∀ time, firstTime limits start ops call.1.ltime = some time →
      Received limits start ops time (toUserEvent call.1)

section Fresh

variable (limits : EventLimits) (clock minTime : LamportTime) (count : Nat)
  (fits : count < 2 ^ 64) (positive : 1 ≤ count) (ops : List EventOp)

theorem slotTime_start (stamp : LamportTime) :
    slotTime (startEvents clock minTime count fits).core stamp = none := by
  rw [slotTime]
  split
  · rename_i seen held
    exact absurd held (readSlot_vacant count fits stamp seen)
  · rfl

include positive

theorem reached_slotTime (stamp : LamportTime) :
    slotTime (run (eventStep limits) (startEvents clock minTime count fits) ops).core stamp =
      firstTime limits (startEvents clock minTime count fits) ops stamp := by
  rw [run_slotTime limits _ ops (size_start clock minTime count fits positive) stamp,
    slotTime_start, Option.none_or]

theorem reached_stored (time : LamportTime) (event : UserEvent) :
    let start := startEvents clock minTime count fits
    Stored (run (eventStep limits) start ops).core time event ↔
      ∃ call ∈ calls limits start ops, Admissible call.2 call.1 ∧ event = toUserEvent call.1 ∧
        firstTime limits start ops call.1.ltime = some time := by
  intro start
  have slots := size_start clock minTime count fits positive
  have held := run_slots limits start ops slots event
  have times := reached_slotTime limits clock minTime count fits positive ops
  have blank := slotEvents_start clock minTime count fits
  rw [stored_iff_slot]
  constructor
  · rintro ⟨stamp, timed, inside⟩
    rcases (held stamp).mp inside with old | ⟨call, among, admitted, same, residue⟩
    · rw [blank stamp] at old
      cases old
    · have sized := (run_size limits start ops).1
      refine ⟨call, among, admitted, same, ?_⟩
      rw [← times, slotTime_congr _ _ stamp (by rw [sized]; exact residue), timed]
  · rintro ⟨call, among, admitted, same, first⟩
    refine ⟨call.1.ltime, (times _).trans first, ?_⟩
    exact (held _).mpr (Or.inr ⟨call, among, admitted, same, rfl⟩)

theorem trueTimes_iff :
    TrueTimes limits (startEvents clock minTime count fits) ops ↔
      OnTime limits (startEvents clock minTime count fits) ops := by
  have stored := reached_stored limits clock minTime count fits positive ops
  constructor
  · intro dated call among admitted time first
    exact dated time _ ((stored time _).mpr ⟨call, among, admitted, rfl, first⟩)
  · intro punctual time event kept
    obtain ⟨call, among, admitted, rfl, first⟩ := (stored time event).mp kept
    exact punctual call among admitted time first

theorem reached_placed (i : Nat) (seen : UserEvents)
    (here : (run (eventStep limits) (startEvents clock minTime count fits)
      ops).core.buffer.slots[i]? = some (some seen)) :
    seen.ltime.toNat % count = i := by
  have sized := (run_size limits (startEvents clock minTime count fits) ops).1
  have times := reached_slotTime limits clock minTime count fits positive ops
    (UInt64.ofNat i)
  generalize (run (eventStep limits) (startEvents clock minTime count fits) ops).core = core
    at here sized times
  have read := readSlot_ofNat core.buffer i (some seen) here
  rw [slotTime, read] at times
  have residue := firstTime_residue limits _ ops _ _ times.symm
  have length : (size (startEvents clock minTime count fits).core.buffer).toNat = count := by
    rw [size_toNat]
    simp [startEvents, vacant]
  have inside : i < count := by
    rw [← length, ← sized, size_toNat]
    exact (List.getElem?_eq_some_iff.mp here).1
  have equal := congrArg UInt64.toNat residue
  rw [UInt64.toNat_mod, UInt64.toNat_mod, length,
    UInt64.toNat_ofNat_of_lt' (lt_trans inside fits)] at equal
  rw [equal, Nat.mod_eq_of_lt inside]

/-- Slots lie at the residue of their time. Events are kept, and sent by
`local_state`, at a time with which they were received exactly when each of them
was received at the first time of its slot. -/
theorem advertised_times_iff {Id Address : Type} [DecidableEq Id] :
    let start := startEvents clock minTime count fits
    let reached := run (eventStep limits) start ops
    (∀ (i : Nat) (seen : UserEvents), reached.core.buffer.slots[i]? = some (some seen) →
      seen.ltime.toNat % count = i) ∧
    (TrueTimes limits start ops ↔ OnTime limits start ops) ∧
    ∀ node : SerfCore Id Address, node.events = reached →
      ((∀ msg ∈ remoteEvents (localState node),
          Received limits start ops msg.ltime (toUserEvent msg)) ↔
        OnTime limits start ops) := by
  intro start reached
  have dated := trueTimes_iff limits clock minTime count fits positive ops
  refine ⟨reached_placed limits clock minTime count fits positive ops, dated, ?_⟩
  intro node same
  rw [← dated]
  have sends := remoteEvents_localState node
  rw [same] at sends
  constructor
  · intro received time event kept
    obtain ⟨msg, among, rfl, rfl⟩ := (sends time event).mpr kept
    exact received msg among
  · intro honest msg among
    exact honest _ _ ((sends _ _).mp ⟨msg, among, rfl, rfl⟩)

end Fresh

theorem advertised_times_iff_two_slots :
    let start := startEvents 1 0 2 (by decide)
    let ops : List EventOp :=
      [.receive ⟨1, "deploy", [], false⟩, .receive ⟨2, "restart", [], false⟩]
    1 ≤ 2 ∧ (TrueTimes roomy start ops ↔ OnTime roomy start ops) :=
  ⟨by decide, (@advertised_times_iff roomy 1 0 2 (by decide) (by decide) _
    String Nat _).2.1⟩

/-- With one slot, an event received at time 2 joins a slot of time 1 and is sent
to the peers under time 1. -/
theorem event_advertised_under_older_time :
    let start := startEvents 1 0 1 (by decide)
    let ops : List EventOp :=
      [.receive ⟨1, "deploy", [], false⟩, .receive ⟨2, "restart", [], false⟩]
    let reached := run (eventStep roomy) start ops
    Stored reached.core 1 ⟨"restart", []⟩ ∧ ¬ Received roomy start ops 1 ⟨"restart", []⟩ ∧
    ∀ node : SerfCore String Nat, node.events = reached →
      ⟨1, "restart", [], false⟩ ∈ remoteEvents (localState node) := by
  intro start ops reached
  refine ⟨⟨0, ⟨1, [⟨"deploy", []⟩, ⟨"restart", []⟩]⟩, by decide, by decide, by decide⟩, ?_, ?_⟩
  · unfold Received
    decide
  · intro node same
    simp only [remoteEvents, localState, same]
    decide

end Serf.EventTimes
