import Serf.Core

/-!
The arithmetic of `types/clock.rs` on values that come off the wire or out of a
snapshot. `Add`, `Sub` and `Rem` of `LamportTime` are the plain operators of the
word, so here each use of them is written with an operation that answers `none`
where the word operation overflows. A build with overflow checks panics there;
a release build goes on with the wrapped word, which is what the other modules
compute.
-/

namespace Serf.ClockArithmetic

open Library.Collections Library.Machine Library.Window Library.Slots
open LamportClock EventHandler QueryHandler Serf.Core

variable {Id Address : Type} [DecidableEq Id]

def add (left right : LamportTime) : Option LamportTime :=
  if left.toNat + right.toNat < 2 ^ 64 then some (left + right) else none

def sub (left right : LamportTime) : Option LamportTime :=
  if right ≤ left then some (left - right) else none

def rem (left right : LamportTime) : Option LamportTime :=
  if right = 0 then none else some (left % right)

theorem add_one (time : LamportTime) :
    add time 1 = if time = u64Max then none else some (time + 1) := by
  unfold add
  have small := time.toNat_lt
  have same : time = u64Max ↔ time.toNat = 2 ^ 64 - 1 := by
    rw [← UInt64.toNat_inj]
    rfl
  have one : (1 : LamportTime).toNat = 1 := rfl
  rw [one]
  by_cases top : time = u64Max
  · have full := same.mp top
    rw [if_neg (by omega), if_pos top]
  · have room : time.toNat ≠ 2 ^ 64 - 1 := fun full => top (same.mpr full)
    rw [if_pos (by omega), if_neg top]

theorem add_one_defined (time : LamportTime) : (add time 1).isSome ↔ time ≠ u64Max := by
  rw [add_one]
  split <;> simp_all

def witnessChecked (clock time : LamportTime) : Option LamportTime :=
  if time < clock then some clock else add time 1

theorem witnessChecked_eq (clock time : LamportTime) :
    witnessChecked clock time = if time = u64Max then none else some (witness clock time) := by
  unfold witnessChecked witness
  by_cases passed : time < clock
  · have below : time ≠ u64Max := by grind
    rw [if_pos passed, if_pos passed, if_neg below]
  · rw [if_neg passed, if_neg passed, add_one]

inductive ClockCall where
  | increment
  | witness (time : LamportTime)
  deriving DecidableEq

def clockStep (clock : LamportTime) : ClockCall → LamportTime × Unit
  | .increment => (increment clock, ())
  | .witness time => (LamportClock.witness clock time, ())

def clockStepChecked (clock : LamportTime) : ClockCall → Option LamportTime
  | .increment => add clock 1
  | .witness time => witnessChecked clock time

def Advances (clock : LamportTime) (call : ClockCall) : Prop :=
  clock ≤ (clockStep clock call).1 ∧ ∀ time, call = .witness time → time < (clockStep clock call).1

/-- The addition of the call overflows. -/
def Wraps (clock : LamportTime) : ClockCall → Prop
  | .increment => clock = u64Max
  | .witness time => time = u64Max

theorem clockStepChecked_defined (clock : LamportTime) (call : ClockCall) :
    (clockStepChecked clock call).isSome ↔ ¬ Wraps clock call := by
  cases call with
  | increment => exact add_one_defined clock
  | witness time =>
    rw [clockStepChecked, witnessChecked_eq, Wraps]
    split <;> simp_all

theorem advances_iff (clock : LamportTime) (call : ClockCall) :
    Advances clock call ↔ ¬ Wraps clock call := by
  constructor
  · rintro ⟨grows, passes⟩ wraps
    cases call with
    | increment =>
      simp only [Wraps] at wraps
      simp only [clockStep, increment, wraps] at grows
      exact absurd grows (by decide)
    | witness time =>
      simp only [Wraps] at wraps
      have beyond := passes time rfl
      rw [clockStep, wraps] at beyond
      grind
  · intro fits
    cases call with
    | increment =>
      simp only [Wraps] at fits
      refine ⟨?_, by simp⟩
      have less := increment_passes clock (by grind)
      exact le_of_lt less
    | witness time =>
      simp only [Wraps] at fits
      have bound : time < u64Max := by grind
      refine ⟨witness_grows clock time bound, ?_⟩
      rintro other ⟨⟩
      exact witness_passes clock time bound

theorem run_grows (start : LamportTime) (calls : List ClockCall)
    (fits : ∀ visit ∈ visits clockStep start calls, ¬ Wraps visit.1 visit.2) :
    start ≤ run clockStep start calls := by
  induction calls generalizing start with
  | nil => exact le_refl _
  | cons call rest ih =>
    have now := (advances_iff start call).mpr (fits (start, call) List.mem_cons_self)
    have later := ih (clockStep start call).1
      fun visit member => fits visit (List.mem_cons_of_mem _ member)
    exact le_trans now.1 later

/-- Over the whole sequence the clock never goes back, and every witnessed time
lies behind it right after its call. -/
def Sound (start : LamportTime) (calls : List ClockCall) : Prop :=
  ∀ first middle last, calls = first ++ middle ++ last →
    run clockStep start first ≤ run clockStep start (first ++ middle) ∧
    ∀ time, middle = [.witness time] → time < run clockStep start (first ++ middle)

theorem sound_iff (start : LamportTime) (calls : List ClockCall) :
    Sound start calls ↔ ∀ visit ∈ visits clockStep start calls, ¬ Wraps visit.1 visit.2 := by
  constructor
  · intro sound visit member
    obtain ⟨before, after, split, here⟩ := mem_visits clockStep start calls visit member
    obtain ⟨grows, passes⟩ := sound before [visit.2] after (by simpa using split)
    rw [run_append, ← here] at grows passes
    rw [← advances_iff]
    refine ⟨grows, ?_⟩
    intro time call
    exact passes time (by rw [call])
  · rintro fits first middle last rfl
    rw [List.append_assoc, visits_append, visits_append] at fits
    have inside : ∀ visit ∈ visits clockStep (run clockStep start first) middle,
        ¬ Wraps visit.1 visit.2 := by
      intro visit member
      exact fits visit (List.mem_append_right _ (List.mem_append_left _ member))
    rw [run_append]
    refine ⟨run_grows _ middle inside, ?_⟩
    rintro time rfl
    have now := inside (run clockStep start first, .witness time) List.mem_cons_self
    exact ((advances_iff _ _).mpr now).2 time rfl

/-- `clock.witness(ltime - 1)` of `merge_remote_state` -/
def witnessBeforeChecked (clock ltime : LamportTime) : Option LamportTime :=
  if 0 < ltime then (sub ltime 1).bind (witnessChecked clock) else some clock

theorem witnessBeforeChecked_eq (clock ltime : LamportTime) :
    witnessBeforeChecked clock ltime = some (witnessBefore clock ltime) := by
  unfold witnessBeforeChecked witnessBefore sub
  split
  · have one : 1 ≤ ltime := by grind
    have below : ltime - 1 ≠ u64Max := by grind
    rw [if_pos one, Option.bind_some, witnessChecked_eq, if_neg below]
  · rfl

/-- The pass over the left members in `merge_remote_state`, which sends a leave
intent one past the status time of each. -/
def leftIntentsChecked (statusLtimes : Table Id LamportTime) :
    List Id → Option (List (LeaveMessage Id))
  | [] => some []
  | id :: rest =>
    match statusLtimes.lookup id with
    | none => leftIntentsChecked statusLtimes rest
    | some ltime =>
      (add ltime 1).bind fun ltime =>
        (leftIntentsChecked statusLtimes rest).map fun tail => ⟨ltime, id, false⟩ :: tail

theorem leftIntentsChecked_defined (statusLtimes : Table Id LamportTime) (left : List Id) :
    (leftIntentsChecked statusLtimes left).isSome ↔
      ∀ id ∈ left, statusLtimes.lookup id ≠ some u64Max := by
  induction left with
  | nil => simp [leftIntentsChecked]
  | cons id rest ih =>
    unfold leftIntentsChecked
    cases found : statusLtimes.lookup id with
    | none => simp [ih, found]
    | some ltime =>
      dsimp only
      rw [add_one]
      by_cases top : ltime = u64Max
      · simp [top, found]
      · simp [top, found, ih]

theorem leftIntentsChecked_eq (pp : PushPullMessage Id) (intents : List (LeaveMessage Id))
    (defined : leftIntentsChecked pp.statusLtimes pp.leftMembers = some intents) :
    leftIntents pp = intents := by
  have each : ∀ (left : List Id) (intents : List (LeaveMessage Id)),
      leftIntentsChecked pp.statusLtimes left = some intents →
      left.filterMap (fun id => (pp.statusLtimes.lookup id).map fun ltime =>
        (⟨ltime + 1, id, false⟩ : LeaveMessage Id)) = intents := by
    intro left
    induction left with
    | nil =>
      rintro intents ⟨⟩
      rfl
    | cons id rest ih =>
      intro intents defined
      unfold leftIntentsChecked at defined
      cases found : pp.statusLtimes.lookup id with
      | none =>
        rw [found] at defined
        simpa [found] using ih intents defined
      | some ltime =>
        rw [found] at defined
        obtain ⟨next, sum, defined⟩ := Option.bind_eq_some_iff.mp defined
        obtain ⟨tail, later, rfl⟩ := Option.map_eq_some_iff.mp defined
        rw [add_one] at sum
        split at sum
        · cases sum
        · cases sum
          simp [found, ih tail later]
  exact each pp.leftMembers intents defined

/-- The minimum times and the clocks that `new_in` computes from a snapshot, in
the order of the source. -/
structure RestoredTimes where
  eventMinTime : LamportTime
  queryMinTime : LamportTime
  clock : LamportTime
  eventClock : LamportTime
  queryClock : LamportTime
  deriving DecidableEq

def restoredTimesChecked (old : SnapshotClocks) : Option RestoredTimes := do
  let eventMinTime ← add old.lastEventClock 1
  let queryMinTime ← add old.lastQueryClock 1
  let started ← add LamportClock.new 1
  let clock ← witnessChecked started old.lastClock
  let eventClock ← witnessChecked started old.lastEventClock
  let queryClock ← witnessChecked started old.lastQueryClock
  return ⟨eventMinTime, queryMinTime, clock, eventClock, queryClock⟩

theorem restoredTimesChecked_defined (old : SnapshotClocks) :
    (restoredTimesChecked old).isSome ↔
      old.lastClock ≠ u64Max ∧ old.lastEventClock ≠ u64Max ∧ old.lastQueryClock ≠ u64Max := by
  have fresh : LamportClock.new ≠ u64Max := by decide
  simp only [restoredTimesChecked, add_one, witnessChecked_eq]
  by_cases clock : old.lastClock = u64Max
  · by_cases event : old.lastEventClock = u64Max <;>
      by_cases query : old.lastQueryClock = u64Max <;>
      simp [clock, event, query, fresh]
  · by_cases event : old.lastEventClock = u64Max <;>
      by_cases query : old.lastQueryClock = u64Max <;>
      simp [clock, event, query, fresh]

omit [DecidableEq Id] in
theorem restoredTimesChecked_eq (startup : Startup) (old : SnapshotClocks) (times : RestoredTimes)
    (restored : startup.snapshot = some old) (defined : restoredTimesChecked old = some times) :
    let node : SerfCore Id Address := newIn startup
    times = ⟨node.events.core.minTime, node.queries.core.minTime, node.clock,
      node.events.clock, node.queries.clock⟩ := by
  have some := (restoredTimesChecked_defined old).mp (by rw [defined]; rfl)
  obtain ⟨clock, event, query⟩ := some
  simp only [restoredTimesChecked, add_one, witnessChecked_eq, clock, event, query] at defined
  cases defined
  simp [newIn, restored, increment]

/-- The age check of `handle_user_event` and `handle_query` -/
def tooOldChecked (curTime size ltime : LamportTime) : Option Bool :=
  if size < curTime then (sub curTime size).map fun oldest => decide (ltime < oldest)
  else some false

theorem tooOldChecked_eq (curTime size ltime : LamportTime) :
    tooOldChecked curTime size ltime = some (decide (TooOld curTime size ltime)) := by
  unfold tooOldChecked TooOld sub
  by_cases beyond : size < curTime
  · simp [beyond, le_of_lt beyond]
  · simp [beyond]

def slotIndexChecked (curTime size ltime : LamportTime) : Option (Option LamportTime) :=
  (tooOldChecked curTime size ltime).bind fun old =>
    if old then some none else (rem ltime size).map some

theorem slotIndexChecked_none (curTime size ltime : LamportTime) :
    slotIndexChecked curTime size ltime = none ↔ ¬ TooOld curTime size ltime ∧ size = 0 := by
  unfold slotIndexChecked rem
  rw [tooOldChecked_eq, Option.bind_some]
  by_cases old : TooOld curTime size ltime <;> by_cases empty : size = 0 <;> simp [old, empty]

theorem slotIndexChecked_defined (clock size ltime : LamportTime) :
    (slotIndexChecked (witness clock ltime) size ltime).isSome ↔ size ≠ 0 ∨ ltime ≠ u64Max := by
  rw [← not_iff_not, Option.not_isSome_iff_eq_none, slotIndexChecked_none, not_or, not_ne_iff,
    not_ne_iff, and_comm]
  apply and_congr_right
  rintro rfl
  constructor
  · intro young
    by_contra below
    have passed := witness_passes clock ltime (by grind)
    exact young (tooOld_empty _ ltime passed)
  · rintro rfl old
    have wrapped : witness clock u64Max = 0 := by
      unfold witness
      grind
    rw [wrapped] at old
    exact absurd old (by decide)

theorem readSlot_panics {Slot : Type} (ring : SlotRing Slot) (stamp : LamportTime) :
    readSlot ring stamp = none ↔ size ring = 0 := by
  constructor
  · intro panics
    by_contra positive
    obtain ⟨slot, found⟩ := readSlot_defined ring stamp positive
    rw [panics] at found
    cases found
  · intro empty
    simp [readSlot, empty]

theorem recordUserEvent_panics (curTime : LamportTime) (msg : UserEventMessage) (core : EventCore) :
    recordUserEvent curTime msg core = none ↔
      core.minTime ≤ msg.ltime ∧ slotIndexChecked curTime (size core.buffer) msg.ltime = none := by
  rw [slotIndexChecked_none, ← readSlot_panics core.buffer msg.ltime, recordUserEvent, ← not_lt]
  by_cases early : msg.ltime < core.minTime
  · simp [early]
  · by_cases old : TooOld curTime (size core.buffer) msg.ltime
    · simp [early, old]
    · simp only [early, old, ↓reduceIte, not_false_eq_true, true_and]
      cases readSlot core.buffer msg.ltime with
      | none => simp
      | some held =>
        cases held with
        | none => simp
        | some seen => by_cases known : toUserEvent msg ∈ seen.events <;> simp [known]

theorem recordQuery_panics (curTime ltime : LamportTime) (id : UInt32) (core : QueryCore) :
    recordQuery curTime ltime id core = none ↔
      core.minTime ≤ ltime ∧ slotIndexChecked curTime (size core.buffer) ltime = none := by
  rw [slotIndexChecked_none, ← readSlot_panics core.buffer ltime, recordQuery, ← not_lt]
  by_cases early : ltime < core.minTime
  · simp [early]
  · by_cases old : TooOld curTime (size core.buffer) ltime
    · simp [early, old]
    · simp only [early, old, ↓reduceIte, not_false_eq_true, true_and]
      cases readSlot core.buffer ltime with
      | none => simp
      | some held =>
        cases held with
        | none => simp
        | some seen =>
          by_cases same : seen.ltime = ltime
          · by_cases known : id ∈ seen.queryIds <;> simp [same, known]
          · simp [same]

/-- Every overflow on a Lamport time that a peer or a snapshot may choose. The
largest word is the only one that overflows, and it always does; the guarded
subtractions never do. -/
theorem lamport_arithmetic_safe_iff :
    (∀ start calls, Sound start calls ↔
      ∀ visit ∈ visits clockStep start calls, (clockStepChecked visit.1 visit.2).isSome) ∧
    (∀ clock call, (clockStepChecked clock call).isSome ↔ ¬ Wraps clock call) ∧
    (∀ clock ltime, (witnessBeforeChecked clock ltime).isSome) ∧
    (∀ pp : PushPullMessage Id,
      (leftIntentsChecked pp.statusLtimes pp.leftMembers).isSome ↔
        ∀ id ∈ pp.leftMembers, pp.statusLtimes.lookup id ≠ some u64Max) ∧
    (∀ old, (restoredTimesChecked old).isSome ↔
      old.lastClock ≠ u64Max ∧ old.lastEventClock ≠ u64Max ∧ old.lastQueryClock ≠ u64Max) ∧
    (∀ curTime size ltime, (tooOldChecked curTime size ltime).isSome) ∧
    (∀ clock msg core, (recordUserEvent (witness clock msg.ltime) msg core).isSome ↔
      size core.buffer ≠ 0 ∨ msg.ltime ≠ u64Max) ∧
    (∀ clock ltime id core, (recordQuery (witness clock ltime) ltime id core).isSome ↔
      size core.buffer ≠ 0 ∨ ltime ≠ u64Max) := by
  have top : ∀ minTime ltime : LamportTime, ltime = u64Max → minTime ≤ ltime := by
    intro minTime ltime largest
    rw [largest]
    grind
  refine ⟨?_, clockStepChecked_defined, ?_, ?_, restoredTimesChecked_defined, ?_, ?_, ?_⟩
  · intro start calls
    rw [sound_iff]
    simp only [clockStepChecked_defined]
  · intro clock ltime
    rw [witnessBeforeChecked_eq]
    rfl
  · intro pp
    exact leftIntentsChecked_defined pp.statusLtimes pp.leftMembers
  · intro curTime size ltime
    rw [tooOldChecked_eq]
    rfl
  · intro clock msg core
    rw [← slotIndexChecked_defined clock, ← not_iff_not, Option.not_isSome_iff_eq_none,
      recordUserEvent_panics, Option.not_isSome_iff_eq_none, and_iff_right_iff_imp]
    intro panics
    rw [← Option.not_isSome_iff_eq_none, slotIndexChecked_defined, not_or, not_ne_iff] at panics
    exact top _ _ (not_ne_iff.mp panics.2)
  · intro clock ltime id core
    rw [← slotIndexChecked_defined clock, ← not_iff_not, Option.not_isSome_iff_eq_none,
      recordQuery_panics, Option.not_isSome_iff_eq_none, and_iff_right_iff_imp]
    intro panics
    rw [← Option.not_isSome_iff_eq_none, slotIndexChecked_defined, not_or, not_ne_iff] at panics
    exact top _ _ (not_ne_iff.mp panics.2)

/-- One message with the largest word sets the clock back to zero, and a
snapshot that holds it restarts the node with a minimum event time of zero. -/
theorem witness_largest_goes_back :
    ¬ Sound 5 [.witness u64Max] ∧
    run clockStep 5 [.witness u64Max] = 0 ∧
    witnessChecked 5 u64Max = none ∧
    restoredTimesChecked ⟨0, u64Max, 0⟩ = none ∧
    (newIn ⟨8, 8, by decide, by decide, some ⟨0, u64Max, 0⟩⟩ :
      SerfCore String Nat).events.core.minTime = 0 := by
  refine ⟨?_, by decide, by decide, by decide, by decide⟩
  intro sound
  have back := (sound [] [.witness u64Max] [] rfl).1
  exact absurd back (by decide)

end Serf.ClockArithmetic
