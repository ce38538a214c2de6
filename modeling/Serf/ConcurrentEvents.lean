import Serf.Library.Tasks
import Serf.EventDelivery

/-!
Concurrent calls of `user_event`. A call reads the event clock, checks and encodes
the message, increments the clock, witnesses its own time and then checks and
fills the buffer under the lock, where it also sends the event; between any two of
these steps other calls take theirs. The time is read without being reserved, so
two calls may stamp the same one, and the buffer tells events apart by time, name
and payload only.
-/

namespace Serf.ConcurrentEvents

open Library.Machine Library.Window Library.Slots Library.Tasks
open LamportClock EventHandler EventDelivery

/-- The arguments of `user_event`. -/
structure EventCall where
  name : String
  payload : Bytes
  coalesce : Bool

/-- Where a call of `user_event` is. -/
inductive Phase where
  | called (call : EventCall)
  | failed (reason : UserEventError)
  | stamped (msg : UserEventMessage) (raw : Bytes)
  | ticked (msg : UserEventMessage) (raw : Bytes)
  | witnessed (msg : UserEventMessage) (raw : Bytes)
  /-- The index of a ring without slots. -/
  | panicked (msg : UserEventMessage)
  /-- The call returned `Ok` and has queued the bytes; `accepted` is what
  `handle_user_event` returned. -/
  | finished (msg : UserEventMessage) (raw : Bytes) (accepted : Bool)

def Phase.message : Phase → Option UserEventMessage
  | .called _ | .failed _ => none
  | .stamped msg _ | .ticked msg _ | .witnessed msg _ | .panicked msg | .finished msg _ _ =>
    some msg

def Phase.counted : Phase → Bool
  | .called _ | .failed _ | .stamped _ _ => false
  | .ticked _ _ | .witnessed _ _ | .panicked _ | .finished _ _ _ => true

/-- The message of a call that returned `Ok`. -/
def Phase.returned : Phase → Option UserEventMessage
  | .finished msg _ _ => some msg
  | _ => none

/-- What the call has sent on `event_tx`. -/
def Phase.sent : Phase → List UserEventMessage
  | .finished msg _ true => [msg]
  | _ => []

def advance (limits : EventLimits) (state : EventState) : Phase → EventState × Phase
  | .called call =>
    match stampUserEvent limits state.clock call.name call.payload call.coalesce with
    | .error reason => (state, .failed reason)
    | .ok (msg, raw) => (state, .stamped msg raw)
  | .stamped msg raw => ({ state with clock := increment state.clock }, .ticked msg raw)
  | .ticked msg raw => ({ state with clock := witness state.clock msg.ltime }, .witnessed msg raw)
  | .witnessed msg raw =>
    match recordUserEvent state.clock msg state.core with
    | none => (state, .panicked msg)
    | some (core, accepted) => ({ state with core := core }, .finished msg raw accepted)
  | phase => (state, phase)

def calling (limits : EventLimits) : System EventState Phase EventCall Unit Empty where
  spawn := .called
  advance _ := advance limits
  change := Empty.elim

theorem uninterrupted (limits : EventLimits) (state : EventState) (call : EventCall) :
    let alone := run (calling limits).turn ⟨state, []⟩
      [.start call, .advance 0 (), .advance 0 (), .advance 0 (), .advance 0 ()]
    alone.shared =
      (eventStep limits state (.userEvent call.name call.payload call.coalesce)).1 ∧
    alone.tasks.flatMap Phase.sent =
      sentBy (eventStep limits state (.userEvent call.name call.payload call.coalesce)).2 := by
  cases stamped : stampUserEvent limits state.clock call.name call.payload call.coalesce with
  | error reason =>
    simp [run, calling, advance, stamped, eventStep, userEvent, sentBy, Phase.sent]
  | ok result =>
    obtain ⟨msg, raw⟩ := result
    have shared : eventStep limits state (.userEvent call.name call.payload call.coalesce) =
        ((handleUserEvent msg { state with clock := increment state.clock }).state,
          .ok (handleUserEvent msg { state with clock := increment state.clock })) := by
      simp [eventStep, userEvent, stamped]
    rw [shared]
    simp only [run, System.turn_first, System.turn_alone, calling, advance, stamped,
      handleUserEvent]
    cases recordUserEvent (witness (increment state.clock) msg.ltime) msg state.core with
    | none => simp [Phase.sent, sentBy]
    | some result =>
      cases accepted : result.2 <;> simp [Phase.sent, sentBy, accepted]

def Filed (count : LamportTime) (event : UserEvent) (stamp : LamportTime) (task : Phase) : Prop :=
  ∃ msg, task.returned = some msg ∧ event = toUserEvent msg ∧ msg.ltime % count = stamp % count

def Distinct (first second : Phase) : Prop :=
  ∀ m n, first.sent = [m] → second.sent = [n] → triple m ≠ triple n

variable (task : Phase) (msg : UserEventMessage)

theorem sent_returned (sent : task.sent = [msg]) : task.returned = some msg := by
  cases task with
  | finished message raw accepted =>
    cases accepted with
    | false => cases sent
    | true =>
      cases sent
      rfl
  | _ => cases sent

theorem returned_message (returned : task.returned = some msg) : task.message = some msg := by
  cases task with
  | finished message raw accepted => exact returned
  | _ => cases returned

theorem not_filed (count : LamportTime) (event : UserEvent) (stamp : LamportTime) (task : Phase)
    (running : task.returned = none) : ¬ Filed count event stamp task := by
  rintro ⟨msg, returned, _⟩
  cases running.symm.trans returned

theorem not_sent (running : task.returned = none) : task.sent ≠ [msg] := by
  intro sent
  cases running.symm.trans (sent_returned task msg sent)

/-- What holds of the event store and the calls at any time. The clock counts the
increments, so every stamp lies between the start and the clock. -/
structure Sound (start : EventState) (world : World EventState Phase) : Prop where
  clock : world.shared.clock.toNat = start.clock.toNat + world.tasks.countP Phase.counted
  minTime : world.shared.core.minTime = start.core.minTime
  sized : size world.shared.core.buffer = size start.core.buffer
  stamps : ∀ task ∈ world.tasks, ∀ msg, task.message = some msg →
    start.clock.toNat ≤ msg.ltime.toNat ∧
    msg.ltime.toNat + (if task.counted then 1 else 0) ≤ world.shared.clock.toNat
  slots : ∀ event stamp, event ∈ slotEvents world.shared.core stamp ↔
    ∃ task ∈ world.tasks, Filed (size start.core.buffer) event stamp task
  apart : Apart Distinct world.tasks
  twins : ∀ task ∈ world.tasks, ∀ msg, task.returned = some msg →
    ∃ other ∈ world.tasks, ∃ n, other.sent = [n] ∧ triple n = triple msg

structure Records (state : EventState) (msg : UserEventMessage) (core : EventCore)
    (accepted : Bool) : Prop where
  recorded : recordUserEvent state.clock msg state.core = some (core, accepted)
  minTime : core.minTime = state.core.minTime
  sized : size core.buffer = size state.core.buffer
  slots : ∀ event stamp, event ∈ slotEvents core stamp ↔
    event ∈ slotEvents state.core stamp ∨
      (event = toUserEvent msg ∧
        msg.ltime % size state.core.buffer = stamp % size state.core.buffer)
  fresh : accepted = true ↔ toUserEvent msg ∉ slotEvents state.core msg.ltime

theorem recordUserEvent_records (state : EventState) (passed : msg.ltime < state.clock)
    (positive : size state.core.buffer ≠ 0) (admitted : Admissible state msg) :
    ∃ core accepted, Records state msg core accepted := by
  have idle := witness_idle state.clock msg.ltime passed
  have effect := handleUserEvent_handles msg state positive
  have answered : (handleUserEvent msg state).returned =
      some (decide (toUserEvent msg ∉ slotEvents state.core msg.ltime)) := by
    by_cases known : toUserEvent msg ∈ slotEvents state.core msg.ltime
    · simp [(effect.refuses (Or.inr known)).2, known]
    · simp [(effect.sends admitted known).2, known]
  cases recorded : recordUserEvent state.clock msg state.core with
  | none =>
    simp only [handleUserEvent, idle, recorded] at answered
    cases answered
  | some result =>
    obtain ⟨core, accepted⟩ := result
    have after : handleUserEvent msg state =
        ⟨⟨state.clock, core⟩, if accepted then [msg] else [], some accepted⟩ := by
      simp [handleUserEvent, idle, recorded]
    have minTime := effect.minTime
    have sized := effect.sized
    have slots := effect.slots
    rw [after] at minTime sized answered
    simp only [after, admitted, true_and] at slots
    exact ⟨core, accepted, recorded, minTime, sized, slots, by
      rw [Option.some.inj answered, decide_eq_true_iff]⟩

section Steps

variable (limits : EventLimits) (start : EventState) (world : World EventState Phase)
  (sound : Sound start world)

include sound

theorem started_sound (call : EventCall) : Sound start ((calling limits).started world call) where
  clock := by simpa [System.started, calling, Phase.counted] using sound.clock
  minTime := sound.minTime
  sized := sound.sized
  stamps task member msg is := by
    rcases List.mem_append.mp member with old | new
    · exact sound.stamps task old msg is
    · rw [List.mem_singleton.mp new] at is
      cases is
  slots event stamp := by
    rw [System.started, sound.slots]
    simp [calling, Filed, Phase.returned]
  apart := by
    apply apart_started _ _ _ sound.apart
    intro other _
    constructor
    · intro m n sent
      cases sent
    · intro m n _ sent
      cases sent
  twins task member msg is := by
    rcases List.mem_append.mp member with old | new
    · obtain ⟨other, there, rest⟩ := sound.twins task old msg is
      exact ⟨other, List.mem_append_left _ there, rest⟩
    · rw [List.mem_singleton.mp new] at is
      cases is

theorem quiet_sound (index : Nat) (before after : Phase) (clock : LamportTime)
    (found : world.tasks[index]? = some before) (running : before.returned = none)
    (goesOn : after.returned = none) (grows : world.shared.clock.toNat ≤ clock.toNat)
    (counts : clock.toNat + (if before.counted then 1 else 0) =
      world.shared.clock.toNat + (if after.counted then 1 else 0))
    (stamped : ∀ msg, after.message = some msg → start.clock.toNat ≤ msg.ltime.toNat ∧
      msg.ltime.toNat + (if after.counted then 1 else 0) ≤ clock.toNat) :
    Sound start ⟨{ world.shared with clock := clock }, world.tasks.set index after⟩ := by
  constructor
  · have counted := countP_advanced world.tasks index before after found Phase.counted
    have held := sound.clock
    simp only
    omega
  · exact sound.minTime
  · exact sound.sized
  · intro task member msg is
    rcases List.mem_or_eq_of_mem_set member with old | rfl
    · have held := sound.stamps task old msg is
      exact ⟨held.1, le_trans held.2 grows⟩
    · exact stamped msg is
  · intro event stamp
    rw [sound.slots, exists_advanced world.tasks index before after found _
      (not_filed _ event stamp before running)]
    simp [not_filed _ event stamp after goesOn]
  · apply apart_advanced world.tasks index before after found _ sound.apart
    intro j other _ _
    exact ⟨fun m n sent _ => absurd sent (not_sent after m goesOn),
      fun m n _ sent => absurd sent (not_sent after n goesOn)⟩
  · intro task member msg is
    rcases List.mem_or_eq_of_mem_set member with old | rfl
    · obtain ⟨other, there, n, sent, same⟩ := sound.twins task old msg is
      have twin := (exists_advanced world.tasks index before after found
        (fun task => task.sent = [n]) (not_sent before n running)).mpr (Or.inr ⟨other, there, sent⟩)
      obtain ⟨again, inside, sentAgain⟩ := twin
      exact ⟨again, inside, n, sentAgain, same⟩
    · rw [goesOn] at is
      cases is

omit sound in
theorem inWindow_recent (clock count stamp : LamportTime) (first : Nat)
    (near : clock.toNat < first + count.toNat) (later : first ≤ stamp.toNat) :
    InWindow clock count stamp := by
  by_cases small : clock ≤ count
  · exact Or.inl small
  · refine Or.inr (UInt64.le_iff_toNat_le.mpr ?_)
    rw [UInt64.toNat_sub_of_le _ _ (le_of_lt (lt_of_not_ge small))]
    omega

omit sound in
theorem same_stamp (count first second : LamportTime) (low : Nat)
    (firstLow : low ≤ first.toNat) (firstHigh : first.toNat < low + count.toNat)
    (secondLow : low ≤ second.toNat) (secondHigh : second.toNat < low + count.toNat)
    (same : first % count = second % count) : first = second := by
  rcases lt_trichotomy first second with less | equal | greater
  · have lap := lap_apart count first second same less
    omega
  · exact equal
  · have lap := lap_apart count second first same.symm greater
    omega

theorem filed_stamp (few : world.tasks.length < (size start.core.buffer).toNat)
    (msg : UserEventMessage) (task twin : Phase) (member : task ∈ world.tasks)
    (is : task.message = some msg) (there : twin ∈ world.tasks)
    (filed : Filed (size start.core.buffer) (toUserEvent msg) msg.ltime twin) :
    ∃ n, twin.returned = some n ∧ triple n = triple msg := by
  obtain ⟨n, returned, event, residue⟩ := filed
  have counted : world.tasks.countP Phase.counted ≤ world.tasks.length := List.countP_le_length
  have clock := sound.clock
  have stamp := sound.stamps task member msg is
  have other := sound.stamps twin there n (returned_message twin n returned)
  have same := same_stamp _ _ _ start.clock.toNat other.1 (by omega) stamp.1 (by omega) residue
  exact ⟨n, returned, by rw [triple, triple, same, event]⟩

theorem witnessed_admissible (task : Phase) (member : task ∈ world.tasks)
    (msg : UserEventMessage) (is : task.message = some msg) (counted : task.counted = true)
    (ready : start.core.minTime ≤ start.clock)
    (few : world.tasks.length < (size start.core.buffer).toNat) :
    msg.ltime < world.shared.clock ∧ Admissible world.shared msg := by
  have within : world.tasks.countP Phase.counted ≤ world.tasks.length := List.countP_le_length
  have clock := sound.clock
  have stamp := sound.stamps task member msg is
  rw [counted] at stamp
  simp only [if_true] at stamp
  have passed : msg.ltime < world.shared.clock := UInt64.lt_iff_toNat_lt.mpr (by omega)
  refine ⟨passed, ?_⟩
  rw [Admissible, witness_idle _ _ passed, sound.minTime, sound.sized]
  constructor
  · exact le_trans ready (UInt64.le_iff_toNat_le.mpr stamp.1)
  · exact inWindow_recent _ _ _ start.clock.toNat (by omega) stamp.1

section Recording

variable (index : Nat) (msg : UserEventMessage) (raw : Bytes)
  (found : world.tasks[index]? = some (.witnessed msg raw)) (core : EventCore) (accepted : Bool)
  (records : Records world.shared msg core accepted)

include found records

theorem recorded_apart : Apart Distinct (world.tasks.set index (.finished msg raw accepted)) := by
  have fresh : ∀ other ∈ world.tasks, ∀ m n, (Phase.finished msg raw accepted).sent = [m] →
      other.sent = [n] → triple m ≠ triple n := by
    intro other member m n sent sentBefore same
    have taken : accepted = true := by
      cases accepted with
      | false => cases sent
      | true => rfl
    subst taken
    cases sent
    rw [triple, triple, Prod.mk.injEq] at same
    refine records.fresh.mp rfl ((sound.slots _ _).mpr ⟨other, member, n, ?_, same.2, ?_⟩)
    · exact sent_returned other n sentBefore
    · rw [same.1]
  apply apart_advanced world.tasks index _ _ found _ sound.apart
  intro j other _ there
  have member := List.mem_of_getElem? there
  constructor
  · exact fresh other member
  · intro m n sentBefore sent same
    exact fresh other member n m sent sentBefore same.symm

theorem recorded_twins (few : world.tasks.length < (size start.core.buffer).toNat) :
    ∀ task ∈ world.tasks.set index (.finished msg raw accepted), ∀ m, task.returned = some m →
      ∃ other ∈ world.tasks.set index (.finished msg raw accepted), ∃ n, other.sent = [n] ∧
        triple n = triple m := by
  have before : ∀ task ∈ world.tasks, ∀ m, task.returned = some m →
      ∃ other ∈ world.tasks.set index (.finished msg raw accepted), ∃ n, other.sent = [n] ∧
        triple n = triple m := by
    intro task member m is
    obtain ⟨other, there, n, sent, same⟩ := sound.twins task member m is
    obtain ⟨again, inside, sentAgain⟩ := (exists_advanced world.tasks index _
      (.finished msg raw accepted) found (fun task => task.sent = [n]) (not_sent _ n rfl)).mpr
        (Or.inr ⟨other, there, sent⟩)
    exact ⟨again, inside, n, sentAgain, same⟩
  intro task member m is
  rcases List.mem_or_eq_of_mem_set member with old | rfl
  · exact before task old m is
  · cases is
    cases accepted with
    | true => exact ⟨_, member, msg, rfl, rfl⟩
    | false =>
      have known : toUserEvent msg ∈ slotEvents world.shared.core msg.ltime := by
        by_contra unknown
        cases records.fresh.mpr unknown
      obtain ⟨twin, there, filed⟩ := (sound.slots _ _).mp known
      obtain ⟨n, finished, same⟩ := filed_stamp start world sound few msg _ twin
        (List.mem_of_getElem? found) rfl there filed
      obtain ⟨other, inside, again, sent, alike⟩ := before twin there n finished
      exact ⟨other, inside, again, sent, alike.trans same⟩

theorem recorded_sound (few : world.tasks.length < (size start.core.buffer).toNat) :
    Sound start ⟨{ world.shared with core := core },
      world.tasks.set index (.finished msg raw accepted)⟩ where
  clock := by
    have count := countP_advanced world.tasks index _ (.finished msg raw accepted) found
      Phase.counted
    have clock := sound.clock
    simp only [Phase.counted, if_true] at count
    simp only
    omega
  minTime := records.minTime.trans sound.minTime
  sized := records.sized.trans sound.sized
  stamps task member message is := by
    rcases List.mem_or_eq_of_mem_set member with old | rfl
    · exact sound.stamps task old message is
    · cases is
      exact sound.stamps _ (List.mem_of_getElem? found) msg rfl
  slots event slot := by
    rw [records.slots, sound.slots, sound.sized, exists_advanced world.tasks index _
      (.finished msg raw accepted) found _ (not_filed _ event slot _ rfl), or_comm]
    simp [Filed, Phase.returned]
  apart := recorded_apart start world sound index msg raw found core accepted records
  twins := recorded_twins start world sound index msg raw found core accepted records few

end Recording

theorem called_sound (index : Nat) (call : EventCall)
    (found : world.tasks[index]? = some (.called call)) :
    Sound start ((calling limits).advanced world index () (.called call)) := by
  have clock := sound.clock
  rw [System.advanced]
  simp only [calling, advance]
  cases stamped : stampUserEvent limits world.shared.clock call.name call.payload
      call.coalesce with
  | error reason =>
    exact quiet_sound start world sound index _ (.failed reason) world.shared.clock found rfl
      rfl (le_refl _) rfl fun msg is => by cases is
  | ok result =>
    have message := stampUserEvent_message _ _ _ _ _ _ stamped
    refine quiet_sound start world sound index _ (.stamped result.1 result.2)
      world.shared.clock found rfl rfl (le_refl _) rfl ?_
    intro msg is
    cases is
    rw [message]
    simp only [Phase.counted, Bool.false_eq_true, if_false]
    omega

theorem stamped_sound (index : Nat) (msg : UserEventMessage) (raw : Bytes)
    (found : world.tasks[index]? = some (.stamped msg raw))
    (room : start.clock.toNat + world.tasks.length < 2 ^ 64) :
    Sound start ((calling limits).advanced world index () (.stamped msg raw)) := by
  have member := List.mem_of_getElem? found
  have clock := sound.clock
  have stamp := sound.stamps _ member msg rfl
  -- The call itself is not counted yet.
  have uncounted : world.tasks.countP Phase.counted < world.tasks.length :=
    List.countP_lt_length_iff.mpr ⟨_, member, rfl⟩
  have next : (increment world.shared.clock).toNat = world.shared.clock.toNat + 1 := by
    rw [increment, UInt64.toNat_add]
    exact Nat.mod_eq_of_lt (by simpa using by omega)
  simp only [Phase.counted, Bool.false_eq_true, if_false] at stamp
  refine quiet_sound start world sound index _ (.ticked msg raw)
    (increment world.shared.clock) found rfl rfl (by omega) ?_ ?_
  · simp only [Phase.counted, next, Bool.false_eq_true, if_false, if_true]
  · intro message is
    cases is
    simp only [Phase.counted, next, if_true]
    omega

theorem advanced_sound (index : Nat) (task : Phase) (found : world.tasks[index]? = some task)
    (ready : start.core.minTime ≤ start.clock)
    (few : world.tasks.length < (size start.core.buffer).toNat)
    (room : start.clock.toNat + world.tasks.length < 2 ^ 64) :
    Sound start ((calling limits).advanced world index () task) := by
  have member := List.mem_of_getElem? found
  have same : world.tasks.set index task = world.tasks := by
    obtain ⟨inside, rfl⟩ := List.getElem?_eq_some_iff.mp found
    exact List.set_getElem_self inside
  rw [System.advanced]
  cases task with
  | called call => exact called_sound limits start world sound index call found
  | stamped msg raw => exact stamped_sound limits start world sound index msg raw found room
  | ticked msg raw =>
    have stamp := sound.stamps _ member msg rfl
    simp only [Phase.counted, if_true] at stamp
    have idle := witness_idle world.shared.clock msg.ltime
      (UInt64.lt_iff_toNat_lt.mpr (by omega))
    simp only [calling, advance, idle]
    exact quiet_sound start world sound index _ (.witnessed msg raw) world.shared.clock found rfl
      rfl (le_refl _) rfl fun message is => by
        cases is
        exact stamp
  | witnessed msg raw =>
    obtain ⟨passed, admitted⟩ :=
      witnessed_admissible start world sound _ member msg rfl rfl ready few
    have positive : size world.shared.core.buffer ≠ 0 := by
      intro zero
      rw [← sound.sized, zero] at few
      simp at few
    obtain ⟨core, accepted, records⟩ :=
      recordUserEvent_records msg world.shared passed positive admitted
    simp only [calling, advance, records.recorded]
    exact recorded_sound start world sound index msg raw found core accepted records few
  | failed reason =>
    simp only [calling, advance, same]
    exact sound
  | panicked msg =>
    simp only [calling, advance, same]
    exact sound
  | finished msg raw accepted =>
    simp only [calling, advance, same]
    exact sound

theorem turn_sound (ready : start.core.minTime ≤ start.clock) (turn : Turn EventCall Unit Empty)
    (few : ((calling limits).turn world turn).1.tasks.length < (size start.core.buffer).toNat)
    (room : start.clock.toNat + ((calling limits).turn world turn).1.tasks.length < 2 ^ 64) :
    Sound start ((calling limits).turn world turn).1 := by
  have grows := (calling limits).turn_length world turn
  cases turn with
  | start call => exact started_sound limits start world sound call
  | advance index input =>
    rw [System.turn]
    cases found : world.tasks[index]? with
    | none => exact sound
    | some task =>
      exact advanced_sound limits start world sound index task found ready (by omega) (by omega)
  | change none => exact none.elim

end Steps

/-- Every call that returned `Ok` has sent its event. -/
def ExactlyOnce (tasks : List Phase) : Prop :=
  ∀ task ∈ tasks, ∀ msg, task.returned = some msg → task.sent = [msg]

/-- No two calls that returned `Ok` have stamped the same event with the same time. -/
def SeparateStamps (tasks : List Phase) : Prop :=
  Apart (fun first second => ∀ m n, first.returned = some m → second.returned = some n →
    triple m ≠ triple n) tasks

theorem exactlyOnce_iff (start : EventState) (world : World EventState Phase)
    (sound : Sound start world) : ExactlyOnce world.tasks ↔ SeparateStamps world.tasks := by
  constructor
  · intro once i j first second different here there m n ends endsToo
    exact sound.apart i j first second different here there m n
      (once first (List.mem_of_getElem? here) m ends)
      (once second (List.mem_of_getElem? there) n endsToo)
  · intro separate task member msg ends
    obtain ⟨other, there, n, sent, same⟩ := sound.twins task member msg ends
    obtain ⟨i, here⟩ := List.mem_iff_getElem?.mp member
    obtain ⟨j, beside⟩ := List.mem_iff_getElem?.mp there
    by_cases equal : i = j
    · -- The call is its own twin.
      subst j
      cases here.symm.trans beside
      cases ends.symm.trans (sent_returned task n sent)
      exact sent
    · exact absurd same.symm
        (separate i j task other equal here beside msg n ends (sent_returned other n sent))

theorem start_sound (clock minTime : LamportTime) (count : Nat) (fits : count < 2 ^ 64) :
    Sound (startEvents clock minTime count fits) ⟨startEvents clock minTime count fits, []⟩ where
  clock := rfl
  minTime := rfl
  sized := rfl
  stamps task member := by cases member
  slots event stamp := by
    rw [slotEvents_start]
    simp
  apart := by
    intro i j first second _ here
    cases here
  twins task member := by cases member

def passes (limits : EventLimits) (clock : LamportTime) (call : EventCall) : Bool :=
  let msg := ⟨clock, call.name, call.payload, call.coalesce⟩
  let limit := min limits.maxUserEventSize userEventSizeLimit
  decide (call.name.utf8ByteSize + call.payload.length ≤ limit) &&
    decide (limits.encodedMessageLen msg ≤ limit) && (limits.encodeMessageToBytes msg).isOk

/-- The call has read this clock for an event of this name and payload, and has not
incremented it yet. -/
def Phase.holds (clock : LamportTime) (name : String) (payload : Bytes) : Phase → Bool
  | .stamped msg _ => msg.ltime == clock && msg.name == name && msg.payload == payload
  | _ => false

/-- With this turn a call reads the clock while another call for the same name and
payload is between its own read of the same value and its increment. -/
def clashes (limits : EventLimits) (world : World EventState Phase) :
    Turn EventCall Unit Empty → Bool
  | .advance index _ =>
    match world.tasks[index]? with
    | some (.called call) =>
      passes limits world.shared.clock call &&
        world.tasks.any (Phase.holds world.shared.clock call.name call.payload)
    | _ => false
  | _ => false

def Phase.ended : Phase → Bool
  | .failed _ | .finished _ _ _ => true
  | _ => false

theorem stampUserEvent_passes (limits : EventLimits) (clock : LamportTime) (call : EventCall) :
    (∃ stamped, stampUserEvent limits clock call.name call.payload call.coalesce = .ok stamped) ↔
      passes limits clock call = true := by
  simp only [stampUserEvent, passes, Bool.and_eq_true, decide_eq_true_eq, Nat.le_min]
  split
  · simp
    omega
  split
  · simp
    omega
  split
  · simp
    omega
  split
  · simp
    omega
  · cases limits.encodeMessageToBytes ⟨clock, call.name, call.payload, call.coalesce⟩ <;>
      simp [Except.isOk, Except.toBool]
    omega

theorem advance_message (limits : EventLimits) (state : EventState) (phase : Phase)
    (msg : UserEventMessage) (is : phase.message = some msg) :
    (advance limits state phase).2.message = some msg := by
  cases phase with
  | called call => cases is
  | failed reason => cases is
  | witnessed message raw =>
    rw [advance]
    cases recordUserEvent state.clock message state.core <;> exact is
  | _ => exact is

/-- Different calls have stamped different events, whether they have returned or not. -/
def Separate (tasks : List Phase) : Prop :=
  Apart (fun first second => ∀ m n, first.message = some m → second.message = some n →
    triple m ≠ triple n) tasks

section Clashes

variable (limits : EventLimits)

theorem holds_of_triple (start : EventState) (world : World EventState Phase)
    (sound : Sound start world) (call : EventCall) (other : Phase)
    (member : other ∈ world.tasks) (n : UserEventMessage) (is : other.message = some n)
    (same : triple n = (world.shared.clock, ⟨call.name, call.payload⟩)) :
    other.holds world.shared.clock call.name call.payload = true := by
  have stamp := (sound.stamps other member n is).2
  rw [triple, Prod.mk.injEq, toUserEvent, UserEvent.mk.injEq] at same
  rw [same.1] at stamp
  cases other with
  | called _ => cases is
  | failed _ => cases is
  | stamped msg raw =>
    cases is
    simp [Phase.holds, same]
  | _ =>
    simp only [Phase.counted, if_true] at stamp
    omega

theorem called_separate (start : EventState) (world : World EventState Phase)
    (sound : Sound start world) (separate : Separate world.tasks) (index : Nat) (call : EventCall)
    (found : world.tasks[index]? = some (.called call))
    (calm : clashes limits world (.advance index ()) = false) :
    Separate ((calling limits).advanced world index () (.called call)).tasks := by
  rw [System.advanced]
  simp only [calling, advance]
  cases stamped : stampUserEvent limits world.shared.clock call.name call.payload
      call.coalesce with
  | error reason =>
    refine apart_advanced world.tasks index _ _ found _ separate fun j other _ _ => ⟨?_, ?_⟩
    · intro m n is
      cases is
    · intro m n _ is
      cases is
  | ok result =>
    have passed := (stampUserEvent_passes limits world.shared.clock call).mp ⟨result, stamped⟩
    have message := stampUserEvent_message _ _ _ _ _ _ stamped
    have fresh : ∀ other ∈ world.tasks, ∀ n, other.message = some n →
        triple n ≠ triple result.1 := by
      intro other member n is same
      rw [message] at same
      have held := holds_of_triple start world sound call other member n is same
      simp only [clashes, found, passed, Bool.true_and, List.any_eq_false] at calm
      exact calm other member held
    refine apart_advanced world.tasks index _ _ found _ separate fun j other _ there => ⟨?_, ?_⟩
    · intro m n is isToo same
      cases is
      exact fresh other (List.mem_of_getElem? there) n isToo same.symm
    · intro m n is isToo
      cases isToo
      exact fresh other (List.mem_of_getElem? there) m is

theorem turn_separate (start : EventState) (world : World EventState Phase)
    (sound : Sound start world) (separate : Separate world.tasks)
    (turn : Turn EventCall Unit Empty) (calm : clashes limits world turn = false) :
    Separate ((calling limits).turn world turn).1.tasks := by
  cases turn with
  | start call =>
    refine apart_started _ _ _ separate fun other _ => ⟨?_, ?_⟩
    · intro m n is
      cases is
    · intro m n _ is
      cases is
  | advance index input =>
    rw [System.turn]
    cases found : world.tasks[index]? with
    | none => exact separate
    | some task =>
      cases message : task.message with
      | some msg =>
        -- The step keeps the message that the task has.
        have kept := advance_message limits world.shared task msg message
        refine apart_advanced world.tasks index _ _ found _ separate fun j other away there =>
          ⟨?_, ?_⟩
        · intro m n is
          cases kept.symm.trans is
          exact separate index j task other away.symm found there msg n message
        · intro m n is isToo
          cases kept.symm.trans isToo
          exact separate j index other task away there found m msg is message
      | none =>
        cases task with
        | called call =>
          exact called_separate limits start world sound separate index call found calm
        | failed reason =>
          refine apart_advanced world.tasks index _ _ found _ separate fun j other _ _ =>
            ⟨?_, ?_⟩
          · intro m n is
            cases is
          · intro m n _ is
            cases is
        | _ => cases message
  | change none => exact none.elim

theorem turn_message (world : World EventState Phase) (turn : Turn EventCall Unit Empty)
    (index : Nat) (msg : UserEventMessage)
    (is : (world.tasks[index]?).bind Phase.message = some msg) :
    (((calling limits).turn world turn).1.tasks[index]?).bind Phase.message = some msg := by
  obtain ⟨task, there, message⟩ := Option.bind_eq_some_iff.mp is
  cases turn with
  | start call =>
    have inside := (List.getElem?_eq_some_iff.mp there).1
    rw [System.turn, System.started, List.getElem?_append_left inside, there]
    exact message
  | advance other input =>
    rw [System.turn]
    cases found : world.tasks[other]? with
    | none => exact is
    | some moved =>
      simp only [System.advanced]
      rw [getElem?_advanced world.tasks other moved _ found]
      split
      · rename_i here
        subst here
        cases there.symm.trans found
        exact advance_message limits world.shared task msg message
      · exact is
  | change none => exact none.elim

theorem run_message (world : World EventState Phase) (turns : List (Turn EventCall Unit Empty))
    (index : Nat) (msg : UserEventMessage)
    (is : (world.tasks[index]?).bind Phase.message = some msg) :
    ((run (calling limits).turn world turns).tasks[index]?).bind Phase.message = some msg := by
  induction turns generalizing world with
  | nil => exact is
  | cons turn rest ih => exact ih _ (turn_message limits world turn index msg is)

theorem clash_twins (world : World EventState Phase) (turn : Turn EventCall Unit Empty)
    (clash : clashes limits world turn = true) :
    ∃ (i j : Nat) (m n : UserEventMessage), i ≠ j ∧ triple m = triple n ∧
      (((calling limits).turn world turn).1.tasks[i]?).bind Phase.message = some m ∧
      (((calling limits).turn world turn).1.tasks[j]?).bind Phase.message = some n := by
  cases turn with
  | start call => cases clash
  | change none => exact none.elim
  | advance index input =>
    simp only [clashes] at clash
    split at clash
    · rename_i call found
      rw [Bool.and_eq_true, List.any_eq_true] at clash
      obtain ⟨passed, other, member, held⟩ := clash
      obtain ⟨stamped, isOk⟩ := (stampUserEvent_passes limits world.shared.clock call).mpr passed
      have message := stampUserEvent_message _ _ _ _ _ _ isOk
      obtain ⟨j, there⟩ := List.mem_iff_getElem?.mp member
      cases other with
      | stamped n raw =>
        simp only [Phase.holds, Bool.and_eq_true, beq_iff_eq] at held
        have away : index ≠ j := by
          rintro rfl
          cases found.symm.trans there
        refine ⟨index, j, stamped.1, n, away, ?_, ?_, ?_⟩
        · simp [message, triple, toUserEvent, held]
        · simp only [System.turn, found, System.advanced]
          rw [getElem?_advanced world.tasks index _ _ found, if_pos rfl]
          simp [calling, advance, isOk, Phase.message]
        · exact turn_message limits world _ j n (by rw [there]; rfl)
      | _ => cases held
    · cases clash

theorem clash_unsent (start : EventState) (world reached : World EventState Phase)
    (sound : Sound start reached) (ended : ∀ task ∈ reached.tasks, task.ended = true)
    (turn : Turn EventCall Unit Empty) (rest : List (Turn EventCall Unit Empty))
    (clash : clashes limits world turn = true)
    (later : reached = run (calling limits).turn ((calling limits).turn world turn).1 rest) :
    ¬ ExactlyOnce reached.tasks := by
  obtain ⟨i, j, m, n, away, same, first, second⟩ := clash_twins limits world turn clash
  have here := run_message limits _ rest i m first
  have there := run_message limits _ rest j n second
  rw [← later] at here there
  obtain ⟨one, atOne, isOne⟩ := Option.bind_eq_some_iff.mp here
  obtain ⟨two, atTwo, isTwo⟩ := Option.bind_eq_some_iff.mp there
  have returned : ∀ task ∈ reached.tasks, ∀ msg, task.message = some msg →
      task.returned = some msg := by
    intro task member msg is
    have gone := ended task member
    cases task with
    | failed reason => cases is
    | finished message raw accepted => exact is
    | _ => cases gone
  intro once
  exact (exactlyOnce_iff start reached sound).mp once i j one two away atOne atTwo m n
    (returned one (List.mem_of_getElem? atOne) m isOne)
    (returned two (List.mem_of_getElem? atTwo) n isTwo) same

end Clashes

section Runs

variable (limits : EventLimits) (clock minTime : LamportTime) (count : Nat) (fits : count < 2 ^ 64)
  (ready : minTime ≤ clock) (turns : List (Turn EventCall Unit Empty))
  (few : (run (calling limits).turn ⟨startEvents clock minTime count fits, []⟩
    turns).tasks.length < count)
  (room : clock.toNat + (run (calling limits).turn ⟨startEvents clock minTime count fits, []⟩
    turns).tasks.length < 2 ^ 64)

include ready few room

theorem run_sound (guard : World EventState Phase → Turn EventCall Unit Empty → Prop)
    (extra : World EventState Phase → Prop)
    (keeps : ∀ world turn, guard world turn →
      Sound (startEvents clock minTime count fits) world → extra world →
      extra ((calling limits).turn world turn).1)
    (all : ∀ visit ∈ visits (calling limits).turn ⟨startEvents clock minTime count fits, []⟩ turns,
      guard visit.1 visit.2)
    (initial : extra ⟨startEvents clock minTime count fits, []⟩) :
    let reached := run (calling limits).turn ⟨startEvents clock minTime count fits, []⟩ turns
    Sound (startEvents clock minTime count fits) reached ∧ extra reached := by
  have length : (size (startEvents clock minTime count fits).core.buffer).toNat = count := by
    rw [size_toNat]
    simp [startEvents, vacant]
  have start : (startEvents clock minTime count fits).clock = clock := rfl
  apply (calling limits).run_bounded (min count (2 ^ 64 - clock.toNat)) guard
    (fun world => Sound (startEvents clock minTime count fits) world ∧ extra world)
  · intro world turn within allowed held
    refine ⟨?_, keeps world turn allowed held.1 held.2⟩
    apply turn_sound limits _ world held.1 ready turn
    · rw [length]
      omega
    · rw [start]
      omega
  · omega
  · exact all
  · exact ⟨start_sound clock minTime count fits, initial⟩

/-- In every interleaving of fewer calls than the buffer has slots in which no call
reads the clock while another call for the same name and payload is between its read
of the same value and its increment, each call that returns `Ok` sends its event
exactly once. Conversely, once all calls have returned and each `Ok` has sent its
event, there was no such turn. -/
theorem concurrent_userEvents_iff :
    let first : World EventState Phase := ⟨startEvents clock minTime count fits, []⟩
    let reached := run (calling limits).turn first turns
    let Calm := ∀ visit ∈ visits (calling limits).turn first turns,
      clashes limits visit.1 visit.2 = false
    (Calm → ExactlyOnce reached.tasks) ∧
    ((∀ task ∈ reached.tasks, task.ended = true) → (ExactlyOnce reached.tasks ↔ Calm)) := by
  intro first reached Calm
  have enough : Calm → ExactlyOnce reached.tasks := by
    intro calm
    obtain ⟨sound, separate⟩ := run_sound limits clock minTime count fits ready turns few room
      (fun world turn => clashes limits world turn = false) (fun world => Separate world.tasks)
      (fun world turn quiet sound separate =>
        turn_separate limits _ world sound separate turn quiet)
      calm (by intro i j first second _ here; cases here)
    refine (exactlyOnce_iff _ reached sound).mpr ?_
    intro i j one two away here there m n ends endsToo
    exact separate i j one two away here there m n (returned_message one m ends)
      (returned_message two n endsToo)
  refine ⟨enough, fun ended => ⟨?_, enough⟩⟩
  intro once visit member
  have sound := (run_sound limits clock minTime count fits ready turns few room
    (fun _ _ => True) (fun _ => True) (fun _ _ _ _ _ => trivial) (fun _ _ => trivial) trivial).1
  obtain ⟨before, rest, split, atVisit⟩ := mem_visits _ _ _ visit member
  have later : reached =
      run (calling limits).turn ((calling limits).turn visit.1 visit.2).1 rest := by
    simp only [reached]
    rw [split, run_append, atVisit]
    rfl
  by_contra clash
  exact clash_unsent limits _ visit.1 reached sound ended visit.2 rest
    (Bool.eq_true_of_not_eq_false clash) later once

end Runs

def deployCall : EventCall := ⟨"deploy", [], false⟩

def oneByOne : List (Turn EventCall Unit Empty) :=
  [.start deployCall, .advance 0 (), .advance 0 (), .advance 0 (), .advance 0 (),
    .start deployCall, .advance 1 (), .advance 1 (), .advance 1 (), .advance 1 ()]

theorem concurrent_userEvents_one_by_one :
    let first : World EventState Phase := ⟨startEvents 1 0 3 (by decide), []⟩
    let reached := run (calling roomy).turn first oneByOne
    (∀ task ∈ reached.tasks, task.ended = true) ∧
    (∀ visit ∈ visits (calling roomy).turn first oneByOne,
      clashes roomy visit.1 visit.2 = false) ∧ ExactlyOnce reached.tasks := by
  have calm : ∀ visit ∈ visits (calling roomy).turn ⟨startEvents 1 0 3 (by decide), []⟩ oneByOne,
      clashes roomy visit.1 visit.2 = false := by decide
  exact ⟨by decide, calm, (concurrent_userEvents_iff roomy 1 0 3 (by decide) (by decide) oneByOne
    (by decide) (by decide)).1 calm⟩

theorem same_stamp_merged :
    let reached := run (calling roomy).turn ⟨startEvents 1 0 3 (by decide), []⟩
      [.start deployCall, .start deployCall, .advance 0 (), .advance 1 (),
        .advance 0 (), .advance 0 (), .advance 0 (), .advance 1 (), .advance 1 (), .advance 1 ()]
    reached.tasks = [.finished ⟨1, "deploy", [], false⟩ [] true,
      .finished ⟨1, "deploy", [], false⟩ [] false] ∧
    reached.tasks.flatMap Phase.sent = [⟨1, "deploy", [], false⟩] ∧
    ¬ ExactlyOnce reached.tasks := by
  intro reached
  have ends : reached.tasks = [.finished ⟨1, "deploy", [], false⟩ [] true,
      .finished ⟨1, "deploy", [], false⟩ [] false] := rfl
  rw [ends]
  refine ⟨rfl, rfl, ?_⟩
  intro once
  cases once _ (List.mem_cons_of_mem _ List.mem_cons_self) _ rfl

end Serf.ConcurrentEvents
