import Serf.Library.Machine
import Serf.EventHandler

/-!
Delivery of user events over whole runs. A slot of the event ring is never
cleared and never takes over the time of a later message, so it answers for
every time of its residue class: an event is sent at most once, and the first
call that carries it is refused exactly when the same name and payload were
already taken at another time of the class.
-/

namespace Serf.EventDelivery

open Library.Machine Library.Window Library.Slots LamportClock EventHandler

def slotEvents (core : EventCore) (stamp : LamportTime) : List UserEvent :=
  match readSlot core.buffer stamp with
  | some (some seen) => seen.events
  | _ => []

/-- The call is not below the minimum time and not too old once its time has
been witnessed. -/
def Admissible (state : EventState) (msg : UserEventMessage) : Prop :=
  state.core.minTime ≤ msg.ltime ∧
    InWindow (witness state.clock msg.ltime) (size state.core.buffer) msg.ltime

instance (state : EventState) (msg : UserEventMessage) : Decidable (Admissible state msg) :=
  inferInstanceAs (Decidable (_ ∧ _))

variable (curTime : LamportTime) (msg : UserEventMessage) (core : EventCore)

theorem recordUserEvent_refused
    (refused : ¬ (core.minTime ≤ msg.ltime ∧ InWindow curTime (size core.buffer) msg.ltime)) :
    recordUserEvent curTime msg core = some (core, false) := by
  rw [recordUserEvent]
  by_cases early : msg.ltime < core.minTime
  · rw [if_pos early]
  · have old : TooOld curTime (size core.buffer) msg.ltime := by
      by_contra young
      exact refused ⟨le_of_not_gt early, (inWindow_iff _ _ _).mpr young⟩
    rw [if_neg early, if_pos old]

theorem recordUserEvent_seen (known : toUserEvent msg ∈ slotEvents core msg.ltime) :
    recordUserEvent curTime msg core = some (core, false) := by
  rw [recordUserEvent]
  -- The two window checks return what the duplicate check returns.
  split
  · rfl
  split
  · rfl
  rw [slotEvents] at known
  split at known
  · rename_i seen held
    rw [held]
    exact if_pos known
  · simp at known

theorem recordUserEvent_fresh (positive : size core.buffer ≠ 0) (late : core.minTime ≤ msg.ltime)
    (inside : InWindow curTime (size core.buffer) msg.ltime)
    (unknown : toUserEvent msg ∉ slotEvents core msg.ltime) :
    ∃ slot : UserEvents, slot.events = slotEvents core msg.ltime ++ [toUserEvent msg] ∧
      recordUserEvent curTime msg core =
        some ({ core with buffer := writeSlot core.buffer msg.ltime slot }, true) := by
  have young := (inWindow_iff _ _ _).mp inside
  obtain ⟨held, found⟩ := readSlot_defined core.buffer msg.ltime positive
  rw [recordUserEvent, if_neg (not_lt_of_ge late), if_neg young, found]
  cases held with
  | none => exact ⟨⟨msg.ltime, [toUserEvent msg]⟩, by simp [slotEvents, found], rfl⟩
  | some seen =>
    have events : slotEvents core msg.ltime = seen.events := by simp [slotEvents, found]
    rw [events] at unknown ⊢
    exact ⟨{ seen with events := seen.events ++ [toUserEvent msg] }, rfl, if_neg unknown⟩

theorem slotEvents_write (stamp other : LamportTime) (slot : UserEvents)
    (positive : size core.buffer ≠ 0) :
    slotEvents { core with buffer := writeSlot core.buffer stamp slot } other =
      if stamp % size core.buffer = other % size core.buffer then slot.events
      else slotEvents core other := by
  unfold slotEvents
  rw [readSlot_write core.buffer stamp other slot positive]
  by_cases same : stamp % size core.buffer = other % size core.buffer
  · rw [if_pos same, if_pos same]
  · rw [if_neg same, if_neg same]

theorem handleUserEvent_refused (state : EventState) (refused : ¬ Admissible state msg) :
    handleUserEvent msg state =
      ⟨{ state with clock := witness state.clock msg.ltime }, [], some false⟩ := by
  simp [handleUserEvent, recordUserEvent_refused _ msg state.core refused]

theorem handleUserEvent_seen (msg : UserEventMessage) (state : EventState)
    (known : toUserEvent msg ∈ slotEvents state.core msg.ltime) :
    handleUserEvent msg state =
      ⟨{ state with clock := witness state.clock msg.ltime }, [], some false⟩ := by
  simp [handleUserEvent, recordUserEvent_seen _ msg state.core known]

theorem recordUserEvent_writes (after : EventCore) (accepted : Bool)
    (result : recordUserEvent curTime msg core = some (after, accepted)) :
    after = core ∨ ∃ slot : UserEvents,
      after = { core with buffer := writeSlot core.buffer msg.ltime slot } ∧
      (slot.ltime = msg.ltime ∨ ∃ seen, readSlot core.buffer msg.ltime = some (some seen) ∧
        slot.ltime = seen.ltime) := by
  rw [recordUserEvent] at result
  split at result
  · cases result
    exact Or.inl rfl
  split at result
  · cases result
    exact Or.inl rfl
  split at result
  · cases result
  · rename_i seen found
    split at result
    · cases result
      exact Or.inl rfl
    · cases result
      exact Or.inr ⟨_, rfl, Or.inr ⟨seen, found, rfl⟩⟩
  · cases result
    exact Or.inr ⟨_, rfl, Or.inl rfl⟩

theorem handleUserEvent_frame (msg : UserEventMessage) (state : EventState) :
    (handleUserEvent msg state).state.clock = witness state.clock msg.ltime ∧
    (handleUserEvent msg state).state.core.minTime = state.core.minTime ∧
    size (handleUserEvent msg state).state.core.buffer = size state.core.buffer := by
  simp only [handleUserEvent]
  split
  · exact ⟨rfl, rfl, rfl⟩
  · rename_i core accepted result
    rcases recordUserEvent_writes _ msg state.core core accepted result with
      rfl | ⟨slot, rfl, _⟩
    · exact ⟨rfl, rfl, rfl⟩
    · exact ⟨rfl, rfl, size_writeSlot _ _ _⟩

/-- What one call of `handle_user_event` does on a ring with slots. -/
structure Handles (msg : UserEventMessage) (state : EventState) : Prop where
  clock : (handleUserEvent msg state).state.clock = witness state.clock msg.ltime
  minTime : (handleUserEvent msg state).state.core.minTime = state.core.minTime
  sized : size (handleUserEvent msg state).state.core.buffer = size state.core.buffer
  slots : ∀ event stamp,
    event ∈ slotEvents (handleUserEvent msg state).state.core stamp ↔
      event ∈ slotEvents state.core stamp ∨
        (Admissible state msg ∧ event = toUserEvent msg ∧
          msg.ltime % size state.core.buffer = stamp % size state.core.buffer)
  sends : Admissible state msg → toUserEvent msg ∉ slotEvents state.core msg.ltime →
    (handleUserEvent msg state).sent = [msg] ∧ (handleUserEvent msg state).returned = some true
  refuses : ¬ Admissible state msg ∨ toUserEvent msg ∈ slotEvents state.core msg.ltime →
    (handleUserEvent msg state).sent = [] ∧ (handleUserEvent msg state).returned = some false

theorem slotEvents_congr (stamp other : LamportTime)
    (same : stamp % size core.buffer = other % size core.buffer) :
    slotEvents core stamp = slotEvents core other := by
  unfold slotEvents readSlot index
  rw [same]

theorem handleUserEvent_handles (msg : UserEventMessage) (state : EventState)
    (positive : size state.core.buffer ≠ 0) : Handles msg state := by
  by_cases admitted : Admissible state msg
  · by_cases known : toUserEvent msg ∈ slotEvents state.core msg.ltime
    · have result := handleUserEvent_seen msg state known
      refine ⟨by rw [result], by rw [result], by rw [result], ?_, ?_, ?_⟩
      · intro event stamp
        rw [result]
        constructor
        · exact Or.inl
        · -- The event of the message is in the slot already.
          rintro (held | ⟨_, rfl, same⟩)
          · exact held
          · rwa [← slotEvents_congr state.core _ _ same]
      · intro _ unknown
        exact absurd known unknown
      · intro _
        rw [result]
        exact ⟨rfl, rfl⟩
    · obtain ⟨slot, events, recorded⟩ := recordUserEvent_fresh (witness state.clock msg.ltime)
        msg state.core positive admitted.1 admitted.2 known
      have result : handleUserEvent msg state =
          ⟨⟨witness state.clock msg.ltime,
            { state.core with buffer := writeSlot state.core.buffer msg.ltime slot }⟩,
            [msg], some true⟩ := by
        simp [handleUserEvent, recorded]
      refine ⟨by rw [result], by rw [result], by rw [result]; simp, ?_, ?_, ?_⟩
      · intro event stamp
        rw [result, slotEvents_write state.core msg.ltime stamp slot positive, events]
        by_cases same : msg.ltime % size state.core.buffer = stamp % size state.core.buffer
        · simp [same, admitted, slotEvents_congr state.core _ _ same]
        · simp [same]
      · intro _ _
        rw [result]
        exact ⟨rfl, rfl⟩
      · rintro (refused | held)
        · exact absurd admitted refused
        · exact absurd held known
  · have result := handleUserEvent_refused msg state admitted
    refine ⟨by rw [result], by rw [result], by rw [result], ?_, ?_, ?_⟩
    · intro event stamp
      rw [result]
      simp [admitted]
    · intro accepted
      exact absurd accepted admitted
    · intro _
      rw [result]
      exact ⟨rfl, rfl⟩

variable (limits : EventLimits) (state inner : EventState) (op : EventOp)

theorem eventStep_handled (msg : UserEventMessage)
    (call : handled limits state op = some (msg, inner)) :
    inner.core = state.core ∧
      eventStep limits state op =
        ((handleUserEvent msg inner).state, .ok (handleUserEvent msg inner)) := by
  cases op with
  | receive received =>
    cases call
    exact ⟨rfl, rfl⟩
  | userEvent name payload coalesce =>
    simp only [handled] at call
    split at call
    · cases call
    · rename_i stamped
      cases call
      exact ⟨rfl, by simp [eventStep, userEvent, stamped]⟩

theorem eventStep_idle (call : handled limits state op = none) :
    ∃ reason, eventStep limits state op = (state, .error reason) := by
  cases op with
  | receive received => cases call
  | userEvent name payload coalesce =>
    simp only [handled] at call
    split at call
    · rename_i reason stamped
      exact ⟨reason, by simp [eventStep, userEvent, stamped]⟩
    · cases call

theorem eventStep_frame :
    size (eventStep limits state op).1.core.buffer = size state.core.buffer ∧
    (eventStep limits state op).1.core.minTime = state.core.minTime := by
  cases call : handled limits state op with
  | none =>
    obtain ⟨reason, idle⟩ := eventStep_idle limits state op call
    rw [idle]
    exact ⟨rfl, rfl⟩
  | some entry =>
    obtain ⟨core, handles⟩ := eventStep_handled limits state entry.2 op entry.1 call
    obtain ⟨_, minTime, sized⟩ := handleUserEvent_frame entry.1 entry.2
    rw [handles]
    exact ⟨sized.trans (by rw [core]), minTime.trans (by rw [core])⟩

theorem eventStep_positive (positive : size state.core.buffer ≠ 0) :
    size (eventStep limits state op).1.core.buffer ≠ 0 := by
  rw [(eventStep_frame limits state op).1]
  exact positive

theorem eventStep_slots (positive : size state.core.buffer ≠ 0) (event : UserEvent)
    (stamp : LamportTime) :
    event ∈ slotEvents (eventStep limits state op).1.core stamp ↔
      event ∈ slotEvents state.core stamp ∨
        ∃ call ∈ handled limits state op, Admissible call.2 call.1 ∧
          event = toUserEvent call.1 ∧
          call.1.ltime % size state.core.buffer = stamp % size state.core.buffer := by
  cases call : handled limits state op with
  | none =>
    obtain ⟨reason, idle⟩ := eventStep_idle limits state op call
    rw [idle]
    simp
  | some entry =>
    obtain ⟨core, handles⟩ := eventStep_handled limits state entry.2 op entry.1 call
    have effect := handleUserEvent_handles entry.1 entry.2 (core ▸ positive)
    rw [handles, effect.slots event stamp, core]
    simp

/-- The calls of `handle_user_event` that a run makes. -/
def calls (limits : EventLimits) (start : EventState) (ops : List EventOp) :
    List (UserEventMessage × EventState) :=
  (visits (eventStep limits) start ops).filterMap fun visit => handled limits visit.1 visit.2

theorem run_size (start : EventState) (ops : List EventOp) :
    size (run (eventStep limits) start ops).core.buffer = size start.core.buffer ∧
    (run (eventStep limits) start ops).core.minTime = start.core.minTime := by
  induction ops generalizing start with
  | nil => exact ⟨rfl, rfl⟩
  | cons op rest ih =>
    have frame := eventStep_frame limits start op
    have tail := ih (eventStep limits start op).1
    exact ⟨tail.1.trans frame.1, tail.2.trans frame.2⟩

/-- A slot holds what it held before and every admissible event of its residue
class, whichever time of the class the event carried. -/
theorem run_slots (start : EventState) (ops : List EventOp) (positive : size start.core.buffer ≠ 0)
    (event : UserEvent) (stamp : LamportTime) :
    event ∈ slotEvents (run (eventStep limits) start ops).core stamp ↔
      event ∈ slotEvents start.core stamp ∨
        ∃ call ∈ calls limits start ops, Admissible call.2 call.1 ∧
          event = toUserEvent call.1 ∧
          call.1.ltime % size start.core.buffer = stamp % size start.core.buffer := by
  induction ops generalizing start with
  | nil => simp [run, calls, visits]
  | cons op rest ih =>
    have frame := eventStep_frame limits start op
    have tail := ih (eventStep limits start op).1 (eventStep_positive limits start op positive)
    rw [frame.1, eventStep_slots limits start op positive event stamp] at tail
    rw [run, tail]
    cases call : handled limits start op with
    | none => simp [calls, visits, call]
    | some entry => simp [calls, visits, call, or_assoc]

/-- What an operation sends on `event_tx`. -/
def sentBy : Except UserEventError EventOutcome → List UserEventMessage
  | .ok outcome => outcome.sent
  | .error _ => []

/-- Everything a run sends on `event_tx`. -/
def sent (limits : EventLimits) (start : EventState) (ops : List EventOp) :
    List UserEventMessage :=
  (answers (eventStep limits) start ops).flatMap fun entry => sentBy entry.2

def triple (msg : UserEventMessage) : LamportTime × UserEvent := (msg.ltime, toUserEvent msg)

theorem sentBy_step (positive : size state.core.buffer ≠ 0) :
    sentBy (eventStep limits state op).2 = [] ∨
      ∃ msg, sentBy (eventStep limits state op).2 = [msg] ∧
        toUserEvent msg ∉ slotEvents state.core msg.ltime ∧
        toUserEvent msg ∈ slotEvents (eventStep limits state op).1.core msg.ltime := by
  cases call : handled limits state op with
  | none =>
    obtain ⟨reason, idle⟩ := eventStep_idle limits state op call
    rw [idle]
    exact Or.inl rfl
  | some entry =>
    obtain ⟨core, handles⟩ := eventStep_handled limits state entry.2 op entry.1 call
    have effect := handleUserEvent_handles entry.1 entry.2 (core ▸ positive)
    rw [handles]
    by_cases admitted : Admissible entry.2 entry.1
    · by_cases known : toUserEvent entry.1 ∈ slotEvents entry.2.core entry.1.ltime
      · exact Or.inl (effect.refuses (Or.inr known)).1
      · refine Or.inr ⟨entry.1, (effect.sends admitted known).1, core ▸ known, ?_⟩
        exact (effect.slots _ _).mpr (Or.inr ⟨admitted, rfl, rfl⟩)
    · exact Or.inl (effect.refuses (Or.inl admitted)).1

theorem sent_unknown (start : EventState) (ops : List EventOp)
    (positive : size start.core.buffer ≠ 0) (msg : UserEventMessage)
    (member : msg ∈ sent limits start ops) : toUserEvent msg ∉ slotEvents start.core msg.ltime := by
  induction ops generalizing start with
  | nil => simp [sent, answers] at member
  | cons op rest ih =>
    rw [sent, answers, List.flatMap_cons] at member
    rcases List.mem_append.mp member with now | later
    · rcases sentBy_step limits start op positive with silent | ⟨first, only, unknown, _⟩
      · rw [silent] at now
        simp at now
      · rw [only] at now
        rw [List.mem_singleton.mp now]
        exact unknown
    · intro known
      -- A slot never forgets, so the later operation would not have sent it.
      refine ih (eventStep limits start op).1 (eventStep_positive limits start op positive)
        later ?_
      exact (eventStep_slots limits start op positive _ _).mpr (Or.inl known)

theorem sent_nodup (start : EventState) (ops : List EventOp)
    (positive : size start.core.buffer ≠ 0) : ((sent limits start ops).map triple).Nodup := by
  induction ops generalizing start with
  | nil => simp [sent, answers]
  | cons op rest ih =>
    have positiveNext := eventStep_positive limits start op positive
    have tail := ih (eventStep limits start op).1 positiveNext
    rw [sent, answers, List.flatMap_cons]
    rcases sentBy_step limits start op positive with silent | ⟨first, only, _, held⟩
    · rw [silent]
      exact tail
    · rw [only, List.singleton_append, List.map_cons, List.nodup_cons]
      refine ⟨?_, tail⟩
      -- The slot of the sent event holds it from here on.
      intro again
      obtain ⟨later, member, same⟩ := List.mem_map.mp again
      have unknown := sent_unknown limits _ rest positiveNext later member
      rw [triple, triple, Prod.mk.injEq] at same
      rw [same.1, same.2] at unknown
      exact unknown held

/-- The operation is accepted: it sends the event and asks for a rebroadcast. -/
def Delivers (limits : EventLimits) (state : EventState) (op : EventOp)
    (msg : UserEventMessage) : Prop :=
  ∃ outcome, (eventStep limits state op).2 = .ok outcome ∧
    outcome.sent = [msg] ∧ outcome.returned = some true

/-- The operation that follows `before` is the first to carry its triple, and
its call is admissible. -/
structure FirstCall (limits : EventLimits) (start : EventState) (before : List EventOp)
    (op : EventOp) (msg : UserEventMessage) : Prop where
  admitted : ∃ inner, handled limits (run (eventStep limits) start before) op = some (msg, inner) ∧
    Admissible inner msg
  first : ∀ earlier ∈ calls limits start before, triple earlier.1 ≠ triple msg

/-- User events are delivered exactly once inside the window. -/
structure ExactlyOnce (limits : EventLimits) (start : EventState) (ops : List EventOp) :
    Prop where
  atMostOnce : ((sent limits start ops).map triple).Nodup
  firstSent : ∀ before op after msg, ops = before ++ op :: after →
    FirstCall limits start before op msg →
    Delivers limits (run (eventStep limits) start before) op msg
  localSent : start.core.minTime ≤ start.clock →
    ∀ before name payload coalesce after outcome,
      ops = before ++ EventOp.userEvent name payload coalesce :: after →
      (eventStep limits (run (eventStep limits) start before)
        (.userEvent name payload coalesce)).2 = .ok outcome →
      outcome.sent =
        [⟨(run (eventStep limits) start before).clock, name, payload, coalesce⟩] ∧
      outcome.returned = some true

/-- No event comes back at another time of a residue class that has admitted
the same name and payload before. -/
def NoRevisit (limits : EventLimits) (start : EventState) (ops : List EventOp) : Prop :=
  ∀ before op after msg, ops = before ++ op :: after →
    FirstCall limits start before op msg →
    ∀ earlier ∈ calls limits start before, Admissible earlier.2 earlier.1 →
      toUserEvent earlier.1 = toUserEvent msg →
      earlier.1.ltime % size start.core.buffer ≠ msg.ltime % size start.core.buffer

/-- The node starts with an empty event buffer. -/
def startEvents (clock minTime : LamportTime) (count : Nat) (fits : count < 2 ^ 64) :
    EventState :=
  ⟨clock, ⟨minTime, vacant count fits⟩⟩

theorem slotEvents_start (clock minTime : LamportTime) (count : Nat) (fits : count < 2 ^ 64)
    (stamp : LamportTime) : slotEvents (startEvents clock minTime count fits).core stamp = [] := by
  rw [slotEvents]
  split
  · rename_i seen held
    exact absurd held (readSlot_vacant count fits stamp seen)
  · rfl

theorem size_start (clock minTime : LamportTime) (count : Nat) (fits : count < 2 ^ 64)
    (positive : 1 ≤ count) : size (startEvents clock minTime count fits).core.buffer ≠ 0 := by
  intro zero
  have empty := size_toNat (startEvents clock minTime count fits).core.buffer
  rw [zero] at empty
  simp [startEvents, vacant] at empty
  omega

theorem delivers_iff (start : EventState) (before : List EventOp) (op : EventOp)
    (msg : UserEventMessage) (positive : size start.core.buffer ≠ 0)
    (blank : ∀ stamp, slotEvents start.core stamp = [])
    (call : FirstCall limits start before op msg) :
    Delivers limits (run (eventStep limits) start before) op msg ↔
      ∀ earlier ∈ calls limits start before, Admissible earlier.2 earlier.1 →
        toUserEvent earlier.1 = toUserEvent msg →
        earlier.1.ltime % size start.core.buffer ≠ msg.ltime % size start.core.buffer := by
  -- At the call the slot holds exactly the admissible events of its class.
  obtain ⟨⟨inner, reaches, admitted⟩, _⟩ := call
  have sized := run_size limits start before
  obtain ⟨core, handles⟩ := eventStep_handled limits _ inner op msg reaches
  have effect := handleUserEvent_handles msg inner (by rw [core, sized.1]; exact positive)
  have held := run_slots limits start before positive (toUserEvent msg) msg.ltime
  rw [blank, ← core] at held
  rw [Delivers, handles]
  constructor
  · rintro ⟨outcome, answered, delivered, _⟩ earlier member admissible same congruent
    cases answered
    have known := held.mpr (Or.inr ⟨earlier, member, admissible, same.symm, congruent⟩)
    rw [(effect.refuses (Or.inr known)).1] at delivered
    cases delivered
  · intro unvisited
    refine ⟨_, rfl, effect.sends admitted ?_⟩
    intro known
    rcases held.mp known with old | ⟨earlier, member, admissible, same, congruent⟩
    · simp at old
    · exact unvisited earlier member admissible same.symm congruent

theorem stampUserEvent_message (clock : LamportTime) (name : String) (payload : Bytes)
    (coalesce : Bool) (stamped : UserEventMessage × Bytes)
    (passed : stampUserEvent limits clock name payload coalesce = .ok stamped) :
    stamped.1 = ⟨clock, name, payload, coalesce⟩ := by
  simp only [stampUserEvent] at passed
  split at passed
  · cases passed
  split at passed
  · cases passed
  split at passed
  · cases passed
  split at passed
  · cases passed
  split at passed
  · cases passed
  · cases passed
    rfl

theorem eventStep_clock (bounded : ∀ call ∈ handled limits state op, call.1.ltime < u64Max) :
    state.clock ≤ (eventStep limits state op).1.clock ∧
    ∀ call ∈ handled limits state op, call.1.ltime < (eventStep limits state op).1.clock := by
  cases call : handled limits state op with
  | none =>
    obtain ⟨reason, idle⟩ := eventStep_idle limits state op call
    rw [idle]
    exact ⟨le_refl _, by simp⟩
  | some entry =>
    have bound := bounded entry call
    -- A local call has incremented the clock before it handles its event.
    have ready : state.clock ≤ entry.2.clock := by
      cases op with
      | receive received =>
        cases call
        exact le_refl _
      | userEvent name payload coalesce =>
        simp only [handled] at call
        split at call
        · cases call
        · rename_i msg raw stamped
          cases call
          have message := stampUserEvent_message limits _ name payload coalesce _ stamped
          simp only at message bound
          rw [message] at bound
          exact le_of_lt (increment_passes state.clock bound)
    rw [(eventStep_handled limits state entry.2 op entry.1 call).2,
      (handleUserEvent_frame entry.1 entry.2).1]
    refine ⟨le_trans ready (witness_grows _ _ bound), ?_⟩
    rintro other ⟨rfl⟩
    exact witness_passes _ _ bound

theorem run_clock (start : EventState) (ops : List EventOp)
    (bounded : ∀ call ∈ calls limits start ops, call.1.ltime < u64Max) :
    start.clock ≤ (run (eventStep limits) start ops).clock ∧
    ∀ call ∈ calls limits start ops, call.1.ltime < (run (eventStep limits) start ops).clock := by
  induction ops generalizing start with
  | nil => exact ⟨le_refl _, by simp [calls, visits]⟩
  | cons op rest ih =>
    have split : ∀ call, call ∈ calls limits start (op :: rest) ↔
        call ∈ handled limits start op ∨
          call ∈ calls limits (eventStep limits start op).1 rest := by
      intro call
      cases here : handled limits start op <;> simp [calls, visits, here, eq_comm]
    have now := eventStep_clock limits start op
      (fun call member => bounded call ((split call).mpr (Or.inl member)))
    have later := ih (eventStep limits start op).1
      (fun call member => bounded call ((split call).mpr (Or.inr member)))
    refine ⟨le_trans now.1 later.1, ?_⟩
    intro call member
    rcases (split call).mp member with first | rest
    · exact lt_of_lt_of_le (now.2 call first) later.1
    · exact later.2 call rest

theorem calls_append (start : EventState) (first second : List EventOp) :
    calls limits start (first ++ second) =
      calls limits start first ++
        calls limits (run (eventStep limits) start first) second := by
  simp [calls, visits_append]

theorem inWindow_increment (clock count : LamportTime) (positive : count ≠ 0) :
    InWindow (increment clock) count clock := by
  rw [InWindow, increment]
  grind

theorem inWindow_stamped (clock count : LamportTime) (bound : clock < u64Max)
    (positive : count ≠ 0) :
    InWindow (witness (increment clock) clock) count clock := by
  rw [witness_idle _ _ (increment_passes clock bound)]
  exact inWindow_increment clock count positive

theorem userEvent_handled (name : String) (payload : Bytes) (coalesce : Bool)
    (outcome : EventOutcome)
    (accepted : (eventStep limits state (.userEvent name payload coalesce)).2 = .ok outcome) :
    handled limits state (.userEvent name payload coalesce) =
      some (⟨state.clock, name, payload, coalesce⟩,
        { state with clock := increment state.clock }) := by
  cases stamped : stampUserEvent limits state.clock name payload coalesce with
  | error reason =>
    simp only [eventStep, userEvent] at accepted
    rw [stamped] at accepted
    cases accepted
  | ok result =>
    have message := stampUserEvent_message limits _ name payload coalesce result stamped
    simp [handled, stamped, message]

theorem userEvent_firstCall (start : EventState) (before : List EventOp) (name : String)
    (payload : Bytes) (coalesce : Bool) (after : List EventOp) (outcome : EventOutcome)
    (positive : size start.core.buffer ≠ 0) (ready : start.core.minTime ≤ start.clock)
    (bounded : ∀ call ∈ calls limits start
      (before ++ EventOp.userEvent name payload coalesce :: after), call.1.ltime < u64Max)
    (accepted : (eventStep limits (run (eventStep limits) start before)
      (.userEvent name payload coalesce)).2 = .ok outcome) :
    FirstCall limits start before (.userEvent name payload coalesce)
      ⟨(run (eventStep limits) start before).clock, name, payload, coalesce⟩ := by
  let state := run (eventStep limits) start before
  have sized := run_size limits start before
  have clocks := run_clock limits start before (by
    intro call member
    exact bounded call (by rw [calls_append]; exact List.mem_append_left _ member))
  have call := userEvent_handled limits state name payload coalesce outcome accepted
  have bound : state.clock < u64Max := by
    refine bounded (⟨state.clock, name, payload, coalesce⟩,
      { state with clock := increment state.clock }) ?_
    rw [calls_append]
    exact List.mem_append_right _ (List.mem_filterMap.mpr ⟨_, List.mem_cons_self, call⟩)
  refine ⟨⟨_, call, ?_, ?_⟩, ?_⟩
  · -- The minimum time stays and the clock has only grown.
    simp only [state, sized.2]
    exact le_trans ready clocks.1
  · refine inWindow_stamped state.clock _ bound ?_
    simp only [state, sized.1]
    exact positive
  · -- Every earlier call is behind the clock value that is stamped now.
    intro earlier member same
    have behind := clocks.2 earlier member
    rw [triple, triple, Prod.mk.injEq] at same
    exact absurd same.1 (ne_of_lt behind)

theorem userEvents_exactlyOnce_iff (clock minTime : LamportTime) (count : Nat)
    (fits : count < 2 ^ 64) (positive : 1 ≤ count) (ops : List EventOp)
    (bounded : ∀ call ∈ calls limits (startEvents clock minTime count fits) ops,
      call.1.ltime < u64Max) :
    ExactlyOnce limits (startEvents clock minTime count fits) ops ↔
      NoRevisit limits (startEvents clock minTime count fits) ops := by
  have slots := size_start clock minTime count fits positive
  have blank := slotEvents_start clock minTime count fits
  constructor
  · intro exact before op after msg whole call
    exact (delivers_iff limits _ before op msg slots blank call).mp
      (exact.firstSent before op after msg whole call)
  · intro unvisited
    have firstSent : ∀ before op after msg, ops = before ++ op :: after →
        FirstCall limits (startEvents clock minTime count fits) before op msg →
        Delivers limits (run (eventStep limits) (startEvents clock minTime count fits) before)
          op msg := by
      intro before op after msg whole call
      exact (delivers_iff limits _ before op msg slots blank call).mpr
        (unvisited before op after msg whole call)
    refine ⟨sent_nodup limits _ ops slots, firstSent, ?_⟩
    intro ready before name payload coalesce after outcome whole accepted
    subst ops
    have call := userEvent_firstCall limits _ before name payload coalesce after outcome slots
      ready bounded accepted
    obtain ⟨delivered, answered, result⟩ := firstSent before _ after _ rfl call
    rw [accepted] at answered
    cases answered
    exact result

theorem userEvents_exactlyOnce_two_slots :
    let start := startEvents 1 0 2 (by decide)
    let ops := [.userEvent "deploy" [] false, .receive ⟨5, "deploy", [], true⟩]
    (∀ call ∈ calls roomy start ops, call.1.ltime < u64Max) ∧
    (ExactlyOnce roomy start ops ↔ NoRevisit roomy start ops) :=
  ⟨by decide, userEvents_exactlyOnce_iff roomy 1 0 2 (by decide) (by decide) _ (by decide)⟩

/-- Two calls with the same name and payload on a buffer of one slot: both
return `Ok`, the second is not delivered. -/
theorem userEvents_repeated_lost :
    ¬ ExactlyOnce roomy (startEvents 1 0 1 (by decide))
      [.userEvent "deploy" [] false, .userEvent "deploy" [] false] := by
  intro exact
  have second := exact.localSent (by decide) [.userEvent "deploy" [] false] "deploy" [] false []
    ⟨_, [], some false⟩ rfl rfl
  exact absurd second.2 (by decide)

end Serf.EventDelivery
