import Serf.EventDelivery
import Serf.HeldTime
import Serf.PushPull
import Serf.QueryDedup
import Serf.Sections

/-!
Every time that a node has stored lies behind the clock it belongs to, however
the sections of its calls are interleaved. A thread witnesses a time before it
stores it, and no section turns a clock back, so at the moment of storing the
clock is past the time whatever ran in between. A request that nothing
interrupts is then never older than what the node already holds.
-/

namespace Serf.ClockDominance

open Library.Collections Library.Machine Library.Window Library.Slots
open LamportClock MemberTable TableInvariant EventHandler QueryHandler HeldTime Serf.Core PushPull
open Sections

variable {Id Address : Type} [DecidableEq Id]

/-- The event store of a ring with `count` slots lies behind its clock. -/
structure EventsBehind (count : Nat) (state : EventState) : Prop where
  sized : size state.core.buffer = UInt64.ofNat count
  slots : ∀ (i : Nat) (seen : UserEvents), state.core.buffer.slots[i]? = some (some seen) →
    seen.ltime < state.clock
  minTime : state.core.minTime ≤ state.clock

structure QueriesBehind (count : Nat) (state : QueryState) : Prop where
  sized : size state.core.buffer = UInt64.ofNat count
  dated : QueryDedup.Dated state
  minTime : state.core.minTime ≤ state.clock

/-- The invariant of a node. The clock is positive, so the default status time
of zero lies behind it too. -/
structure Sound (startup : Startup) (node : SerfCore Id Address) : Prop where
  consistent : Consistent node.members
  positive : 0 < node.clock
  table : Timed (fun time => time < node.clock) node.members
  events : EventsBehind startup.eventBufferSize node.events
  queries : QueriesBehind startup.queryBufferSize node.queries

structure Moves (startup : Startup) (before after : SerfCore Id Address) : Prop where
  sound : Sound startup after
  clock : before.clock ≤ after.clock
  eventClock : before.events.clock ≤ after.events.clock
  queryClock : before.queries.clock ≤ after.queries.clock

theorem eventsBehind_raise (count : Nat) (state : EventState) (clock : LamportTime)
    (grows : state.clock ≤ clock) (behind : EventsBehind count state) :
    EventsBehind count { state with clock := clock } where
  sized := behind.sized
  slots i seen here := lt_of_lt_of_le (behind.slots i seen here) grows
  minTime := le_trans behind.minTime grows

theorem queriesBehind_raise (count : Nat) (state : QueryState) (clock : LamportTime)
    (grows : state.clock ≤ clock) (behind : QueriesBehind count state) :
    QueriesBehind count { state with clock := clock } where
  sized := behind.sized
  dated :=
    { placed := behind.dated.placed
      behind := fun i seen here => lt_of_lt_of_le (behind.dated.behind i seen here) grows }
  minTime := le_trans behind.minTime grows

def SlotSource (core : EventCore) (msg : UserEventMessage) (seen : UserEvents) : Prop :=
  seen.ltime = msg.ltime ∨
    ∃ (j : Nat) (before : UserEvents), core.buffer.slots[j]? = some (some before) ∧
      seen.ltime = before.ltime

theorem slotSource_kept (core : EventCore) (msg : UserEventMessage) (i : Nat)
    (seen : UserEvents) (here : core.buffer.slots[i]? = some (some seen)) :
    SlotSource core msg seen :=
  Or.inr ⟨i, seen, here, rfl⟩

theorem slotSource_written (core : EventCore) (msg : UserEventMessage) (slot : UserEvents)
    (source : SlotSource core msg slot) (i : Nat) (seen : UserEvents)
    (here : (writeSlot core.buffer msg.ltime slot).slots[i]? = some (some seen)) :
    SlotSource core msg seen := by
  simp only [writeSlot, List.getElem?_set] at here
  split at here
  · split at here
    · cases here
      exact source
    · cases here
  · exact slotSource_kept core msg i seen here

theorem recordUserEvent_slots (curTime : LamportTime) (msg : UserEventMessage)
    (core after : EventCore) (accepted : Bool)
    (result : recordUserEvent curTime msg core = some (after, accepted)) :
    after.minTime = core.minTime ∧ size after.buffer = size core.buffer ∧
    ∀ (i : Nat) (seen : UserEvents), after.buffer.slots[i]? = some (some seen) →
      SlotSource core msg seen := by
  rcases EventDelivery.recordUserEvent_writes curTime msg core after accepted result with
    rfl | ⟨slot, rfl, time | ⟨seen, found, time⟩⟩
  · exact ⟨rfl, rfl, slotSource_kept after msg⟩
  · exact ⟨rfl, size_writeSlot _ _ _, slotSource_written core msg slot (Or.inl time)⟩
  · -- An event that shares a slot leaves the time of the slot as it is.
    have source : SlotSource core msg slot :=
      Or.inr ⟨_, seen, readSlot_source core.buffer msg.ltime seen found, time⟩
    exact ⟨rfl, size_writeSlot _ _ _, slotSource_written core msg slot source⟩

theorem handleUserEvent_behind (count : Nat) (msg : UserEventMessage) (state : EventState)
    (bound : msg.ltime < u64Max) (behind : EventsBehind count state) :
    EventsBehind count (handleUserEvent msg state).state ∧
    state.clock ≤ (handleUserEvent msg state).state.clock := by
  have grows := witness_grows state.clock msg.ltime bound
  have passed := witness_passes state.clock msg.ltime bound
  have raised := eventsBehind_raise count state _ grows behind
  simp only [handleUserEvent]
  split
  · -- The index of a ring without slots panics after the clock was witnessed.
    exact ⟨raised, grows⟩
  · rename_i core accepted result
    obtain ⟨sameMin, sameSize, slots⟩ :=
      recordUserEvent_slots _ msg state.core core accepted result
    refine ⟨⟨sameSize.trans behind.sized, ?_, ?_⟩, grows⟩
    · intro i seen here
      rcases slots i seen here with new | ⟨j, before, there, same⟩
      · rw [new]
        exact passed
      · rw [same]
        exact raised.slots j before there
    · rw [sameMin]
      exact raised.minTime

theorem handleQuery_behind (count : Nat) (env : QueryEnvironment Id Address)
    (ty : Option (InternalQueryEvent Id)) (q : QueryInput Id Address) (state : QueryState)
    (bound : q.ltime < u64Max) (behind : QueriesBehind count state) :
    QueriesBehind count (handleQuery env ty q state).state ∧
    state.clock ≤ (handleQuery env ty q state).state.clock := by
  have step := (QueryDedup.handleQuery_recording env ty q state bound).1
  obtain ⟨clock, sized, minTime⟩ := QueryDedup.recording_frame _ _ _ _ _ step
  have grows := witness_grows state.clock q.ltime bound
  rw [← clock] at grows
  refine ⟨⟨sized.trans behind.sized, ?_, ?_⟩, grows⟩
  · exact QueryDedup.recording_dated _ _ _ _ _ bound behind.dated step
  · rw [minTime]
    exact le_trans behind.minTime grows

section Moving

variable (env : NodeEnvironment Id Address) (startup : Startup) (node : SerfCore Id Address)

theorem moves_refl (sound : Sound startup node) : Moves startup node node :=
  ⟨sound, le_refl _, le_refl _, le_refl _⟩

theorem moves_clock (clock : LamportTime) (grows : node.clock ≤ clock)
    (sound : Sound startup node) : Moves startup node { node with clock := clock } := by
  refine ⟨⟨sound.consistent, ?_, ?_, sound.events, sound.queries⟩, grows, le_refl _, le_refl _⟩
  · exact lt_of_lt_of_le sound.positive grows
  · exact timed_mono _ node.members _ (fun _ behind => lt_of_lt_of_le behind grows) sound.table

theorem moves_onTable (outcome : Outcome Id Address) (sound : Sound startup node)
    (consistent : Consistent outcome.members)
    (table : Timed (fun time => time < node.clock) outcome.members) :
    Moves startup node (onTable outcome node).1 :=
  ⟨⟨consistent, sound.positive, table, sound.events, sound.queries⟩,
    le_refl _, le_refl _, le_refl _⟩

theorem moves_events (state : EventState) (sound : Sound startup node)
    (behind : EventsBehind startup.eventBufferSize state)
    (grows : node.events.clock ≤ state.clock) :
    Moves startup node { node with events := state } :=
  ⟨⟨sound.consistent, sound.positive, sound.table, behind, sound.queries⟩,
    le_refl _, grows, le_refl _⟩

theorem moves_queries (state : QueryState) (sound : Sound startup node)
    (behind : QueriesBehind startup.queryBufferSize state)
    (grows : node.queries.clock ≤ state.clock) :
    Moves startup node { node with queries := state } :=
  ⟨⟨sound.consistent, sound.positive, sound.table, sound.events, behind⟩,
    le_refl _, le_refl _, grows⟩

theorem moves_flags (flag : Bool) (state : SerfState) (sound : Sound startup node) :
    Moves startup node { node with eventJoinIgnore := flag, state := state } :=
  ⟨⟨sound.consistent, sound.positive, sound.table, sound.events, sound.queries⟩,
    le_refl _, le_refl _, le_refl _⟩

omit [DecidableEq Id] in
theorem registerQueryResponse_behind (count numNodes : Nat) (q : QueryMessage Id Address)
    (state : QueryState) (behind : QueriesBehind count state) :
    QueriesBehind count (registerQueryResponse numNodes q state) where
  sized := behind.sized
  dated := ⟨behind.dated.placed, behind.dated.behind⟩
  minTime := behind.minTime

end Moving

def ClocksBelow (node : SerfCore Id Address) : Prop :=
  node.clock < u64Max ∧ node.events.clock < u64Max ∧ node.queries.clock < u64Max

instance (node : SerfCore Id Address) : Decidable (ClocksBelow node) :=
  inferInstanceAs (Decidable (_ ∧ _))

def NoWrap (node : SerfCore Id Address) : Section Id Address → Prop
  | .increment => node.clock < u64Max
  | .incrementEvent => node.events.clock < u64Max
  | _ => True

omit [DecidableEq Id] in
theorem clocksBelow_noWrap (node : SerfCore Id Address) (clocks : ClocksBelow node)
    (first : Section Id Address) : NoWrap node first := by
  cases first with
  | increment => exact clocks.1
  | incrementEvent => exact clocks.2.1
  | _ => trivial

structure Known where
  clock : LamportTime
  event : LamportTime
  query : LamportTime

def knownAt (node : SerfCore Id Address) : Known :=
  ⟨node.clock, node.events.clock, node.queries.clock⟩

structure Behind (first second : Known) : Prop where
  clock : first.clock ≤ second.clock
  event : first.event ≤ second.event
  query : first.query ≤ second.query

/-- What a section needs to be known when it runs: a time is passed before it is
stored, and old events are ignored up to a time that is reached. -/
def Licensed (known : Known) : Section Id Address → Prop
  | .witness ltime => ltime < u64Max
  | .witnessEvent ltime => ltime < u64Max
  | .witnessQuery ltime => ltime < u64Max
  | .table op => ∀ time ∈ tableTimes op, time < known.clock
  | .recordEvent msg => msg.ltime < known.event
  | .recordQuery q _ => q.ltime < known.query
  | .raiseMinTime eventLtime => eventLtime ≤ known.event
  | _ => True

def learn (known : Known) : Section Id Address → Known
  | .witness ltime => { known with clock := max known.clock (ltime + 1) }
  | .witnessEvent ltime => { known with event := max known.event (ltime + 1) }
  | .witnessQuery ltime => { known with query := max known.query (ltime + 1) }
  | _ => known

/-- Every section of the thread is licensed by what is known before it and by
the sections ahead of it. -/
def Covered (known : Known) : List (Section Id Address) → Prop
  | [] => True
  | first :: rest => Licensed known first ∧ Covered (learn known first) rest

section Covering

omit [DecidableEq Id]

variable (known later : Known)

theorem licensed_mono (behind : Behind known later) (first : Section Id Address)
    (licensed : Licensed known first) : Licensed later first := by
  cases first with
  | table op => exact fun time member => lt_of_lt_of_le (licensed time member) behind.clock
  | recordEvent msg => exact lt_of_lt_of_le licensed behind.event
  | recordQuery q ty => exact lt_of_lt_of_le licensed behind.query
  | raiseMinTime eventLtime => exact le_trans licensed behind.event
  | _ => exact licensed

theorem learn_mono (behind : Behind known later) (first : Section Id Address) :
    Behind (learn known first) (learn later first) := by
  cases first with
  | witness ltime => exact ⟨max_le_max_right _ behind.clock, behind.event, behind.query⟩
  | witnessEvent ltime => exact ⟨behind.clock, max_le_max_right _ behind.event, behind.query⟩
  | witnessQuery ltime => exact ⟨behind.clock, behind.event, max_le_max_right _ behind.query⟩
  | _ => exact behind

theorem learn_grows (first : Section Id Address) : Behind known (learn known first) := by
  cases first with
  | witness ltime => exact ⟨le_max_left _ _, le_refl _, le_refl _⟩
  | witnessEvent ltime => exact ⟨le_refl _, le_max_left _ _, le_refl _⟩
  | witnessQuery ltime => exact ⟨le_refl _, le_refl _, le_max_left _ _⟩
  | _ => exact ⟨le_refl _, le_refl _, le_refl _⟩

theorem behind_trans (first second third : Known) (low : Behind first second)
    (high : Behind second third) : Behind first third :=
  ⟨le_trans low.clock high.clock, le_trans low.event high.event, le_trans low.query high.query⟩

theorem covered_mono (behind : Behind known later) (thread : List (Section Id Address))
    (covered : Covered known thread) : Covered later thread := by
  induction thread generalizing known later with
  | nil => trivial
  | cons first rest ih =>
    constructor
    · exact licensed_mono known later behind first covered.1
    · exact ih _ _ (learn_mono known later behind first) covered.2

theorem covered_append (first second : List (Section Id Address)) (covered : Covered known first)
    (after : Covered (first.foldl learn known) second) : Covered known (first ++ second) := by
  induction first generalizing known with
  | nil => exact after
  | cons head rest ih => exact ⟨covered.1, ih _ covered.2 after⟩

theorem foldl_learn_grows (thread : List (Section Id Address)) :
    Behind known (thread.foldl learn known) := by
  induction thread generalizing known with
  | nil => exact ⟨le_refl _, le_refl _, le_refl _⟩
  | cons first rest ih => exact behind_trans _ _ _ (learn_grows known first) (ih _)

theorem covered_flatMap {Op : Type} (known : Known) (ops : List Op)
    (sections : Op → List (Section Id Address))
    (each : ∀ op ∈ ops, ∀ later, Behind known later → Covered later (sections op)) :
    Covered known (ops.flatMap sections) := by
  induction ops generalizing known with
  | nil => trivial
  | cons op rest ih =>
    rw [List.flatMap_cons]
    apply covered_append
    · exact each op List.mem_cons_self known ⟨le_refl _, le_refl _, le_refl _⟩
    · apply ih
      intro other member later behind
      exact each other (List.mem_cons_of_mem op member) later
        (behind_trans _ _ _ (foldl_learn_grows known (sections op)) behind)

end Covering

section Steps

variable (env : NodeEnvironment Id Address) (startup : Startup) (node : SerfCore Id Address)

theorem sectionStep_moves (first : Section Id Address) (noWrap : NoWrap node first)
    (licensed : Licensed (knownAt node) first) (sound : Sound startup node) :
    Moves startup node (sectionStep env node first).1 := by
  cases first with
  | witness ltime => exact moves_clock startup node _ (witness_grows _ _ licensed) sound
  | witnessEvent ltime =>
    have grows := witness_grows node.events.clock ltime licensed
    exact moves_events startup node _ sound (eventsBehind_raise _ _ _ grows sound.events) grows
  | witnessQuery ltime =>
    have grows := witness_grows node.queries.clock ltime licensed
    exact moves_queries startup node _ sound (queriesBehind_raise _ _ _ grows sound.queries)
      grows
  | increment =>
    exact moves_clock startup node _ (le_of_lt (increment_passes node.clock noWrap)) sound
  | incrementEvent =>
    have grows := le_of_lt (increment_passes node.events.clock noWrap)
    exact moves_events startup node _ sound (eventsBehind_raise _ _ _ grows sound.events) grows
  | table op =>
    apply moves_onTable startup node _ sound
    · exact applyOp_consistent env.membership node.members op sound.consistent
    · exact applyOp_timed _ node.members env.membership op sound.positive licensed sound.table
  | recordEvent msg =>
    -- The time is passed already, so witnessing it again would change nothing.
    have passed : msg.ltime < node.events.clock := licensed
    have handled := recordEvent_handles node msg
    rw [witness_idle _ _ passed] at handled
    have behind := handleUserEvent_behind _ msg node.events (by grind) sound.events
    simp only [sectionStep]
    rw [handled]
    exact moves_events startup node _ sound behind.1 behind.2
  | registerResponse numNodes q =>
    exact moves_queries startup node _ sound
      (registerQueryResponse_behind _ numNodes q node.queries sound.queries) (le_refl _)
  | recordQuery q ty =>
    have passed : q.ltime < node.queries.clock := licensed
    have handled := recordQuery_handles env node q ty
    rw [witness_idle _ _ passed] at handled
    have behind := handleQuery_behind _ env.query ty q node.queries (by grind) sound.queries
    simp only [sectionStep]
    rw [handled]
    exact moves_queries startup node _ sound behind.1 behind.2
  | raiseMinTime eventLtime =>
    simp only [sectionStep, raiseMinTime]
    split
    · apply moves_events startup node _ sound
      · exact ⟨sound.events.sized, sound.events.slots, licensed⟩
      · exact le_refl _
    · exact moves_refl startup node sound
  | setEventJoinIgnore flag => exact moves_flags startup node flag node.state sound
  | enterLeaving => exact moves_flags startup node node.eventJoinIgnore _ sound
  | enterLeft =>
    simp only [sectionStep, finishLeave]
    split
    · exact moves_refl startup node sound
    · exact moves_flags startup node node.eventJoinIgnore .left sound
  | shutdown => exact moves_flags startup node node.eventJoinIgnore .shutdown sound

theorem sectionStep_learns (first : Section Id Address) (rest : List (Section Id Address))
    (licensed : Licensed (knownAt node) first)
    (moves : Moves startup node (sectionStep env node first).1)
    (covered : Covered (learn (knownAt node) first) rest) :
    Covered (knownAt (sectionStep env node first).1) rest := by
  have passes : ∀ clock ltime : LamportTime, ltime < u64Max →
      max clock (ltime + 1) ≤ LamportClock.witness clock ltime := by
    intro clock ltime bound
    have passed := witness_passes clock ltime bound
    exact max_le (witness_grows clock ltime bound) (by grind)
  refine covered_mono _ _ ?_ rest covered
  cases first with
  | witness ltime => exact ⟨passes _ _ licensed, moves.eventClock, moves.queryClock⟩
  | witnessEvent ltime => exact ⟨moves.clock, passes _ _ licensed, moves.queryClock⟩
  | witnessQuery ltime => exact ⟨moves.clock, moves.eventClock, passes _ _ licensed⟩
  | _ => exact ⟨moves.clock, moves.eventClock, moves.queryClock⟩

end Steps

variable (env : NodeEnvironment Id Address) (startup : Startup)

theorem run_sound (threads : List (List (Section Id Address)))
    (sections : List (Section Id Address)) (order : Interleaves threads sections)
    (start : SerfCore Id Address)
    (clocks : ∀ visit ∈ visits (sectionStep env) start sections, NoWrap visit.1 visit.2)
    (covered : ∀ thread ∈ threads, Covered (knownAt start) thread) (sound : Sound startup start) :
    Sound startup (run (sectionStep env) start sections) := by
  apply run_interleaved (sectionStep env) NoWrap (Sound startup)
    (fun node thread => Covered (knownAt node) thread)
  · intro node first rest noWrap ready valid
    exact (sectionStep_moves env startup node first noWrap ready.1 valid).sound
  · -- The thread that runs learns what its section witnesses.
    intro node first rest noWrap ready valid
    have moves := sectionStep_moves env startup node first noWrap ready.1 valid
    exact sectionStep_learns env startup node first rest ready.1 moves ready.2
  · -- A thread that waits loses nothing, since no clock goes back.
    intro node first rest thread noWrap ready valid waiting
    have moves := sectionStep_moves env startup node first noWrap ready.1 valid
    exact covered_mono _ _ ⟨moves.clock, moves.eventClock, moves.queryClock⟩ thread waiting
  · exact order
  · exact clocks
  · exact covered
  · exact sound

def Reached (known : Known) : NodeOp Id Address → Prop
  | .ignoreOldEvents eventLtime => eventLtime ≤ known.event
  | _ => True

section Threads

variable (env : NodeEnvironment Id Address) (reads : Reads) (known : Known)

theorem learned_passes (clock ltime : LamportTime) (bound : ltime < u64Max) :
    ltime < max clock (ltime + 1) :=
  lt_of_lt_of_le (by grind) (le_max_right _ _)

omit [DecidableEq Id] in
theorem leaveThread_covered (now : Epoch) (msg : LeaveMessage Id) (bound : msg.ltime < u64Max) :
    Covered known (leaveThread reads now msg : List (Section Id Address)) := by
  refine ⟨bound, ?_, trivial⟩
  intro time member
  rw [List.mem_singleton.mp member]
  exact learned_passes _ _ bound

omit [DecidableEq Id] in
theorem joinThread_covered (now : Epoch) (ltime : LamportTime) (bound : ltime < u64Max) :
    Covered known (joinThread env now ltime) := by
  refine ⟨bound, bound, ?_, trivial⟩
  intro time member
  rw [List.mem_singleton.mp member]
  exact learned_passes _ _ bound

omit [DecidableEq Id] in
theorem witnessBeforeThread_covered (make : LamportTime → Section Id Address)
    (licensed : ∀ known ltime, ltime < u64Max → Licensed known (make ltime)) (ltime : LamportTime) :
    Covered known (witnessBeforeThread make ltime) := by
  rw [witnessBeforeThread]
  split
  · exact ⟨licensed _ _ (by grind), trivial⟩
  · trivial

omit [DecidableEq Id] in
theorem thread_covered (op : NodeOp Id Address) (stamped : reads.ltime < u64Max)
    (bounded : ∀ time ∈ stamps op, time < u64Max) (reached : Reached known op) :
    Covered known (thread env reads op) := by
  cases op with
  | nodeJoin n => exact ⟨by simp [Licensed, tableTimes], trivial⟩
  | nodeLeave now n => exact ⟨by simp [Licensed, tableTimes], trivial⟩
  | nodeUpdate n => exact ⟨by simp [Licensed, tableTimes], trivial⟩
  | reapFailed now timeout => exact ⟨by simp [Licensed, tableTimes], trivial⟩
  | reapLeft now timeout => exact ⟨by simp [Licensed, tableTimes], trivial⟩
  | reapIntents now timeout => exact ⟨by simp [Licensed, tableTimes], trivial⟩
  | joinIntent now msg =>
    have bound := bounded msg.ltime List.mem_cons_self
    refine ⟨bound, ?_, trivial⟩
    intro time member
    rw [List.mem_singleton.mp member]
    exact learned_passes _ _ bound
  | leaveIntent now msg =>
    exact leaveThread_covered reads known now msg (bounded _ List.mem_cons_self)
  | receiveUserEvent msg =>
    have bound := bounded msg.ltime List.mem_cons_self
    exact ⟨bound, learned_passes _ _ bound, trivial⟩
  | receiveQuery q ty =>
    have bound := bounded q.ltime List.mem_cons_self
    exact ⟨bound, learned_passes _ _ bound, trivial⟩
  | witnessRemote ltime eventLtime queryLtime =>
    apply covered_append
    · apply covered_append
      · exact witnessBeforeThread_covered _ .witness (fun _ _ bound => bound) ltime
      · exact witnessBeforeThread_covered _ .witnessEvent (fun _ _ bound => bound) eventLtime
    · exact witnessBeforeThread_covered _ .witnessQuery (fun _ _ bound => bound) queryLtime
  | ignoreOldEvents eventLtime =>
    simp only [thread]
    split
    · exact ⟨reached, trivial⟩
    · trivial
  | broadcastJoin now => exact joinThread_covered env known now reads.ltime stamped
  | refute now ltime =>
    exact joinThread_covered env known now ltime (bounded _ List.mem_cons_self)
  | beginLeave now => exact ⟨trivial, trivial, leaveThread_covered reads known now _ stamped⟩
  | forceLeave now id prune => exact leaveThread_covered reads known now _ stamped
  | callUserEvent name payload coalesce =>
    simp only [thread, userEventThread]
    cases result : stampUserEvent env.limits reads.ltime name payload coalesce with
    | error reason => trivial
    | ok pair =>
      have message := EventDelivery.stampUserEvent_message _ _ _ _ _ _ result
      have bound : pair.1.ltime < u64Max := by
        rw [message]
        exact stamped
      exact ⟨trivial, bound, learned_passes _ _ bound, trivial⟩
  | callQuery draw name payload params ty =>
    simp only [thread, queryThread]
    split
    · trivial
    · split
      · trivial
      · exact ⟨trivial, stamped, learned_passes _ _ stamped, trivial⟩
  | _ => exact ⟨trivial, trivial⟩

end Threads

section Uninterrupted

variable (env : NodeEnvironment Id Address) (startup : Startup) (node : SerfCore Id Address)

theorem uninterrupted_noWrap (op : NodeOp Id Address) (clocks : ClocksBelow node) :
    ∀ visit ∈ visits (sectionStep env) node (uninterrupted env node op),
      NoWrap visit.1 visit.2 := by
  cases op with
  | beginLeave now =>
    simp only [uninterrupted]
    split
    · simp [thread, leaveThread, visits, NoWrap, sectionStep, clocks.1]
    · simp [visits]
  | callUserEvent name payload coalesce =>
    simp only [uninterrupted, thread, userEventThread]
    split
    · simp [visits]
    · simp [visits, NoWrap, clocks.2.1]
  | callQuery draw name payload params ty =>
    simp only [uninterrupted, thread, queryThread]
    split
    · simp [visits]
    · split
      · simp [visits]
      · simp [visits, NoWrap]
  | _ =>
    rintro ⟨reached, first⟩ member
    have inside := visits_ops _ _ _ _ member
    cases first with
    | increment =>
      simp [uninterrupted, thread, leaveThread, joinThread, witnessBeforeThread] at inside
    | incrementEvent =>
      simp [uninterrupted, thread, leaveThread, joinThread, witnessBeforeThread] at inside
    | _ => trivial

theorem nodeStep_sound (op : NodeOp Id Address) (clocks : ClocksBelow node)
    (bounded : ∀ time ∈ stamps op, time < u64Max) (reached : Reached (knownAt node) op)
    (sound : Sound startup node) : Sound startup (nodeStep env node op).1 := by
  have stamped : (readsAt node op).ltime < u64Max := by
    cases op with
    | callUserEvent name payload coalesce => exact clocks.2.1
    | callQuery draw name payload params ty => exact clocks.2.2
    | _ => exact clocks.1
  have covered : Covered (knownAt node) (uninterrupted env node op) := by
    have whole := thread_covered env (readsAt node op) (knownAt node) op stamped bounded reached
    cases op with
    | beginLeave now =>
      simp only [uninterrupted]
      split
      · exact whole
      · trivial
    | _ => exact whole
  rw [nodeStep_uninterrupted]
  apply run_sound env startup _ _ (interleaves_single _) node
    (uninterrupted_noWrap env node op clocks)
  · intro thread member
    rw [List.mem_singleton.mp member]
    exact covered
  · exact sound

end Uninterrupted

/-- A call or a whole merge, with what it reads on its way. -/
structure Call (Id Address : Type) where
  reads : Reads
  activity : Activity Id Address

def Call.thread (env : NodeEnvironment Id Address) (call : Call Id Address) :
    List (Section Id Address) :=
  call.activity.ops.flatMap (Sections.thread env call.reads)

/-- What a node may be given to do: received times lie below `u64::MAX - 1`, the
stamped time and the time of a refutation are values that a clock had, and the
inner operations of a merge occur in a merge only. -/
def Legal (call : Call Id Address) : Prop :=
  call.reads.ltime < u64Max ∧
    match call.activity with
    | .call (.witnessRemote _ _ _) => False
    | .call (.ignoreOldEvents _) => False
    | .call (.refute _ ltime) => ltime < u64Max
    | .call op => ∀ time ∈ stamps op, time < u64Max - 1
    | .merge _ _ remote => ∀ time ∈ remoteTimes remote, time < u64Max - 1

omit [DecidableEq Id] in
theorem witnessRemote_learns (reads : Reads) (known : Known)
    (ltime eventLtime queryLtime : LamportTime) :
    eventLtime ≤ ((thread env reads (.witnessRemote ltime eventLtime queryLtime)).foldl learn
      known).event := by
  have learned : ∀ known : Known, eventLtime ≤
      ((witnessBeforeThread .witnessEvent eventLtime : List (Section Id Address)).foldl learn
        known).event := by
    intro known
    rw [witnessBeforeThread]
    split
    · exact le_trans (by grind) (le_max_right known.event (eventLtime - 1 + 1))
    · grind
  simp only [thread, List.foldl_append]
  exact le_trans (learned _) (foldl_learn_grows _ _).event

theorem merge_covered (reads : Reads) (known : Known) (now : Id → Epoch) (isJoin : Bool)
    (remote : RemoteState Id) (stamped : reads.ltime < u64Max)
    (legal : ∀ time ∈ remoteTimes remote, time < u64Max - 1) :
    Covered known ((mergeRemoteState now isJoin remote).flatMap (thread env reads)) := by
  have bounded : ∀ op : NodeOp Id Address, op ∈ mergeRemoteState now isJoin remote →
      ∀ time ∈ stamps op, time < u64Max := merge_stamps now isJoin remote legal
  cases remote with
  | unreadable => trivial
  | otherMessage => trivial
  | badCollections ltime eventLtime queryLtime =>
    apply covered_flatMap
    intro op member later _
    have inside := bounded op member
    rw [mergeRemoteState, List.mem_singleton] at member
    subst op
    exact thread_covered env reads later _ stamped inside trivial
  | pushPull pp =>
    rw [mergeRemoteState] at bounded ⊢
    rw [List.flatMap_cons]
    apply covered_append
    · exact thread_covered env reads known _ stamped (bounded _ List.mem_cons_self) trivial
    · apply covered_flatMap
      intro op member later behind
      have inside := List.mem_cons_of_mem
        (NodeOp.witnessRemote pp.ltime pp.eventLtime pp.queryLtime) member
      apply thread_covered env reads later op stamped (bounded op inside)
      rcases mergeRemoteState_op now isJoin pp op inside with
        rfl | ⟨msg, _, rfl⟩ | ⟨msg, _, rfl⟩ | rfl | ⟨msg, _, rfl⟩
      · trivial
      · trivial
      · trivial
      · exact le_trans (witnessRemote_learns env reads known _ _ _) behind.event
      · trivial

theorem call_covered (known : Known) (call : Call Id Address) (legal : Legal call) :
    Covered known (call.thread env) := by
  obtain ⟨stamped, legal⟩ := legal
  rw [Call.thread]
  cases activity : call.activity with
  | merge now isJoin remote =>
    rw [activity] at legal
    exact merge_covered env call.reads known now isJoin remote stamped legal
  | call op =>
    rw [activity] at legal
    have single : (∀ known, Reached known op) ∧ ∀ time ∈ stamps op, time < u64Max := by
      cases op with
      | witnessRemote ltime eventLtime queryLtime => exact absurd legal id
      | ignoreOldEvents eventLtime => exact absurd legal id
      | refute now ltime =>
        refine ⟨fun _ => trivial, ?_⟩
        intro time member
        rw [List.mem_singleton.mp member]
        exact legal
      | _ =>
        refine ⟨fun _ => trivial, ?_⟩
        intro time inside
        have small : time < u64Max - 1 := legal time inside
        grind
    apply covered_flatMap
    intro other member later _
    rw [Activity.ops, List.mem_singleton] at member
    subst other
    exact thread_covered env call.reads later op stamped single.2 (single.1 later)

/-- The clocks of a snapshot are received times, or one less than a clock. -/
def SnapshotBelow (startup : Startup) : Prop :=
  ∀ old ∈ startup.snapshot, old.lastClock < u64Max - 1 ∧ old.lastEventClock < u64Max - 1 ∧
    old.lastQueryClock < u64Max - 1

theorem newIn_sound (restored : SnapshotBelow startup) :
    Sound startup (newIn startup : SerfCore Id Address) := by
  have start : ∀ old : LamportTime, old < u64Max - 1 →
      0 < witness (increment LamportClock.new) old ∧
      old + 1 ≤ witness (increment LamportClock.new) old := by
    intro old small
    unfold witness increment LamportClock.new
    split <;> constructor <;> grind
  have zero := start 0 (by decide)
  cases found : startup.snapshot with
  | none =>
    refine ⟨empty_consistent, ?_, empty_timed _, ?_, ?_⟩
    · simpa [newIn, found] using zero.1
    · refine ⟨by simp [newIn, size_vacant], ?_, ?_⟩
      · simp [newIn, vacant, List.getElem?_replicate]
      · simp [newIn, found]
    · refine ⟨by simp [newIn, size_vacant], ?_, ?_⟩
      · constructor <;> simp [newIn, vacant, List.getElem?_replicate]
      · simp [newIn, found]
  | some old =>
    obtain ⟨clock, eventClock, queryClock⟩ := restored old found
    refine ⟨empty_consistent, ?_, empty_timed _, ?_, ?_⟩
    · simpa [newIn, found] using (start _ clock).1
    · refine ⟨by simp [newIn, size_vacant], ?_, ?_⟩
      · simp [newIn, vacant, List.getElem?_replicate]
      · simpa [newIn, found] using (start _ eventClock).2
    · refine ⟨by simp [newIn, size_vacant], ?_, ?_⟩
      · constructor <;> simp [newIn, vacant, List.getElem?_replicate]
      · simpa [newIn, found] using (start _ queryClock).2

/-- Every time that the node has stored lies behind the clock it belongs to. -/
structure Dominated (node : SerfCore Id Address) : Prop where
  statuses : ∀ id m, node.members.states.lookup id = some m → m.statusTime < node.clock
  intents : ∀ id intent, node.members.recentIntents.lookup id = some intent →
    intent.ltime < node.clock
  events : ∀ (i : Nat) (seen : UserEvents),
    node.events.core.buffer.slots[i]? = some (some seen) → seen.ltime < node.events.clock
  eventMinTime : node.events.core.minTime ≤ node.events.clock
  queries : ∀ (i : Nat) (seen : Queries),
    node.queries.core.buffer.slots[i]? = some (some seen) → seen.ltime < node.queries.clock
  queryMinTime : node.queries.core.minTime ≤ node.queries.clock

/-- The node takes its own intents: their times are recorded, unless the intent
is refuted or erases its member. -/
structure TakesIntents (env : NodeEnvironment Id Address) (node : SerfCore Id Address) :
    Prop where
  join : ∀ now, heldTime (nodeStep env node (.broadcastJoin now)).1.members
    env.membership.localId = some node.clock
  leave : ∀ now, node.state = .alive →
    heldTime (nodeStep env node (.beginLeave now)).1.members env.membership.localId =
      some node.clock
  forceLeave : ∀ now id prune,
    (∃ time, (nodeStep env node (.forceLeave now id prune)).2.refutation = some time) ∨
    heldTime (nodeStep env node (.forceLeave now id prune)).1.members id = some node.clock ∨
    (prune = true ∧
      (nodeStep env node (.forceLeave now id prune)).1.members.states.lookup id = none)

/-- The event that `user_event` stamps is neither below the minimum time nor too
old when it is handled. -/
def TakesEvents (env : NodeEnvironment Id Address) (node : SerfCore Id Address) : Prop :=
  ∀ name payload coalesce msg raw,
    stampUserEvent env.limits node.events.clock name payload coalesce = .ok (msg, raw) →
    EventDelivery.Admissible { node.events with clock := increment node.events.clock } msg

/-- The query that `query_in` stamps passes the age checks and is not taken for
a repetition. -/
def TakesQueries (env : NodeEnvironment Id Address) (node : SerfCore Id Address) : Prop :=
  ∀ (draw : QueryDraw) name payload params ty outcome raw,
    queryIn env.query draw.defaultTimeout draw.numNodes draw.id name payload params ty
      node.queries = .ok (outcome, raw) →
    outcome.recorded = true

section Requests

variable (env : NodeEnvironment Id Address) (startup : Startup) (node : SerfCore Id Address)

theorem sound_dominated (sound : Sound startup node) : Dominated node where
  statuses := sound.table.statuses
  intents := sound.table.intents
  events := sound.events.slots
  eventMinTime := sound.events.minTime
  queries := sound.queries.dated.behind
  queryMinTime := sound.queries.minTime

theorem timed_fresh (members : Members Id Address) (clock ltime : LamportTime)
    (reached : clock ≤ ltime) (timed : Timed (fun time => time < clock) members) (id : Id) :
    ¬ Stale members id ltime := by
  rintro ⟨held, holds, old⟩
  have behind : held < clock := by
    rw [heldTime] at holds
    split at holds
    · rename_i m found
      cases holds
      exact timed.statuses id m found
    · obtain ⟨intent, found, rfl⟩ := Option.map_eq_some_iff.mp holds
      exact timed.intents id intent found
  exact absurd (lt_of_lt_of_le behind (le_trans reached old)) (lt_irrefl held)

theorem announceLeave_refutation (now : Epoch) (msg : LeaveMessage Id) :
    (announceLeave env now msg node).2.refutation =
      if (handleNodeLeaveIntent env.membership node.state now msg node.members).refutes then
        some (witness node.clock msg.ltime) else none := by
  simp only [announceLeave]
  split
  · split <;> rfl
  · rfl

theorem takesIntents (sound : Sound startup node) : TakesIntents env node where
  join now := by
    simp only [nodeStep, broadcastJoin_node]
    exact handleNodeJoinIntent_taken now ⟨node.clock, env.membership.localId⟩ node.members
      (timed_fresh node.members node.clock node.clock (le_refl _) sound.table _)
  leave now alive := by
    simp only [nodeStep, beginLeave, alive, announceLeave_node]
    have taken := handleNodeLeaveIntent_taken env.membership .leaving now
      ⟨node.clock, env.membership.localId, false⟩ node.members sound.consistent
      (timed_fresh node.members node.clock node.clock (le_refl _) sound.table _)
    -- The node is already leaving, so it does not refute its own intent.
    rcases taken with ⟨_, _, impossible⟩ | taken | ⟨impossible, _⟩
    · cases impossible
    · exact taken
    · cases impossible
  forceLeave now id prune := by
    simp only [nodeStep, forceLeave, announceLeave_node, announceLeave_refutation]
    have taken := handleNodeLeaveIntent_taken env.membership node.state now
      ⟨node.clock, id, prune⟩ node.members sound.consistent
      (timed_fresh node.members node.clock node.clock (le_refl _) sound.table _)
    rcases taken with ⟨refutes, _⟩ | taken | pruned
    · exact Or.inl ⟨_, if_pos refutes⟩
    · exact Or.inr (Or.inl taken)
    · exact Or.inr (Or.inr pruned)

theorem ofNat_ne_zero (count : Nat) (fits : count < 2 ^ 64) (positive : 1 ≤ count) :
    UInt64.ofNat count ≠ 0 := by
  intro zero
  have same := congrArg UInt64.toNat zero
  rw [UInt64.toNat_ofNat_of_lt' fits] at same
  simp only [UInt64.toNat_zero] at same
  omega

theorem takesEvents (clocks : ClocksBelow node) (positive : 1 ≤ startup.eventBufferSize)
    (sound : Sound startup node) : TakesEvents env node := by
  intro name payload coalesce msg raw stamped
  have shape := EventDelivery.stampUserEvent_message _ _ _ _ _ _ stamped
  simp only at shape
  subst msg
  refine ⟨sound.events.minTime, EventDelivery.inWindow_stamped _ _ clocks.2.1 ?_⟩
  rw [sound.events.sized]
  exact ofNat_ne_zero _ startup.eventFits positive

theorem queryIn_handled (env : QueryEnvironment Id Address) (draw : QueryDraw) (name : String)
    (payload : Bytes) (params : Option (QueryParam Id)) (ty : Option (InternalQueryEvent Id))
    (state : QueryState) (outcome : QueryOutcome Id Address) (raw : Option Bytes)
    (result : queryIn env draw.defaultTimeout draw.numNodes draw.id name payload params ty
      state = .ok (outcome, raw)) :
    ∃ q : QueryMessage Id Address, q.ltime = state.clock ∧
      outcome = handleQuery env ty (.right q) (registerQueryResponse draw.numNodes q state) := by
  simp only [queryIn] at result
  -- The size limit and the encoder are asked before anything is handled.
  split at result
  · cases result
  split at result
  · cases result
  split at result <;>
  · cases result
    exact ⟨_, rfl, rfl⟩

theorem takesQueries (clocks : ClocksBelow node) (positive : 1 ≤ startup.queryBufferSize)
    (sound : Sound startup node) : TakesQueries env node := by
  intro draw name payload params ty outcome raw result
  obtain ⟨q, stamped, rfl⟩ := queryIn_handled env.query draw name payload params ty
    node.queries outcome raw result
  have behind := registerQueryResponse_behind _ draw.numNodes q node.queries sound.queries
  have bound : q.ltime < u64Max := by
    rw [stamped]
    exact clocks.2.2
  have passed : witness node.queries.clock q.ltime = increment q.ltime := by
    simp [witness, increment, stamped]
  have step := (QueryDedup.handleQuery_recording env.query ty (.right q)
    (registerQueryResponse draw.numNodes q node.queries) bound).1
  generalize (handleQuery env.query ty (.right q) _).state = after at step
  generalize (handleQuery env.query ty (.right q) _).recorded = recorded at step ⊢
  cases step with
  | recorded _ _ _ => rfl
  | refused reason =>
    exfalso
    rcases reason with refused | ⟨seen, found, same, _⟩
    · apply refused
      constructor
      · exact le_of_le_of_eq behind.minTime stamped.symm
      · show InWindow (witness node.queries.clock q.ltime) _ q.ltime
        rw [passed, behind.sized]
        exact EventDelivery.inWindow_increment _ _
          (ofNat_ne_zero _ startup.queryFits positive)
    · -- A slot of the same time would lie ahead of the clock.
      have old := behind.dated.behind _ seen (readSlot_source _ _ seen found)
      rw [same] at old
      exact absurd (lt_of_lt_of_eq old stamped.symm) (lt_irrefl q.ltime)

end Requests

theorem clock_dominance (env : NodeEnvironment Id Address) (startup : Startup)
    (restored : SnapshotBelow startup) (calls : List (Call Id Address))
    (legal : ∀ call ∈ calls, Legal call) (sections : List (Section Id Address))
    (order : Interleaves (calls.map (Call.thread env)) sections)
    (clocks : ∀ visit ∈ visits (sectionStep env) (newIn startup) sections, ClocksBelow visit.1)
    (last : ClocksBelow (run (sectionStep env) (newIn startup) sections)) :
    let node := run (sectionStep env) (newIn startup) sections
    Dominated node ∧ TakesIntents env node ∧
      (1 ≤ startup.eventBufferSize → TakesEvents env node) ∧
      (1 ≤ startup.queryBufferSize → TakesQueries env node) := by
  have sound : Sound startup (run (sectionStep env) (newIn startup) sections) := by
    apply run_sound env startup _ sections order
    · intro visit member
      exact clocksBelow_noWrap visit.1 (clocks visit member) visit.2
    · intro thread member
      obtain ⟨call, inside, rfl⟩ := List.mem_map.mp member
      exact call_covered env _ call (legal call inside)
    · exact newIn_sound startup restored
  refine ⟨sound_dominated startup _ sound, takesIntents env startup _ sound, ?_, ?_⟩
  · intro positive
    exact takesEvents env startup _ last positive sound
  · intro positive
    exact takesQueries env startup _ last positive sound

/-- What a peer sends that is ahead in its event clock and knows the member `b`. -/
def aheadState : RemoteState String :=
  .pushPull ⟨9, AList.singleton "b" 4, [], 7, [⟨6, [⟨"deploy", []⟩]⟩], 3⟩

/-- An ignoring join while an event is sent. -/
def joining : List (Call String Nat) :=
  [⟨⟨0, .alive, false⟩, .call (.setEventJoinIgnore true)⟩,
    ⟨⟨0, .alive, true⟩, .merge (fun _ => 0) true aheadState⟩,
    ⟨⟨1, .alive, true⟩, .call (.callUserEvent "restart" [] false)⟩]

/-- The event is stamped before the merge begins and recorded in the middle of
it. -/
def joiningSections : List (Section String Nat) :=
  [.incrementEvent, .setEventJoinIgnore true, .witness 8, .witnessEvent 6, .witnessQuery 2,
    .witnessEvent 1, .witness 4, .recordEvent ⟨1, "restart", [], false⟩,
    .table (.joinIntent 0 ⟨4, "b"⟩), .raiseMinTime 7]

theorem joining_order :
    Interleaves (joining.map (Call.thread plainCore)) joiningSections := by
  apply Interleaves.turn [_, _]
  apply Interleaves.turn []
  apply Interleaves.turn [[]]
  apply Interleaves.turn [[]]
  apply Interleaves.turn [[]]
  apply Interleaves.turn [[], _]
  apply Interleaves.turn [[]]
  apply Interleaves.turn [[], _]
  apply Interleaves.turn [[]]
  apply Interleaves.turn [[]]
  exact Interleaves.done _

theorem joining_legal : ∀ call ∈ joining, Legal call := by
  intro call member
  simp only [joining, List.mem_cons, List.not_mem_nil, or_false] at member
  rcases member with rfl | rfl | rfl
  · exact ⟨by decide, by simp [stamps]⟩
  · exact ⟨by decide, List.forall_iff_forall_mem.mp (by decide)⟩
  · exact ⟨by decide, by simp [stamps]⟩

theorem clock_dominance_ignoring_join :
    let start := (newIn (freshStart 2 (by decide)) : SerfCore String Nat)
    let node := run (sectionStep plainCore) start joiningSections
    (∀ visit ∈ visits (sectionStep plainCore) start joiningSections, ClocksBelow visit.1) ∧
    ClocksBelow node ∧ Dominated node ∧ TakesEvents plainCore node := by
  have held := clock_dominance plainCore (freshStart 2 (by decide))
    (by simp [SnapshotBelow, freshStart]) joining joining_legal joiningSections joining_order
    (by decide) (by decide)
  exact ⟨by decide, by decide, held.1, held.2.2.1 (by decide)⟩

theorem own_event_refused :
    let node := (newIn (freshStart 0 (by decide)) : SerfCore String Nat)
    Sound (freshStart 0 (by decide)) node ∧ ¬ TakesEvents plainCore node ∧
    (nodeStep plainCore node (.callUserEvent "deploy" [] false)).2.error = none ∧
    (nodeStep plainCore node (.callUserEvent "deploy" [] false)).2.sent.length = 0 := by
  refine ⟨newIn_sound _ (by simp [SnapshotBelow, freshStart]), ?_, by decide, by decide⟩
  intro takes
  have admitted := takes "deploy" [] false ⟨1, "deploy", [], false⟩ [] (by decide)
  exact absurd admitted (by decide)

end Serf.ClockDominance
