import Mathlib.Data.List.Induction
import Serf.Library.Machine
import Serf.QueryHandler

/-!
`coalesce.rs` and the two coalescers. One iteration of `coalesce_loop` is one
`select!`: its branches are polled in any order until one is ready, and the others are
dropped. A timer branch moves its timer out of the loop's variable when it is first
polled, so if another branch wins afterwards the timer is gone. An iteration therefore
says which timer branches were polled, which branch won and when.
-/

namespace Serf.Coalesce

open Library.Collections Library.Machine QueryHandler

/-- `Coalescer`, with the states that hold no event. -/
structure Coalescer (Event State : Type) where
  new : State
  handle : Event → Bool
  coalesce : State → Event → State
  /-- The state after the flush and the events it sends, in their order. -/
  flush : State → State × List Event
  blank : State → Prop
  new_blank : blank new
  flush_blank : ∀ state, blank (flush state).1
  blank_silent : ∀ state, blank state → (flush state).2 = []

structure Periods where
  coalesce : Duration
  quiescent : Duration

inductive Ending where
  | inputClosed
  | outputClosed
  | finished
  deriving DecidableEq

structure LoopState (State : Type) where
  coalescer : State
  quantum : Option Epoch
  quiescent : Option Epoch
  shutdown : Bool
  ended : Option Ending

inductive Winner (Event : Type) where
  | event (ev : Event)
  | inputClosed
  | quantum
  | quiescent
  | shutdown

/-- `room` is how many events the output channel still takes before it is closed, if
it is closed. -/
structure Iteration (Event : Type) where
  now : Epoch
  polledQuantum : Bool
  polledQuiescent : Bool
  winner : Winner Event
  room : Option Nat

inductive Outcome (Event : Type) where
  /-- The loop has returned, or the branch cannot be ready. -/
  | skipped
  | coalesced (ev : Event)
  | passed (ev : Event)
  | refused (ev : Event)
  | flushed (sent : List Event)
  | inputClosed
  | shutdown

variable {Event State : Type}

def sendAll (room : Option Nat) (events : List Event) : List Event × Bool :=
  match room with
  | none => (events, true)
  | some count => (events.take count, decide (events.length ≤ count))

def expired (timer : Option Epoch) (now : Epoch) : Bool :=
  match timer with
  | none => false
  | some deadline => decide (deadline ≤ now)

section Loop

variable (coalescer : Coalescer Event State) (periods : Periods)

def start : LoopState State := ⟨coalescer.new, none, none, false, none⟩

def dropBranches (state : LoopState State) (iteration : Iteration Event) : LoopState State :=
  { state with
    quantum := if iteration.polledQuantum then none else state.quantum
    quiescent := if iteration.polledQuiescent then none else state.quiescent }

def arm (now : Epoch) (ev : Event) (state : LoopState State) : LoopState State :=
  { state with
    quantum :=
      match state.quantum with
      | none => some (now + periods.coalesce)
      | some deadline => some deadline
    quiescent := some (now + periods.quiescent)
    coalescer := coalescer.coalesce state.coalescer ev }

def flushLoop (room : Option Nat) (state : LoopState State) : LoopState State × Outcome Event :=
  let flushed := coalescer.flush state.coalescer
  let sent := sendAll room flushed.2
  let left := { state with coalescer := flushed.1 }
  if !sent.2 then ({ left with ended := some .outputClosed }, .flushed sent.1)
  else if !state.shutdown then ({ left with quantum := none, quiescent := none }, .flushed sent.1)
  else ({ left with ended := some .finished }, .flushed sent.1)

/-- One iteration of `coalesce_loop`. -/
def step (state : LoopState State) (iteration : Iteration Event) :
    LoopState State × Outcome Event :=
  if state.ended.isSome then (state, .skipped)
  else
    let left := dropBranches state iteration
    match iteration.winner with
    | .inputClosed => ({ left with ended := some .inputClosed }, .inputClosed)
    | .event ev =>
      if coalescer.handle ev then (arm coalescer periods iteration.now ev left, .coalesced ev)
      else if !(sendAll iteration.room [ev]).2 then
        ({ left with ended := some .outputClosed }, .refused ev)
      else (left, .passed ev)
    | .quantum =>
      if expired state.quantum iteration.now then flushLoop coalescer iteration.room left
      else (state, .skipped)
    | .quiescent =>
      if expired state.quiescent iteration.now then flushLoop coalescer iteration.room left
      else (state, .skipped)
    | .shutdown => ({ left with shutdown := true }, .shutdown)

end Loop

section Members

variable {Id Address : Type} [DecidableEq Id] [DecidableEq Address]

structure CoalesceEvent (Id Address : Type) where
  ty : MemberEventType
  member : Member Id Address

structure MemberEventCoalescer (Id Address : Type) where
  lastEvents : Table (Node Id Address) MemberEventType
  latestEvents : Table (Node Id Address) (CoalesceEvent Id Address)

def coalesceMember (state : MemberEventCoalescer Id Address) :
    CrateEvent Id Address → MemberEventCoalescer Id Address
  | .member event =>
    { state with
      latestEvents := event.members.foldl
        (fun latest member => latest.insert member.node ⟨event.ty, member⟩)
        state.latestEvents }
  | _ => state

def settle (drained : Table (Node Id Address) MemberEventType ×
      Table MemberEventType (List (Member Id Address)))
    (entry : Node Id Address × CoalesceEvent Id Address) :
    Table (Node Id Address) MemberEventType × Table MemberEventType (List (Member Id Address)) :=
  let ty := entry.2.ty
  if drained.1.lookup entry.1 = some ty ∧ ty ≠ .update then drained
  else
    (drained.1.insert entry.1 ty,
      drained.2.insert ty ((drained.2.lookup ty).getD [] ++ [entry.2.member]))

def flushMember (state : MemberEventCoalescer Id Address) :
    MemberEventCoalescer Id Address × List (CrateEvent Id Address) :=
  let drained := (pairs state.latestEvents).foldl settle (state.lastEvents, ∅)
  (⟨drained.1, ∅⟩, (pairs drained.2).map fun event => .member ⟨event.1, event.2⟩)

def memberEventCoalescer :
    Coalescer (CrateEvent Id Address) (MemberEventCoalescer Id Address) where
  new := ⟨∅, ∅⟩
  handle
    | .member _ => true
    | _ => false
  coalesce := coalesceMember
  flush := flushMember
  blank state := state.latestEvents = ∅
  new_blank := rfl
  flush_blank _ := rfl
  blank_silent state empty := by
    rw [flushMember, empty]
    rfl

structure LatestUserEvents where
  ltime : LamportTime
  events : List UserEventMessage
  deriving DecidableEq

def LatestUserEvents.add (latest : LatestUserEvents) (event : UserEventMessage) :
    LatestUserEvents :=
  if latest.ltime < event.ltime then ⟨event.ltime, [event]⟩
  else if latest.ltime = event.ltime then { latest with events := latest.events ++ [event] }
  else latest

/-- `UserEventCoalescer::coalesce` on the map from names, in its insertion order. -/
def addUserEvent (event : UserEventMessage) :
    List (String × LatestUserEvents) → List (String × LatestUserEvents)
  | [] => [(event.name, ⟨event.ltime, [event]⟩)]
  | (name, latest) :: rest =>
    if name = event.name then (name, latest.add event) :: rest
    else (name, latest) :: addUserEvent event rest

def userEventCoalescer :
    Coalescer (CrateEvent Id Address) (List (String × LatestUserEvents)) where
  new := []
  handle
    | .user event => event.cc
    | _ => false
  coalesce
    | state, .user event => addUserEvent event state
    | state, _ => state
  flush state := ([], state.flatMap fun entry => entry.2.events.map .user)
  blank state := state = []
  new_blank := rfl
  flush_blank _ := rfl
  blank_silent state empty := by
    rw [empty]
    rfl

end Members

section History

/-- The events coalesced since the last flush, with the times at which they came. -/
def record (pending : List (Epoch × Event)) (entry : Iteration Event × Outcome Event) :
    List (Epoch × Event) :=
  match entry.2 with
  | .coalesced ev => pending ++ [(entry.1.now, ev)]
  | .flushed _ => []
  | _ => pending

def unflushed (log : List (Iteration Event × Outcome Event)) : List (Epoch × Event) :=
  log.foldl record []

variable (coalescer : Coalescer Event State) (periods : Periods)

/-- The coalescer holds what the pending events make of an empty one, and without
pending events the quantum timer is not armed. -/
structure Holds (state : LoopState State) (pending : List (Epoch × Event)) : Prop where
  events : ∃ base, coalescer.blank base ∧
    state.coalescer = (pending.map Prod.snd).foldl coalescer.coalesce base
  idle : state.ended = none → pending = [] → state.quantum = none

/-- While events are pending, the quantum timer has the deadline of the first and the
quiescent timer that of the last; and none are left behind by a return. -/
structure Kept (state : LoopState State) (pending : List (Epoch × Event)) : Prop where
  quantum : state.ended = none → ∀ first, pending.head? = some first →
    state.quantum = some (first.1 + periods.coalesce)
  quiescent : state.ended = none → ∀ last, pending.getLast? = some last →
    state.quiescent = some (last.1 + periods.quiescent)
  drained : ∀ ending, state.ended = some ending → ending ≠ .outputClosed → pending = []

/-- While events are pending the input closes, a polled timer is dropped by an event
that is passed on or by the shutdown, or a polled quantum timer is set anew by a
later event. -/
def Strands (state : LoopState State) (pending : List (Epoch × Event))
    (iteration : Iteration Event) : Prop :=
  state.ended = none ∧ ∃ first, pending.head? = some first ∧
    match iteration.winner with
    | .inputClosed => True
    | .event ev =>
      if coalescer.handle ev then iteration.polledQuantum = true ∧ iteration.now ≠ first.1
      else (sendAll iteration.room [ev]).2 = true ∧
        (iteration.polledQuantum = true ∨ iteration.polledQuiescent = true)
    | .shutdown => iteration.polledQuantum = true ∨ iteration.polledQuiescent = true
    | .quantum | .quiescent => False

variable (state : LoopState State) (pending : List (Epoch × Event)) (iteration : Iteration Event)

theorem flushLoop_flushes (room : Option Nat) :
    (flushLoop coalescer room state).1.coalescer = (coalescer.flush state.coalescer).1 ∧
    ((flushLoop coalescer room state).1.ended = none →
      (flushLoop coalescer room state).1.quantum = none) ∧
    ∃ sent, (flushLoop coalescer room state).2 = .flushed sent := by
  unfold flushLoop
  simp only
  split
  · exact ⟨rfl, by simp, _, rfl⟩
  · split
    · exact ⟨rfl, by simp, _, rfl⟩
    · exact ⟨rfl, by simp, _, rfl⟩

inductive Stepped : LoopState State × Outcome Event → Prop where
  | skipped : Stepped (state, .skipped)
  | inputClosed (running : state.ended = none) (won : iteration.winner = .inputClosed) :
      Stepped ({ dropBranches state iteration with ended := some .inputClosed }, .inputClosed)
  | coalesced (running : state.ended = none) (ev : Event) (won : iteration.winner = .event ev)
      (handled : coalescer.handle ev = true) :
      Stepped (arm coalescer periods iteration.now ev (dropBranches state iteration),
        .coalesced ev)
  | refused (running : state.ended = none) (ev : Event) :
      Stepped ({ dropBranches state iteration with ended := some .outputClosed }, .refused ev)
  | passed (running : state.ended = none) (ev : Event) (won : iteration.winner = .event ev)
      (unhandled : coalescer.handle ev = false)
      (sent : (sendAll iteration.room [ev]).2 = true) :
      Stepped (dropBranches state iteration, .passed ev)
  | flushed (running : state.ended = none) :
      Stepped (flushLoop coalescer iteration.room (dropBranches state iteration))
  | shutdown (running : state.ended = none) (won : iteration.winner = .shutdown) :
      Stepped ({ dropBranches state iteration with shutdown := true }, .shutdown)

theorem step_stepped :
    Stepped coalescer periods state iteration (step coalescer periods state iteration) := by
  unfold step
  split
  · exact .skipped
  · rename_i running
    rw [Option.not_isSome_iff_eq_none] at running
    simp only
    split
    · rename_i won
      exact .inputClosed running won
    · rename_i ev won
      split
      · rename_i handled
        exact .coalesced running ev won handled
      · rename_i unhandled
        split
        · exact .refused running ev
        · rename_i sent
          exact .passed running ev won (by simpa using unhandled) (by simpa using sent)
    · split
      · exact .flushed running
      · exact .skipped
    · split
      · exact .flushed running
      · exact .skipped
    · rename_i won
      exact .shutdown running won

omit coalescer periods pending in
theorem dropBranches_none (idle : state.quantum = none) :
    (dropBranches state iteration).quantum = none := by
  simp [dropBranches, idle]

theorem step_holds (holds : Holds coalescer state pending) :
    Holds coalescer (step coalescer periods state iteration).1
      (record pending (iteration, (step coalescer periods state iteration).2)) := by
  obtain ⟨base, blank, same⟩ := holds.events
  have stepped := step_stepped coalescer periods state iteration
  generalize step coalescer periods state iteration = after at stepped
  cases stepped with
  | skipped => exact holds
  | coalesced running ev won handled =>
    refine ⟨⟨base, blank, ?_⟩, ?_⟩
    · simp [record, arm, dropBranches, same]
    · intro _ none
      simp [record] at none
  | flushed running =>
    obtain ⟨left, stopped, sent, outcome⟩ :=
      flushLoop_flushes coalescer (dropBranches state iteration) iteration.room
    refine ⟨⟨_, coalescer.flush_blank state.coalescer, ?_⟩, ?_⟩
    · rw [outcome, left]
      rfl
    · intro goesOn _
      exact stopped goesOn
  | passed running ev won unhandled sent =>
    exact ⟨⟨base, blank, same⟩, fun _ none =>
      dropBranches_none state iteration (holds.idle running none)⟩
  | shutdown running won =>
    exact ⟨⟨base, blank, same⟩, fun _ none =>
      dropBranches_none state iteration (holds.idle running none)⟩
  | inputClosed running won => exact ⟨⟨base, blank, same⟩, by simp⟩
  | refused running ev => exact ⟨⟨base, blank, same⟩, by simp⟩

omit coalescer iteration in
theorem kept_nothing : Kept periods state ([] : List (Epoch × Event)) where
  quantum _ first none := by cases none
  quiescent _ last none := by cases none
  drained _ _ _ := rfl

omit coalescer in
theorem dropBranches_kept (kept : Kept periods state pending)
    (unpolled : ∀ first, pending.head? = some first →
      iteration.polledQuantum = false ∧ iteration.polledQuiescent = false) :
    Kept periods (dropBranches state iteration) pending := by
  cases pending with
  | nil => exact kept_nothing periods _
  | cons first rest =>
    obtain ⟨quantum, quiescent⟩ := unpolled first rfl
    have same : dropBranches state iteration = state := by
      simp [dropBranches, quantum, quiescent]
    rw [same]
    exact kept

theorem arm_kept (running : state.ended = none) (holds : Holds coalescer state pending)
    (kept : Kept periods state pending) (ev : Event)
    (unpolled : ∀ first, pending.head? = some first →
      iteration.polledQuantum = false ∨ iteration.now = first.1) :
    Kept periods (arm coalescer periods iteration.now ev (dropBranches state iteration))
      (pending ++ [(iteration.now, ev)]) := by
  constructor
  · intro _ first is
    cases pending with
    | nil =>
      cases is
      simp [arm, dropBranches, holds.idle running rfl]
    | cons head rest =>
      cases is
      have armed := kept.quantum running first rfl
      rcases unpolled first rfl with untouched | now
      · simp [arm, dropBranches, untouched, armed]
      · simp only [arm, dropBranches, armed]
        cases iteration.polledQuantum <;> simp [now]
  · intro _ last is
    rw [List.getLast?_concat] at is
    cases is
    rfl
  · intro ending ended
    cases running.symm.trans ended

theorem step_kept (holds : Holds coalescer state pending) (kept : Kept periods state pending)
    (safe : ¬ Strands coalescer state pending iteration) :
    Kept periods (step coalescer periods state iteration).1
      (record pending (iteration, (step coalescer periods state iteration).2)) := by
  have stepped := step_stepped coalescer periods state iteration
  generalize step coalescer periods state iteration = after at stepped
  cases stepped with
  | skipped => exact kept
  | inputClosed running won =>
    cases pending with
    | nil => exact kept_nothing periods _
    | cons first rest => exact absurd ⟨running, first, rfl, by rw [won]; trivial⟩ safe
  | coalesced running ev won handled =>
    apply arm_kept coalescer periods state pending iteration running holds kept ev
    intro first is
    by_contra both
    rw [not_or, Bool.not_eq_false] at both
    refine safe ⟨running, first, is, ?_⟩
    simpa [won, handled] using both
  | refused running ev =>
    exact ⟨by simp, by simp, fun ending is other => absurd (Option.some.inj is).symm other⟩
  | passed running ev won unhandled sent =>
    apply dropBranches_kept periods state pending iteration kept
    intro first is
    by_contra polled
    refine safe ⟨running, first, is, ?_⟩
    rw [not_and_or, Bool.not_eq_false, Bool.not_eq_false] at polled
    simpa [won, unhandled, sent] using polled
  | flushed running =>
    obtain ⟨_, _, sent, outcome⟩ :=
      flushLoop_flushes coalescer (dropBranches state iteration) iteration.room
    rw [outcome]
    exact kept_nothing periods _
  | shutdown running won =>
    have left := dropBranches_kept periods state pending iteration kept (by
      intro first is
      by_contra polled
      refine safe ⟨running, first, is, ?_⟩
      rw [not_and_or, Bool.not_eq_false, Bool.not_eq_false] at polled
      simpa [won] using polled)
    exact ⟨left.quantum, left.quiescent, left.drained⟩

theorem polled_not_kept (first : Epoch × Event) (is : pending.head? = some first)
    (after : LoopState State) (goesOn : after.ended = none)
    (quantum : after.quantum = (dropBranches state iteration).quantum)
    (quiescent : after.quiescent = (dropBranches state iteration).quiescent)
    (polled : iteration.polledQuantum = true ∨ iteration.polledQuiescent = true) :
    ¬ Kept periods after pending := by
  intro kept
  rcases polled with polled | polled
  · have armed := kept.quantum goesOn first is
    simp [quantum, dropBranches, polled] at armed
  · obtain ⟨last, isLast⟩ : ∃ last, pending.getLast? = some last := by
      cases pending with
      | nil => cases is
      | cons head rest => exact ⟨_, List.getLast?_eq_some_getLast (List.cons_ne_nil head rest)⟩
    have armed := kept.quiescent goesOn last isLast
    simp [quiescent, dropBranches, polled] at armed

theorem strands_not_kept (strands : Strands coalescer state pending iteration) :
    ¬ Kept periods (step coalescer periods state iteration).1
      (record pending (iteration, (step coalescer periods state iteration).2)) := by
  obtain ⟨running, first, is, reason⟩ := strands
  have lost := polled_not_kept periods state pending iteration first is
  unfold step
  rw [running]
  simp only [Option.isSome_none, Bool.false_eq_true, if_false]
  cases won : iteration.winner with
  | inputClosed =>
    intro kept
    have none := kept.drained .inputClosed rfl (by simp)
    rw [show pending = [] from none] at is
    cases is
  | event ev =>
    rw [won] at reason
    simp only at reason ⊢
    by_cases handled : coalescer.handle ev = true
    · rw [if_pos handled] at reason ⊢
      intro kept
      have armed := kept.quantum running first (by
        simp only [record, List.head?_append, is]
        rfl)
      simp only [arm, dropBranches, reason.1, if_true, Option.some.injEq] at armed
      exact reason.2 (Nat.add_right_cancel armed)
    · rw [if_neg handled] at reason ⊢
      rw [reason.1]
      exact lost _ running rfl rfl reason.2
  | shutdown =>
    rw [won] at reason
    exact lost _ running rfl rfl reason
  | quantum =>
    rw [won] at reason
    cases reason
  | quiescent =>
    rw [won] at reason
    cases reason

omit state pending iteration in
theorem unflushed_step (before : List (Iteration Event)) (iteration : Iteration Event) :
    unflushed (answers (step coalescer periods) (start coalescer) (before ++ [iteration])) =
      record (unflushed (answers (step coalescer periods) (start coalescer) before))
        (iteration, (step coalescer periods
          (run (step coalescer periods) (start coalescer) before) iteration).2) := by
  rw [answers_append, unflushed, unflushed, List.foldl_append]
  rfl

omit state pending iteration in
theorem run_step (before : List (Iteration Event)) (iteration : Iteration Event) :
    run (step coalescer periods) (start coalescer) (before ++ [iteration]) =
      (step coalescer periods
        (run (step coalescer periods) (start coalescer) before) iteration).1 := by
  rw [run_append]
  rfl

variable (iterations : List (Iteration Event))

omit state pending iteration in
theorem run_holds :
    Holds coalescer (run (step coalescer periods) (start coalescer) iterations)
      (unflushed (answers (step coalescer periods) (start coalescer) iterations)) := by
  induction iterations using List.reverseRecOn with
  | nil => exact ⟨⟨_, coalescer.new_blank, rfl⟩, fun _ _ => rfl⟩
  | append_singleton before iteration ih =>
    rw [unflushed_step, run_step]
    exact step_holds coalescer periods _ _ iteration ih

omit state pending iteration in
theorem run_kept
    (safe : ∀ before iteration after, iterations = before ++ iteration :: after →
      ¬ Strands coalescer (run (step coalescer periods) (start coalescer) before)
        (unflushed (answers (step coalescer periods) (start coalescer) before)) iteration) :
    Kept periods (run (step coalescer periods) (start coalescer) iterations)
      (unflushed (answers (step coalescer periods) (start coalescer) iterations)) := by
  induction iterations using List.reverseRecOn with
  | nil => exact kept_nothing periods _
  | append_singleton before iteration ih =>
    have earlier := ih fun first middle rest split =>
      safe first middle (rest ++ [iteration]) (by rw [split]; simp)
    rw [unflushed_step, run_step]
    exact step_kept coalescer periods _ _ iteration (run_holds coalescer periods before) earlier
      (safe before iteration [] rfl)

omit state pending iteration in
/-- In every run of the loop the coalescer holds what the unflushed events make; and at
every loop head the timers are those of the first and the last of them, and no return
but for a closed output leaves any behind, if and only if no iteration, while events
are unflushed, closes the input, drops a polled timer, or sets a polled quantum timer
anew at another time. -/
theorem coalesced_never_stranded_iff :
    (∀ before after, iterations = before ++ after →
      Holds coalescer (run (step coalescer periods) (start coalescer) before)
        (unflushed (answers (step coalescer periods) (start coalescer) before))) ∧
    ((∀ before after, iterations = before ++ after →
        Kept periods (run (step coalescer periods) (start coalescer) before)
          (unflushed (answers (step coalescer periods) (start coalescer) before))) ↔
      ∀ before iteration after, iterations = before ++ iteration :: after →
        ¬ Strands coalescer (run (step coalescer periods) (start coalescer) before)
          (unflushed (answers (step coalescer periods) (start coalescer) before)) iteration) := by
  refine ⟨fun before _ _ => run_holds coalescer periods before, ?_, ?_⟩
  · intro kept before iteration after split strands
    apply strands_not_kept coalescer periods _ _ iteration strands
    have next := kept (before ++ [iteration]) after (by rw [split]; simp)
    rwa [unflushed_step, run_step] at next
  · intro safe before after split
    apply run_kept coalescer periods before
    intro first iteration rest inner
    exact safe first iteration (rest ++ after) (by rw [split, inner]; simp)

end History

def joined : CrateEvent String Nat :=
  .member ⟨.join, [⟨⟨"b", 2⟩, ∅, .alive, .v1, .v1, .v1, .v1⟩]⟩

def deployed : CrateEvent String Nat := .user ⟨1, "deploy", [], false⟩

def undisturbed : List (Iteration (CrateEvent String Nat)) :=
  [⟨0, false, false, .event joined, none⟩, ⟨5, true, true, .quiescent, none⟩]

theorem coalesced_never_stranded_undisturbed :
    ∀ before after, undisturbed = before ++ after →
      Kept ⟨10, 5⟩ (run (step memberEventCoalescer ⟨10, 5⟩) (start memberEventCoalescer) before)
        (unflushed (answers (step memberEventCoalescer ⟨10, 5⟩) (start memberEventCoalescer)
          before)) := by
  apply (coalesced_never_stranded_iff memberEventCoalescer ⟨10, 5⟩ undisturbed).2.mpr
  intro before iteration after split strands
  cases before with
  | nil =>
    obtain ⟨_, first, none, _⟩ := strands
    cases none
  | cons head rest =>
    cases rest with
    | nil =>
      cases split
      obtain ⟨_, _, _, impossible⟩ := strands
      exact impossible
    | cons next rest =>
      have lengths := congrArg List.length split
      simp [undisturbed] at lengths

/-- A member joins; then a user event is passed on, after the timer branches have been
polled: both timers are gone and the join is never flushed by them. If the input
closes now, the loop returns with the join still held. -/
theorem join_stranded :
    let passing : List (Iteration (CrateEvent String Nat)) :=
      [⟨0, false, false, .event joined, none⟩, ⟨1, true, true, .event deployed, none⟩]
    let reached := run (step memberEventCoalescer ⟨10, 5⟩) (start memberEventCoalescer) passing
    let later := step memberEventCoalescer ⟨10, 5⟩ reached ⟨2, false, false, .inputClosed, none⟩
    let pending := unflushed (answers (step memberEventCoalescer ⟨10, 5⟩)
      (start memberEventCoalescer) passing)
    pending = [(0, joined)] ∧ reached.ended = none ∧ reached.quantum = none ∧
    reached.quiescent = none ∧ later.1.ended = some .inputClosed ∧
    (later.1.coalescer.latestEvents.lookup ⟨"b", 2⟩).isSome = true ∧
    ¬ Kept ⟨10, 5⟩ reached pending := by
  refine ⟨rfl, rfl, rfl, rfl, rfl, rfl, ?_⟩
  intro kept
  cases kept.quantum rfl (0, joined) rfl

end Serf.Coalesce
