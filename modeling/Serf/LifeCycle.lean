import Serf.Library.Exclusion
import Serf.Sections

/-!
Concurrent calls of `leave` and `shutdown`. Both look at the life-cycle state under
its lock and go on without it: a leave through the snapshotter, its intent and the
memberlist until it takes the lock again, a shutdown through the memberlist. Between
any two of these steps other calls and all other handlers may run. Who moves the
state away from alive, or into shutdown, goes on alone.
-/

namespace Serf.LifeCycle

open Library.Exclusion Library.Machine Library.Tasks
open LamportClock MemberTable Serf.Core Sections

variable {Id Address : Type} [DecidableEq Id]

inductive CallError where
  | badLeaveStatus (state : SerfState)
  | encode (reason : String)
  | broadcast (reason : String)
  | memberlist (reason : String)
  deriving DecidableEq

abbrev CallResult := Except CallError Unit

inductive Call where
  | leave
  | shutdown

inductive Effect where
  | snapshotLeave
  | leaveIntent
  | memberlistLeave
  | memberlistShutdown
  deriving DecidableEq

/-- The place of a call, by what it does next. -/
inductive Phase (Id : Type) where
  | leaveCalled
  | tellingSnapshot
  | stamping
  | ticking (ltime : LamportTime)
  | readingState (msg : LeaveMessage Id)
  | witnessing (msg : LeaveMessage Id) (state : SerfState)
  | processing (msg : LeaveMessage Id) (state : SerfState)
  | lookingAround (msg : LeaveMessage Id)
  | queueing (msg : LeaveMessage Id)
  | awaitingBroadcast
  | leavingMemberlist
  | propagating
  | settling
  /-- The leave returned behind its first look at the state. -/
  | leaveRefused (result : CallResult)
  /-- The leave returned from its sequence. -/
  | leaveReturned (result : CallResult)
  | shutdownCalled
  | closingMemberlist
  | awaitingTasks
  | shutdownRefused
  | shutdownReturned (result : CallResult)

/-- What a step finds outside of the node: the wall clock and the errors of the two
calls that may fail. `memberlist.leave` may fail too, which is only logged. -/
structure Outside where
  now : Epoch
  broadcast : Except String Unit
  memberlistShutdown : Except String Unit

structure Host (Id Address : Type) where
  node : SerfCore Id Address
  effects : List Effect

def Host.step (env : NodeEnvironment Id Address) (host : Host Id Address)
    (part : Section Id Address) : Host Id Address :=
  { host with node := (sectionStep env host.node part).1 }

def Host.does (host : Host Id Address) (effect : Effect) : Host Id Address :=
  { host with effects := host.effects ++ [effect] }

/-- The next atomic step of a call; `snapshot` says whether the node has one. -/
def advance (env : NodeEnvironment Id Address) (snapshot : Bool) (outside : Outside)
    (host : Host Id Address) : Phase Id → Host Id Address × Phase Id
  | .leaveCalled =>
    match host.node.state with
    | .left => (host, .leaveRefused (.ok ()))
    | .leaving => (host, .leaveRefused (.error (.badLeaveStatus .leaving)))
    | .shutdown => (host, .leaveRefused (.error (.badLeaveStatus .shutdown)))
    -- The lock is released here; what follows runs whatever becomes of the state.
    | .alive => (host.step env .enterLeaving, .tellingSnapshot)
  | .tellingSnapshot =>
    (if snapshot then host.does .snapshotLeave else host, .stamping)
  | .stamping => (host, .ticking host.node.clock)
  | .ticking ltime =>
    (host.step env .increment, .readingState ⟨ltime, env.membership.localId, false⟩)
  | .readingState msg => (host, .witnessing msg host.node.state)
  | .witnessing msg state => (host.step env (.witness msg.ltime), .processing msg state)
  | .processing msg state =>
    ((host.step env (.table (.leaveIntent state outside.now msg))).does .leaveIntent,
      .lookingAround msg)
  | .lookingAround msg =>
    -- A node that is alone tells nobody.
    if hasAliveMembers env.membership host.node.members then (host, .queueing msg)
    else (host, .leavingMemberlist)
  | .queueing msg =>
    match env.encodeLeave msg, outside.broadcast with
    | .error reason, _ => (host, .leaveReturned (.error (.encode reason)))
    | .ok _, .error reason => (host, .leaveReturned (.error (.broadcast reason)))
    | .ok _, .ok () => (host, .awaitingBroadcast)
  | .awaitingBroadcast => (host, .leavingMemberlist)
  | .leavingMemberlist => (host.does .memberlistLeave, .propagating)
  | .propagating => (host, .settling)
  | .settling => (host.step env .enterLeft, .leaveReturned (.ok ()))
  | .shutdownCalled =>
    if host.node.state = .shutdown then (host, .shutdownRefused)
    else (host.step env .shutdown, .closingMemberlist)
  | .closingMemberlist =>
    (host.does .memberlistShutdown,
      match outside.memberlistShutdown with
      | .error reason => .shutdownReturned (.error (.memberlist reason))
      | .ok () => .awaitingTasks)
  | .awaitingTasks => (host, .shutdownReturned (.ok ()))
  -- A call that has returned stays where it is.
  | phase => (host, phase)

def KeepsState : Section Id Address → Prop
  | .enterLeaving | .enterLeft | .shutdown => False
  | _ => True

abbrev Elsewhere (Id Address : Type) := { part : Section Id Address // KeepsState part }

def lifeCycle (env : NodeEnvironment Id Address) (snapshot : Bool) :
    System (Host Id Address) (Phase Id) Call Outside (Elsewhere Id Address) where
  spawn
    | .leave => .leaveCalled
    | .shutdown => .shutdownCalled
  advance := advance env snapshot
  change part host := host.step env part.1

def rank : SerfState → Nat
  | .alive => 0
  | .leaving => 1
  | .left => 2
  | .shutdown => 3

theorem alive_of_rank (state : SerfState) (low : rank state ≤ rank .alive) : state = .alive := by
  cases state <;> simp [rank] at low ⊢

theorem shutdown_of_rank (state : SerfState) (high : rank .shutdown ≤ rank state) :
    state = .shutdown := by
  cases state <;> simp [rank] at high ⊢

namespace Phase

def leaves : Phase Id → Bool
  | .tellingSnapshot | .stamping | .ticking _ | .readingState _ | .witnessing _ _
  | .processing _ _ | .lookingAround _ | .queueing _ | .awaitingBroadcast | .leavingMemberlist
  | .propagating | .settling | .leaveReturned _ => true
  | _ => false

def shuts : Phase Id → Bool
  | .closingMemberlist | .awaitingTasks | .shutdownReturned _ => true
  | _ => false

def passed : Phase Id → List Effect
  | .stamping | .ticking _ | .readingState _ | .witnessing _ _ | .processing _ _ =>
    [.snapshotLeave]
  | .lookingAround _ | .queueing _ | .awaitingBroadcast | .leavingMemberlist =>
    [.snapshotLeave, .leaveIntent]
  | .propagating | .settling | .leaveReturned _ =>
    [.snapshotLeave, .leaveIntent, .memberlistLeave]
  | .awaitingTasks | .shutdownReturned _ => [.memberlistShutdown]
  | _ => []

def hasPassed (effect : Effect) (phase : Phase Id) : Bool := decide (effect ∈ phase.passed)

/-- The leave returned `Ok`. -/
def leftOk : Phase Id → Bool
  | .leaveRefused (.ok ()) | .leaveReturned (.ok ()) => true
  | _ => false

end Phase

section Steps

variable (env : NodeEnvironment Id Address)

structure Moves (host : Host Id Address) (phase : Phase Id) (after : Host Id Address × Phase Id) :
    Prop where
  forward : rank host.node.state ≤ rank after.1.node.state
  /-- A leave sequence is begun from the alive state, which ends with it. -/
  leaves : after.2.leaves = phase.leaves ∨
    phase.leaves = false ∧ host.node.state = .alive ∧ after.1.node.state ≠ .alive
  shuts : after.2.shuts = phase.shuts ∨
    phase.shuts = false ∧ host.node.state ≠ .shutdown ∧ after.1.node.state = .shutdown
  effects : ∀ effect,
    after.1.effects.count effect + (if phase.hasPassed effect then 1 else 0) ≤
      host.effects.count effect + (if after.2.hasPassed effect then 1 else 0)
  returns : after.2.leftOk = true → phase.leftOk = true ∨ rank .left ≤ rank after.1.node.state

theorem keepsState_state (node : SerfCore Id Address) (part : Section Id Address)
    (keeps : KeepsState part) : (sectionStep env node part).1.state = node.state := by
  cases part with
  | recordEvent msg =>
    simp only [sectionStep, recordEvent]
    split <;> rfl
  | recordQuery q ty =>
    simp only [sectionStep, Sections.recordQuery]
    split <;> rfl
  | raiseMinTime eventLtime =>
    simp only [sectionStep, raiseMinTime]
    split <;> rfl
  | enterLeaving => exact absurd keeps id
  | enterLeft => exact absurd keeps id
  | shutdown => exact absurd keeps id
  | _ => rfl

omit [DecidableEq Id] in
theorem moves_along (host later : Host Id Address) (phase next : Phase Id)
    (state : later.node.state = host.node.state) (leaves : next.leaves = phase.leaves)
    (shuts : next.shuts = phase.shuts)
    (effects : later.effects = host.effects) (passed : phase.passed ⊆ next.passed)
    (returns : next.leftOk = phase.leftOk) : Moves host phase (later, next) where
  forward := by rw [state]
  leaves := Or.inl leaves
  shuts := Or.inl shuts
  effects effect := by
    simp only [effects, Phase.hasPassed, decide_eq_true_eq]
    by_cases before : effect ∈ phase.passed
    · simp [before, passed before]
    · simp [before]
  returns given := Or.inl (returns.symm.trans given)

omit [DecidableEq Id] in
theorem moves_doing (host later : Host Id Address) (phase next : Phase Id) (effect : Effect)
    (state : later.node.state = host.node.state) (leaves : next.leaves = phase.leaves)
    (shuts : next.shuts = phase.shuts) (effects : later.effects = host.effects ++ [effect])
    (passed : next.passed = phase.passed ++ [effect]) (first : effect ∉ phase.passed)
    (returns : next.leftOk = phase.leftOk) : Moves host phase (later, next) where
  forward := by rw [state]
  leaves := Or.inl leaves
  shuts := Or.inl shuts
  effects other := by
    simp only [effects, Phase.hasPassed, passed, decide_eq_true_eq, List.count_append,
      List.mem_append, List.mem_singleton]
    by_cases same : other = effect
    · subst same
      simp [first]
    · simp [same, Ne.symm same]
  returns given := Or.inl (returns.symm.trans given)

theorem step_state (host : Host Id Address) (part : Section Id Address) (keeps : KeepsState part) :
    (host.step env part).node.state = host.node.state :=
  keepsState_state env host.node part keeps

variable (snapshot : Bool) (outside : Outside) (host : Host Id Address)

theorem leaveCalled_moves :
    Moves host .leaveCalled (advance env snapshot outside host .leaveCalled) := by
  cases state : host.node.state with
  | alive =>
    have after : (host.step env .enterLeaving).node.state = .leaving := by
      simp [Host.step, sectionStep, leavingState, state]
    simp only [advance, state]
    refine ⟨?_, Or.inr ⟨rfl, state, ?_⟩, Or.inl rfl, fun _ => le_refl _,
      Bool.noConfusion⟩
    · rw [after, state]
      decide
    · rw [after]
      decide
  | leaving =>
    simp only [advance, state]
    exact moves_along host host _ _ rfl rfl rfl rfl (List.Subset.refl _) rfl
  | left =>
    simp only [advance, state]
    refine ⟨le_refl _, Or.inl rfl, Or.inl rfl, fun _ => le_refl _, fun _ => Or.inr ?_⟩
    rw [state]
  | shutdown =>
    simp only [advance, state]
    exact moves_along host host _ _ rfl rfl rfl rfl (List.Subset.refl _) rfl

theorem settling_moves : Moves host .settling (advance env snapshot outside host .settling) := by
  have reached : rank host.node.state ≤ rank (host.step env .enterLeft).node.state ∧
      rank .left ≤ rank (host.step env .enterLeft).node.state := by
    cases state : host.node.state <;> simp [Host.step, sectionStep, finishLeave, state, rank]
  exact ⟨reached.1, Or.inl rfl, Or.inl rfl, fun _ => le_refl _, fun _ => Or.inr reached.2⟩

theorem shutdownCalled_moves :
    Moves host .shutdownCalled (advance env snapshot outside host .shutdownCalled) := by
  simp only [advance]
  split
  · exact moves_along host host _ _ rfl rfl rfl rfl (List.Subset.refl _) rfl
  · rename_i running
    refine ⟨?_, Or.inl rfl, Or.inr ⟨rfl, running, rfl⟩, fun _ => le_refl _, Bool.noConfusion⟩
    cases host.node.state <;> simp [Host.step, sectionStep, rank]

theorem advance_moves (phase : Phase Id) :
    Moves host phase (advance env snapshot outside host phase) := by
  have along : ∀ next : Phase Id, next.leaves = phase.leaves → next.shuts = phase.shuts →
      phase.passed ⊆ next.passed → next.leftOk = phase.leftOk →
      Moves host phase (host, next) := by
    intro next leaves shuts passed returns
    exact moves_along host host phase next rfl leaves shuts rfl passed returns
  cases phase with
  | leaveCalled => exact leaveCalled_moves env snapshot outside host
  | tellingSnapshot =>
    cases snapshot with
    | true => exact moves_doing host _ _ _ .snapshotLeave rfl rfl rfl rfl rfl List.not_mem_nil rfl
    | false => exact along _ rfl rfl (List.nil_subset _) rfl
  | stamping => exact along _ rfl rfl (List.Subset.refl _) rfl
  | ticking ltime =>
    exact moves_along host _ _ _ (step_state env host .increment trivial) rfl rfl rfl
      (List.Subset.refl _) rfl
  | readingState msg => exact along _ rfl rfl (List.Subset.refl _) rfl
  | witnessing msg state =>
    exact moves_along host _ _ _ (step_state env host (.witness msg.ltime) trivial) rfl rfl rfl
      (List.Subset.refl _) rfl
  | processing msg state =>
    exact moves_doing host _ _ _ .leaveIntent
      (step_state env host (.table (.leaveIntent state outside.now msg)) trivial) rfl rfl rfl rfl
      (by simp [Phase.passed]) rfl
  | lookingAround msg =>
    simp only [advance]
    split
    · exact along _ rfl rfl (List.Subset.refl _) rfl
    · exact along _ rfl rfl (List.Subset.refl _) rfl
  | queueing msg =>
    simp only [advance]
    split
    · exact along _ rfl rfl (by simp [Phase.passed]) rfl
    · exact along _ rfl rfl (by simp [Phase.passed]) rfl
    · exact along _ rfl rfl (List.Subset.refl _) rfl
  | awaitingBroadcast => exact along _ rfl rfl (List.Subset.refl _) rfl
  | leavingMemberlist =>
    exact moves_doing host _ _ _ .memberlistLeave rfl rfl rfl rfl rfl (by simp [Phase.passed])
      rfl
  | propagating => exact along _ rfl rfl (List.Subset.refl _) rfl
  | settling => exact settling_moves env snapshot outside host
  | shutdownCalled => exact shutdownCalled_moves env snapshot outside host
  | closingMemberlist =>
    cases closed : outside.memberlistShutdown with
    | error reason =>
      simp only [advance, closed]
      exact moves_doing host _ _ _ .memberlistShutdown rfl rfl rfl rfl rfl List.not_mem_nil rfl
    | ok done =>
      simp only [advance, closed]
      exact moves_doing host _ _ _ .memberlistShutdown rfl rfl rfl rfl rfl List.not_mem_nil rfl
  | awaitingTasks => exact along _ rfl rfl (List.Subset.refl _) rfl
  | leaveRefused result => exact along _ rfl rfl (List.nil_subset _) rfl
  | leaveReturned result => exact along _ rfl rfl (List.Subset.refl _) rfl
  | shutdownRefused => exact along _ rfl rfl (List.nil_subset _) rfl
  | shutdownReturned result => exact along _ rfl rfl (List.Subset.refl _) rfl

end Steps

structure Orderly (world : World (Host Id Address) (Phase Id)) : Prop where
  alive : world.shared.node.state = .alive → world.tasks.countP Phase.leaves = 0
  leaver : world.tasks.countP Phase.leaves ≤ 1
  running : world.shared.node.state ≠ .shutdown → world.tasks.countP Phase.shuts = 0
  closer : world.tasks.countP Phase.shuts ≤ 1
  effects : ∀ effect,
    world.shared.effects.count effect ≤ world.tasks.countP (Phase.hasPassed effect)
  returned : ∀ task ∈ world.tasks, task.leftOk = true → rank .left ≤ rank world.shared.node.state

section Turns

variable (env : NodeEnvironment Id Address) (snapshot : Bool)

variable (world : World (Host Id Address) (Phase Id))

theorem started_orderly (call : Call) (orderly : Orderly world) :
    Orderly ((lifeCycle env snapshot).started world call) := by
  have fresh : ((lifeCycle env snapshot).spawn call : Phase Id).leaves = false ∧
      ((lifeCycle env snapshot).spawn call : Phase Id).shuts = false ∧
      (∀ effect, ((lifeCycle env snapshot).spawn call : Phase Id).hasPassed effect = false) ∧
      ((lifeCycle env snapshot).spawn call : Phase Id).leftOk = false := by
    cases call <;> simp [lifeCycle, Phase.leaves, Phase.shuts, Phase.hasPassed, Phase.passed,
      Phase.leftOk]
  obtain ⟨leaves, shuts, passed, ok⟩ := fresh
  constructor
  · simpa [System.started, List.countP_append, leaves] using orderly.alive
  · simpa [System.started, List.countP_append, leaves] using orderly.leaver
  · simpa [System.started, List.countP_append, shuts] using orderly.running
  · simpa [System.started, List.countP_append, shuts] using orderly.closer
  · simpa [System.started, List.countP_append, passed] using orderly.effects
  · intro task member given
    rcases List.mem_append.mp member with earlier | now
    · exact orderly.returned task earlier given
    · rw [List.mem_singleton.mp now, ok] at given
      cases given

theorem advanced_orderly (index : Nat) (outside : Outside) (task : Phase Id)
    (found : world.tasks[index]? = some task) (orderly : Orderly world) :
    Orderly ((lifeCycle env snapshot).advanced world index outside task) := by
  have moves := advance_moves env snapshot outside world.shared task
  have counts := countP_advanced world.tasks index task
    (advance env snapshot outside world.shared task).2 found
  change Orderly ⟨(advance env snapshot outside world.shared task).1, world.tasks.set index
    (advance env snapshot outside world.shared task).2⟩
  -- From here on only what a step can do matters, not which step it was.
  generalize advance env snapshot outside world.shared task = after at moves counts
  have wasAlive : after.1.node.state = .alive → world.shared.node.state = .alive := by
    intro now
    have low := moves.forward
    rw [now] at low
    exact alive_of_rank _ low
  have wasRunning : after.1.node.state ≠ .shutdown → world.shared.node.state ≠ .shutdown := by
    intro now before
    have high := moves.forward
    rw [before] at high
    exact now (shutdown_of_rank _ high)
  have leaver := TakenOnce.advanced ⟨orderly.alive, orderly.leaver⟩ index task after.2 found
    wasAlive (moves.leaves.imp_right And.right)
  have closer := TakenOnce.advanced ⟨orderly.running, orderly.closer⟩ index task after.2 found
    wasRunning (moves.shuts.imp_right fun shut => ⟨shut.2.1, not_not_intro shut.2.2⟩)
  refine ⟨leaver.before, leaver.most, closer.before, closer.most, ?_, ?_⟩
  · intro effect
    have held := orderly.effects effect
    have made := moves.effects effect
    have passed := counts (Phase.hasPassed effect)
    dsimp only
    omega
  · intro other member given
    have forward := moves.forward
    rcases List.mem_or_eq_of_mem_set member with there | rfl
    · exact le_trans (orderly.returned other there given) forward
    · rcases moves.returns given with before | now
      · exact le_trans (orderly.returned task (List.mem_of_getElem? found) before) forward
      · exact now

theorem changed_orderly (part : Elsewhere Id Address) (orderly : Orderly world) :
    Orderly ((lifeCycle env snapshot).changed world part) := by
  have same : ((lifeCycle env snapshot).changed world part).shared.node.state =
      world.shared.node.state := step_state env world.shared part.1 part.2
  constructor
  · rw [same]
    exact orderly.alive
  · exact orderly.leaver
  · rw [same]
    exact orderly.running
  · exact orderly.closer
  · exact orderly.effects
  · rw [same]
    exact orderly.returned

theorem turn_orderly (turn : Turn Call Outside (Elsewhere Id Address)) (orderly : Orderly world) :
    Orderly ((lifeCycle env snapshot).turn world turn).1 :=
  (lifeCycle env snapshot).turn_preserves Orderly (started_orderly env snapshot)
    (advanced_orderly env snapshot) (changed_orderly env snapshot) world turn orderly

theorem turn_forward (turn : Turn Call Outside (Elsewhere Id Address)) (least : Nat)
    (reached : least ≤ rank world.shared.node.state) :
    least ≤ rank ((lifeCycle env snapshot).turn world turn).1.shared.node.state := by
  apply (lifeCycle env snapshot).turn_preserves
    (fun later => least ≤ rank later.shared.node.state)
  · intro later call held
    exact held
  · intro later index outside task _ held
    exact le_trans held (advance_moves env snapshot outside later.shared task).forward
  · intro later part held
    have same := step_state env later.shared part.1 part.2
    exact le_of_le_of_eq held (congrArg rank same.symm)
  · exact reached

theorem run_orderly (turns : List (Turn Call Outside (Elsewhere Id Address)))
    (orderly : Orderly world) : Orderly (run (lifeCycle env snapshot).turn world turns) :=
  run_invariant (lifeCycle env snapshot).turn (fun _ => True) Orderly
    (fun world turn _ held => turn_orderly env snapshot world turn held) world turns
    (fun _ _ => trivial) orderly

theorem run_forward (turns : List (Turn Call Outside (Elsewhere Id Address))) :
    rank world.shared.node.state ≤
      rank (run (lifeCycle env snapshot).turn world turns).shared.node.state :=
  run_invariant (lifeCycle env snapshot).turn (fun _ => True)
    (fun later => rank world.shared.node.state ≤ rank later.shared.node.state)
    (fun later turn _ held => turn_forward env snapshot later turn _ held) world turns
    (fun _ _ => trivial) (le_refl _)

omit [DecidableEq Id] in
theorem hasPassed_runs (effect : Effect) (task : Phase Id) (passed : task.hasPassed effect = true) :
    (if effect = .memberlistShutdown then task.shuts else task.leaves) = true := by
  cases task <;> cases effect <;>
    simp [Phase.hasPassed, Phase.passed, Phase.shuts, Phase.leaves] at passed ⊢

omit [DecidableEq Id] in
theorem orderly_effects (orderly : Orderly world) (effect : Effect) :
    world.shared.effects.count effect ≤ 1 := by
  refine le_trans (orderly.effects effect) ?_
  have runs := List.countP_mono_left fun task (_ : task ∈ world.tasks) =>
    hasPassed_runs effect task
  by_cases closing : effect = .memberlistShutdown
  · simp only [closing, if_true] at runs ⊢
    exact le_trans runs orderly.closer
  · simp only [closing, if_false] at runs
    exact le_trans runs orderly.leaver

theorem leave_uninterrupted (host : Host Id Address) (outside : Outside) :
    (run (lifeCycle env snapshot).turn ⟨host, []⟩
      (.start .leave :: List.replicate 7 (.advance 0 outside))).shared.node =
    (nodeStep env host.node (.beginLeave outside.now)).1 := by
  rw [nodeStep_uninterrupted]
  cases state : host.node.state with
  | alive =>
    cases snapshot <;>
      simp [run, System.turn, System.started, System.advanced, lifeCycle, advance, state,
        Host.step, Host.does, uninterrupted, thread, leaveThread, readsAt, sectionStep,
        leavingState]
  | _ =>
    simp [run, System.turn, System.started, System.advanced, lifeCycle, advance, state,
      uninterrupted]

end Turns

/-- Whatever calls and handlers run, and in whatever order: the state only moves forward
and stays in shutdown, one call at most leaves and one shuts the memberlist down,
each of their effects happens once at most, and behind a leave that returned `Ok` the
node has left or is shut down. -/
theorem leave_and_shutdown_ordered (env : NodeEnvironment Id Address) (snapshot : Bool)
    (start : SerfCore Id Address) (turns : List (Turn Call Outside (Elsewhere Id Address))) :
    let reached := run (lifeCycle env snapshot).turn ⟨⟨start, []⟩, []⟩ turns
    (∀ more, let later := run (lifeCycle env snapshot).turn reached more
      rank reached.shared.node.state ≤ rank later.shared.node.state ∧
      (reached.shared.node.state = .shutdown → later.shared.node.state = .shutdown) ∧
      ((∃ task ∈ reached.tasks, task.leftOk = true) →
        later.shared.node.state = .left ∨ later.shared.node.state = .shutdown)) ∧
    reached.tasks.countP Phase.leaves ≤ 1 ∧ reached.tasks.countP Phase.shuts ≤ 1 ∧
    ∀ effect, reached.shared.effects.count effect ≤ 1 := by
  intro reached
  have first : Orderly (⟨⟨start, []⟩, []⟩ : World (Host Id Address) (Phase Id)) := by
    refine ⟨fun _ => rfl, Nat.zero_le 1, fun _ => rfl, Nat.zero_le 1, fun _ => le_refl 0, nofun⟩
  have orderly : Orderly reached := run_orderly env snapshot _ turns first
  refine ⟨?_, orderly.leaver, orderly.closer, orderly_effects reached orderly⟩
  intro more later
  have forward : rank reached.shared.node.state ≤ rank later.shared.node.state :=
    run_forward env snapshot reached more
  refine ⟨forward, ?_, ?_⟩
  · intro down
    rw [down] at forward
    exact shutdown_of_rank _ forward
  · rintro ⟨task, member, ok⟩
    have left := le_trans (orderly.returned task member ok) forward
    cases state : later.shared.node.state <;> simp [state, rank] at left ⊢

/-- Two leaves and two shutdowns at once. The first leave is at the memberlist when
the node is shut down; it returns `Ok` and leaves the state alone. -/
def crossing : List (Turn Call Outside (Elsewhere String Nat)) :=
  let outside : Outside := ⟨0, .ok (), .ok ()⟩
  [Turn.start Call.leave, .start .leave, .start .shutdown, .start .shutdown] ++
    List.replicate 8 (Turn.advance 0 outside) ++ [Turn.advance 1 outside] ++
    List.replicate 3 (Turn.advance 2 outside) ++ List.replicate 3 (Turn.advance 0 outside) ++
    [Turn.advance 3 outside]

theorem crossing_ordered :
    let reached := run (lifeCycle plainCore true).turn
      ⟨⟨newIn (freshStart 3 (by decide)), []⟩, []⟩ crossing
    reached.tasks.map Phase.leftOk = [true, false, false, false] ∧
    reached.shared.effects =
      [.snapshotLeave, .leaveIntent, .memberlistShutdown, .memberlistLeave] ∧
    (∀ more, (run (lifeCycle plainCore true).turn reached more).shared.node.state = .shutdown) ∧
    reached.tasks.countP Phase.leaves ≤ 1 ∧ reached.tasks.countP Phase.shuts ≤ 1 := by
  intro reached
  have ordered := leave_and_shutdown_ordered plainCore true (newIn (freshStart 3 (by decide)))
    crossing
  refine ⟨by decide, by decide, ?_, ordered.2.1, ordered.2.2.1⟩
  intro more
  exact (ordered.1 more).2.1 (by decide)

end Serf.LifeCycle
