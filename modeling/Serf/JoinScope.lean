import Serf.Library.Exclusion
import Serf.Sections
import Serf.EventDelivery
import Serf.PushPull

/-!
Concurrent calls of `join` and `join_many`. A call holds `join_lock` from the moment it
gets it until it returns or its future is dropped. If it is to ignore old events it sets
`event_join_ignore` first, and it takes the flag back by hand on each of its ways out;
dropping the future only gives the lock back. A merge reads the flag and raises the
minimum event time under another lock later, so it may act on a flag that is no longer
set. Merges and everything else that the node does go on between the steps of the calls.
-/

namespace Serf.JoinScope

open Library.Machine Library.Tasks Library.Exclusion
open LamportClock MemberTable EventHandler QueryHandler Serf.Core Sections

variable {Id Address : Type} [DecidableEq Id]

inductive JoinCall where
  | join (ignoreOld : Bool)
  | joinMany (ignoreOld : Bool)
  deriving DecidableEq

def JoinCall.ignoreOld : JoinCall → Bool
  | .join ignoreOld | .joinMany ignoreOld => ignoreOld

inductive JoinError where
  | badJoinStatus (state : SerfState)
  | memberlist (reason : String)
  | broadcast (reason : NodeError)
  | multiple (first second : JoinError)

inductive JoinResult (Address : Type) where
  | join (result : Except JoinError Address)
  | joinMany (result : Except (List Address × JoinError) (List Address))

inductive Contacted (Address : Type) where
  | one (node : Address)
  | many (joined : List Address) (failed : Option String)

inductive Phase (Id Address : Type) where
  | called
  | waiting
  /-- The call holds the lock and memberlist is contacting the nodes. -/
  | contacting
  /-- The sections that `broadcast_join` has still to run. -/
  | broadcasting (contacted : Contacted Address) (msg : JoinMessage Id)
      (rest : List (Section Id Address))
  | returned (result : JoinResult Address)
  | dropped

inductive Task (Id Address : Type) where
  | join (call : JoinCall) (phase : Phase Id Address)
  /-- The operations still to make, and the sections left of the one at hand. -/
  | merge (ops : List (NodeOp Id Address)) (sections : List (Section Id Address))

inductive Call (Id : Type) where
  | join (call : JoinCall)
  | merge (now : Id → Epoch) (isJoin : Bool) (remote : RemoteState Id)

/-- What a step reads from outside: the answers of memberlist and the wall clock. -/
structure Moment (Address : Type) where
  join : Except String Address
  joinMany : Except (List Address × String) (List Address)
  now : Epoch

inductive Signal (Address : Type) where
  | resumed (moment : Moment Address)
  /-- The future is dropped where it waits. -/
  | dropped

structure Joining (Id Address : Type) where
  node : SerfCore Id Address
  joinLock : Bool

/-- The section neither touches the flag nor raises the minimum event time. -/
def foreign : Section Id Address → Bool
  | .setEventJoinIgnore _ | .raiseMinTime _ => false
  | _ => true

def ofMerge : NodeOp Id Address → Bool
  | .witnessRemote _ _ _ | .leaveIntent _ _ | .joinIntent _ _ | .ignoreOldEvents _
  | .receiveUserEvent _ => true
  | _ => false

theorem mergeRemoteState_ofMerge (now : Id → Epoch) (isJoin : Bool) (remote : RemoteState Id)
    (op : NodeOp Id Address) (member : op ∈ mergeRemoteState now isJoin remote) :
    ofMerge op = true := by
  cases remote with
  | unreadable | otherMessage => cases member
  | badCollections ltime eventLtime queryLtime =>
    rw [List.mem_singleton.mp member]
    rfl
  | pushPull pp =>
    rcases PushPull.mergeRemoteState_op now isJoin pp op member with
      rfl | ⟨msg, _, rfl⟩ | ⟨msg, _, rfl⟩ | rfl | ⟨msg, _, rfl⟩ <;> rfl

section Calls

variable (env : NodeEnvironment Id Address)

/-- The flag on the way out: `join` takes it back only if it has set it. -/
def JoinCall.reset (flag : Bool) : JoinCall → Bool
  | .join ignoreOld => if ignoreOld then false else flag
  | .joinMany _ => false

def JoinCall.refused (reason : JoinError) : JoinCall → JoinResult Address
  | .join _ => .join (.error reason)
  | .joinMany _ => .joinMany (.error ([], reason))

/-- What the call returns once the broadcast has ended. -/
def Contacted.result (broadcast : Option NodeError) : Contacted Address → JoinResult Address
  | .one node =>
    match broadcast with
    | none => .join (.ok node)
    | some e => .join (.error (.broadcast e))
  | .many joined none =>
    match broadcast with
    | none => .joinMany (.ok joined)
    | some e => .joinMany (.error (joined, .broadcast e))
  | .many joined (some err) =>
    match broadcast with
    | none => .joinMany (.error (joined, .memberlist err))
    | some e => .joinMany (.error (joined, .multiple (.memberlist err) (.broadcast e)))

def store (flag : Bool) (node : SerfCore Id Address) : SerfCore Id Address :=
  { node with eventJoinIgnore := flag }

def release (call : JoinCall) (shared : Joining Id Address) : Joining Id Address :=
  ⟨store (call.reset shared.node.eventJoinIgnore) shared.node, false⟩

def broadcastPhase (contacted : Contacted Address) (now : Epoch) (shared : Joining Id Address) :
    Phase Id Address :=
  .broadcasting contacted ⟨shared.node.clock, env.membership.localId⟩
    (joinThread env now shared.node.clock)

def advanceJoin (moment : Moment Address) (shared : Joining Id Address) (call : JoinCall) :
    Phase Id Address → Joining Id Address × Phase Id Address
  | .called =>
    -- The state is not looked at again once the call has the lock.
    if shared.node.state = .alive then (shared, .waiting)
    else (shared, .returned (call.refused (.badJoinStatus shared.node.state)))
  | .waiting =>
    if shared.joinLock then (shared, .waiting)
    else if call.ignoreOld then (⟨store true shared.node, true⟩, .contacting)
    else ({ shared with joinLock := true }, .contacting)
  | .contacting =>
    match call with
    | .join _ =>
      match moment.join with
      | .ok node => (shared, broadcastPhase env (.one node) moment.now shared)
      | .error e => (release call shared, .returned (.join (.error (.memberlist e))))
    | .joinMany _ =>
      match moment.joinMany with
      | .ok joined => (shared, broadcastPhase env (.many joined none) moment.now shared)
      | .error (joined, err) =>
        -- A join that has reached somebody is broadcast although it fails.
        if joined.isEmpty then
          (release call shared, .returned (.joinMany (.error (joined, .memberlist err))))
        else (shared, broadcastPhase env (.many joined (some err)) moment.now shared)
  | .broadcasting contacted msg (next :: rest) =>
    ({ shared with node := (sectionStep env shared.node next).1 },
      .broadcasting contacted msg rest)
  | .broadcasting contacted msg [] =>
    match env.encodeJoin msg with
    | .ok _ => (release call shared, .returned (contacted.result none))
    | .error reason =>
      (release call shared, .returned (contacted.result (some (.encode reason))))
  | .returned result => (shared, .returned result)
  | .dropped => (shared, .dropped)

def dropJoin (shared : Joining Id Address) :
    Phase Id Address → Joining Id Address × Phase Id Address
  | .called | .waiting | .dropped => (shared, .dropped)
  -- The guard of the lock is all that is dropped with the future.
  | .contacting | .broadcasting _ _ _ => ({ shared with joinLock := false }, .dropped)
  | .returned result => (shared, .returned result)

def advanceMerge (shared : Joining Id Address) :
    (ops : List (NodeOp Id Address)) → (sections : List (Section Id Address)) →
      Joining Id Address × Task Id Address
  | ops, next :: rest =>
    ({ shared with node := (sectionStep env shared.node next).1 }, .merge ops rest)
  | op :: rest, [] => (shared, .merge rest (thread env (readsAt shared.node op) op))
  | [], [] => (shared, .merge [] [])

def advance (signal : Signal Address) (shared : Joining Id Address) (task : Task Id Address) :
    Joining Id Address × Task Id Address :=
  match task, signal with
  | .join call phase, .resumed moment =>
    let result := advanceJoin env moment shared call phase
    (result.1, .join call result.2)
  | .join call phase, .dropped =>
    let result := dropJoin shared phase
    (result.1, .join call result.2)
  | .merge ops sections, .resumed _ => advanceMerge env shared ops sections
  | .merge _ _, .dropped => (shared, .merge [] [])

def spawn : Call Id → Task Id Address
  | .join call => .join call .called
  | .merge now isJoin remote => .merge (mergeRemoteState now isJoin remote) []

/-- Whatever else the node does runs sections that leave the flag and the minimum event
time alone. -/
def joining : System (Joining Id Address) (Task Id Address) (Call Id) (Signal Address)
    { step : Section Id Address // foreign step = true } where
  spawn := spawn
  advance := advance env
  change step shared := { shared with node := (sectionStep env shared.node step.1).1 }

section Alone

variable (moment : Moment Address) (node : SerfCore Id Address) (locked : Bool)

theorem sections_alone (ops : List (NodeOp Id Address)) (sections : List (Section Id Address)) :
    run (joining env).turn ⟨⟨node, locked⟩, [.merge ops sections]⟩
      (List.replicate sections.length (.advance 0 (.resumed moment))) =
    ⟨⟨run (sectionStep env) node sections, locked⟩, [.merge ops []]⟩ := by
  induction sections generalizing node with
  | nil => rfl
  | cons next rest ih => exact ih (sectionStep env node next).1

theorem ops_alone (ops : List (NodeOp Id Address)) (merged : ∀ op ∈ ops, ofMerge op = true) :
    ∃ turns, run (joining env).turn ⟨⟨node, locked⟩, [.merge ops []]⟩
      (List.replicate turns (.advance 0 (.resumed moment))) =
    ⟨⟨run (nodeStep env) node ops, locked⟩, [.merge [] []]⟩ := by
  induction ops generalizing node with
  | nil => exact ⟨0, rfl⟩
  | cons op rest ih =>
    have whole : (nodeStep env node op).1 =
        run (sectionStep env) node (thread env (readsAt node op) op) := by
      rw [nodeStep_uninterrupted, uninterrupted]
      rintro now rfl
      cases merged _ List.mem_cons_self
    obtain ⟨turns, later⟩ := ih (nodeStep env node op).1 fun other member =>
      merged other (List.mem_cons_of_mem op member)
    -- One turn to read, one for each section, and then the other operations.
    refine ⟨1 + (thread env (readsAt node op) op).length + turns, ?_⟩
    rw [List.replicate_add, List.replicate_add, run_append, run_append, run, ← later, whole,
      ← sections_alone env moment node locked rest (thread env (readsAt node op) op)]
    rfl

theorem merge_alone (now : Id → Epoch) (isJoin : Bool) (remote : RemoteState Id) :
    ∃ turns, run (joining env).turn ⟨⟨node, locked⟩, []⟩
      (.start (.merge now isJoin remote) ::
        List.replicate turns (.advance 0 (.resumed moment))) =
    ⟨⟨run (nodeStep env) node (mergeRemoteState now isJoin remote), locked⟩, [.merge [] []]⟩ :=
  ops_alone env moment node locked _ (mergeRemoteState_ofMerge now isJoin remote)

/-- The operations of a join that contacts a node. -/
def JoinCall.ops (now : Epoch) : JoinCall → List (NodeOp Id Address)
  | .join false => [.broadcastJoin now]
  | .join true => [.setEventJoinIgnore true, .broadcastJoin now, .setEventJoinIgnore false]
  | .joinMany false => [.broadcastJoin now, .setEventJoinIgnore false]
  | .joinMany true => [.setEventJoinIgnore true, .broadcastJoin now, .setEventJoinIgnore false]

theorem broadcast_alone (call : JoinCall) (contacted : Contacted Address) :
    (run (joining env).turn
      ⟨⟨node, true⟩, [.join call (broadcastPhase env contacted moment.now ⟨node, true⟩)]⟩
      (List.replicate 4 (.advance 0 (.resumed moment)))).shared =
    release call ⟨(nodeStep env node (.broadcastJoin moment.now)).1, true⟩ := by
  simp only [List.replicate, run, System.turn_alone, joining, advance, broadcastPhase, joinThread,
    advanceJoin, nodeStep, broadcastJoin_node]
  cases env.encodeJoin ⟨node.clock, env.membership.localId⟩ <;> rfl

theorem join_alone (call : JoinCall) (alive : node.state = .alive) (contact : Address)
    (contacts : List Address) (one : moment.join = .ok contact)
    (many : moment.joinMany = .ok contacts) :
    (run (joining env).turn ⟨⟨node, false⟩, []⟩
      (.start (.join call) :: List.replicate 7 (.advance 0 (.resumed moment)))).shared =
    ⟨run (nodeStep env) node (call.ops moment.now), false⟩ := by
  have split : List.replicate 7 (Turn.advance 0 (.resumed moment)) =
      List.replicate 3 (.advance 0 (.resumed moment)) ++
        List.replicate 4 (.advance 0 (.resumed moment) : Turn (Call Id) (Signal Address)
          { step : Section Id Address // foreign step = true }) := rfl
  rw [run, split, run_append]
  have reached : ∃ contacted, run (joining env).turn
      ((joining env).turn ⟨⟨node, false⟩, []⟩ (.start (.join call))).1
      (List.replicate 3 (.advance 0 (.resumed moment))) =
      let held := if call.ignoreOld then store true node else node
      ⟨⟨held, true⟩, [.join call (broadcastPhase env contacted moment.now ⟨held, true⟩)]⟩ := by
    cases call with
    | join ignoreOld =>
      refine ⟨.one contact, ?_⟩
      cases ignoreOld <;> simp [run, List.replicate, joining, spawn, advance, advanceJoin, alive,
        one, JoinCall.ignoreOld]
    | joinMany ignoreOld =>
      refine ⟨.many contacts none, ?_⟩
      cases ignoreOld <;> simp [run, List.replicate, joining, spawn, advance, advanceJoin, alive,
        many, JoinCall.ignoreOld]
  obtain ⟨contacted, reached⟩ := reached
  rw [reached, broadcast_alone]
  cases call with
  | join ignoreOld => cases ignoreOld <;> rfl
  | joinMany ignoreOld => cases ignoreOld <;> rfl

end Alone

end Calls

section Frames

variable (env : NodeEnvironment Id Address) (node : SerfCore Id Address)

theorem sectionStep_flag (step : Section Id Address)
    (other : ∀ flag, step ≠ .setEventJoinIgnore flag) :
    (sectionStep env node step).1.eventJoinIgnore = node.eventJoinIgnore := by
  cases step with
  | setEventJoinIgnore flag => exact absurd rfl (other flag)
  | recordEvent msg =>
    simp only [sectionStep, recordEvent]
    split <;> rfl
  | recordQuery q ty =>
    simp only [sectionStep, Sections.recordQuery]
    split <;> rfl
  | raiseMinTime eventLtime =>
    simp only [sectionStep, raiseMinTime]
    split <;> rfl
  | enterLeft =>
    simp only [sectionStep, finishLeave]
    split <;> rfl
  | _ => rfl

theorem sectionStep_minTime (step : Section Id Address)
    (other : ∀ eventLtime, step ≠ .raiseMinTime eventLtime) :
    (sectionStep env node step).1.events.core.minTime = node.events.core.minTime := by
  cases step with
  | raiseMinTime eventLtime => exact absurd rfl (other eventLtime)
  | recordEvent msg =>
    simp only [sectionStep, recordEvent]
    split
    · rfl
    · rename_i core accepted recorded
      rcases EventDelivery.recordUserEvent_writes _ msg _ core accepted recorded with
        rfl | ⟨slot, rfl, _⟩ <;> rfl
  | recordQuery q ty =>
    simp only [sectionStep, Sections.recordQuery]
    split <;> rfl
  | enterLeft =>
    simp only [sectionStep, finishLeave]
    split <;> rfl
  | _ => rfl

omit [DecidableEq Id] in
theorem foreign_quiet (step : Section Id Address) (outside : foreign step = true) :
    (∀ flag, step ≠ .setEventJoinIgnore flag) ∧ ∀ eventLtime, step ≠ .raiseMinTime eventLtime := by
  constructor
  · rintro flag rfl
    cases outside
  · rintro eventLtime rfl
    cases outside

omit [DecidableEq Id] in
theorem mem_witnessBeforeThread (make : LamportTime → Section Id Address) (ltime : LamportTime)
    (step : Section Id Address) (member : step ∈ witnessBeforeThread make ltime) :
    step = make (ltime - 1) := by
  rw [witnessBeforeThread] at member
  split at member
  · exact List.mem_singleton.mp member
  · cases member

omit [DecidableEq Id] in
theorem thread_foreign (reads : Reads) (op : NodeOp Id Address) (merged : ofMerge op = true)
    (step : Section Id Address) (member : step ∈ thread env reads op) :
    foreign step = true ∨ (∃ eventLtime, step = .raiseMinTime eventLtime) ∧
      reads.ignoring = true := by
  cases op with
  | ignoreOldEvents eventLtime =>
    simp only [thread] at member
    split at member
    · rename_i ignoring
      exact Or.inr ⟨⟨eventLtime, List.mem_singleton.mp member⟩, ignoring⟩
    · cases member
  | witnessRemote ltime eventLtime queryLtime =>
    left
    simp only [thread, List.mem_append] at member
    rcases member with (clock | event) | query
    · rw [mem_witnessBeforeThread _ _ _ clock]
      rfl
    · rw [mem_witnessBeforeThread _ _ _ event]
      rfl
    · rw [mem_witnessBeforeThread _ _ _ query]
      rfl
  | joinIntent | leaveIntent | receiveUserEvent =>
    left
    simp only [thread, leaveThread, List.mem_cons, List.not_mem_nil, or_false] at member
    rcases member with rfl | rfl <;> rfl
  | _ => cases merged

omit [DecidableEq Id] in
theorem readsAt_ignoring (op : NodeOp Id Address) :
    (readsAt node op).ignoring = node.eventJoinIgnore := by
  cases op <;> rfl

end Frames

section Steps

def Phase.inside : Phase Id Address → Bool
  | .contacting | .broadcasting _ _ _ => true
  | .called | .waiting | .returned _ | .dropped => false

/-- The task is a join that holds the lock. -/
def Task.inside : Task Id Address → Bool
  | .join _ phase => phase.inside
  | .merge _ _ => false

/-- The task holds the lock and is to ignore old events. -/
def Task.ignoring : Task Id Address → Bool
  | .join call phase => phase.inside && call.ignoreOld
  | .merge _ _ => false

/-- The task holds the lock and is not to ignore old events. -/
def Task.keeping : Task Id Address → Bool
  | .join call phase => phase.inside && !call.ignoreOld
  | .merge _ _ => false

def raises : Section Id Address → Bool
  | .raiseMinTime _ => true
  | _ => false

omit [DecidableEq Id] in
theorem raises_raise (step : Section Id Address) (raising : raises step = true) :
    ∃ eventLtime, step = .raiseMinTime eventLtime := by
  cases step with
  | raiseMinTime eventLtime => exact ⟨eventLtime, rfl⟩
  | _ => cases raising

def Task.armed : Task Id Address → Bool
  | .join _ _ => false
  | .merge _ sections => sections.any raises

def Mild : Task Id Address → Prop
  | .join _ (.broadcasting _ _ rest) => ∀ step ∈ rest, foreign step = true
  | .join _ _ => True
  | .merge ops sections =>
    (∀ op ∈ ops, ofMerge op = true) ∧
    ∀ step ∈ sections, ∀ flag, step ≠ .setEventJoinIgnore flag

inductive Step (signal : Signal Address) (shared next : Joining Id Address) :
    Task Id Address → Task Id Address → Prop where
  | idle (before after : Task Id Address) (lock : next.joinLock = shared.joinLock)
      (flag : next.node.eventJoinIgnore = shared.node.eventJoinIgnore)
      (minTime : next.node.events.core.minTime = shared.node.events.core.minTime)
      (inside : after.inside = before.inside) (ignoring : after.ignoring = before.ignoring)
      (keeping : after.keeping = before.keeping)
      (armed : after.armed = true → before.armed = true) : Step signal shared next before after
  | enters (call : JoinCall) (moment : Moment Address) (resumed : signal = .resumed moment)
      (free : shared.joinLock = false) (taken : next.joinLock = true)
      (flag : next.node.eventJoinIgnore = (call.ignoreOld || shared.node.eventJoinIgnore))
      (minTime : next.node.events.core.minTime = shared.node.events.core.minTime) :
      Step signal shared next (.join call .waiting) (.join call .contacting)
  | returns (call : JoinCall) (phase : Phase Id Address) (result : JoinResult Address)
      (inside : phase.inside = true) (free : next.joinLock = false)
      (flag : next.node.eventJoinIgnore = call.reset shared.node.eventJoinIgnore)
      (minTime : next.node.events.core.minTime = shared.node.events.core.minTime) :
      Step signal shared next (.join call phase) (.join call (.returned result))
  | drops (call : JoinCall) (phase : Phase Id Address) (dropped : signal = .dropped)
      (inside : phase.inside = true) (free : next.joinLock = false)
      (same : next.node = shared.node) :
      Step signal shared next (.join call phase) (.join call .dropped)
  | arms (before after : List (NodeOp Id Address)) (sections : List (Section Id Address))
      (same : next = shared) (set : shared.node.eventJoinIgnore = true) :
      Step signal shared next (.merge before []) (.merge after sections)
  | raises (ops : List (NodeOp Id Address)) (before after : List (Section Id Address))
      (lock : next.joinLock = shared.joinLock)
      (flag : next.node.eventJoinIgnore = shared.node.eventJoinIgnore)
      (armed : before.any raises = true) :
      Step signal shared next (.merge ops before) (.merge ops after)

variable (env : NodeEnvironment Id Address)

variable (moment : Moment Address) (shared : Joining Id Address)

theorem resumed_step (call : JoinCall) (phase : Phase Id Address) (mild : Mild (.join call phase)) :
    Step (.resumed moment) shared (advanceJoin env moment shared call phase).1 (.join call phase)
      (.join call (advanceJoin env moment shared call phase).2) := by
  have still : ∀ after : Phase Id Address, after.inside = phase.inside →
      Step (.resumed moment) shared shared (.join call phase) (.join call after) :=
    fun after same => .idle _ _ rfl rfl rfl same (by simp only [Task.ignoring, same])
      (by simp only [Task.keeping, same]) id
  have leaves : ∀ result, phase.inside = true →
      Step (.resumed moment) shared (release call shared) (.join call phase)
        (.join call (.returned result)) :=
    fun result inside => .returns call phase result inside rfl rfl rfl
  cases phase with
  | called =>
    rw [advanceJoin]
    split
    · exact still _ rfl
    · exact still _ rfl
  | waiting =>
    rw [advanceJoin]
    cases taken : shared.joinLock with
    | true => exact still _ rfl
    | false =>
      cases ignoring : call.ignoreOld with
      | true => exact .enters call moment rfl taken rfl (by rw [ignoring]; rfl) rfl
      | false => exact .enters call moment rfl taken rfl (by rw [ignoring]; rfl) rfl
  | contacting =>
    cases call with
    | join ignoreOld =>
      simp only [advanceJoin]
      cases moment.join with
      | ok node => exact still _ rfl
      | error e => exact leaves _ rfl
    | joinMany ignoreOld =>
      simp only [advanceJoin]
      cases moment.joinMany with
      | ok joined => exact still _ rfl
      | error failed =>
        dsimp only
        split
        · exact leaves _ rfl
        · exact still _ rfl
  | broadcasting contacted msg rest =>
    cases rest with
    | nil =>
      simp only [advanceJoin]
      cases env.encodeJoin msg with
      | ok raw => exact leaves _ rfl
      | error reason => exact leaves _ rfl
    | cons next rest =>
      obtain ⟨flag, minTime⟩ := foreign_quiet next (mild next List.mem_cons_self)
      exact .idle _ _ rfl (sectionStep_flag env _ _ flag) (sectionStep_minTime env _ _ minTime)
        rfl rfl rfl id
  | returned result => exact still _ rfl
  | dropped => exact still _ rfl

omit [DecidableEq Id] in
theorem dropped_step (call : JoinCall) (phase : Phase Id Address) :
    Step .dropped shared (dropJoin shared phase).1 (.join call phase)
      (.join call (dropJoin shared phase).2) := by
  cases phase with
  | contacting | broadcasting => exact .drops call _ rfl rfl rfl rfl
  | _ => exact .idle _ _ rfl rfl rfl rfl rfl rfl id

theorem merge_step (signal : Signal Address) (shared : Joining Id Address)
    (ops : List (NodeOp Id Address)) (sections : List (Section Id Address))
    (mild : Mild (.merge ops sections)) :
    Step signal shared (advanceMerge env shared ops sections).1 (.merge ops sections)
      (advanceMerge env shared ops sections).2 := by
  cases sections with
  | cons next rest =>
    have flag := sectionStep_flag env shared.node next (mild.2 next List.mem_cons_self)
    rw [advanceMerge]
    cases raising : raises next with
    | true => exact .raises ops _ rest rfl flag (by simp [raising])
    | false =>
      have minTime := sectionStep_minTime env shared.node next fun eventLtime is => by
        rw [is] at raising
        cases raising
      exact .idle _ _ rfl flag minTime rfl rfl rfl (by simp [Task.armed, raising])
  | nil =>
    cases ops with
    | nil => exact .idle _ _ rfl rfl rfl rfl rfl rfl id
    | cons op rest =>
      rw [advanceMerge]
      -- The flag is read here; the raise is a section of its own.
      by_cases arming : (thread env (readsAt shared.node op) op).any raises = true
      · refine .arms _ _ _ rfl ?_
        obtain ⟨step, member, raising⟩ := List.any_eq_true.mp arming
        have quiet := thread_foreign env (readsAt shared.node op) op
          (mild.1 op List.mem_cons_self) step member
        rcases quiet with outside | ⟨_, ignoring⟩
        · obtain ⟨eventLtime, is⟩ := raises_raise step raising
          exact absurd is ((foreign_quiet step outside).2 eventLtime)
        · rwa [readsAt_ignoring] at ignoring
      · exact .idle _ _ rfl rfl rfl rfl rfl rfl fun armed => absurd armed arming

theorem advance_step (signal : Signal Address) (shared : Joining Id Address)
    (task : Task Id Address) (mild : Mild task) :
    Step signal shared (advance env signal shared task).1 task
      (advance env signal shared task).2 := by
  cases task with
  | join call phase =>
    cases signal with
    | resumed moment => exact resumed_step env moment shared call phase mild
    | dropped => exact dropped_step shared call phase
  | merge ops sections =>
    cases signal with
    | resumed moment => exact merge_step env _ shared ops sections mild
    | dropped => exact .idle _ _ rfl rfl rfl rfl rfl rfl fun armed => by cases armed

theorem spawn_mild (call : Call Id) : Mild (spawn call : Task Id Address) := by
  cases call with
  | join call => trivial
  | merge now isJoin remote =>
    exact ⟨mergeRemoteState_ofMerge now isJoin remote,
      fun step none => absurd none List.not_mem_nil⟩

omit [DecidableEq Id] in
theorem joinThread_foreign (now : Epoch) (ltime : LamportTime) :
    ∀ step ∈ joinThread env now ltime, foreign step = true := by
  intro step member
  simp only [joinThread, List.mem_cons, List.not_mem_nil, or_false] at member
  rcases member with rfl | rfl | rfl <;> rfl

theorem advanceJoin_mild (call : JoinCall) (phase : Phase Id Address)
    (mild : Mild (.join call phase)) :
    Mild (.join call (advanceJoin env moment shared call phase).2) := by
  cases phase with
  | called =>
    rw [advanceJoin]
    split <;> trivial
  | waiting =>
    rw [advanceJoin]
    split
    · trivial
    · split <;> trivial
  | contacting =>
    cases call with
    | join ignoreOld =>
      simp only [advanceJoin]
      cases moment.join with
      | ok node => exact joinThread_foreign env _ _
      | error e => trivial
    | joinMany ignoreOld =>
      simp only [advanceJoin]
      cases moment.joinMany with
      | ok joined => exact joinThread_foreign env _ _
      | error failed =>
        dsimp only
        split
        · trivial
        · exact joinThread_foreign env _ _
  | broadcasting contacted msg rest =>
    cases rest with
    | nil =>
      simp only [advanceJoin]
      cases env.encodeJoin msg <;> trivial
    | cons next rest => exact fun step member => mild step (List.mem_cons_of_mem _ member)
  | returned result => trivial
  | dropped => trivial

theorem advanceMerge_mild (ops : List (NodeOp Id Address)) (sections : List (Section Id Address))
    (mild : Mild (.merge ops sections)) : Mild (advanceMerge env shared ops sections).2 := by
  cases sections with
  | cons next rest =>
    exact ⟨mild.1, fun step member => mild.2 step (List.mem_cons_of_mem _ member)⟩
  | nil =>
    cases ops with
    | nil => exact mild
    | cons op rest =>
      refine ⟨fun other member => mild.1 other (List.mem_cons_of_mem _ member), ?_⟩
      intro step member flag
      rcases thread_foreign env _ op (mild.1 op List.mem_cons_self) step member with
        outside | ⟨⟨eventLtime, rfl⟩, _⟩
      · exact (foreign_quiet step outside).1 flag
      · exact fun is => by cases is

theorem advance_mild (signal : Signal Address) (shared : Joining Id Address)
    (task : Task Id Address) (mild : Mild task) : Mild (advance env signal shared task).2 := by
  cases task with
  | join call phase =>
    cases signal with
    | resumed moment => exact advanceJoin_mild env moment shared call phase mild
    | dropped => cases phase <;> trivial
  | merge ops sections =>
    cases signal with
    | resumed moment => exact advanceMerge_mild env shared ops sections mild
    | dropped => exact ⟨fun op none => absurd none List.not_mem_nil,
        fun step none => absurd none List.not_mem_nil⟩

end Steps

section Scope

variable (env : NodeEnvironment Id Address)

abbrev JoinTurn (Id Address : Type) :=
  Turn (Call Id) (Signal Address) { step : Section Id Address // foreign step = true }

/-- What holds at any time: the lock excludes, and nothing but the calls sets the flag. -/
structure Sound (world : World (Joining Id Address) (Task Id Address)) : Prop where
  exclusive : Exclusive Task.inside world.shared.joinLock world.tasks
  mild : ∀ task ∈ world.tasks, Mild task

def Flagged (world : World (Joining Id Address) (Task Id Address)) : Prop :=
  Exclusive Task.ignoring world.shared.node.eventJoinIgnore world.tasks

def Calm (world : World (Joining Id Address) (Task Id Address)) : Prop :=
  (∃ task ∈ world.tasks, task.keeping = true) → ∀ task ∈ world.tasks, task.armed = false

/-- The turn drops a call that ignores old events while it holds the lock. -/
def strays (world : World (Joining Id Address) (Task Id Address)) : JoinTurn Id Address → Bool
  | .advance index .dropped => world.tasks[index]?.any Task.ignoring
  | _ => false

/-- The turn gives the lock to a call that keeps old events before a merge with a set flag
at hand has raised the minimum time. -/
def overtakes (world : World (Joining Id Address) (Task Id Address)) : JoinTurn Id Address → Bool
  | .advance index (.resumed _) =>
    match world.tasks[index]? with
    | some (.join call .waiting) =>
      !call.ignoreOld && !world.shared.joinLock && world.tasks.any Task.armed
    | _ => false
  | _ => false

section Moves

variable {signal : Signal Address} {shared next : Joining Id Address}
  {before after : Task Id Address} (step : Step signal shared next before after)

omit [DecidableEq Id] in
theorem inside_cases (task : Task Id Address) :
    (task.ignoring = true → task.inside = true) ∧
    (task.keeping = true → task.inside = true ∧ task.ignoring = false) := by
  cases task with
  | join call phase =>
    simp only [Task.inside, Task.ignoring, Task.keeping]
    cases phase.inside <;> cases call.ignoreOld <;> decide
  | merge ops sections => exact ⟨fun none => none, fun none => by cases none⟩

include step

omit [DecidableEq Id] in
theorem Step.passes : Passes shared.joinLock before.inside next.joinLock after.inside := by
  cases step with
  | idle _ _ lock _ _ inside =>
    rw [lock, inside]
    exact .stays _ _
  | enters call moment resumed free taken =>
    rw [free, taken]
    exact .enters
  | returns call phase result inside free =>
    rw [free, Task.inside, inside]
    exact .leaves _
  | drops call phase dropped inside free =>
    rw [free, Task.inside, inside]
    exact .leaves _
  | arms _ _ _ same =>
    rw [same]
    exact .stays _ _
  | raises _ _ _ lock =>
    rw [lock]
    exact .stays _ _

omit [DecidableEq Id] in
theorem Step.scopes (unset : shared.joinLock = false → shared.node.eventJoinIgnore = false)
    (kept : before.keeping = true → shared.node.eventJoinIgnore = false)
    (stays : ¬ (signal = .dropped ∧ before.ignoring = true)) :
    Passes shared.node.eventJoinIgnore before.ignoring next.node.eventJoinIgnore
      after.ignoring := by
  cases step with
  | idle _ _ _ flag _ _ ignoring =>
    rw [flag, ignoring]
    exact .stays _ _
  | enters call moment resumed free taken flag =>
    rw [flag, unset free]
    simp only [Task.ignoring]
    cases call.ignoreOld with
    | true => exact .enters
    | false => exact .stays _ _
  | returns call phase result inside free flag =>
    rw [flag]
    simp only [Task.ignoring, Task.keeping, inside] at kept ⊢
    -- `join_many` clears the flag in any case; if it has not set it, nobody has.
    cases old : call.ignoreOld with
    | true =>
      have cleared : call.reset shared.node.eventJoinIgnore = false := by
        cases call with
        | join ignoreOld =>
          cases old
          rfl
        | joinMany ignoreOld => rfl
      rw [cleared]
      exact .leaves _
    | false =>
      have clear := kept (by simp [old])
      rw [clear]
      cases call with
      | join ignoreOld =>
        cases old
        exact .stays _ _
      | joinMany ignoreOld => exact .stays _ _
  | drops call phase dropped inside free same =>
    have keeping : (Task.join call phase).ignoring = false := by
      cases ignoring : (Task.join call phase).ignoring with
      | true => exact absurd ⟨dropped, ignoring⟩ stays
      | false => rfl
    rw [same, keeping]
    exact .stays _ _
  | arms _ _ _ same =>
    rw [same]
    exact .stays _ _
  | raises _ _ _ _ flag =>
    rw [flag]
    exact .stays _ _

omit [DecidableEq Id] in
theorem Step.minTime (unarmed : before.armed = false) :
    next.node.events.core.minTime = shared.node.events.core.minTime := by
  cases step with
  | idle _ _ _ _ minTime => exact minTime
  | enters _ _ _ _ _ _ minTime => exact minTime
  | returns _ _ _ _ _ _ minTime => exact minTime
  | drops _ _ _ _ _ same => rw [same]
  | arms _ _ _ same => rw [same]
  | raises _ _ _ _ _ armed => cases unarmed.symm.trans armed

omit [DecidableEq Id] in
theorem Step.keeps (keeping : after.keeping = true) :
    before.keeping = true ∨ ∃ call moment, before = .join call .waiting ∧
      signal = .resumed moment ∧ call.ignoreOld = false ∧ shared.joinLock = false := by
  cases step with
  | idle _ _ _ _ _ _ _ same => exact Or.inl (same ▸ keeping)
  | enters call moment resumed free =>
    exact Or.inr ⟨call, moment, rfl, resumed, by simpa [Task.keeping, Phase.inside] using keeping,
      free⟩
  | returns | drops => cases keeping
  | arms | raises => cases keeping

omit [DecidableEq Id] in
theorem Step.unarmed (unset : shared.node.eventJoinIgnore = false)
    (unarmed : before.armed = false) : after.armed = false := by
  cases step with
  | idle _ _ _ _ _ _ _ _ armed =>
    cases arming : after.armed with
    | false => rfl
    | true => cases unarmed.symm.trans (armed arming)
  | enters | returns | drops => rfl
  | arms _ _ _ _ set => cases unset.symm.trans set
  | raises _ _ _ _ _ armed => cases unarmed.symm.trans armed

end Moves

variable (world : World (Joining Id Address) (Task Id Address))

theorem turn_sound (turn : JoinTurn Id Address) (sound : Sound world) :
    Sound ((joining env).turn world turn).1 := by
  apply (joining env).turn_preserves Sound
  · intro world call sound
    refine ⟨sound.exclusive.started _ (by cases call <;> rfl), ?_⟩
    intro task member
    rcases List.mem_append.mp member with known | new
    · exact sound.mild task known
    · rw [List.mem_singleton.mp new]
      exact spawn_mild call
  · intro world index signal task found sound
    have mild := sound.mild task (List.mem_of_getElem? found)
    refine ⟨sound.exclusive.advanced index task _ found _
      (advance_step env signal world.shared task mild).passes, ?_⟩
    intro other member
    rcases List.mem_or_eq_of_mem_set member with known | rfl
    · exact sound.mild other known
    · exact advance_mild env signal world.shared task mild
  · exact fun world change sound => ⟨sound.exclusive, sound.mild⟩
  · exact sound

omit [DecidableEq Id] in
theorem Flagged.unset {world : World (Joining Id Address) (Task Id Address)}
    (flagged : Flagged world) (none : world.tasks.countP Task.ignoring = 0) :
    world.shared.node.eventJoinIgnore = false := by
  cases flag : world.shared.node.eventJoinIgnore with
  | false => rfl
  | true =>
    rw [Flagged, Exclusive, flag, none] at flagged
    cases flagged

omit [DecidableEq Id] in
theorem none_ignoring {world : World (Joining Id Address) (Task Id Address)}
    (outside : ∀ task ∈ world.tasks, task.inside = false) :
    world.tasks.countP Task.ignoring = 0 := by
  refine List.countP_eq_zero.mpr fun task member ignoring => ?_
  cases (outside task member).symm.trans ((inside_cases task).1 ignoring)

omit [DecidableEq Id] in
theorem Sound.free {world : World (Joining Id Address) (Task Id Address)} (sound : Sound world)
    (free : world.shared.joinLock = false) : world.tasks.countP Task.ignoring = 0 :=
  none_ignoring (Exclusive.free (free ▸ sound.exclusive))

omit [DecidableEq Id] in
theorem Sound.kept {world : World (Joining Id Address) (Task Id Address)} (sound : Sound world)
    (task : Task Id Address) (member : task ∈ world.tasks) (keeping : task.keeping = true) :
    world.tasks.countP Task.ignoring = 0 := by
  obtain ⟨inside, other⟩ := (inside_cases task).2 keeping
  exact sound.exclusive.alone Task.ignoring (fun task => (inside_cases task).1) task member
    inside other

theorem turn_flagged (turn : JoinTurn Id Address) (sound : Sound world) (flagged : Flagged world)
    (stays : strays world turn = false) : Flagged ((joining env).turn world turn).1 := by
  cases turn with
  | start call => exact flagged.started _ (by cases call <;> rfl)
  | change step =>
    have flag := sectionStep_flag env world.shared.node step.1 (foreign_quiet _ step.2).1
    rw [Flagged, System.turn, System.changed, joining, flag]
    exact flagged
  | advance index signal =>
    rw [System.turn]
    cases found : world.tasks[index]? with
    | none => exact flagged
    | some task =>
      have member := List.mem_of_getElem? found
      have step := advance_step env signal world.shared task (sound.mild task member)
      refine flagged.advanced index task _ found _ (step.scopes ?_ ?_ ?_)
      · exact fun free => flagged.unset (sound.free free)
      · exact fun keeping => flagged.unset (sound.kept task member keeping)
      · rintro ⟨rfl, ignoring⟩
        rw [strays, found, Option.any_some] at stays
        cases stays.symm.trans ignoring

theorem stray_shows (turn : JoinTurn Id Address) (sound : Sound world) (flagged : Flagged world)
    (stray : strays world turn = true) :
    (∀ task ∈ ((joining env).turn world turn).1.tasks, task.inside = false) ∧
    ((joining env).turn world turn).1.shared.node.eventJoinIgnore = true := by
  have after := turn_sound env world turn sound
  unfold strays at stray
  split at stray
  · rename_i index
    obtain ⟨task, found, ignoring⟩ : ∃ task, world.tasks[index]? = some task ∧
        task.ignoring = true := by
      cases found : world.tasks[index]? with
      | none =>
        rw [found] at stray
        cases stray
      | some task =>
        rw [found] at stray
        exact ⟨task, rfl, stray⟩
    have set := flagged.taken task (List.mem_of_getElem? found) ignoring
    have result : ((joining env).turn world (.advance index .dropped)).1 =
        (joining env).advanced world index .dropped task := by
      rw [System.turn, found]
    rw [result] at after ⊢
    cases task with
    | merge ops sections => cases ignoring
    | join call phase =>
      have inside := (inside_cases (.join call phase)).1 ignoring
      cases phase with
      | contacting | broadcasting => exact ⟨Exclusive.free after.exclusive, set⟩
      | _ => cases inside
  · cases stray

theorem turn_calm (turn : JoinTurn Id Address) (sound : Sound world) (flagged : Flagged world)
    (calm : Calm world) (waits : overtakes world turn = false) :
    Calm ((joining env).turn world turn).1 := by
  cases turn with
  | start call =>
    have idle : (spawn call : Task Id Address).keeping = false ∧
        (spawn call : Task Id Address).armed = false := by
      cases call <;> exact ⟨rfl, rfl⟩
    rintro ⟨keeper, member, keeping⟩ task among
    have known : keeper ∈ world.tasks := by
      rcases List.mem_append.mp member with known | new
      · exact known
      · rw [List.mem_singleton.mp new] at keeping
        cases idle.1.symm.trans keeping
    rcases List.mem_append.mp among with there | new
    · exact calm ⟨keeper, known, keeping⟩ task there
    · rw [List.mem_singleton.mp new]
      exact idle.2
  | change step => exact calm
  | advance index signal =>
    rw [System.turn]
    cases found : world.tasks[index]? with
    | none => exact calm
    | some task =>
      have here := List.mem_of_getElem? found
      have step := advance_step env signal world.shared task (sound.mild task here)
      -- A call that held the lock before keeps the flag away from the merges.
      have held : (∃ keeper ∈ world.tasks, keeper.keeping = true) →
          ∀ other ∈ world.tasks.set index (advance env signal world.shared task).2,
            other.armed = false := by
        rintro ⟨keeper, known, keeping⟩ other among
        rcases List.mem_or_eq_of_mem_set among with there | rfl
        · exact calm ⟨keeper, known, keeping⟩ other there
        · exact step.unarmed (flagged.unset (sound.kept keeper known keeping))
            (calm ⟨keeper, known, keeping⟩ task here)
      rintro ⟨keeper, member, keeping⟩
      rcases List.mem_or_eq_of_mem_set member with known | rfl
      · exact held ⟨keeper, known, keeping⟩
      rcases step.keeps keeping with before | ⟨call, moment, rfl, rfl, keeps, free⟩
      · exact held ⟨task, here, before⟩
      -- A call that gets the lock now overtakes no merge.
      intro other among
      have unarmed : ∀ merge ∈ world.tasks, merge.armed = false := by
        rw [overtakes, found] at waits
        simpa [keeps, free] using waits
      rcases List.mem_or_eq_of_mem_set among with there | rfl
      · exact unarmed other there
      · exact step.unarmed (flagged.unset (sound.free free)) rfl

theorem turn_minTime (turn : JoinTurn Id Address) (sound : Sound world)
    (unarmed : ∀ task ∈ world.tasks, task.armed = false) :
    ((joining env).turn world turn).1.shared.node.events.core.minTime =
      world.shared.node.events.core.minTime := by
  cases turn with
  | start call => rfl
  | change step =>
    exact sectionStep_minTime env world.shared.node step.1 (foreign_quiet _ step.2).2
  | advance index signal =>
    rw [System.turn]
    cases found : world.tasks[index]? with
    | none => rfl
    | some task =>
      have here := List.mem_of_getElem? found
      exact (advance_step env signal world.shared task (sound.mild task here)).minTime
        (unarmed task here)

end Scope

/-- A node that has just been made, with nobody joining. -/
def beginning (startup : Startup) : World (Joining Id Address) (Task Id Address) :=
  ⟨⟨newIn startup, false⟩, []⟩

omit [DecidableEq Id] in
theorem beginning_sound (startup : Startup) :
    Sound (beginning startup : World (Joining Id Address) (Task Id Address)) ∧
    Flagged (beginning startup : World (Joining Id Address) (Task Id Address)) ∧
    Calm (beginning startup : World (Joining Id Address) (Task Id Address)) :=
  ⟨⟨exclusive_nil, fun _ none => absurd none List.not_mem_nil⟩, exclusive_nil,
    fun _ _ none => absurd none List.not_mem_nil⟩

/-- The flag is down whenever no join holds the lock, exactly if no call that ignores old
events is dropped while it holds it. If besides no call that keeps old events gets the lock
ahead of a merge with a set flag at hand, then the minimum time stays while such a call
holds it. -/
theorem ignore_scoped_iff (env : NodeEnvironment Id Address) (startup : Startup)
    (turns : List (JoinTurn Id Address)) :
    ((∀ reached, reached <+: turns →
        (∀ task ∈ (run (joining env).turn (beginning startup) reached).tasks,
          task.inside = false) →
        (run (joining env).turn (beginning startup) reached).shared.node.eventJoinIgnore =
          false) ↔
      ∀ visit ∈ visits (joining env).turn (beginning startup) turns,
        strays visit.1 visit.2 = false) ∧
    ((∀ visit ∈ visits (joining env).turn (beginning startup) turns,
        strays visit.1 visit.2 = false ∧ overtakes visit.1 visit.2 = false) →
      ∀ visit ∈ visits (joining env).turn (beginning startup) turns,
        (∃ task ∈ visit.1.tasks, task.keeping = true) →
        ((joining env).turn visit.1 visit.2).1.shared.node.events.core.minTime =
          visit.1.shared.node.events.core.minTime) := by
  obtain ⟨sound, flagged, calm⟩ := @beginning_sound Id Address startup
  constructor
  · have whole := run_shown_iff (joining env).turn Sound Flagged
      (fun world => (∀ task ∈ world.tasks, task.inside = false) →
        world.shared.node.eventJoinIgnore = false)
      (fun world turn => strays world turn = true) (turn_sound env)
      (fun world _ flagged outside => flagged.unset (none_ignoring outside))
      (fun world turn sound flagged stays =>
        turn_flagged env world turn sound flagged (Bool.eq_false_iff.mpr stays))
      (fun world turn sound flagged stray shown => by
        obtain ⟨outside, set⟩ := stray_shows env world turn sound flagged stray
        cases (shown outside).symm.trans set)
      (beginning startup) turns sound flagged
    simpa only [Bool.not_eq_true] using whole
  · intro quiet visit member keeping
    have held := visits_guarded (joining env).turn
      (fun world turn => strays world turn = false ∧ overtakes world turn = false)
      (fun world => Sound world ∧ Flagged world ∧ Calm world)
      (fun world turn quiet held =>
        ⟨turn_sound env world turn held.1,
          turn_flagged env world turn held.1 held.2.1 quiet.1,
          turn_calm env world turn held.1 held.2.1 held.2.2 quiet.2⟩)
      (beginning startup) turns quiet ⟨sound, flagged, calm⟩ visit member
    exact turn_minTime env visit.1 visit.2 held.1 (held.2.2 keeping)

section Runs

def go : Signal Nat := .resumed ⟨.ok 1, .ok [1], 0⟩
def refusedContact : Signal Nat := .resumed ⟨.error "refused", .error ([], "refused"), 0⟩

def remote : RemoteState String := .pushPull ⟨1, ∅, [], 5, [], 1⟩

def entering (index : Nat) (ignoreOld : Bool) : List (JoinTurn String Nat) :=
  [.start (.join (.join ignoreOld)), .advance index go, .advance index go]

def merging (index : Nat) : List (JoinTurn String Nat) :=
  .start (.merge (fun _ => 0) true remote) :: List.replicate 5 (.advance index go)

def orderly : List (JoinTurn String Nat) :=
  entering 0 true ++ merging 1 ++
    ([Turn.advance 1 go, Turn.advance 0 refusedContact] : List (JoinTurn String Nat)) ++
    entering 2 false

theorem ignore_scoped_orderly :
    (∀ reached, reached <+: orderly →
      (∀ task ∈ (run (joining plainCore).turn (beginning (freshStart 2 (by decide)))
        reached).tasks, task.inside = false) →
      (run (joining plainCore).turn (beginning (freshStart 2 (by decide)))
        reached).shared.node.eventJoinIgnore = false) ∧
    ∀ visit ∈ visits (joining plainCore).turn (beginning (freshStart 2 (by decide))) orderly,
      (∃ task ∈ visit.1.tasks, task.keeping = true) →
      ((joining plainCore).turn visit.1 visit.2).1.shared.node.events.core.minTime =
        visit.1.shared.node.events.core.minTime := by
  obtain ⟨flag, minTime⟩ := ignore_scoped_iff plainCore (freshStart 2 (by decide)) orderly
  exact ⟨flag.mpr (by decide), minTime (by decide)⟩

def droppedJoin : List (JoinTurn String Nat) :=
  entering 0 true ++ ([Turn.advance 0 .dropped] : List (JoinTurn String Nat))

def mergedBehind : List (JoinTurn String Nat) := droppedJoin ++ entering 1 false ++ merging 2

def lateMerge : List (JoinTurn String Nat) :=
  entering 0 true ++ merging 1 ++
    ([Turn.advance 0 refusedContact] : List (JoinTurn String Nat)) ++ entering 2 false

/-- The flag of a dropped join stays set, and the next join does not keep the minimum time
from being raised. It is raised without any drop where the merge is late. -/
theorem flag_outlives_join :
    let reached := run (joining plainCore).turn (beginning (freshStart 2 (by decide)))
    ((∀ task ∈ (reached droppedJoin).tasks, task.inside = false) ∧
      (reached droppedJoin).shared.node.eventJoinIgnore = true) ∧
    ((∃ task ∈ (reached mergedBehind).tasks, task.keeping = true) ∧
      (reached mergedBehind).shared.node.events.core.minTime = 0 ∧
      ((joining plainCore).turn (reached mergedBehind)
        (.advance 2 go)).1.shared.node.events.core.minTime = 5) ∧
    ((∀ visit ∈ visits (joining plainCore).turn (beginning (freshStart 2 (by decide))) lateMerge,
        strays visit.1 visit.2 = false) ∧
      (∃ task ∈ (reached lateMerge).tasks, task.keeping = true) ∧
      (reached lateMerge).shared.node.events.core.minTime = 0 ∧
      ((joining plainCore).turn (reached lateMerge)
        (.advance 1 go)).1.shared.node.events.core.minTime = 5) := by
  decide

end Runs

end Serf.JoinScope
