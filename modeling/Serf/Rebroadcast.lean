import Serf.HeldTime
import Serf.PushPull

/-!
How often a node asks for an intent to be passed on. A node that passes an
intent on holds its time from then on, as a status time or in the buffer of
early intents, and while nobody is erased held times only grow, also when a
buffered time moves to a new member. So every later delivery is stale, and the
gossip of finitely many intents dies out.
-/

namespace Serf.Rebroadcast

open Library.Collections Library.Machine
open LamportClock MemberTable HeldTime Serf.Core PushPull

variable {Id Address : Type} [DecidableEq Id]

/-- A join or leave intent as it is gossiped. -/
inductive Intent (Id : Type) where
  | join (msg : JoinMessage Id)
  | leave (msg : LeaveMessage Id)
  deriving DecidableEq

def Intent.id : Intent Id → Id
  | .join msg => msg.id
  | .leave msg => msg.id

def Intent.ltime : Intent Id → LamportTime
  | .join msg => msg.ltime
  | .leave msg => msg.ltime

def delivered : NodeOp Id Address → Option (Intent Id)
  | .joinIntent _ msg => some (.join msg)
  | .leaveIntent _ msg => some (.leave msg)
  | _ => none

def requests (intent : Intent Id) (op : NodeOp Id Address) (answer : Answer Id Address) : Bool :=
  decide (delivered op = some intent) && answer.rebroadcast

def ErasesNobody : NodeOp Id Address → Prop
  | .reapFailed _ _ => False
  | .reapLeft _ _ => False
  | .reapIntents _ _ => False
  | .leaveIntent _ msg => msg.prune = false
  | .forceLeave _ _ prune => prune = false
  | _ => True

def KindsKnown (node : SerfCore Id Address) : Prop :=
  Timed (fun _ => True) node.members

section Steps

variable (env : NodeEnvironment Id Address) (node : SerfCore Id Address)

theorem nodeStep_kindsKnown (op : NodeOp Id Address) (known : KindsKnown node) :
    KindsKnown (nodeStep env node op).1 := by
  rw [KindsKnown, nodeStep_members]
  cases tableOp env node op with
  | none => exact known
  | some inner =>
    exact applyOp_timed _ node.members env.membership inner trivial (fun _ _ => trivial) known

omit [DecidableEq Id] in
theorem tableOp_erasesNothing (op : NodeOp Id Address) (nobody : ErasesNobody op)
    (inner : TableOp Id Address) (runs : tableOp env node op = some inner) :
    ErasesNothing inner := by
  cases op with
  | beginLeave now =>
    rw [tableOp] at runs
    split at runs
    · cases runs
      rfl
    · cases runs
  | reapFailed now timeout => exact absurd nobody id
  | reapLeft now timeout => exact absurd nobody id
  | reapIntents now timeout => exact absurd nobody id
  | leaveIntent now msg =>
    cases runs
    exact nobody
  | forceLeave now id prune =>
    cases runs
    exact nobody
  | _ => cases runs <;> trivial

theorem nodeStep_advances (op : NodeOp Id Address) (nobody : ErasesNobody op)
    (known : KindsKnown node) : Advances node.members (nodeStep env node op).1.members := by
  rw [nodeStep_members]
  cases runs : tableOp env node op with
  | none => exact advances_refl node.members
  | some inner =>
    exact applyOp_advances env.membership node.members inner
      (tableOp_erasesNothing env node op nobody inner runs) fun _ => known.kinds

theorem requests_marks (intent : Intent Id) (op : NodeOp Id Address) (nobody : ErasesNobody op)
    (hit : requests intent op (nodeStep env node op).2 = true) :
    Stale (nodeStep env node op).1.members intent.id intent.ltime := by
  rw [requests, Bool.and_eq_true, decide_eq_true_eq] at hit
  obtain ⟨same, passed⟩ := hit
  cases op with
  | joinIntent now msg =>
    cases same
    exact handleNodeJoinIntent_stale now msg node.members
  | leaveIntent now msg =>
    cases same
    exact handleNodeLeaveIntent_passed env.membership node.state now msg node.members nobody
      passed
  | _ => cases same

theorem requests_refused (intent : Intent Id) (op : NodeOp Id Address)
    (stale : Stale node.members intent.id intent.ltime) :
    requests intent op (nodeStep env node op).2 = false := by
  by_cases same : delivered op = some intent
  · have silent : (nodeStep env node op).2.rebroadcast = false := by
      cases op with
      | joinIntent now msg =>
        cases same
        simp only [nodeStep, joinIntent, onTable, tableAnswer]
        rw [handleNodeJoinIntent_idle now msg node.members stale]
        rfl
      | leaveIntent now msg =>
        cases same
        simp only [nodeStep, leaveIntent, onTable, tableAnswer]
        rw [handleNodeLeaveIntent_idle env.membership node.state now msg node.members stale]
        rfl
      | _ => cases same
    simp [requests, silent]
  · simp [requests, same]

end Steps

theorem intent_passed_once (env : NodeEnvironment Id Address) (start : SerfCore Id Address)
    (known : KindsKnown start) (ops : List (NodeOp Id Address))
    (nobody : ∀ op ∈ ops, ErasesNobody op) (intent : Intent Id) :
    (answers (nodeStep env) start ops).countP
      (fun entry => requests intent entry.1 entry.2) ≤ 1 := by
  apply hits_at_most_once (nodeStep env) ErasesNobody KindsKnown
    (fun node => Stale node.members intent.id intent.ltime) (requests intent)
  · intro node op _ valid
    exact nodeStep_kindsKnown env node op valid
  · -- The held time that makes the intent stale only grows.
    intro node op may valid stale
    exact stale_advances _ _ _ _ (nodeStep_advances env node op may valid) stale
  · intro node op may _ hit
    exact requests_marks env node intent op may hit
  · intro node op _ _ stale
    exact requests_refused env node intent op stale
  · exact nobody
  · exact known

theorem reachable_kindsKnown (env : NodeEnvironment Id Address) (startup : Startup)
    (history : List (NodeOp Id Address)) :
    KindsKnown (run (nodeStep env) (newIn startup) history) := by
  apply run_invariant (nodeStep env) (fun _ => True) KindsKnown
  · intro node op _ known
    exact nodeStep_kindsKnown env node op known
  · exact fun _ _ => trivial
  · exact empty_timed _

/-- No call of the activity prunes or reaps; a merge never does. -/
def ActivityErasesNobody : Activity Id Address → Prop
  | .call op => ErasesNobody op
  | .merge _ _ _ => True

theorem activity_erasesNobody (activity : Activity Id Address)
    (nobody : ActivityErasesNobody activity) : ∀ op ∈ activity.ops, ErasesNobody op := by
  intro op member
  cases activity with
  | call single =>
    rw [Activity.ops, List.mem_singleton] at member
    subst op
    exact nobody
  | merge now isJoin remote =>
    cases remote with
    | unreadable => cases member
    | otherMessage => cases member
    | badCollections ltime eventLtime queryLtime =>
      rw [Activity.ops, mergeRemoteState, List.mem_singleton] at member
      subst op
      trivial
    | pushPull pp =>
      rcases mergeRemoteState_op now isJoin pp op member with
        rfl | ⟨msg, sent, rfl⟩ | ⟨msg, _, rfl⟩ | rfl | ⟨msg, _, rfl⟩
      · trivial
      · obtain ⟨ltime, _, shape⟩ := leftIntents_time pp msg sent
        rw [ErasesNobody, shape]
      · trivial
      · trivial
      · trivial

theorem intents_rebroadcast_once (env : NodeEnvironment Id Address) (startup : Startup)
    (history : List (NodeOp Id Address)) (activities : List (Activity Id Address))
    (nobody : ∀ activity ∈ activities, ActivityErasesNobody activity)
    (ops : List (NodeOp Id Address)) (order : Interleaves (activities.map Activity.ops) ops) :
    let start := run (nodeStep env) (newIn startup) history
    (∀ intent, (answers (nodeStep env) start ops).countP
      (fun entry => requests intent entry.1 entry.2) ≤ 1) ∧
    (∀ intents : List (Intent Id),
      (∀ op ∈ ops, ∀ intent, delivered op = some intent → intent ∈ intents) →
      (answers (nodeStep env) start ops).countP
        (fun entry => (delivered entry.1).isSome && entry.2.rebroadcast) ≤ intents.length) := by
  intro start
  have kept : ∀ op ∈ ops, ErasesNobody op := by
    intro op member
    obtain ⟨thread, among, inside⟩ := interleaves_mem _ ops order op member
    obtain ⟨activity, here, rfl⟩ := List.mem_map.mp among
    exact activity_erasesNobody activity (nobody activity here) op inside
  have once := intent_passed_once env start (reachable_kindsKnown env startup history) ops kept
  refine ⟨once, ?_⟩
  -- Every request is about one of finitely many intents, each of which has one.
  intro intents fixed
  apply countP_le_kinds _ _ intents (fun intent entry => requests intent entry.1 entry.2) once
  intro entry member held
  rw [Bool.and_eq_true, Option.isSome_iff_exists] at held
  obtain ⟨⟨intent, same⟩, passed⟩ := held
  have inside : entry.1 ∈ ops := by
    rw [← answers_ops (nodeStep env) start ops]
    exact List.mem_map_of_mem member
  exact ⟨intent, fixed entry.1 inside intent same, by simp [requests, same, passed]⟩

/-- A leave intent that is ahead of its member, and again after the member is
known. -/
def repeatedLeave : List (NodeOp String Nat) :=
  [.leaveIntent 0 ⟨5, "x", false⟩, .nodeJoin ⟨⟨"x", 7⟩, []⟩, .leaveIntent 1 ⟨5, "x", false⟩]

theorem intents_rebroadcast_once_early_leave :
    let entries := answers (nodeStep plainCore) (newIn (freshStart 2 (by decide))) repeatedLeave
    entries.map (fun entry => entry.2.rebroadcast) = [true, false, false] ∧
    entries.countP (fun entry => requests (.leave ⟨5, "x", false⟩) entry.1 entry.2) ≤ 1 := by
  have order : Interleaves ((repeatedLeave.map Activity.call).map Activity.ops) repeatedLeave := by
    apply Interleaves.turn []
    apply Interleaves.turn [[]]
    apply Interleaves.turn [[], []]
    exact Interleaves.done _
  have nobody : ∀ activity ∈ repeatedLeave.map Activity.call, ActivityErasesNobody activity := by
    simp [repeatedLeave, ActivityErasesNobody, ErasesNobody]
  exact ⟨by decide, (intents_rebroadcast_once plainCore (freshStart 2 (by decide)) [] _ nobody _
    order).1 _⟩

end Serf.Rebroadcast
