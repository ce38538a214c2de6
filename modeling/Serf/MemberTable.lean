import Serf.Library.Machine
import Serf.LamportClock

/-!
The membership handlers of `serf/base.rs`, each as its section under the write
lock of `Members`: the table it leaves, the member events it sends on
`event_tx` in order, whether it asks for a rebroadcast, and whether it spawns
the refutation of a leave intent about the local node. Clocks are witnessed
before the lock is taken and belong to the node model. Every reading of the
wall clock is an argument; `forget_node` and the coordinate cache are left out.
-/

namespace Serf.MemberTable

open Library.Collections Library.Machine

variable {Id Address : Type} [DecidableEq Id]

structure Outcome (Id Address : Type) where
  members : Members Id Address
  sent : List (MemberEvent Id Address)
  rebroadcast : Bool
  refutes : Bool

def unchanged (members : Members Id Address) : Outcome Id Address :=
  ⟨members, [], false, false⟩

def putMember (members : Members Id Address) (id : Id) (member : MemberState Id Address) :
    Members Id Address :=
  { members with states := members.states.insert id member }

def withStatus (member : MemberState Id Address) (status : MemberStatus) :
    MemberState Id Address :=
  { member with member := { member.member with status := status } }

def withStatusTime (member : MemberState Id Address) (time : LamportTime) :
    MemberState Id Address :=
  { member with statusTime := time }

def removeOldMember (old : List (MemberState Id Address)) (id : Id) :
    List (MemberState Id Address) :=
  old.filter fun m => m.member.node.id ≠ id

def recentIntent (intents : Table Id NodeIntent) (id : Id) (ty : MessageType) :
    Option LamportTime :=
  match intents.lookup id with
  | some intent => if intent.ty = ty then some intent.ltime else none
  | none => none

def upsertIntent (intents : Table Id NodeIntent) (node : Id) (ty : MessageType)
    (ltime : LamportTime) (now : Epoch) : Table Id NodeIntent × Bool :=
  match intents.lookup node with
  | some intent =>
    if intent.ltime < ltime then (intents.insert node ⟨ty, now, ltime⟩, true)
    else (intents, false)
  | none => (intents.insert node ⟨ty, now, ltime⟩, true)

def reapIntents (intents : Table Id NodeIntent) (now : Epoch) (timeout : Duration) :
    Table Id NodeIntent :=
  retain intents fun _ intent => decide (now - intent.wallTime ≤ timeout)

/-- The two lists of members that are no longer active. -/
inductive OldList where
  | failed
  | left
  deriving DecidableEq

def OldList.status : OldList → MemberStatus
  | .failed => .failed
  | .left => .left

def oldMembers (list : OldList) (members : Members Id Address) :
    List (MemberState Id Address) :=
  match list with
  | .failed => members.failedMembers
  | .left => members.leftMembers

def setOldMembers (list : OldList) (members : Members Id Address)
    (old : List (MemberState Id Address)) : Members Id Address :=
  match list with
  | .failed => { members with failedMembers := old }
  | .left => { members with leftMembers := old }

variable (list other : OldList) (members : Members Id Address) (old : List (MemberState Id Address))

omit [DecidableEq Id] in
@[simp] theorem oldMembers_set :
    oldMembers other (setOldMembers list members old) =
      if other = list then old else oldMembers other members := by
  cases list <;> cases other <;> rfl

omit [DecidableEq Id] in
@[simp] theorem states_set : (setOldMembers list members old).states = members.states := by
  cases list <;> rfl

@[simp] theorem oldMembers_put (id : Id) (member : MemberState Id Address) :
    oldMembers list (putMember members id member) = oldMembers list members := by
  cases list <;> rfl

@[simp] theorem states_put (id : Id) (member : MemberState Id Address) :
    (putMember members id member).states = members.states.insert id member := rfl

def forgetOld (members : Members Id Address) (id : Id) : Members Id Address :=
  { members with
    failedMembers := removeOldMember members.failedMembers id
    leftMembers := removeOldMember members.leftMembers id }

def eraseNode (members : Members Id Address) (id : Id) (member : MemberState Id Address) :
    Members Id Address × MemberEvent Id Address :=
  ({ members with states := members.states.erase id }, ⟨.reap, [member.member]⟩)

/-- `handle_prune`. The sleep of a leaving member happens under the lock. -/
def handlePrune (member : MemberState Id Address) (members : Members Id Address) :
    Members Id Address × MemberEvent Id Address :=
  let id := member.member.node.id
  let members :=
    if member.member.status = .leaving ∨ member.member.status = .left then
      { members with leftMembers := removeOldMember members.leftMembers id }
    else members
  eraseNode members id member

/-- Tags of the node meta data; `handle_node_join` reads empty data as no tags. -/
def joinTags (env : Environment Id Address) (n : NodeState Id Address) : Option Tags :=
  if n.metaBytes.isEmpty then some ∅ else (env.decodeTags n.metaBytes).toOption

def rejoined (n : NodeState Id Address) (tags : Tags) (member : MemberState Id Address) :
    MemberState Id Address where
  member :=
    { node := n.node
      tags := tags
      status := .alive
      memberlistProtocolVersion := member.member.memberlistProtocolVersion
      memberlistDelegateVersion := member.member.memberlistDelegateVersion
      protocolVersion := member.member.protocolVersion
      delegateVersion := member.member.delegateVersion }
  statusTime := member.statusTime
  leaveTime := none

/-- The record of a member seen for the first time. The intent buffer holds one
intent for the node, so at most one of the two reads finds it. -/
def joinedNew (env : Environment Id Address) (n : NodeState Id Address) (tags : Tags)
    (intents : Table Id NodeIntent) : MemberState Id Address :=
  let joinTime := (recentIntent intents n.node.id .join).getD 0
  let (statusTime, status) :=
    match recentIntent intents n.node.id .leave with
    | some time => (time, MemberStatus.leaving)
    | none => (joinTime, MemberStatus.alive)
  { member :=
      { node := n.node
        tags := tags
        status := status
        memberlistProtocolVersion := env.memberlistProtocolVersion
        memberlistDelegateVersion := env.memberlistDelegateVersion
        protocolVersion := env.protocolVersion
        delegateVersion := env.delegateVersion }
    statusTime := statusTime
    leaveTime := none }

def handleNodeJoin (env : Environment Id Address) (n : NodeState Id Address)
    (members : Members Id Address) : Outcome Id Address :=
  match joinTags env n with
  | none => unchanged members
  | some tags =>
    match members.states.lookup n.node.id with
    | some member =>
      let joined := rejoined n tags member
      let members := putMember members n.node.id joined
      let members :=
        if member.member.status = .failed ∨ member.member.status = .left then
          forgetOld members n.node.id
        else members
      ⟨members, [⟨.join, [joined.member]⟩], false, false⟩
    | none =>
      let joined := joinedNew env n tags members.recentIntents
      ⟨putMember members n.node.id joined, [⟨.join, [joined.member]⟩], false, false⟩

def departed (list : OldList) (now : Epoch) (member : MemberState Id Address) :
    MemberState Id Address :=
  { withStatus member list.status with leaveTime := some now }

/-- Both accepting branches of `handle_node_leave` update the record and push a
clone of it onto the list of its new status. -/
def depart (list : OldList) (now : Epoch) (id : Id) (member : MemberState Id Address)
    (members : Members Id Address) : Members Id Address :=
  let members := putMember members id (departed list now member)
  setOldMembers list members (oldMembers list members ++ [departed list now member])

def handleNodeLeave (now : Epoch) (n : NodeState Id Address)
    (members : Members Id Address) : Outcome Id Address :=
  match members.states.lookup n.node.id with
  | none => unchanged members
  | some member =>
    match member.member.status with
    | .leaving =>
      ⟨depart .left now n.node.id member members,
        [⟨.leave, [(departed .left now member).member]⟩], false, false⟩
    | .alive =>
      ⟨depart .failed now n.node.id member members,
        [⟨.failed, [(departed .failed now member).member]⟩], false, false⟩
    | _ => unchanged members

def handleNodeJoinIntent (now : Epoch) (msg : JoinMessage Id)
    (members : Members Id Address) : Outcome Id Address :=
  match members.states.lookup msg.id with
  | some member =>
    if msg.ltime ≤ member.statusTime then unchanged members
    else
      let member := withStatusTime member msg.ltime
      let member := if member.member.status = .leaving then withStatus member .alive else member
      ⟨putMember members msg.id member, [], true, false⟩
  | none =>
    let intents := upsertIntent members.recentIntents msg.id .join msg.ltime now
    ⟨{ members with recentIntents := intents.1 }, [], intents.2, false⟩

/-- The end of each accepting branch of `handle_node_leave_intent`. -/
def acceptLeave (prune : Bool) (owned : MemberState Id Address)
    (members : Members Id Address) (sent : List (MemberEvent Id Address)) :
    Outcome Id Address :=
  if prune then
    let pruned := handlePrune owned members
    ⟨pruned.1, sent ++ [pruned.2], true, false⟩
  else ⟨members, sent, true, false⟩

/-- A failed member that turns out to have left changes lists, so that a sync
makes the other nodes drop it from their failed list too. -/
def moveToLeft (owned : MemberState Id Address) (members : Members Id Address) :
    Members Id Address :=
  { members with
    failedMembers := removeOldMember members.failedMembers owned.member.node.id
    leftMembers := members.leftMembers ++ [owned] }

def handleNodeLeaveIntent (env : Environment Id Address) (state : SerfState) (now : Epoch)
    (msg : LeaveMessage Id) (members : Members Id Address) : Outcome Id Address :=
  match members.states.lookup msg.id with
  | none =>
    let intents := upsertIntent members.recentIntents msg.id .leave msg.ltime now
    ⟨{ members with recentIntents := intents.1 }, [], intents.2, false⟩
  | some member =>
    if msg.ltime ≤ member.statusTime then unchanged members
    else if msg.id = env.localId ∧ state = .alive then
      { unchanged members with refutes := true }
    else
      -- The time is recorded in every branch, also where the status stays.
      let member := withStatusTime member msg.ltime
      match member.member.status with
      | .none => unchanged (putMember members msg.id member)
      | .leaving | .left =>
        acceptLeave msg.prune member (putMember members msg.id member) []
      | .failed =>
        let owned := withStatus member .left
        let members := moveToLeft owned (putMember members msg.id owned)
        acceptLeave msg.prune owned members [⟨.leave, [owned.member]⟩]
      | .alive | .unknown _ =>
        let owned := withStatus member .leaving
        acceptLeave msg.prune owned (putMember members msg.id owned) []

def handleNodeUpdate (env : Environment Id Address) (n : NodeState Id Address)
    (members : Members Id Address) : Outcome Id Address :=
  match env.decodeTags n.metaBytes with
  | .error _ => unchanged members
  | .ok tags =>
    match members.states.lookup n.node.id with
    | none => unchanged members
    | some member =>
      let updated :=
        { member with
          member :=
            { node := n.node
              tags := tags
              status := member.member.status
              memberlistProtocolVersion := .v1
              memberlistDelegateVersion := .v1
              protocolVersion := .v1
              delegateVersion := .v1 } }
      ⟨putMember members n.node.id updated, [⟨.update, [updated.member]⟩], false, false⟩

def memberTimeout (env : Environment Id Address) (timeout : Duration)
    (member : MemberState Id Address) : Duration :=
  match env.reconnectTimeout with
  | some override => override member.member timeout
  | none => timeout

/-- The entry stays: its leave time is known and not older than its timeout.
`now` is the wall clock at the moment the entry of that node is examined. -/
def stays (env : Environment Id Address) (now : Id → Epoch) (timeout : Duration)
    (member : MemberState Id Address) : Bool :=
  match member.leaveTime with
  | some leaveTime =>
    decide (now member.member.node.id - leaveTime ≤ memberTimeout env timeout member)
  | none => false

/-- The `while i < n` loop of `reap!`, with `n - i` entries still to examine. -/
def reapLoop (env : Environment Id Address) (now : Id → Epoch) (timeout : Duration)
    (list : OldList) : Nat → Nat → Members Id Address →
      Members Id Address × List (MemberEvent Id Address)
  | 0, _, members => (members, [])
  | remaining + 1, i, members =>
    match (oldMembers list members)[i]? with
    | none => (members, [])
    | some m =>
      if stays env now timeout m then reapLoop env now timeout list remaining (i + 1) members
      else
        let members := setOldMembers list members (swapRemove (oldMembers list members) i)
        let erased := eraseNode members m.member.node.id m
        let tail := reapLoop env now timeout list remaining i erased.1
        (tail.1, erased.2 :: tail.2)

def reap (env : Environment Id Address) (now : Id → Epoch) (timeout : Duration)
    (list : OldList) (members : Members Id Address) : Outcome Id Address :=
  let result := reapLoop env now timeout list (oldMembers list members).length 0 members
  ⟨result.1, result.2, false, false⟩

def reapFailed (env : Environment Id Address) (now : Id → Epoch) (timeout : Duration)
    (members : Members Id Address) : Outcome Id Address :=
  reap env now timeout .failed members

def reapLeft (env : Environment Id Address) (now : Id → Epoch) (timeout : Duration)
    (members : Members Id Address) : Outcome Id Address :=
  reap env now timeout .left members

theorem reapLoop_sweeps (env : Environment Id Address) (now : Id → Epoch) (timeout : Duration)
    (list : OldList) (remaining i : Nat) (members : Members Id Address) :
    let swept := sweep (stays env now timeout) remaining i (oldMembers list members)
    reapLoop env now timeout list remaining i members =
      (setOldMembers list
        { members with
          states := eraseAll members.states (swept.2.map fun m => m.member.node.id) } swept.1,
        swept.2.map fun m => ⟨.reap, [m.member]⟩) := by
  induction remaining generalizing i members with
  | zero => cases list <;> rfl
  | succ remaining ih =>
    unfold reapLoop sweep
    cases (oldMembers list members)[i]? with
    | none => cases list <;> rfl
    | some m =>
      dsimp only
      by_cases stay : stays env now timeout m = true
      · rw [if_pos stay, if_pos stay]
        exact ih (i + 1) members
      · rw [if_neg stay, if_neg stay, ih]
        cases list <;> rfl

theorem reap_swept (env : Environment Id Address) (now : Id → Epoch) (timeout : Duration)
    (list : OldList) (members : Members Id Address) :
    ∃ kept gone : List (MemberState Id Address),
      kept.Perm ((oldMembers list members).filter (stays env now timeout)) ∧
      gone.Perm ((oldMembers list members).filter fun m => !stays env now timeout m) ∧
      reap env now timeout list members =
        ⟨setOldMembers list
          { members with states := eraseAll members.states (gone.map fun m => m.member.node.id) }
          kept, gone.map fun m => ⟨.reap, [m.member]⟩, false, false⟩ := by
  obtain ⟨kept, gone⟩ := sweep_perm (stays env now timeout) (oldMembers list members).length 0
    (oldMembers list members) (by simp) (by simp)
  refine ⟨_, _, kept, gone, ?_⟩
  rw [reap, reapLoop_sweeps]

/-- Unsigned subtraction; `none` is the panic on underflow. -/
def checkedSub (left right : Nat) : Option Nat :=
  if right ≤ left then some (left - right) else none

/-- `states.len() - num_failed - left_members.len()`, at least one. -/
def numAlive (members : Members Id Address) : Option Nat :=
  (checkedSub members.states.keys.length members.failedMembers.length).bind fun rest =>
    (checkedSub rest members.leftMembers.length).map fun alive => max alive 1

/-- One tick of the `Reconnector`. `forgo` is the random throttle given the
failed and alive counts, `draw` the random index before it is brought into
range. The outer `none` is a panic, the inner one a tick that contacts nobody. -/
def reconnect (forgo : Nat → Nat → Bool) (draw : Nat) (members : Members Id Address) :
    Option (Option (Node Id Address)) :=
  let numFailed := members.failedMembers.length
  if numFailed = 0 then some none
  else
    (numAlive members).bind fun alive =>
      if forgo numFailed alive then some none
      else (members.failedMembers[draw % numFailed]?).map fun m => some m.member.node

/-- One locked section of a membership handler or of the reaper. -/
inductive TableOp (Id Address : Type) where
  | nodeJoin (n : NodeState Id Address)
  | nodeLeave (now : Epoch) (n : NodeState Id Address)
  | nodeUpdate (n : NodeState Id Address)
  | joinIntent (now : Epoch) (msg : JoinMessage Id)
  | leaveIntent (state : SerfState) (now : Epoch) (msg : LeaveMessage Id)
  | reapFailed (now : Id → Epoch) (timeout : Duration)
  | reapLeft (now : Id → Epoch) (timeout : Duration)
  | reapIntents (now : Epoch) (timeout : Duration)

def applyOp (env : Environment Id Address) (members : Members Id Address) :
    TableOp Id Address → Outcome Id Address
  | .nodeJoin n => handleNodeJoin env n members
  | .nodeLeave now n => handleNodeLeave now n members
  | .nodeUpdate n => handleNodeUpdate env n members
  | .joinIntent now msg => handleNodeJoinIntent now msg members
  | .leaveIntent state now msg => handleNodeLeaveIntent env state now msg members
  | .reapFailed now timeout => reapFailed env now timeout members
  | .reapLeft now timeout => reapLeft env now timeout members
  | .reapIntents now timeout =>
    unchanged { members with recentIntents := reapIntents members.recentIntents now timeout }

def tableStep (env : Environment Id Address) (members : Members Id Address)
    (op : TableOp Id Address) : Members Id Address × Outcome Id Address :=
  ((applyOp env members op).members, applyOp env members op)

/-- The member events that a run sends on `event_tx`, in order. -/
def emitted (env : Environment Id Address) (members : Members Id Address)
    (ops : List (TableOp Id Address)) : List (MemberEvent Id Address) :=
  (answers (tableStep env) members ops).flatMap fun entry => entry.2.sent

theorem emitted_append (env : Environment Id Address) (members : Members Id Address)
    (first second : List (TableOp Id Address)) :
    emitted env members (first ++ second) =
      emitted env members first ++ emitted env (run (tableStep env) members first) second := by
  simp [emitted, answers_append]

/-- The node `a`, whose delegate is absent and to which all tags look empty. -/
def plainNode : Environment String Nat where
  localId := "a"
  protocolVersion := .v1
  delegateVersion := .v1
  memberlistProtocolVersion := .v1
  memberlistDelegateVersion := .v1
  decodeTags _ := .ok ∅
  reconnectTimeout := none

end Serf.MemberTable
