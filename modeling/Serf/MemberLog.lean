import Mathlib.Data.List.Induction
import Serf.IntentOrder

/-!
The member events as a log of the membership table. `Transition` lists all that
one locked section can do to the record of one node, with the events about that
node that it sends; every handler and every reaper pass is one of its cases. So
whoever keeps the last event about each node, updates aside, knows the class of
every status in the table.
-/

namespace Serf.MemberLog

open Library.Collections Library.Machine MemberTable TableInvariant IntentOrder

variable {Id Address : Type} [DecidableEq Id]

def Live (status : MemberStatus) : Prop := status = .alive ∨ status = .leaving

instance (status : MemberStatus) : Decidable (Live status) :=
  inferInstanceAs (Decidable (_ ∨ _))

def Known (status : MemberStatus) : Prop := Live status ∨ status = .failed ∨ status = .left

def departure : OldList → MemberEventType
  | .failed => .failed
  | .left => .leave

def Accepts (env : Environment Id Address) (state : SerfState) (msg : LeaveMessage Id)
    (m : MemberState Id Address) : Prop :=
  m.statusTime < msg.ltime ∧ ¬ (msg.id = env.localId ∧ state = .alive)

/-- The record of a node before a section, the events about the node that the
section sends, and the record after it. -/
inductive Transition (env : Environment Id Address) (op : TableOp Id Address) (id : Id) :
    Option (MemberState Id Address) → List (MemberEvent Id Address) →
      Option (MemberState Id Address) → Prop where
  | idle (record : Option (MemberState Id Address)) : Transition env op id record [] record
  | joined (n : NodeState Id Address) (record : Option (MemberState Id Address))
      (m : MemberState Id Address) (notified : op = .nodeJoin n) (target : n.node.id = id)
      (node : m.member.node = n.node) (live : Live m.member.status) :
      Transition env op id record [⟨.join, [m.member]⟩] (some m)
  | updated (n : NodeState Id Address) (before after : MemberState Id Address)
      (notified : op = .nodeUpdate n) (target : n.node.id = id)
      (node : after.member.node = n.node) (status : after.member.status = before.member.status) :
      Transition env op id (some before) [⟨.update, [after.member]⟩] (some after)
  | retimed (before after : MemberState Id Address)
      (node : after.member.node = before.member.node)
      (status : after.member.status = before.member.status ∨
        Live before.member.status ∧ Live after.member.status) :
      Transition env op id (some before) [] (some after)
  | departed (list : OldList) (before after : MemberState Id Address)
      (node : after.member.node = before.member.node) (live : Live before.member.status)
      (status : after.member.status = list.status) :
      Transition env op id (some before) [⟨departure list, [after.member]⟩] (some after)
  | moved (before after : MemberState Id Address)
      (node : after.member.node = before.member.node) (failed : before.member.status = .failed)
      (left : after.member.status = .left) :
      Transition env op id (some before) [⟨.leave, [after.member]⟩] (some after)
  | movedAway (before : MemberState Id Address) (gone : Member Id Address)
      (node : gone.node = before.member.node) (failed : before.member.status = .failed) :
      Transition env op id (some before) [⟨.leave, [gone]⟩, ⟨.reap, [gone]⟩] none
  | pruned (state : SerfState) (now : Epoch) (msg : LeaveMessage Id)
      (before : MemberState Id Address) (gone : Member Id Address)
      (received : op = .leaveIntent state now msg) (target : msg.id = id)
      (prune : msg.prune = true) (accepts : Accepts env state msg before)
      (node : gone.node = before.member.node) (known : before.member.status ≠ .failed) :
      Transition env op id (some before) [⟨.reap, [gone]⟩] none
  | reaped (list : OldList) (before : MemberState Id Address) (gone : Member Id Address)
      (status : before.member.status = list.status) (target : gone.node.id = id) :
      Transition env op id (some before) [⟨.reap, [gone]⟩] none

def Steps (env : Environment Id Address) (op : TableOp Id Address) (id : Id)
    (members : Members Id Address) (outcome : Outcome Id Address) : Prop :=
  Transition env op id (members.states.lookup id) (outcome.sent.filter (about id))
    (outcome.members.states.lookup id)

@[simp] theorem about_single (id : Id) (ty : MemberEventType) (m : Member Id Address) :
    about id ⟨ty, [m]⟩ = decide (m.node.id = id) := by
  simp [about]

variable (env : Environment Id Address) (op : TableOp Id Address) (id : Id)
  (members : Members Id Address)

theorem steps_elsewhere (outcome : Outcome Id Address)
    (same : outcome.members.states.lookup id = members.states.lookup id)
    (silent : ∀ event ∈ outcome.sent, about id event = false) :
    Steps env op id members outcome := by
  have none : outcome.sent.filter (about id) = [] := by
    rw [List.filter_eq_nil_iff]
    intro event sent
    simp [silent event sent]
  rw [Steps, none, same]
  exact .idle _

theorem handleNodeJoin_steps (n : NodeState Id Address) (members : Members Id Address) (id : Id) :
    Steps env (.nodeJoin n) id members (handleNodeJoin env n members) := by
  unfold handleNodeJoin
  cases joinTags env n with
  | none => exact .idle _
  | some tags =>
    by_cases target : n.node.id = id
    · -- Both branches put the record that the event reports.
      cases found : members.states.lookup n.node.id with
      | none =>
        have live : Live (joinedNew env n tags members.recentIntents).member.status := by
          rw [joinedNew]
          cases recentIntent members.recentIntents n.node.id .leave <;> simp [Live]
        have step : Transition env (.nodeJoin n) id (members.states.lookup id)
            [⟨.join, [(joinedNew env n tags members.recentIntents).member]⟩] (some _) :=
          .joined n _ _ rfl target rfl live
        simpa [Steps, target, joinedNew] using step
      | some member =>
        have step : Transition env (.nodeJoin n) id (members.states.lookup id)
            [⟨.join, [(rejoined n tags member).member]⟩] (some _) :=
          .joined n _ _ rfl target rfl (Or.inl rfl)
        by_cases wasGone : member.member.status = .failed ∨ member.member.status = .left <;>
          simpa [Steps, target, rejoined, wasGone] using step
    · apply steps_elsewhere
      · cases members.states.lookup n.node.id with
        | none => simp [Ne.symm target]
        | some member =>
          by_cases wasGone : member.member.status = .failed ∨ member.member.status = .left <;>
            simp [wasGone, Ne.symm target]
      · intro event sent
        cases found : members.states.lookup n.node.id with
        | none =>
          simp only [found, List.mem_singleton] at sent
          subst event
          simp [joinedNew, target]
        | some member =>
          simp only [found, List.mem_singleton] at sent
          subst event
          simp [rejoined, target]

theorem handleNodeLeave_steps (now : Epoch) (n : NodeState Id Address)
    (members : Members Id Address) (id : Id) (valid : Consistent members) :
    Steps env (.nodeLeave now n) id members (handleNodeLeave now n members) := by
  have departs : ∀ (list : OldList) (member : MemberState Id Address),
      members.states.lookup n.node.id = some member → Live member.member.status →
      Steps env (.nodeLeave now n) id members
        ⟨depart list now n.node.id member members,
          [⟨departure list, [(MemberTable.departed list now member).member]⟩], false, false⟩ := by
    intro list member found live
    have keyed := valid.keyed n.node.id member found
    by_cases target : n.node.id = id
    · subst id
      have step : Transition env (.nodeLeave now n) n.node.id (some member)
          [⟨departure list, [(MemberTable.departed list now member).member]⟩] (some _) :=
        .departed list member (MemberTable.departed list now member) rfl live rfl
      simpa [Steps, found, depart, MemberTable.departed, withStatus, keyed] using step
    · apply steps_elsewhere
      · simp [depart, Ne.symm target]
      · intro event sent
        rw [List.mem_singleton] at sent
        subst event
        simp [MemberTable.departed, withStatus, keyed, target]
  unfold handleNodeLeave
  cases found : members.states.lookup n.node.id with
  | none => exact .idle _
  | some member =>
    dsimp only
    split
    · rename_i status
      exact departs .left member found (Or.inr status)
    · rename_i status
      exact departs .failed member found (Or.inl status)
    · exact .idle _

theorem handleNodeUpdate_steps (n : NodeState Id Address) (members : Members Id Address) (id : Id) :
    Steps env (.nodeUpdate n) id members (handleNodeUpdate env n members) := by
  unfold handleNodeUpdate
  cases env.decodeTags n.metaBytes with
  | error reason => exact .idle _
  | ok tags =>
    cases found : members.states.lookup n.node.id with
    | none => exact .idle _
    | some member =>
      by_cases target : n.node.id = id
      · rw [Steps, ← target, found]
        simp only [states_put, AList.lookup_insert, about_single, decide_true,
          List.filter_cons_of_pos, List.filter_nil]
        exact .updated n member ⟨_, member.statusTime, member.leaveTime⟩ rfl rfl rfl rfl
      · apply steps_elsewhere
        · simp [Ne.symm target]
        · intro event sent
          simp only [List.mem_singleton] at sent
          subst event
          simp [target]

theorem handleNodeJoinIntent_steps (now : Epoch) (msg : JoinMessage Id)
    (members : Members Id Address) (id : Id) :
    Steps env (.joinIntent now msg) id members (handleNodeJoinIntent now msg members) := by
  unfold handleNodeJoinIntent
  cases found : members.states.lookup msg.id with
  | none => exact .idle _
  | some member =>
    dsimp only
    split
    · exact .idle _
    · by_cases target : msg.id = id
      · rw [Steps, ← target, found]
        simp only [states_put, AList.lookup_insert, List.filter_nil]
        split
        · rename_i leaving
          exact .retimed member _ rfl (Or.inr ⟨Or.inr leaving, Or.inl rfl⟩)
        · exact .retimed member _ rfl (Or.inl rfl)
      · apply steps_elsewhere
        · simp [Ne.symm target]
        · simp

theorem acceptLeave_lookup (prune : Bool) (owned : MemberState Id Address)
    (members : Members Id Address) (sent : List (MemberEvent Id Address)) (id : Id)
    (keyed : owned.member.node.id = id) (found : members.states.lookup id = some owned) :
    (acceptLeave prune owned members sent).members.states.lookup id =
      (if prune then none else some owned) ∧
    (acceptLeave prune owned members sent).sent =
      sent ++ (if prune then [⟨.reap, [owned.member]⟩] else []) := by
  cases prune with
  | false => simp [acceptLeave, found]
  | true =>
    by_cases listed : owned.member.status = .leaving ∨ owned.member.status = .left <;>
      simp [acceptLeave, handlePrune, eraseNode, listed, keyed]

theorem acceptLeave_elsewhere (prune : Bool) (owned : MemberState Id Address)
    (members : Members Id Address) (sent : List (MemberEvent Id Address)) (id : Id)
    (other : owned.member.node.id ≠ id) :
    (acceptLeave prune owned members sent).members.states.lookup id = members.states.lookup id ∧
    (acceptLeave prune owned members sent).sent =
      sent ++ (if prune then [⟨.reap, [owned.member]⟩] else []) := by
  cases prune with
  | false => simp [acceptLeave]
  | true =>
    by_cases listed : owned.member.status = .leaving ∨ owned.member.status = .left <;>
      simp [acceptLeave, handlePrune, eraseNode, listed, Ne.symm other]

section LeaveIntent

variable (env : Environment Id Address) (state : SerfState) (now : Epoch) (msg : LeaveMessage Id)
  (members : Members Id Address) (member : MemberState Id Address)
  (keyed : member.member.node.id = msg.id)

include keyed

theorem acceptLeave_quiet_steps (found : members.states.lookup msg.id = some member)
    (accepts : Accepts env state msg member) (owned : MemberState Id Address)
    (node : owned.member.node = member.member.node) (survives : member.member.status ≠ .failed)
    (kept : owned.member.status = member.member.status ∨
      Live member.member.status ∧ Live owned.member.status) :
    Steps env (.leaveIntent state now msg) msg.id members
      (acceptLeave msg.prune owned (putMember members msg.id owned) []) := by
  have own : owned.member.node.id = msg.id := by rw [node, keyed]
  obtain ⟨after, sent⟩ := acceptLeave_lookup msg.prune owned
    (putMember members msg.id owned) [] msg.id own (by simp)
  rw [Steps, found, after, sent]
  cases prune : msg.prune with
  | false => exact .retimed member owned node kept
  | true =>
    simpa [own] using Transition.pruned state now msg member owned.member rfl rfl prune
      accepts node survives

theorem acceptLeave_moved_steps (found : members.states.lookup msg.id = some member)
    (failed : member.member.status = .failed) (owned : MemberState Id Address)
    (node : owned.member.node = member.member.node) (left : owned.member.status = .left) :
    Steps env (.leaveIntent state now msg) msg.id members
      (acceptLeave msg.prune owned (moveToLeft owned (putMember members msg.id owned))
        [⟨.leave, [owned.member]⟩]) := by
  have own : owned.member.node.id = msg.id := by rw [node, keyed]
  obtain ⟨after, sent⟩ := acceptLeave_lookup msg.prune owned
    (moveToLeft owned (putMember members msg.id owned)) [⟨.leave, [owned.member]⟩] msg.id own
    (by simp [moveToLeft])
  rw [Steps, found, after, sent]
  cases msg.prune with
  | false =>
    have step : Transition env (.leaveIntent state now msg) msg.id (some member) _ _ :=
      .moved member owned node failed left
    simpa [own] using step
  | true =>
    have step : Transition env (.leaveIntent state now msg) msg.id (some member) _ _ :=
      .movedAway member owned.member node failed
    simpa [own] using step

theorem acceptLeave_steps_elsewhere (id : Id) (other : msg.id ≠ id)
    (owned : MemberState Id Address) (table : Members Id Address)
    (sent : List (MemberEvent Id Address)) (node : owned.member.node = member.member.node)
    (states : table.states = members.states.insert msg.id owned)
    (reports : ∀ event ∈ sent, event.members = [owned.member]) :
    Steps env (.leaveIntent state now msg) id members
      (acceptLeave msg.prune owned table sent) := by
  have foreign : owned.member.node.id ≠ id := by
    rw [node, keyed]
    exact other
  obtain ⟨after, all⟩ := acceptLeave_elsewhere msg.prune owned table sent id foreign
  apply steps_elsewhere
  · rw [after, states, AList.lookup_insert_ne (Ne.symm other)]
  · intro event member
    have reported : event.members = [owned.member] := by
      rw [all] at member
      rcases List.mem_append.mp member with before | last
      · exact reports event before
      · cases prune : msg.prune <;> simp_all
    simp [about, reported, foreign]

end LeaveIntent

theorem handleNodeLeaveIntent_steps (state : SerfState) (now : Epoch) (msg : LeaveMessage Id)
    (members : Members Id Address) (id : Id) (valid : Consistent members)
    (known : ∀ m, members.states.lookup id = some m → Known m.member.status) :
    Steps env (.leaveIntent state now msg) id members
      (handleNodeLeaveIntent env state now msg members) := by
  unfold handleNodeLeaveIntent
  cases found : members.states.lookup msg.id with
  | none => exact .idle _
  | some member =>
    have keyed := valid.keyed msg.id member found
    dsimp only
    split
    · exact .idle _
    rename_i fresh
    split
    · exact .idle _
    rename_i foreign
    have accepts : Accepts env state msg member := ⟨lt_of_not_ge fresh, foreign⟩
    by_cases target : msg.id = id
    · subst id
      have status := known member found
      have quiet := acceptLeave_quiet_steps env state now msg members member keyed found accepts
      split
      · rename_i none
        have was : member.member.status = .none := none
        simp [Known, Live, was] at status
      · rename_i leaving
        have was : member.member.status = .leaving := leaving
        exact quiet _ rfl (by simp [was]) (Or.inl rfl)
      · rename_i left
        have was : member.member.status = .left := left
        exact quiet _ rfl (by simp [was]) (Or.inl rfl)
      · rename_i failed
        exact acceptLeave_moved_steps env state now msg members member keyed found failed _ rfl
          rfl
      · rename_i alive
        have was : member.member.status = .alive := alive
        exact quiet _ rfl (by simp [was]) (Or.inr ⟨Or.inl was, Or.inr rfl⟩)
      · rename_i value unknown
        have was : member.member.status = .unknown value := unknown
        simp [Known, Live, was] at status
    · have elsewhere :=
        acceptLeave_steps_elsewhere env state now msg members member keyed id target
      split
      · apply steps_elsewhere
        · simp [unchanged, Ne.symm target]
        · simp [unchanged]
      · exact elsewhere _ _ _ rfl rfl (by simp)
      · exact elsewhere _ _ _ rfl rfl (by simp)
      · exact elsewhere _ _ _ rfl rfl (by simp)
      · exact elsewhere _ _ _ rfl rfl (by simp)
      · exact elsewhere _ _ _ rfl rfl (by simp)

theorem reap_events_once (gone : List (MemberState Id Address)) (id : Id)
    (distinct : (ids gone).Nodup) :
    let events : List (MemberEvent Id Address) := gone.map fun m => ⟨.reap, [m.member]⟩
    (id ∉ ids gone ∧ events.filter (about id) = []) ∨
    ∃ m ∈ gone, m.member.node.id = id ∧ events.filter (about id) = [⟨.reap, [m.member]⟩] := by
  intro events
  have silent : ∀ others : List (MemberState Id Address), id ∉ ids others →
      (others.map fun m => (⟨.reap, [m.member]⟩ : MemberEvent Id Address)).filter (about id) =
        [] := by
    intro others absent
    rw [List.filter_eq_nil_iff]
    intro event sent
    obtain ⟨m, member, reported⟩ := List.mem_map.mp sent
    have other : m.member.node.id ≠ id := fun same => absent (List.mem_map.mpr ⟨m, member, same⟩)
    simp [← reported, other]
  by_cases removed : id ∈ ids gone
  · refine Or.inr ?_
    obtain ⟨m, member, same⟩ := List.mem_map.mp removed
    obtain ⟨first, second, split⟩ := List.append_of_mem member
    refine ⟨m, member, same, ?_⟩
    -- No entry before or behind this one has its id.
    subst gone
    simp only [ids, List.map_append, List.map_cons, same] at distinct
    have apart := List.nodup_middle.mp distinct
    rw [List.nodup_cons, List.mem_append, not_or] at apart
    simp [events, same, silent first apart.1.1, silent second apart.1.2]
  · exact Or.inl ⟨removed, silent gone removed⟩

theorem reap_steps (now : Id → Epoch) (timeout : Duration) (list : OldList)
    (members : Members Id Address) (id : Id) (valid : Consistent members) :
    Steps env op id members (reap env now timeout list members) := by
  obtain ⟨kept, gone, _, out, result⟩ := reap_swept env now timeout list members
  have distinct : (ids gone).Nodup :=
    (ids_perm out).nodup_iff.mpr
      ((ids_nodup list members valid).sublist (List.filter_sublist.map _))
  have lookup := lookup_eraseAll members.states (ids gone) id
  rw [Steps, result, states_set]
  rcases reap_events_once gone id distinct with ⟨absent, silent⟩ | ⟨entry, removed, target, sent⟩
  · rw [if_neg absent] at lookup
    rw [silent]
    exact lookup ▸ .idle _
  · have member : id ∈ ids gone := List.mem_map.mpr ⟨entry, removed, target⟩
    rw [if_pos member] at lookup
    have status := swept_status list members _ gone valid out id member
    obtain ⟨m, found, was⟩ := Option.map_eq_some_iff.mp status
    rw [sent, found]
    exact lookup ▸ .reaped list m entry.member was target

theorem applyOp_steps (op : TableOp Id Address) (id : Id) (valid : Consistent members)
    (known : ∀ m, members.states.lookup id = some m → Known m.member.status) :
    Steps env op id members (applyOp env members op) := by
  cases op with
  | nodeJoin n => exact handleNodeJoin_steps env n members id
  | nodeLeave now n => exact handleNodeLeave_steps env now n members id valid
  | nodeUpdate n => exact handleNodeUpdate_steps env n members id
  | joinIntent now msg => exact handleNodeJoinIntent_steps env now msg members id
  | leaveIntent state now msg =>
    exact handleNodeLeaveIntent_steps env state now msg members id valid known
  | reapFailed now timeout => exact reap_steps env _ now timeout .failed members id valid
  | reapLeft now timeout => exact reap_steps env _ now timeout .left members id valid
  | reapIntents now timeout => exact .idle _

def lastKind (events : List (MemberEvent Id Address)) : Option MemberEventType :=
  ((events.filter fun event => event.ty ≠ .update).getLast?).map MemberEvent.ty

def lastChange (id : Id) (events : List (MemberEvent Id Address)) : Option MemberEventType :=
  lastKind (events.filter (about id))

theorem lastChange_append (first second : List (MemberEvent Id Address)) :
    lastChange id (first ++ second) =
      (lastKind (second.filter (about id))).or (lastChange id first) := by
  simp only [lastChange, lastKind, List.filter_append, List.getLast?_append, Option.map_or]

/-- What the last event says about the status in the table. -/
def Tells : Option MemberEventType → Option MemberStatus → Prop
  | some .join, some status => Live status
  | some .failed, some status => status = .failed
  | some .leave, some status => status = .left
  | some .reap, status => status = none
  | none, status => status = none
  | _, _ => False

theorem tells_known (last : Option MemberEventType) (status : MemberStatus)
    (told : Tells last (some status)) : Known status := by
  match last, told with
  | some .join, told => exact Or.inl told
  | some .failed, told => exact Or.inr (Or.inl told)
  | some .leave, told => exact Or.inr (Or.inr told)

theorem tells_congr (last : Option MemberEventType) (before after : MemberStatus)
    (told : Tells last (some before)) (same : after = before ∨ Live before ∧ Live after) :
    Tells last (some after) := by
  rcases same with same | ⟨was, now⟩
  · rw [same]
    exact told
  · match last, told with
    | some .join, _ => exact now
    | some .failed, told => cases told; simp [Live] at was
    | some .leave, told => cases told; simp [Live] at was

omit [DecidableEq Id] in
theorem transition_tells (before after : Option (MemberState Id Address))
    (events : List (MemberEvent Id Address)) (last : Option MemberEventType)
    (step : Transition env op id before events after)
    (told : Tells last (before.map fun m => m.member.status)) :
    Tells ((lastKind events).or last) (after.map fun m => m.member.status) := by
  cases step with
  | idle => exact told
  | joined n _ m _ _ _ live => exact live
  | updated n before after _ _ _ status =>
    exact tells_congr last before.member.status _ told (Or.inl status)
  | retimed before after _ status => exact tells_congr last before.member.status _ told status
  | departed list before after _ _ status =>
    cases list with
    | failed => exact status
    | left => exact status
  | moved before after _ _ left => exact left
  | movedAway => rfl
  | pruned => rfl
  | reaped => rfl

theorem run_tells (ops : List (TableOp Id Address)) (id : Id) :
    Tells (lastChange id (emitted env Members.empty ops))
      (statusOf (run (tableStep env) Members.empty ops) id) := by
  -- From the end, so that the section to add is applied to a reached table.
  induction ops using List.reverseRecOn with
  | nil => rfl
  | append_singleton ops op ih =>
    have valid := run_consistent env ops Members.empty empty_consistent
    have known : ∀ m, (run (tableStep env) Members.empty ops).states.lookup id = some m →
        Known m.member.status := by
      intro m found
      apply tells_known (lastChange id (emitted env Members.empty ops))
      simpa [statusOf, found] using ih
    have step := applyOp_steps env _ op id valid known
    rw [emitted_append, lastChange_append, run_append]
    have sent : emitted env (run (tableStep env) Members.empty ops) [op] =
        (applyOp env (run (tableStep env) Members.empty ops) op).sent := by
      simp [emitted, answers, tableStep]
    rw [sent]
    exact transition_tells env op id _ _ _ _ step ih

/-- The event stream reconstructs the table: the last event about a node, with
updates left out, and the class of its status determine each other. -/
theorem member_events_faithful (env : Environment Id Address) (ops : List (TableOp Id Address))
    (id : Id) :
    let reached := run (tableStep env) Members.empty ops
    let last := lastChange id (emitted env Members.empty ops)
    (last = some .join ↔ statusOf reached id = some .alive ∨ statusOf reached id = some .leaving) ∧
    (last = some .failed ↔ statusOf reached id = some .failed) ∧
    (last = some .leave ↔ statusOf reached id = some .left) ∧
    (last = some .reap ∨ last = none ↔ reached.states.lookup id = none) := by
  intro reached last
  have told : Tells last (statusOf reached id) := run_tells env ops id
  have absent : reached.states.lookup id = none ↔ statusOf reached id = none := by
    simp [statusOf]
  rw [absent]
  generalize last = kind, statusOf reached id = status at told
  cases kind with
  | none => cases told; simp
  | some kind =>
    cases kind with
    | join =>
      cases status with
      | none => exact False.elim told
      | some status =>
        rcases told with alive | leaving
        · simp [alive]
        · simp [leaving]
    | failed =>
      cases status with
      | none => exact False.elim told
      | some status => cases told; simp
    | leave =>
      cases status with
      | none => exact False.elim told
      | some status => cases told; simp
    | reap => cases told; simp
    -- The last event is taken with updates left out.
    | update => cases status <;> exact False.elim told

end Serf.MemberLog
