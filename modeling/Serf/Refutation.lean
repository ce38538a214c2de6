import Serf.Sections
import Serf.IntentBuffer

/-!
Refuting a leave intent about the node itself. The handler witnesses the time of
the intent and looks at the own record under the lock; a fresh intent about an
alive node spawns `broadcast_join` at the clock value of that moment, whose
sections run later, among those of other calls. An intent at exactly the own
status time counts as stale and is not refuted, though the peers that hold an
older time accept it and then find the own join stale.
-/

namespace Serf.Refutation

open Library.Collections Library.Machine Library.Window
open LamportClock MemberTable TableInvariant HeldTime IntentBuffer
open Serf.Core Sections

variable {Id Address : Type} [DecidableEq Id]

def NotOlder (before after : Members Id Address) : Prop :=
  ∀ id m later, before.states.lookup id = some m → after.states.lookup id = some later →
    m.statusTime ≤ later.statusTime

section Tables

variable (env : Environment Id Address) (members : Members Id Address)

theorem applyOp_notOlder (op : TableOp Id Address) :
    NotOlder members (applyOp env members op).members := by
  have effect := applyOp_effect members env op
  generalize (applyOp env members op).members = after at effect
  intro id held later found there
  cases effect with
  | fewer _ states _ _ =>
    cases (states id later there).symm.trans found
    exact le_refl _
  | buffered _ _ _ _ _ _ =>
    cases there.symm.trans found
    exact le_refl _
  | written _ other m states _ _ source =>
    have inserted := states id later there
    rw [lookup_insert_eq] at inserted
    split at inserted
    · rename_i same
      subst same
      cases inserted
      refine source_newer members id _ source ?_ _ (heldTime_known members id held found)
      intro _ unknown
      cases unknown.symm.trans found
    · cases inserted.symm.trans found
      exact le_refl _

end Tables

theorem own_leave (env : Environment Id Address) (members : Members Id Address) (now : Epoch)
    (msg : LeaveMessage Id) (own : msg.id = env.localId) :
    (handleNodeLeaveIntent env .alive now msg members).members.states = members.states ∧
    ((handleNodeLeaveIntent env .alive now msg members).refutes = true ↔
      ∃ m, members.states.lookup env.localId = some m ∧ m.statusTime < msg.ltime) := by
  have effect := handleNodeLeaveIntent_effect env .alive now msg members
  generalize handleNodeLeaveIntent env .alive now msg members = outcome at effect
  rw [← own]
  cases effect with
  | stale old =>
    refine ⟨rfl, iff_of_false (by simp [unchanged]) ?_⟩
    rintro ⟨m, found, older⟩
    exact absurd ((stale_known members msg.id msg.ltime m found).mp old) (not_le_of_gt older)
  | refuted known fresh _ =>
    refine ⟨rfl, iff_of_true rfl ?_⟩
    obtain ⟨m, found⟩ := Option.ne_none_iff_exists'.mp known
    refine ⟨m, found, lt_of_not_ge fun old => fresh ?_⟩
    exact (stale_known members msg.id msg.ltime m found).mpr old
  | buffered unknown _ =>
    refine ⟨rfl, iff_of_false (by simp) ?_⟩
    rintro ⟨m, found, _⟩
    cases unknown.symm.trans found
  | recorded _ _ _ _ _ other _ _ _ _ _ _ _ => exact absurd ⟨own, rfl⟩ other

section Sections

variable (env : NodeEnvironment Id Address)

/-- The own record is known at a time beyond `l`. -/
def Beyond (l : LamportTime) (node : SerfCore Id Address) : Prop :=
  ∃ m, node.members.states.lookup env.membership.localId = some m ∧ l < m.statusTime

def KeepsSelf (node : SerfCore Id Address) (step : Section Id Address) : Prop :=
  node.members.states.lookup env.membership.localId ≠ none →
    (sectionStep env node step).1.members.states.lookup env.membership.localId ≠ none

/-- The section does not run the clock over. -/
def ClockSafe (node : SerfCore Id Address) : Section Id Address → Prop
  | .witness ltime => ltime < u64Max
  | .increment => node.clock < u64Max
  | _ => True

theorem sectionStep_members (node : SerfCore Id Address) (step : Section Id Address) :
    (sectionStep env node step).1.members = node.members ∨
    ∃ op, step = .table op ∧
      (sectionStep env node step).1.members = (applyOp env.membership node.members op).members := by
  cases step with
  | table op => exact Or.inr ⟨op, rfl, rfl⟩
  | recordEvent msg =>
    refine Or.inl ?_
    simp only [sectionStep, recordEvent]
    split <;> rfl
  | recordQuery q ty =>
    refine Or.inl ?_
    simp only [sectionStep, recordQuery]
    split <;> rfl
  | raiseMinTime eventLtime =>
    refine Or.inl ?_
    simp only [sectionStep, raiseMinTime]
    split <;> rfl
  | enterLeft =>
    refine Or.inl ?_
    simp only [sectionStep, finishLeave]
    split <;> rfl
  | _ => exact Or.inl rfl

theorem sectionStep_beyond (l : LamportTime) (node : SerfCore Id Address)
    (step : Section Id Address) (keeps : KeepsSelf env node step) (beyond : Beyond env l node) :
    Beyond env l (sectionStep env node step).1 := by
  obtain ⟨m, found, past⟩ := beyond
  have stays := keeps (by simp [found])
  rcases sectionStep_members env node step with same | ⟨op, _, changed⟩
  · exact ⟨m, by rw [same]; exact found, past⟩
  · rw [changed] at stays
    obtain ⟨later, there⟩ := Option.ne_none_iff_exists'.mp stays
    have grows := applyOp_notOlder env.membership node.members op _ m later found there
    exact ⟨later, by rw [changed]; exact there, lt_of_lt_of_le past grows⟩

theorem run_beyond (l : LamportTime) (node : SerfCore Id Address) (rest : List (Section Id Address))
    (keeps : ∀ visit ∈ visits (sectionStep env) node rest, KeepsSelf env visit.1 visit.2)
    (beyond : Beyond env l node) : Beyond env l (run (sectionStep env) node rest) :=
  run_guarded (sectionStep env) (KeepsSelf env) (Beyond env l)
    (fun node step keeps beyond => sectionStep_beyond env l node step keeps beyond) node rest keeps
    beyond

theorem run_knows (node : SerfCore Id Address) (rest : List (Section Id Address))
    (keeps : ∀ visit ∈ visits (sectionStep env) node rest, KeepsSelf env visit.1 visit.2)
    (known : node.members.states.lookup env.membership.localId ≠ none) :
    (run (sectionStep env) node rest).members.states.lookup env.membership.localId ≠ none :=
  run_guarded (sectionStep env) (KeepsSelf env)
    (fun node => node.members.states.lookup env.membership.localId ≠ none)
    (fun _ _ keeps known => keeps known) node rest keeps known

theorem sectionStep_clock (node : SerfCore Id Address) (step : Section Id Address)
    (safe : ClockSafe node step) : node.clock ≤ (sectionStep env node step).1.clock := by
  cases step with
  | witness ltime => exact witness_grows _ _ safe
  | increment => exact le_of_lt (increment_passes _ safe)
  | recordEvent msg =>
    simp only [sectionStep, recordEvent]
    split <;> exact le_refl _
  | recordQuery q ty =>
    simp only [sectionStep, recordQuery]
    split <;> exact le_refl _
  | raiseMinTime eventLtime =>
    simp only [sectionStep, raiseMinTime]
    split <;> exact le_refl _
  | enterLeft =>
    simp only [sectionStep, finishLeave]
    split <;> exact le_refl _
  | _ => exact le_refl _

theorem witnessed_clock (node : SerfCore Id Address) (l : LamportTime) (below : l < u64Max)
    (between : List (Section Id Address))
    (safe : ∀ visit ∈ visits (sectionStep env) (sectionStep env node (.witness l)).1 between,
      ClockSafe visit.1 visit.2) :
    l < (run (sectionStep env) node (.witness l :: between)).clock := by
  rw [run]
  refine run_guarded (sectionStep env) ClockSafe (fun node => l < node.clock) ?_ _ between safe ?_
  · intro reached step safe past
    exact lt_of_lt_of_le past (sectionStep_clock env reached step safe)
  · exact witness_passes _ _ below

def Ran (answer : Answer Id Address) (rest : List (Section Id Address)) : Prop :=
  ∀ ltime, answer.refutation = some ltime →
    ∃ wall, .table (.joinIntent wall ⟨ltime, env.membership.localId⟩) ∈ rest

theorem refuted_iff (node : SerfCore Id Address) (now : Epoch) (msg : LeaveMessage Id)
    (own : msg.id = env.membership.localId) (ltime : LamportTime) :
    (sectionStep env node (.table (.leaveIntent .alive now msg))).2.refutation = some ltime ↔
      ltime = node.clock ∧ ∃ m, node.members.states.lookup env.membership.localId = some m ∧
        m.statusTime < msg.ltime := by
  rw [← (own_leave env.membership node.members now msg own).2]
  simp only [sectionStep, applyOp]
  by_cases refutes : (handleNodeLeaveIntent env.membership .alive now msg
      node.members).refutes = true
  · simp [refutes, eq_comm]
  · simp [refutes]

theorem join_beyond (l ltime : LamportTime) (past : l < ltime) (node : SerfCore Id Address)
    (known : node.members.states.lookup env.membership.localId ≠ none)
    (rest : List (Section Id Address)) (wall : Epoch)
    (member : .table (.joinIntent wall ⟨ltime, env.membership.localId⟩) ∈ rest)
    (keeps : ∀ visit ∈ visits (sectionStep env) node rest, KeepsSelf env visit.1 visit.2) :
    Beyond env l (run (sectionStep env) node rest) := by
  obtain ⟨first, second, rfl⟩ := List.append_of_mem member
  rw [visits_append] at keeps
  have still := run_knows env node first
    (fun visit inside => keeps visit (List.mem_append_left _ inside)) known
  rw [run_append, run]
  apply run_beyond
  · intro visit inside
    exact keeps visit (List.mem_append_right _ (List.mem_cons_of_mem _ inside))
  · have stays := keeps (_, _) (List.mem_append_right _ List.mem_cons_self) still
    obtain ⟨later, there⟩ := Option.ne_none_iff_exists'.mp stays
    have stale := handleNodeJoinIntent_stale wall ⟨ltime, env.membership.localId⟩
      (run (sectionStep env) node first).members
    exact ⟨later, there, lt_of_lt_of_le past ((stale_known _ _ _ later there).mp stale)⟩

theorem own_time_iff (node : SerfCore Id Address) (now : Epoch) (msg : LeaveMessage Id)
    (own : msg.id = env.membership.localId) (past : msg.ltime < node.clock) :
    let step := sectionStep env node (.table (.leaveIntent .alive now msg))
    (∀ rest, Ran env step.2 rest →
      (∀ visit ∈ visits (sectionStep env) step.1 rest, KeepsSelf env visit.1 visit.2) →
      Beyond env msg.ltime (run (sectionStep env) step.1 rest)) ↔
    ∃ m, node.members.states.lookup env.membership.localId = some m ∧
      m.statusTime ≠ msg.ltime := by
  intro step
  have states : step.1.members.states = node.members.states :=
    (own_leave env.membership node.members now msg own).1
  have refuted := refuted_iff env node now msg own
  constructor
  · intro always
    by_contra unlike
    -- Nothing is refuted, so nothing else has to run.
    have silent : ∀ ltime, step.2.refutation ≠ some ltime := by
      intro ltime spawned
      obtain ⟨_, m, found, older⟩ := (refuted ltime).mp spawned
      exact unlike ⟨m, found, ne_of_lt older⟩
    obtain ⟨m, found, beyond⟩ := always [] (fun ltime spawned => absurd spawned (silent ltime))
      (by simp [visits])
    rw [run, states] at found
    exact unlike ⟨m, found, ne_of_gt beyond⟩
  · rintro ⟨m, found, different⟩ rest ran keeps
    rcases lt_or_gt_of_ne different with older | newer
    · obtain ⟨wall, member⟩ := ran node.clock ((refuted node.clock).mpr ⟨rfl, m, found, older⟩)
      exact join_beyond env msg.ltime node.clock past step.1 (by simp [states, found]) rest wall
        member keeps
    · apply run_beyond env msg.ltime step.1 rest keeps
      exact ⟨m, by rw [states]; exact found, newer⟩

end Sections

/-- The node treats the member as leaving: by its record, or by the intent that
it holds for the time when the member becomes known. -/
def SeesLeaving (members : Members Id Address) (id : Id) : Prop :=
  statusOf members id = some .leaving ∨
    (members.states.lookup id = none ∧
      ∃ intent, members.recentIntents.lookup id = some intent ∧ intent.ty = .leave)

section Peers

variable (env : Environment Id Address) (members : Members Id Address)

theorem join_ends_leaving (now : Epoch) (msg : JoinMessage Id)
    (fresh : ¬ Stale members msg.id msg.ltime) :
    ¬ SeesLeaving (handleNodeJoinIntent now msg members).members msg.id := by
  have effect := handleNodeJoinIntent_effect now msg members
  generalize handleNodeJoinIntent now msg members = outcome at effect
  cases effect with
  | stale old => exact absurd old fresh
  | buffered unknown _ =>
    rintro (leaving | ⟨_, intent, found, leave⟩)
    · simp [statusOf, unknown] at leaving
    · simp only [lookup_insert_eq, if_true, Option.some.injEq] at found
      subst intent
      cases leave
  | recorded m after found _ _ _ status =>
    rintro (leaving | ⟨gone, _⟩)
    · simp only [statusOf, states_put, lookup_insert_eq, if_true, Option.map_some,
        Option.some.injEq] at leaving
      rw [status] at leaving
      split at leaving
      · cases leaving
      · rename_i other
        exact other leaving
    · simp at gone

theorem leave_keeps_fresh (outdated : Outdated members) (consistent : Consistent members)
    (state : SerfState) (now : Epoch) (msg : LeaveMessage Id) (ltime : LamportTime)
    (newer : msg.ltime < ltime) (fresh : ¬ Stale members msg.id ltime) :
    ¬ Stale (handleNodeLeaveIntent env state now msg members).members msg.id ltime := by
  have effect := handleNodeLeaveIntent_effect env state now msg members
  generalize handleNodeLeaveIntent env state now msg members = outcome at effect
  cases effect with
  | stale _ => exact fresh
  | refuted _ _ _ => exact fresh
  | buffered unknown _ =>
    intro stale
    obtain ⟨intent, found, old⟩ := (stale_buffered _ msg.id ltime (by exact unknown)).mp stale
    simp only [lookup_insert_eq, if_true, Option.some.injEq] at found
    subst intent
    exact absurd old (not_le_of_gt newer)
  | recorded m after _ found _ _ time owner _ states intents _ _ =>
    have key : after.member.node.id = msg.id := by
      rw [owner, consistent.keyed msg.id m found]
    split at states
    · -- What the buffer still holds is not newer than the erased record.
      have gone : outcome.members.states.lookup msg.id = none := by simp [states, key]
      rw [stale_buffered _ msg.id ltime gone, intents]
      rintro ⟨intent, buffered, old⟩
      have behind := outdated.times msg.id m intent found buffered
      exact fresh ((stale_known members msg.id ltime m found).mpr (le_trans old behind))
    · have here : outcome.members.states.lookup msg.id = some after := by simp [states]
      rw [stale_known _ msg.id ltime after here, time]
      exact not_le_of_gt newer

theorem join_left (now : Epoch) (msg : JoinMessage Id)
    (left : statusOf (handleNodeJoinIntent now msg members).members msg.id = some .left) :
    statusOf members msg.id = some .left := by
  have effect := handleNodeJoinIntent_effect now msg members
  generalize handleNodeJoinIntent now msg members = outcome at effect left
  cases effect with
  | stale _ => exact left
  | buffered _ _ => exact left
  | recorded m after found _ _ _ status =>
    simp only [statusOf, states_put, lookup_insert_eq, if_true, Option.map_some,
      Option.some.injEq] at left
    rw [status] at left
    split at left
    · cases left
    · simp [statusOf, found, left]

theorem leave_left (consistent : Consistent members) (state : SerfState) (now : Epoch)
    (msg : LeaveMessage Id)
    (left : statusOf (handleNodeLeaveIntent env state now msg members).members msg.id =
      some .left) :
    statusOf members msg.id = some .left ∨ statusOf members msg.id = some .failed := by
  have effect := handleNodeLeaveIntent_effect env state now msg members
  generalize handleNodeLeaveIntent env state now msg members = outcome at effect left
  cases effect with
  | stale _ => exact Or.inl left
  | refuted _ _ _ => exact Or.inl left
  | buffered _ _ => exact Or.inl left
  | recorded m after _ found _ _ _ owner status states _ _ _ =>
    have key : after.member.node.id = msg.id := by
      rw [owner, consistent.keyed msg.id m found]
    rw [statusOf, states] at left
    split at left
    · simp [key] at left
    · simp only [lookup_insert_eq, if_true, Option.map_some, Option.some.injEq] at left
      rw [status] at left
      cases before : m.member.status <;> simp_all [statusOf, statusAfterLeave]

/-- What a peer makes of a leave intent and a newer join intent about a member:
unless it holds a time that makes both irrelevant, it does not treat the member as
leaving, in either order. A member that it took for failed may have become left. -/
structure Recovers (leave join : TableOp Id Address) (id : Id) (ltime : LamportTime) : Prop where
  idle : Stale members id ltime →
    run (tableStep env) members [leave, join] = members ∧
    run (tableStep env) members [join, leave] = members
  leaveFirst : ¬ Stale members id ltime →
    ¬ SeesLeaving (run (tableStep env) members [leave, join]) id
  joinFirst : ¬ Stale members id ltime →
    ¬ SeesLeaving (run (tableStep env) members [join, leave]) id
  left : statusOf (run (tableStep env) members [leave, join]) id = some .left →
    statusOf members id = some .left ∨ statusOf members id = some .failed

theorem peer_recovers (outdated : Outdated members) (consistent : Consistent members)
    (state : SerfState) (now wall : Epoch) (msg : LeaveMessage Id) (ltime : LamportTime)
    (newer : msg.ltime < ltime) :
    Recovers env members (.leaveIntent state now msg) (.joinIntent wall ⟨ltime, msg.id⟩) msg.id
      ltime := by
  constructor
  · rintro ⟨held, holds, old⟩
    have join := handleNodeJoinIntent_idle wall ⟨ltime, msg.id⟩ members ⟨held, holds, old⟩
    have leave := handleNodeLeaveIntent_idle env state now msg members
      ⟨held, holds, le_trans (le_of_lt newer) old⟩
    simp [run, tableStep, applyOp, join, leave, unchanged]
  · intro fresh
    exact join_ends_leaving _ wall ⟨ltime, msg.id⟩
      (leave_keeps_fresh env members outdated consistent state now msg ltime newer fresh)
  · intro fresh
    have taken := handleNodeJoinIntent_taken wall ⟨ltime, msg.id⟩ members fresh
    have leave := handleNodeLeaveIntent_idle env state now msg
      (handleNodeJoinIntent wall ⟨ltime, msg.id⟩ members).members ⟨ltime, taken, le_of_lt newer⟩
    simp only [run, tableStep, applyOp, leave]
    exact join_ends_leaving members wall ⟨ltime, msg.id⟩ fresh
  · intro left
    exact leave_left env members consistent state now msg
      (join_left _ wall ⟨ltime, msg.id⟩ left)

end Peers

/-- A leave intent about an alive node is outdated by the node exactly when the
own record is known and carries another time; and peers recover from the intent
by every newer join. -/
theorem leave_outdated_iff (env : NodeEnvironment Id Address) (startup : Startup)
    (prior between : List (Section Id Address)) (now : Epoch) (msg : LeaveMessage Id)
    (own : msg.id = env.membership.localId) (below : msg.ltime < u64Max)
    (safe : ∀ visit ∈ visits (sectionStep env)
      (run (sectionStep env) (newIn startup) (prior ++ [.witness msg.ltime])) between,
      ClockSafe visit.1 visit.2) :
    let node := run (sectionStep env) (newIn startup) (prior ++ .witness msg.ltime :: between)
    let step := sectionStep env node (.table (.leaveIntent .alive now msg))
    ((∀ rest, Ran env step.2 rest →
        (∀ visit ∈ visits (sectionStep env) step.1 rest, KeepsSelf env visit.1 visit.2) →
        Beyond env msg.ltime (run (sectionStep env) step.1 rest)) ↔
      ∃ m, node.members.states.lookup env.membership.localId = some m ∧
        m.statusTime ≠ msg.ltime) ∧
    ∀ (peer : Environment Id Address) (ops : List (TableOp Id Address)) (state : SerfState)
      (here wall : Epoch) (ltime : LamportTime), msg.ltime < ltime →
      Recovers peer (run (tableStep peer) Members.empty ops) (.leaveIntent state here msg)
        (.joinIntent wall ⟨ltime, msg.id⟩) msg.id ltime := by
  intro node step
  constructor
  · apply own_time_iff env node now msg own
    rw [run_append] at safe
    have past := witnessed_clock env (run (sectionStep env) (newIn startup) prior) msg.ltime below
      between safe
    rw [← run_append] at past
    exact past
  · intro peer ops state here wall ltime newer
    exact peer_recovers peer _ (run_outdated peer ops)
      (run_consistent peer ops _ empty_consistent) state here wall msg ltime newer

/-- The node `a` has joined and advertised its join at time 1. -/
def advertised : List (Section String Nat) :=
  [.table (.nodeJoin ⟨⟨"a", 1⟩, []⟩), .witness 1, .witness 1, .table (.joinIntent 0 ⟨1, "a"⟩)]

theorem leave_outdated_newer :
    let node := run (sectionStep plainCore) (newIn (freshStart 2 (by decide)))
      (advertised ++ [.witness 5])
    let step := sectionStep plainCore node (.table (.leaveIntent .alive 0 ⟨5, "a", false⟩))
    step.2.refutation = some 6 ∧
    Beyond plainCore 5 (run (sectionStep plainCore) step.1
      [.witness 6, .witness 6, .table (.joinIntent 0 ⟨6, "a"⟩)]) := by
  intro node step
  have held := (leave_outdated_iff plainCore (freshStart 2 (by decide)) advertised [] 0
    ⟨5, "a", false⟩ rfl (by decide) (by simp [visits])).1.mpr
  have spawned : step.2.refutation = some 6 := by decide
  have time : (node.members.states.lookup "a").map MemberState.statusTime = some 1 := by decide
  obtain ⟨m, known, dated⟩ := Option.map_eq_some_iff.mp time
  refine ⟨spawned, held ⟨m, known, by rw [dated]; decide⟩ _ ?_ ?_⟩
  · intro ltime again
    cases spawned.symm.trans again
    exact ⟨0, by simp [plainCore, plainNode]⟩
  · unfold KeepsSelf
    decide

/-- A leave intent at the time of the own join, as a peer with the clock at 1
sends it in `force_leave`: the node does not refute it, and a peer that receives
it before the join goes on treating the node as leaving. -/
theorem equal_time_not_refuted :
    let node := run (sectionStep plainCore) (newIn (freshStart 2 (by decide)))
      (advertised ++ [.witness 1])
    let step := sectionStep plainCore node (.table (.leaveIntent .alive 0 ⟨1, "a", false⟩))
    node.state = .alive ∧ step.2.refutation = none ∧
    (step.1.members.states.lookup "a").map MemberState.statusTime = some 1 ∧
    ¬ Beyond plainCore 1 step.1 ∧
    statusOf (run (tableStep { plainNode with localId := "b" }) Members.empty
      [.nodeJoin ⟨⟨"a", 1⟩, []⟩, .leaveIntent .alive 0 ⟨1, "a", false⟩, .joinIntent 0 ⟨1, "a"⟩])
      "a" = some .leaving := by
  intro node step
  have time : (step.1.members.states.lookup "a").map MemberState.statusTime = some 1 := by decide
  refine ⟨by decide, by decide, time, ?_, by decide⟩
  rintro ⟨m, known, beyond⟩
  obtain ⟨held, there, dated⟩ := Option.map_eq_some_iff.mp time
  cases known.symm.trans there
  rw [dated] at beyond
  exact absurd beyond (by decide)

end Serf.Refutation
