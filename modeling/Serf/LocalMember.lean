import Serf.Refutation

/-!
The record of the node itself. `local_member` takes it out of the table without
asking, so it panics once the record is gone. Two things take it away: a leave intent
that prunes, which is refuted only as long as the node is alive, and a pass of the
reaper over a node that has left and stays up beyond its timeout. Nothing else does.
-/

namespace Serf.LocalMember

open Library.Collections Library.Machine
open MemberTable TableInvariant HeldTime Serf.Core

variable {Id Address : Type} [DecidableEq Id]

/-- `none` is the panic. -/
def localMember (env : NodeEnvironment Id Address) (node : SerfCore Id Address) :
    Option (Member Id Address) :=
  (node.members.states.lookup env.membership.localId).map MemberState.member

def Due (env : Environment Id Address) (now : Id → Epoch) (timeout : Duration) (list : OldList)
    (members : Members Id Address) (id : Id) : Prop :=
  ∃ entry ∈ oldMembers list members,
    entry.member.node.id = id ∧ stays env now timeout entry = false

def ErasesSelf (env : Environment Id Address) (members : Members Id Address) :
    TableOp Id Address → Prop
  | .leaveIntent state _ msg =>
    msg.id = env.localId ∧ msg.prune = true ∧ state ≠ .alive ∧
      ∃ m, members.states.lookup env.localId = some m ∧ m.statusTime < msg.ltime ∧
        m.member.status ≠ .none
  | .reapFailed now timeout => Due env now timeout .failed members env.localId
  | .reapLeft now timeout => Due env now timeout .left members env.localId
  | _ => False

section Reaper

variable (env : Environment Id Address) (now : Id → Epoch) (timeout : Duration) (list : OldList)

theorem reap_lookup (members : Members Id Address) (id : Id) :
    (reap env now timeout list members).members.states.lookup id = none ↔
      members.states.lookup id = none ∨ Due env now timeout list members id := by
  obtain ⟨kept, gone, _, out, result⟩ := reap_swept env now timeout list members
  have due : id ∈ gone.map (fun m => m.member.node.id) ↔
      Due env now timeout list members id := by
    rw [List.mem_map]
    constructor
    · rintro ⟨entry, removed, same⟩
      obtain ⟨member, drop⟩ := List.mem_filter.mp (out.subset removed)
      exact ⟨entry, member, same, by simpa using drop⟩
    · rintro ⟨entry, member, same, drop⟩
      exact ⟨entry, out.symm.subset (List.mem_filter.mpr ⟨member, by simp [drop]⟩), same⟩
  rw [result, states_set, lookup_eraseAll, ← due]
  by_cases removed : id ∈ gone.map (fun m => m.member.node.id)
  · simp [removed]
  · simp [removed]

end Reaper

variable (env : Environment Id Address) (members : Members Id Address) (op : TableOp Id Address)

theorem erasesNothing_known (nothing : ErasesNothing op) (id : Id)
    (known : members.states.lookup id ≠ none) :
    (applyOp env members op).members.states.lookup id ≠ none := by
  have effect := applyOp_effect members env op
  generalize (applyOp env members op).members = after at effect
  cases effect with
  | fewer _ _ _ same =>
    rw [same nothing]
    exact known
  | buffered _ _ _ _ _ _ => exact known
  | written _ other m _ whole _ _ =>
    rw [whole nothing, lookup_insert_eq]
    split
    · simp
    · exact known

theorem leaveIntent_erases (state : SerfState) (now : Epoch) (msg : LeaveMessage Id)
    (valid : Consistent members) (known : members.states.lookup env.localId ≠ none) :
    (handleNodeLeaveIntent env state now msg members).members.states.lookup env.localId = none ↔
      ErasesSelf env members (.leaveIntent state now msg) := by
  have effect := handleNodeLeaveIntent_effect env state now msg members
  generalize handleNodeLeaveIntent env state now msg members = outcome at effect
  cases effect with
  | stale old =>
    refine iff_of_false known ?_
    rintro ⟨own, _, _, m, found, newer, _⟩
    rw [← own] at found
    exact absurd ((stale_known members msg.id msg.ltime m found).mp old) (not_le_of_gt newer)
  | refuted _ _ self =>
    refine iff_of_false known ?_
    rintro ⟨_, _, away, _⟩
    exact away self.2
  | buffered unknown _ =>
    refine iff_of_false known ?_
    rintro ⟨own, _⟩
    exact known (own ▸ unknown)
  -- Only here can the record go, by pruning; the own one only if the refutation was off.
  | recorded m after _ found fresh other _ owner _ states _ _ _ =>
    have keyed : after.member.node.id = msg.id := by
      rw [owner]
      exact valid.keyed msg.id m found
    have newer : m.statusTime < msg.ltime :=
      lt_of_not_ge fun old => fresh ((stale_known members msg.id msg.ltime m found).mpr old)
    rw [states, keyed]
    by_cases own : msg.id = env.localId
    · have away : state ≠ .alive := fun alive => other ⟨own, alive⟩
      rw [own] at found
      simp only [ErasesSelf, own, found, true_and, Option.some.injEq, exists_eq_left',
        newer, ne_eq, away, not_false_eq_true]
      split
      · rename_i pruned
        simp [pruned]
      · rename_i kept
        simp only [lookup_insert_eq, if_true, reduceCtorEq, false_iff]
        exact kept
    · refine iff_of_false ?_ fun erases => own erases.1
      split <;> simpa [lookup_insert_eq, Ne.symm own] using known

theorem applyOp_erases (valid : Consistent members)
    (known : members.states.lookup env.localId ≠ none) :
    (applyOp env members op).members.states.lookup env.localId = none ↔
      ErasesSelf env members op := by
  have kept : ErasesNothing op →
      (applyOp env members op).members.states.lookup env.localId ≠ none :=
    fun nothing => erasesNothing_known env members op nothing env.localId known
  cases op with
  | nodeJoin n => exact iff_of_false (kept trivial) id
  | nodeLeave now n => exact iff_of_false (kept trivial) id
  | nodeUpdate n => exact iff_of_false (kept trivial) id
  | joinIntent now msg => exact iff_of_false (kept trivial) id
  | leaveIntent state now msg => exact leaveIntent_erases env members state now msg valid known
  | reapFailed now timeout =>
    exact (reap_lookup env now timeout .failed members _).trans (or_iff_right known)
  | reapLeft now timeout =>
    exact (reap_lookup env now timeout .left members _).trans (or_iff_right known)
  -- The intents are in a table of their own.
  | reapIntents now timeout => exact iff_of_false known id

/-- The operation of the node runs a section that takes its own record away. -/
def DropsSelf (env : NodeEnvironment Id Address) (node : SerfCore Id Address)
    (op : NodeOp Id Address) : Prop :=
  ∃ step ∈ tableOp env node op, ErasesSelf env.membership node.members step

theorem nodeStep_drops (env : NodeEnvironment Id Address) (node : SerfCore Id Address)
    (op : NodeOp Id Address) (valid : Consistent node.members)
    (known : localMember env node ≠ none) :
    ¬ localMember env (nodeStep env node op).1 ≠ none ↔ DropsSelf env node op := by
  have there : node.members.states.lookup env.membership.localId ≠ none := by
    simpa [localMember] using known
  rw [not_not, localMember, Option.map_eq_none_iff, nodeStep_members, DropsSelf]
  cases found : tableOp env node op with
  | none => exact iff_of_false (by simpa [run] using there) (by simp)
  | some step =>
    have erases := applyOp_erases env.membership node.members step valid there
    simpa [run, tableStep] using erases

/-- Once a node has started and knows itself, `local_member` returns at every later
moment exactly if no leave intent prunes the node while it is not alive and no pass of
the reaper finds it past its timeout. -/
theorem local_member_returns_iff (env : NodeEnvironment Id Address) (startup : Startup)
    (starting ops : List (NodeOp Id Address))
    (started : localMember env (run (nodeStep env) (newIn startup) starting) ≠ none) :
    (∀ reached, reached <+: ops →
      localMember env (run (nodeStep env) (newIn startup) (starting ++ reached)) ≠ none) ↔
    ∀ visit ∈ visits (nodeStep env) (run (nodeStep env) (newIn startup) starting) ops,
      ¬ DropsSelf env visit.1 visit.2 := by
  have whole := run_throughout_iff (nodeStep env) (fun node => Consistent node.members)
    (fun node => localMember env node ≠ none) (DropsSelf env) ?_
    (fun node op => nodeStep_drops env node op) _ ops
    (reachable_consistent env startup starting) started
  · simpa only [run_append] using whole
  · intro node op valid
    rw [nodeStep_members]
    exact run_consistent env.membership _ node.members valid

/-- What memberlist reports about the node `a` itself. -/
def selfState : NodeState String Nat := ⟨⟨"a", 0⟩, []⟩

theorem local_member_returns_leaving :
    localMember plainCore (run (nodeStep plainCore) (newIn (freshStart 3 (by decide)))
      ([.nodeJoin selfState] ++ [.beginLeave 0, .finishLeave])) ≠ none := by
  refine (local_member_returns_iff plainCore (freshStart 3 (by decide)) [.nodeJoin selfState]
    [.beginLeave 0, .finishLeave] (by decide)).mpr ?_ _ List.prefix_rfl
  rintro visit member ⟨step, found, erases⟩
  simp only [visits, List.mem_cons, List.not_mem_nil, or_false] at member
  rcases member with first | second
  · subst first
    cases found
    exact absurd erases.2.1 (by decide)
  · subst second
    cases found

/-- The node leaves. Then a leave intent about it that prunes arrives, or memberlist
reports it gone and the tombstone timeout passes. -/
theorem local_member_gone :
    let started := [NodeOp.nodeJoin selfState, .beginLeave 0]
    localMember plainCore (run (nodeStep plainCore) (newIn (freshStart 3 (by decide)))
      started) ≠ none ∧
    localMember plainCore (run (nodeStep plainCore) (newIn (freshStart 3 (by decide)))
      (started ++ [.leaveIntent 0 ⟨5, "a", true⟩])) = none ∧
    localMember plainCore (run (nodeStep plainCore) (newIn (freshStart 3 (by decide)))
      (started ++ [.nodeLeave 0 selfState, .finishLeave, .reapLeft (fun _ => 11) 10])) = none := by
  decide

end Serf.LocalMember
