import Serf.HeldTime

/-!
What the buffer of early intents remembers. The handler of a join notification
reads the buffered intent of the new member and leaves it where it is; from then
on the status time carries what has been accepted, and the buffered intent is
never ahead of it. A prune erases the record together with its status time, so
the buffer is all that is left, and it does not know the message that pruned.
-/

namespace Serf.IntentBuffer

open Library.Collections Library.Machine MemberTable TableInvariant HeldTime

variable {Id Address : Type} [DecidableEq Id]

/-- The buffered intents are of the two kinds, and that of a known member is not
newer than its record. -/
structure Outdated (members : Members Id Address) : Prop where
  kinds : ∀ id intent, members.recentIntents.lookup id = some intent →
    intent.ty = .join ∨ intent.ty = .leave
  times : ∀ id m intent, members.states.lookup id = some m →
    members.recentIntents.lookup id = some intent → intent.ltime ≤ m.statusTime

theorem empty_outdated : Outdated (Members.empty : Members Id Address) := by
  constructor <;> simp [Members.empty]

section Steps

variable (env : Environment Id Address) (members : Members Id Address) (outdated : Outdated members)

include outdated

theorem subset_outdated (after : Members Id Address)
    (states : ∀ id m, after.states.lookup id = some m → members.states.lookup id = some m)
    (intents : ∀ id intent, after.recentIntents.lookup id = some intent →
      members.recentIntents.lookup id = some intent) : Outdated after where
  kinds id intent found := outdated.kinds id intent (intents id intent found)
  times id m intent found buffered :=
    outdated.times id m intent (states id m found) (intents id intent buffered)

theorem buffer_outdated (id : Id) (intent : NodeIntent) (unknown : members.states.lookup id = none)
    (kind : intent.ty = .join ∨ intent.ty = .leave) :
    Outdated { members with recentIntents := members.recentIntents.insert id intent } where
  kinds other found here := by
    rw [lookup_insert_eq] at here
    split at here
    · cases here
      exact kind
    · exact outdated.kinds other found here
  times other m found here buffered := by
    have different : other ≠ id := by
      rintro rfl
      rw [unknown] at here
      cases here
    rw [lookup_insert_eq, if_neg different] at buffered
    exact outdated.times other m found here buffered

theorem buffered_held (id : Id) (intent : NodeIntent)
    (buffered : members.recentIntents.lookup id = some intent) :
    ∃ held, heldTime members id = some held ∧ intent.ltime ≤ held := by
  cases found : members.states.lookup id with
  | none => exact ⟨_, by rw [heldTime_unknown members id found, buffered]; rfl, le_refl _⟩
  | some m =>
    exact ⟨_, heldTime_known members id m found, outdated.times id m intent found buffered⟩

theorem applyOp_outdated (op : TableOp Id Address) :
    Outdated (applyOp env members op).members := by
  have effect := applyOp_effect members env op
  generalize (applyOp env members op).members = after at effect
  cases effect with
  | fewer _ states intents _ => exact subset_outdated members outdated _ states intents
  | buffered id intent unknown _ kind _ =>
    exact buffer_outdated members outdated id intent unknown kind
  | written _ id m states _ intents source =>
    refine ⟨fun id intent found => outdated.kinds id intent (intents ▸ found), ?_⟩
    intro other found intent here buffered
    rw [intents] at buffered
    have inserted := states other found here
    rw [lookup_insert_eq] at inserted
    split at inserted
    · rename_i same
      cases inserted
      rw [same] at buffered
      obtain ⟨held, holds, behind⟩ := buffered_held members outdated id intent buffered
      exact le_trans behind (source_newer members id _ source
        (fun _ _ => outdated.kinds id) held holds)
    · exact outdated.times other found intent inserted buffered

end Steps

theorem run_outdated (env : Environment Id Address) (ops : List (TableOp Id Address)) :
    Outdated (run (tableStep env) Members.empty ops) := by
  apply run_invariant (tableStep env) (fun _ => True) Outdated
  · intro members op _ outdated
    exact applyOp_outdated env members outdated op
  · intro op _
    trivial
  · exact empty_outdated

def Ignores (env : Environment Id Address) (msg : LeaveMessage Id) (members : Members Id Address) :
    Prop :=
  ∀ state now, handleNodeLeaveIntent env state now msg members = unchanged members

def JoinsAlive (env : Environment Id Address) (id : Id) (members : Members Id Address) : Prop :=
  ∀ n tags, n.node.id = id → joinTags env n = some tags →
    statusOf (handleNodeJoin env n members).members id = some .alive

section Unknown

variable (env : Environment Id Address) (members : Members Id Address)

theorem stale_buffered (id : Id) (ltime : LamportTime) (unknown : members.states.lookup id = none) :
    Stale members id ltime ↔
      ∃ intent, members.recentIntents.lookup id = some intent ∧ ltime ≤ intent.ltime := by
  simp only [Stale, heldTime_unknown members id unknown, Option.map_eq_some_iff]
  constructor
  · rintro ⟨_, ⟨intent, found, rfl⟩, old⟩
    exact ⟨intent, found, old⟩
  · rintro ⟨intent, found, old⟩
    exact ⟨_, ⟨intent, found, rfl⟩, old⟩

theorem leaveIntent_buffers (state : SerfState) (now : Epoch) (msg : LeaveMessage Id)
    (unknown : members.states.lookup msg.id = none) (fresh : ¬ Stale members msg.id msg.ltime) :
    handleNodeLeaveIntent env state now msg members =
      ⟨{ members with
          recentIntents := members.recentIntents.insert msg.id ⟨.leave, now, msg.ltime⟩ },
        [], true, false⟩ := by
  have effect := handleNodeLeaveIntent_effect env state now msg members
  generalize handleNodeLeaveIntent env state now msg members = outcome at effect
  cases effect with
  | stale old => exact absurd old fresh
  | refuted known _ _ => exact absurd unknown known
  | buffered _ _ => rfl
  | recorded m _ _ found _ _ _ _ _ _ _ _ _ =>
    rw [unknown] at found
    cases found

theorem ignores_iff (msg : LeaveMessage Id) (unknown : members.states.lookup msg.id = none) :
    Ignores env msg members ↔
      ∃ intent, members.recentIntents.lookup msg.id = some intent ∧ msg.ltime ≤ intent.ltime := by
  rw [← stale_buffered members msg.id msg.ltime unknown]
  constructor
  · intro ignores
    by_contra fresh
    have same := ignores .alive 0
    rw [leaveIntent_buffers env members .alive 0 msg unknown fresh] at same
    cases congrArg Outcome.rebroadcast same
  · intro stale state now
    exact handleNodeLeaveIntent_idle env state now msg members stale

theorem join_status (n : NodeState Id Address) (tags : Tags) (readable : joinTags env n = some tags)
    (unknown : members.states.lookup n.node.id = none) :
    statusOf (handleNodeJoin env n members).members n.node.id =
      some (match recentIntent members.recentIntents n.node.id .leave with
        | some _ => .leaving
        | none => .alive) := by
  simp only [handleNodeJoin, readable, unknown, statusOf, states_put, lookup_insert_eq, if_true,
    Option.map_some]
  unfold joinedNew
  cases recentIntent members.recentIntents n.node.id .leave with
  | none => rfl
  | some time => rfl

theorem joinsAlive_iff (id : Id) (unknown : members.states.lookup id = none) (address : Address) :
    JoinsAlive env id members ↔
      ∀ intent, members.recentIntents.lookup id = some intent → intent.ty ≠ .leave := by
  constructor
  · intro joins intent buffered leave
    have alive := joins ⟨⟨id, address⟩, []⟩ ∅ rfl rfl
    rw [join_status env members ⟨⟨id, address⟩, []⟩ ∅ rfl unknown, recentIntent, buffered] at alive
    simp [leave] at alive
  · rintro peaceful n tags rfl readable
    rw [join_status env members n tags readable unknown, recentIntent]
    cases buffered : members.recentIntents.lookup n.node.id with
    | none => rfl
    | some intent => simp [peaceful intent buffered]

theorem buffered_leaving (id : Id) (unknown : members.states.lookup id = none) (address : Address)
    (intent : NodeIntent) (leave : intent.ty = .leave) :
    ¬ JoinsAlive env id
      { members with recentIntents := members.recentIntents.insert id intent } := by
  intro joins
  have peaceful := (joinsAlive_iff env
    { members with recentIntents := members.recentIntents.insert id intent } id unknown address).mp
    joins
  exact peaceful intent (by simp) leave

end Unknown

theorem prune_erases (env : Environment Id Address) (members : Members Id Address)
    (consistent : Consistent members) (state : SerfState) (now : Epoch) (msg : LeaveMessage Id)
    (m : MemberState Id Address) (known : members.states.lookup msg.id = some m)
    (pruning : msg.prune = true)
    (accepted : (handleNodeLeaveIntent env state now msg members).rebroadcast = true) :
    ¬ Stale members msg.id msg.ltime ∧
    (handleNodeLeaveIntent env state now msg members).members.states.lookup msg.id = none ∧
    (handleNodeLeaveIntent env state now msg members).members.recentIntents =
      members.recentIntents := by
  have effect := handleNodeLeaveIntent_effect env state now msg members
  generalize handleNodeLeaveIntent env state now msg members = outcome at effect accepted
  cases effect with
  | stale _ => cases accepted
  | refuted _ _ _ => cases accepted
  | buffered unknown _ =>
    rw [known] at unknown
    cases unknown
  | recorded held after _ found fresh _ _ owner _ states intents passed _ =>
    have key : after.member.node.id = msg.id := by
      rw [owner, consistent.keyed msg.id held found]
    have status : held.member.status ≠ .none := by simpa [passed] using accepted
    rw [if_pos ⟨pruning, status⟩, key] at states
    exact ⟨fresh, by simp [states], intents⟩

/-- After an accepted prune the next delivery of the message is accepted again,
and the node will join as leaving. Later deliveries are ignored exactly while the
buffer holds an intent of the node that is not older; and the node joins alive
exactly while the buffer holds no leave intent. -/
theorem prune_redelivered (env : Environment Id Address) (ops : List (TableOp Id Address))
    (state : SerfState) (now : Epoch) (msg : LeaveMessage Id) (m : MemberState Id Address)
    (known : (run (tableStep env) Members.empty ops).states.lookup msg.id = some m)
    (pruning : msg.prune = true)
    (accepted : (handleNodeLeaveIntent env state now msg
      (run (tableStep env) Members.empty ops)).rebroadcast = true) :
    let erased := (handleNodeLeaveIntent env state now msg
      (run (tableStep env) Members.empty ops)).members
    erased.states.lookup msg.id = none ∧
    (∀ again wall, (handleNodeLeaveIntent env again wall msg erased).rebroadcast = true ∧
      ¬ JoinsAlive env msg.id (handleNodeLeaveIntent env again wall msg erased).members) ∧
    ∀ later, let reached := run (tableStep env) erased later
      reached.states.lookup msg.id = none →
      (Ignores env msg reached ↔ ∃ intent,
        reached.recentIntents.lookup msg.id = some intent ∧ msg.ltime ≤ intent.ltime) ∧
      (JoinsAlive env msg.id reached ↔ ∀ intent,
        reached.recentIntents.lookup msg.id = some intent → intent.ty ≠ .leave) := by
  intro erased
  have outdated := run_outdated env ops
  have consistent := run_consistent env ops Members.empty empty_consistent
  obtain ⟨fresh, gone, intents⟩ :=
    prune_erases env _ consistent state now msg m known pruning accepted
  refine ⟨gone, ?_, ?_⟩
  · intro again wall
    have forgotten : ¬ Stale erased msg.id msg.ltime := by
      rw [stale_buffered erased msg.id msg.ltime gone]
      rintro ⟨intent, buffered, newer⟩
      obtain ⟨held, holds, behind⟩ := buffered_held _ outdated msg.id intent (intents ▸ buffered)
      exact fresh ⟨held, holds, le_trans newer behind⟩
    rw [leaveIntent_buffers env erased again wall msg gone forgotten]
    exact ⟨rfl, buffered_leaving env erased msg.id gone m.member.node.address _ rfl⟩
  · intro later reached unknown
    exact ⟨ignores_iff env reached msg unknown,
      joinsAlive_iff env reached msg.id unknown m.member.node.address⟩

/-- The member `x` joins and is pruned at time 5. -/
def prunedOnce : List (TableOp String Nat) := [.nodeJoin ⟨⟨"x", 7⟩, []⟩]

theorem prune_redelivered_sample :
    let members := run (tableStep plainNode) Members.empty prunedOnce
    let erased := (handleNodeLeaveIntent plainNode .alive 0 ⟨5, "x", true⟩ members).members
    (handleNodeLeaveIntent plainNode .alive 0 ⟨5, "x", true⟩ members).rebroadcast = true ∧
    erased.states.lookup "x" = none ∧
    (Ignores plainNode ⟨5, "x", true⟩ erased ↔ ∃ intent,
      erased.recentIntents.lookup "x" = some intent ∧ 5 ≤ intent.ltime) := by
  intro members erased
  cases known : members.states.lookup "x" with
  | none => exact absurd known (by decide)
  | some m =>
    have held := prune_redelivered plainNode prunedOnce .alive 0 ⟨5, "x", true⟩ m known rfl
      (by decide)
    exact ⟨by decide, held.1, (held.2.2 [] held.1).1⟩

/-- A second copy of the intent that pruned `x` is passed on, is remembered as a
leave and makes `x` join as leaving. -/
theorem prune_not_idempotent :
    let members := run (tableStep plainNode) Members.empty prunedOnce
    let first := handleNodeLeaveIntent plainNode .alive 0 ⟨5, "x", true⟩ members
    let second := handleNodeLeaveIntent plainNode .alive 0 ⟨5, "x", true⟩ first.members
    first.rebroadcast = true ∧ first.members.states.lookup "x" = none ∧
    second.rebroadcast = true ∧
    second.members.recentIntents.lookup "x" = some ⟨.leave, 0, 5⟩ ∧
    statusOf (handleNodeJoin plainNode ⟨⟨"x", 7⟩, []⟩ first.members).members "x" = some .alive ∧
    statusOf (handleNodeJoin plainNode ⟨⟨"x", 7⟩, []⟩ second.members).members "x" =
      some .leaving := by
  decide

end Serf.IntentBuffer
