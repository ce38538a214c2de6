import Serf.TableInvariant

/-!
The Lamport time that a node holds for an id: the status time of a known
member, the time of the buffered intent of an unknown one. An intent is stale
when the held time is not older than its own; a stale intent changes nothing,
and any other intent raises the held time to its own. Everything else that
happens without erasing a member keeps the held times.
-/

namespace Serf.HeldTime

open Library.Collections Library.Machine Library.Window MemberTable

variable {Id Address : Type} [DecidableEq Id]

def heldTime (members : Members Id Address) (id : Id) : Option LamportTime :=
  match members.states.lookup id with
  | some m => some m.statusTime
  | none => (members.recentIntents.lookup id).map NodeIntent.ltime

def Stale (members : Members Id Address) (id : Id) (ltime : LamportTime) : Prop :=
  ∃ held, heldTime members id = some held ∧ ltime ≤ held

variable (members : Members Id Address) (id : Id) (m : MemberState Id Address)

theorem heldTime_known (found : members.states.lookup id = some m) :
    heldTime members id = some m.statusTime := by
  simp [heldTime, found]

theorem heldTime_unknown (unknown : members.states.lookup id = none) :
    heldTime members id = (members.recentIntents.lookup id).map NodeIntent.ltime := by
  simp [heldTime, unknown]

theorem heldTime_put (other : Id) (m : MemberState Id Address) :
    heldTime (putMember members id m) other =
      if other = id then some m.statusTime else heldTime members other := by
  simp only [heldTime]
  rw [states_put, lookup_insert_eq]
  by_cases same : other = id
  · simp [same]
  · simp [same, putMember]

variable (before after : Members Id Address)

theorem heldTime_congr (id : Id) (states : after.states.lookup id = before.states.lookup id)
    (intents : after.recentIntents.lookup id = before.recentIntents.lookup id) :
    heldTime after id = heldTime before id := by
  simp [heldTime, states, intents]

theorem stale_known (ltime : LamportTime) (m : MemberState Id Address)
    (found : members.states.lookup id = some m) :
    Stale members id ltime ↔ ltime ≤ m.statusTime := by
  simp [Stale, heldTime_known members id m found]

theorem upsertIntent_stale (ty : MessageType) (ltime : LamportTime) (now : Epoch)
    (unknown : members.states.lookup id = none) (stale : Stale members id ltime) :
    upsertIntent members.recentIntents id ty ltime now = (members.recentIntents, false) := by
  obtain ⟨held, holds, old⟩ := stale
  rw [heldTime_unknown members id unknown] at holds
  obtain ⟨intent, found, rfl⟩ := Option.map_eq_some_iff.mp holds
  simp [upsertIntent, found, not_lt_of_ge old]

theorem upsertIntent_fresh (ty : MessageType) (ltime : LamportTime) (now : Epoch)
    (unknown : members.states.lookup id = none) (fresh : ¬ Stale members id ltime) :
    upsertIntent members.recentIntents id ty ltime now =
      (members.recentIntents.insert id ⟨ty, now, ltime⟩, true) := by
  rw [upsertIntent]
  cases found : members.recentIntents.lookup id with
  | none => rfl
  | some intent =>
    have newer : intent.ltime < ltime := by
      by_contra old
      exact fresh ⟨intent.ltime, by simp [heldTime_unknown members id unknown, found],
        le_of_not_gt old⟩
    simp [newer]

inductive JoinEffect (now : Epoch) (msg : JoinMessage Id) (members : Members Id Address) :
    Outcome Id Address → Prop where
  | stale (old : Stale members msg.id msg.ltime) : JoinEffect now msg members (unchanged members)
  | buffered (unknown : members.states.lookup msg.id = none)
      (fresh : ¬ Stale members msg.id msg.ltime) :
      JoinEffect now msg members
        ⟨{ members with
            recentIntents := members.recentIntents.insert msg.id ⟨.join, now, msg.ltime⟩ },
          [], true, false⟩
  | recorded (m after : MemberState Id Address) (found : members.states.lookup msg.id = some m)
      (fresh : ¬ Stale members msg.id msg.ltime) (time : after.statusTime = msg.ltime)
      (owner : after.member.node = m.member.node)
      (status : after.member.status =
        if m.member.status = .leaving then .alive else m.member.status) :
      JoinEffect now msg members ⟨putMember members msg.id after, [], true, false⟩

variable (now : Epoch) (msg : JoinMessage Id)

theorem handleNodeJoinIntent_effect (members : Members Id Address) :
    JoinEffect now msg members (handleNodeJoinIntent now msg members) := by
  rw [handleNodeJoinIntent]
  cases found : members.states.lookup msg.id with
  | none =>
    by_cases old : Stale members msg.id msg.ltime
    · simp only [upsertIntent_stale members msg.id .join msg.ltime now found old]
      exact .stale old
    · simp only [upsertIntent_fresh members msg.id .join msg.ltime now found old]
      exact .buffered found old
  | some m =>
    have stale := stale_known members msg.id msg.ltime m found
    dsimp only
    by_cases old : msg.ltime ≤ m.statusTime
    · rw [if_pos old]
      exact .stale (stale.mpr old)
    · rw [if_neg old]
      refine .recorded m _ found (fun held => old (stale.mp held)) ?_ ?_ ?_
      · split <;> rfl
      · split <;> rfl
      · by_cases leaving : m.member.status = .leaving <;>
          simp [withStatusTime, withStatus, leaving]

def statusAfterLeave : MemberStatus → MemberStatus
  | .none => .none
  | .left | .failed => .left
  | .leaving | .alive | .unknown _ => .leaving

/-- What a leave intent does. A status without meaning keeps its record and the
intent is not passed on; a pruned member is erased. -/
inductive LeaveEffect (env : Environment Id Address) (state : SerfState) (now : Epoch)
    (msg : LeaveMessage Id) (members : Members Id Address) : Outcome Id Address → Prop where
  | stale (old : Stale members msg.id msg.ltime) :
      LeaveEffect env state now msg members (unchanged members)
  | refuted (known : members.states.lookup msg.id ≠ none)
      (fresh : ¬ Stale members msg.id msg.ltime) (self : msg.id = env.localId ∧ state = .alive) :
      LeaveEffect env state now msg members { unchanged members with refutes := true }
  | buffered (unknown : members.states.lookup msg.id = none)
      (fresh : ¬ Stale members msg.id msg.ltime) :
      LeaveEffect env state now msg members
        ⟨{ members with
            recentIntents := members.recentIntents.insert msg.id ⟨.leave, now, msg.ltime⟩ },
          [], true, false⟩
  | recorded (m after : MemberState Id Address) (outcome : Outcome Id Address)
      (found : members.states.lookup msg.id = some m)
      (fresh : ¬ Stale members msg.id msg.ltime)
      (other : ¬ (msg.id = env.localId ∧ state = .alive)) (time : after.statusTime = msg.ltime)
      (owner : after.member.node = m.member.node)
      (status : after.member.status = statusAfterLeave m.member.status)
      (states : outcome.members.states =
        if msg.prune ∧ m.member.status ≠ .none then (members.states.insert msg.id after).erase
          after.member.node.id
        else members.states.insert msg.id after)
      (intents : outcome.members.recentIntents = members.recentIntents)
      (passed : outcome.rebroadcast = decide (m.member.status ≠ .none))
      (refutes : outcome.refutes = false) :
      LeaveEffect env state now msg members outcome

theorem acceptLeave_states (prune : Bool) (owned : MemberState Id Address)
    (members : Members Id Address) (sent : List (MemberEvent Id Address)) :
    (acceptLeave prune owned members sent).members.states =
      (if prune then members.states.erase owned.member.node.id else members.states) ∧
    (acceptLeave prune owned members sent).members.recentIntents = members.recentIntents ∧
    (acceptLeave prune owned members sent).rebroadcast = true ∧
    (acceptLeave prune owned members sent).refutes = false := by
  cases prune with
  | false => exact ⟨rfl, rfl, rfl, rfl⟩
  | true =>
    by_cases listed : owned.member.status = .leaving ∨ owned.member.status = .left <;>
      simp [acceptLeave, handlePrune, eraseNode, listed]

variable (env : Environment Id Address) (state : SerfState)

theorem acceptLeave_effect (now : Epoch) (msg : LeaveMessage Id)
    (members table : Members Id Address) (m owned : MemberState Id Address)
    (sent : List (MemberEvent Id Address)) (found : members.states.lookup msg.id = some m)
    (fresh : ¬ Stale members msg.id msg.ltime) (other : ¬ (msg.id = env.localId ∧ state = .alive))
    (time : owned.statusTime = msg.ltime) (owner : owned.member.node = m.member.node)
    (meaning : m.member.status ≠ .none)
    (status : owned.member.status = statusAfterLeave m.member.status)
    (states : table.states = members.states.insert msg.id owned)
    (intents : table.recentIntents = members.recentIntents) :
    LeaveEffect env state now msg members (acceptLeave msg.prune owned table sent) := by
  obtain ⟨first, second, third, fourth⟩ := acceptLeave_states msg.prune owned table sent
  refine .recorded m owned _ found fresh other time owner status ?_ (second.trans intents) ?_ fourth
  · rw [first, states]
    simp [meaning]
  · rw [third]
    simp [meaning]

theorem handleNodeLeaveIntent_effect (now : Epoch) (msg : LeaveMessage Id)
    (members : Members Id Address) :
    LeaveEffect env state now msg members
      (handleNodeLeaveIntent env state now msg members) := by
  rw [handleNodeLeaveIntent]
  cases found : members.states.lookup msg.id with
  | none =>
    by_cases old : Stale members msg.id msg.ltime
    · simp only [upsertIntent_stale members msg.id .leave msg.ltime now found old]
      exact .stale old
    · simp only [upsertIntent_fresh members msg.id .leave msg.ltime now found old]
      exact .buffered found old
  | some m =>
    have stale := stale_known members msg.id msg.ltime m found
    dsimp only
    by_cases old : msg.ltime ≤ m.statusTime
    · rw [if_pos old]
      exact .stale (stale.mpr old)
    have fresh : ¬ Stale members msg.id msg.ltime := fun held => old (stale.mp held)
    rw [if_neg old]
    by_cases self : msg.id = env.localId ∧ state = .alive
    · rw [if_pos self]
      exact .refuted (by simp [found]) fresh self
    rw [if_neg self]
    have status : (withStatusTime m msg.ltime).member.status = m.member.status := rfl
    rw [status]
    cases current : m.member.status with
    | none =>
      exact .recorded m (withStatusTime m msg.ltime) _ found fresh self rfl rfl
        (by simp [withStatusTime, current, statusAfterLeave]) (by simp [unchanged, current]) rfl
        (by simp [unchanged, current]) rfl
    | failed =>
      exact acceptLeave_effect env state now msg members _ m _ _ found fresh self rfl rfl
        (by simp [current]) (by simp [withStatus, current, statusAfterLeave]) rfl rfl
    | leaving =>
      exact acceptLeave_effect env state now msg members _ m _ _ found fresh self rfl rfl
        (by simp [current]) (by simp [withStatusTime, current, statusAfterLeave]) rfl rfl
    | left =>
      exact acceptLeave_effect env state now msg members _ m _ _ found fresh self rfl rfl
        (by simp [current]) (by simp [withStatusTime, current, statusAfterLeave]) rfl rfl
    | alive =>
      exact acceptLeave_effect env state now msg members _ m _ _ found fresh self rfl rfl
        (by simp [current]) (by simp [withStatus, current, statusAfterLeave]) rfl rfl
    | unknown value =>
      exact acceptLeave_effect env state now msg members _ m _ _ found fresh self rfl rfl
        (by simp [current]) (by simp [withStatus, current, statusAfterLeave]) rfl rfl

theorem fresh_newer (ltime : LamportTime) (fresh : ¬ Stale members id ltime) (time : LamportTime)
    (holds : heldTime members id = some time) : time ≤ ltime := by
  by_contra newer
  exact fresh ⟨time, holds, le_of_not_ge newer⟩

def tableTimes : TableOp Id Address → List LamportTime
  | .joinIntent _ msg => [msg.ltime]
  | .leaveIntent _ _ msg => [msg.ltime]
  | _ => []

def ErasesNothing : TableOp Id Address → Prop
  | .leaveIntent _ _ msg => msg.prune = false
  | .reapFailed _ _ => False
  | .reapLeft _ _ => False
  | .reapIntents _ _ => False
  | _ => True

section Effects

variable (members : Members Id Address) (op : TableOp Id Address)

/-- Where the time of a written record comes from: the record before it, the
notification of a new member, or a message that is newer than what is held. -/
inductive TimeSource (id : Id) (time : LamportTime) : Prop where
  | kept (m : MemberState Id Address) (found : members.states.lookup id = some m)
      (same : time = m.statusTime)
  | joined (n : NodeState Id Address) (notified : op = .nodeJoin n)
      (unknown : members.states.lookup id = none)
      (buffered : (∀ intent, members.recentIntents.lookup id = some intent →
        intent.ty = .join ∨ intent.ty = .leave) →
        time = ((members.recentIntents.lookup id).map NodeIntent.ltime).getD 0)
  | told (inside : time ∈ tableTimes op) (fresh : ¬ Stale members id time)

/-- All that a section can do to the records and to the buffered intents: take some
away, buffer an intent about an unknown node, or write one record. A record that is
written may be erased at once, together with others. -/
inductive OpEffect : Members Id Address → Prop where
  | fewer (after : Members Id Address)
      (states : ∀ id m, after.states.lookup id = some m → members.states.lookup id = some m)
      (intents : ∀ id intent, after.recentIntents.lookup id = some intent →
        members.recentIntents.lookup id = some intent)
      (nothing : ErasesNothing op → after = members) : OpEffect after
  | buffered (id : Id) (intent : NodeIntent) (unknown : members.states.lookup id = none)
      (fresh : ¬ Stale members id intent.ltime) (kind : intent.ty = .join ∨ intent.ty = .leave)
      (told : intent.ltime ∈ tableTimes op) :
      OpEffect { members with recentIntents := members.recentIntents.insert id intent }
  | written (after : Members Id Address) (id : Id) (m : MemberState Id Address)
      (states : ∀ other found, after.states.lookup other = some found →
        (members.states.insert id m).lookup other = some found)
      (whole : ErasesNothing op → after.states = members.states.insert id m)
      (intents : after.recentIntents = members.recentIntents)
      (source : TimeSource members op id m.statusTime) : OpEffect after

variable {members op}

theorem effect_idle : OpEffect members op members :=
  .fewer members (fun _ _ found => found) (fun _ _ found => found) fun _ => rfl

theorem effect_insert (after : Members Id Address) (id : Id) (m : MemberState Id Address)
    (states : after.states = members.states.insert id m)
    (intents : after.recentIntents = members.recentIntents)
    (source : TimeSource members op id m.statusTime) : OpEffect members op after :=
  .written after id m (fun _ _ found => states ▸ found) (fun _ => states) intents source

theorem joinedNew_time (n : NodeState Id Address) (tags : Tags) (intents : Table Id NodeIntent)
    (kinds : ∀ intent, intents.lookup n.node.id = some intent →
      intent.ty = .join ∨ intent.ty = .leave) :
    (joinedNew env n tags intents).statusTime =
      ((intents.lookup n.node.id).map NodeIntent.ltime).getD 0 := by
  cases found : intents.lookup n.node.id with
  | none => simp [joinedNew, recentIntent, found]
  | some intent =>
    rcases kinds intent found with join | leave
    · simp [joinedNew, recentIntent, found, join]
    · simp [joinedNew, recentIntent, found, leave]

variable (members) (env : Environment Id Address)

theorem handleNodeJoin_writes (n : NodeState Id Address) :
    OpEffect members (.nodeJoin n) (handleNodeJoin env n members).members := by
  unfold handleNodeJoin
  cases joinTags env n with
  | none => exact effect_idle
  | some tags =>
    cases found : members.states.lookup n.node.id with
    | some m =>
      refine effect_insert _ n.node.id (rejoined n tags m) ?_ ?_ (.kept m found rfl) <;>
      · dsimp only
        split <;> rfl
    | none =>
      exact effect_insert _ n.node.id (joinedNew env n tags members.recentIntents) rfl rfl
        (.joined n rfl found (joinedNew_time env n tags _))

theorem handleNodeLeave_writes (now : Epoch) (n : NodeState Id Address) :
    OpEffect members (.nodeLeave now n) (handleNodeLeave now n members).members := by
  unfold handleNodeLeave
  cases found : members.states.lookup n.node.id with
  | none => exact effect_idle
  | some m =>
    dsimp only
    split
    · exact effect_insert _ n.node.id (departed .left now m) rfl rfl (.kept m found rfl)
    · exact effect_insert _ n.node.id (departed .failed now m) rfl rfl (.kept m found rfl)
    · exact effect_idle

theorem handleNodeUpdate_writes (n : NodeState Id Address) :
    OpEffect members (.nodeUpdate n) (handleNodeUpdate env n members).members := by
  unfold handleNodeUpdate
  cases env.decodeTags n.metaBytes with
  | error reason => exact effect_idle
  | ok tags =>
    cases found : members.states.lookup n.node.id with
    | none => exact effect_idle
    | some m => exact effect_insert _ n.node.id _ rfl rfl (.kept m found rfl)

theorem handleNodeJoinIntent_writes (now : Epoch) (msg : JoinMessage Id) :
    OpEffect members (.joinIntent now msg) (handleNodeJoinIntent now msg members).members := by
  have effect := handleNodeJoinIntent_effect now msg members
  generalize handleNodeJoinIntent now msg members = outcome at effect
  cases effect with
  | stale _ => exact effect_idle
  | buffered unknown fresh => exact .buffered msg.id _ unknown fresh (Or.inl rfl) List.mem_cons_self
  | recorded m after _ fresh time _ _ =>
    refine effect_insert _ msg.id after rfl rfl ?_
    rw [time]
    exact .told List.mem_cons_self fresh

theorem handleNodeLeaveIntent_writes (state : SerfState) (now : Epoch) (msg : LeaveMessage Id) :
    OpEffect members (.leaveIntent state now msg)
      (handleNodeLeaveIntent env state now msg members).members := by
  have effect := handleNodeLeaveIntent_effect env state now msg members
  generalize handleNodeLeaveIntent env state now msg members = outcome at effect
  cases effect with
  | stale _ => exact effect_idle
  | refuted _ _ _ => exact effect_idle
  | buffered unknown fresh => exact .buffered msg.id _ unknown fresh (Or.inr rfl) List.mem_cons_self
  | recorded m after _ _ fresh _ time _ _ states intents _ _ =>
    refine .written _ msg.id after ?_ ?_ intents ?_
    · -- Pruning only takes records away again.
      intro other found here
      rw [states] at here
      split at here
      · rw [lookup_erase_eq] at here
        split at here
        · cases here
        · exact here
      · exact here
    · intro keeps
      have kept : msg.prune = false := keeps
      simpa [kept] using states
    · rw [time]
      exact .told List.mem_cons_self fresh

theorem reap_subset (env : Environment Id Address) (now : Id → Epoch) (timeout : Duration)
    (list : OldList) :
    (reap env now timeout list members).members.recentIntents = members.recentIntents ∧
    ∀ id m, (reap env now timeout list members).members.states.lookup id = some m →
      members.states.lookup id = some m := by
  obtain ⟨kept, gone, _, _, result⟩ := reap_swept env now timeout list members
  rw [result]
  constructor
  · cases list <;> rfl
  · intro id m found
    rw [states_set, lookup_eraseAll] at found
    split at found
    · cases found
    · exact found

theorem applyOp_effect (op : TableOp Id Address) :
    OpEffect members op (applyOp env members op).members := by
  have reaps : ∀ now timeout list, ¬ ErasesNothing op →
      OpEffect members op (reap env now timeout list members).members := by
    intro now timeout list erases
    obtain ⟨intents, states⟩ := reap_subset members env now timeout list
    exact .fewer _ states (fun id intent found => intents ▸ found) fun no => absurd no erases
  cases op with
  | nodeJoin n => exact handleNodeJoin_writes members env n
  | nodeLeave now n => exact handleNodeLeave_writes members now n
  | nodeUpdate n => exact handleNodeUpdate_writes members env n
  | joinIntent now msg => exact handleNodeJoinIntent_writes members now msg
  | leaveIntent state now msg => exact handleNodeLeaveIntent_writes members env state now msg
  | reapFailed now timeout => exact reaps now timeout .failed id
  | reapLeft now timeout => exact reaps now timeout .left id
  | reapIntents now timeout =>
    exact .fewer _ (fun _ _ found => found)
      (fun id intent found => ((lookup_retain _ _ id intent).mp found).1) fun no => absurd no id

theorem source_newer {op : TableOp Id Address} (id : Id) (time : LamportTime)
    (source : TimeSource members op id time)
    (kinds : (∃ n, op = .nodeJoin n) → members.states.lookup id = none → ∀ intent,
      members.recentIntents.lookup id = some intent → intent.ty = .join ∨ intent.ty = .leave)
    (held : LamportTime) (holds : heldTime members id = some held) : held ≤ time := by
  cases source with
  | kept m found same =>
    rw [heldTime_known members id m found] at holds
    cases holds
    exact le_of_eq same.symm
  | joined n notified unknown buffered =>
    rw [heldTime_unknown members id unknown] at holds
    rw [buffered (kinds ⟨n, notified⟩ unknown), holds]
    exact le_refl _
  | told _ fresh => exact fresh_newer members id time fresh held holds

end Effects

/-- Every recorded time satisfies the bound, and the buffer holds join and
leave intents only. -/
structure Timed (bound : LamportTime → Prop) (members : Members Id Address) : Prop where
  statuses : ∀ id m, members.states.lookup id = some m → bound m.statusTime
  intents : ∀ id intent, members.recentIntents.lookup id = some intent → bound intent.ltime
  kinds : ∀ id intent, members.recentIntents.lookup id = some intent →
    intent.ty = .join ∨ intent.ty = .leave

section Times

variable (bound : LamportTime → Prop) (members : Members Id Address)

theorem timed_mono (weaker : LamportTime → Prop) (implies : ∀ time, bound time → weaker time)
    (timed : Timed bound members) : Timed weaker members where
  statuses id m found := implies _ (timed.statuses id m found)
  intents id intent found := implies _ (timed.intents id intent found)
  kinds := timed.kinds

theorem empty_timed : Timed bound (Members.empty : Members Id Address) := by
  constructor <;> simp [Members.empty]

theorem buffer_timed (id : Id) (intent : NodeIntent) (timed : Timed bound members)
    (within : bound intent.ltime) (kind : intent.ty = .join ∨ intent.ty = .leave) :
    Timed bound { members with recentIntents := members.recentIntents.insert id intent } where
  statuses := timed.statuses
  intents other found here := by
    rw [lookup_insert_eq] at here
    split at here
    · cases here
      exact within
    · exact timed.intents other found here
  kinds other found here := by
    rw [lookup_insert_eq] at here
    split at here
    · cases here
      exact kind
    · exact timed.kinds other found here

theorem source_bound {op : TableOp Id Address} (id : Id) (time : LamportTime) (zero : bound 0)
    (within : ∀ time ∈ tableTimes op, bound time) (timed : Timed bound members)
    (source : TimeSource members op id time) : bound time := by
  cases source with
  | kept m found same =>
    rw [same]
    exact timed.statuses id m found
  | joined _ _ _ buffered =>
    rw [buffered (timed.kinds id)]
    cases found : members.recentIntents.lookup id with
    | none => exact zero
    | some intent => exact timed.intents id intent found
  | told inside _ => exact within time inside

/-- Every section of the table keeps a bound on the times, if the time that the
section stores is within it. -/
theorem applyOp_timed (env : Environment Id Address) (op : TableOp Id Address) (zero : bound 0)
    (within : ∀ time ∈ tableTimes op, bound time) (timed : Timed bound members) :
    Timed bound (applyOp env members op).members := by
  have effect := applyOp_effect members env op
  generalize (applyOp env members op).members = after at effect
  cases effect with
  | fewer _ states intents _ =>
    exact ⟨fun id m found => timed.statuses id m (states id m found),
      fun id intent found => timed.intents id intent (intents id intent found),
      fun id intent found => timed.kinds id intent (intents id intent found)⟩
  | buffered id intent _ _ kind told =>
    exact buffer_timed bound members id intent timed (within _ told) kind
  | written _ id m states _ intents source =>
    refine ⟨?_, fun id intent found => timed.intents id intent (intents ▸ found),
      fun id intent found => timed.kinds id intent (intents ▸ found)⟩
    intro other found here
    have inserted := states other found here
    rw [lookup_insert_eq] at inserted
    split at inserted
    · cases inserted
      exact source_bound bound members id _ zero within timed source
    · exact timed.statuses other found inserted

end Times

structure Advances (before after : Members Id Address) : Prop where
  held : ∀ id time, heldTime before id = some time →
    ∃ later, heldTime after id = some later ∧ time ≤ later
  known : ∀ id, before.states.lookup id ≠ none → after.states.lookup id ≠ none

theorem advances_refl :
    Advances members members where
  held _ time holds := ⟨time, holds, le_refl _⟩
  known _ here := here

theorem advances_at (id : Id)
    (states : ∀ other, other ≠ id → after.states.lookup other = before.states.lookup other)
    (intents : ∀ other, other ≠ id →
      after.recentIntents.lookup other = before.recentIntents.lookup other)
    (held : ∀ time, heldTime before id = some time →
      ∃ later, heldTime after id = some later ∧ time ≤ later)
    (known : before.states.lookup id ≠ none → after.states.lookup id ≠ none) :
    Advances before after where
  held other time holds := by
    by_cases same : other = id
    · rw [same] at holds ⊢
      exact held time holds
    · refine ⟨time, ?_, le_refl _⟩
      rw [heldTime_congr before after other (states other same) (intents other same)]
      exact holds
  known other here := by
    by_cases same : other = id
    · rw [same] at here ⊢
      exact known here
    · rw [states other same]
      exact here

theorem insert_advances (id : Id) (m : MemberState Id Address)
    (states : after.states = before.states.insert id m)
    (intents : after.recentIntents = before.recentIntents)
    (newer : ∀ time, heldTime before id = some time → time ≤ m.statusTime) :
    Advances before after := by
  have here : after.states.lookup id = some m := by simp [states]
  apply advances_at before after id
  · intro other different
    simp [states, different]
  · intro other _
    rw [intents]
  · intro time holds
    exact ⟨m.statusTime, heldTime_known after id m here, newer time holds⟩
  · intro _
    simp [here]

theorem buffer_advances (intent : NodeIntent) (unknown : members.states.lookup id = none)
    (fresh : ¬ Stale members id intent.ltime) :
    Advances members
      { members with recentIntents := members.recentIntents.insert id intent } := by
  apply advances_at members _ id
  · intro other _
    rfl
  · intro other different
    simp [different]
  · intro time holds
    refine ⟨intent.ltime, by simp [heldTime, unknown], le_of_not_ge ?_⟩
    intro old
    exact fresh ⟨time, holds, old⟩
  · intro known
    exact absurd unknown known

theorem applyOp_advances (members : Members Id Address) (op : TableOp Id Address)
    (keeps : ErasesNothing op)
    (kinds : (∃ n, op = .nodeJoin n) → ∀ id intent,
      members.recentIntents.lookup id = some intent → intent.ty = .join ∨ intent.ty = .leave) :
    Advances members (applyOp env members op).members := by
  have effect := applyOp_effect members env op
  generalize (applyOp env members op).members = after at effect
  cases effect with
  | fewer _ _ _ nothing =>
    rw [nothing keeps]
    exact advances_refl members
  | buffered id intent unknown fresh _ _ => exact buffer_advances members id intent unknown fresh
  | written _ id m _ whole intents source =>
    exact insert_advances members _ id m (whole keeps) intents
      (source_newer members id _ source fun notified _ => kinds notified id)

theorem stale_advances (id : Id) (ltime : LamportTime) (advances : Advances before after)
    (stale : Stale before id ltime) : Stale after id ltime := by
  obtain ⟨held, holds, old⟩ := stale
  obtain ⟨later, found, grows⟩ := advances.held id held holds
  exact ⟨later, found, le_trans old grows⟩

theorem handleNodeJoinIntent_stale (members : Members Id Address) :
    Stale (handleNodeJoinIntent now msg members).members msg.id msg.ltime := by
  have effect := handleNodeJoinIntent_effect now msg members
  generalize handleNodeJoinIntent now msg members = outcome at effect
  cases effect with
  | stale old => exact old
  | buffered unknown _ => exact ⟨msg.ltime, by simp [heldTime, unknown], le_refl _⟩
  | recorded m after _ _ time _ _ =>
    exact ⟨msg.ltime, by simp [heldTime_put, time], le_refl _⟩

def Refutes (env : Environment Id Address) (state : SerfState) (members : Members Id Address)
    (id : Id) : Prop :=
  members.states.lookup id ≠ none ∧ id = env.localId ∧ state = .alive

theorem handleNodeLeaveIntent_stale (now : Epoch) (msg : LeaveMessage Id)
    (members : Members Id Address) (keeps : msg.prune = false) :
    Stale (handleNodeLeaveIntent env state now msg members).members msg.id msg.ltime ∨
      Refutes env state (handleNodeLeaveIntent env state now msg members).members msg.id := by
  have effect := handleNodeLeaveIntent_effect env state now msg members
  generalize handleNodeLeaveIntent env state now msg members = outcome at effect
  cases effect with
  | stale old => exact Or.inl old
  | refuted known _ self => exact Or.inr ⟨known, self⟩
  | buffered unknown _ => exact Or.inl ⟨msg.ltime, by simp [heldTime, unknown], le_refl _⟩
  | recorded m after _ _ _ _ time _ _ states intents _ _ =>
    refine Or.inl ⟨msg.ltime, ?_, le_refl _⟩
    rw [← time]
    apply heldTime_known
    simp [states, keeps]

theorem handleNodeLeaveIntent_passed (now : Epoch) (msg : LeaveMessage Id)
    (members : Members Id Address) (keeps : msg.prune = false)
    (passed : (handleNodeLeaveIntent env state now msg members).rebroadcast = true) :
    Stale (handleNodeLeaveIntent env state now msg members).members msg.id msg.ltime := by
  rcases handleNodeLeaveIntent_stale env state now msg members keeps with stale | refutes
  · exact stale
  · have effect := handleNodeLeaveIntent_effect env state now msg members
    generalize handleNodeLeaveIntent env state now msg members = outcome at *
    cases effect with
    | stale _ => cases passed
    | refuted _ _ _ => cases passed
    | buffered unknown _ => exact absurd unknown refutes.1
    | recorded _ _ _ _ _ other _ _ _ _ _ _ _ => exact absurd refutes.2 other

theorem handleNodeJoinIntent_taken (members : Members Id Address)
    (fresh : ¬ Stale members msg.id msg.ltime) :
    heldTime (handleNodeJoinIntent now msg members).members msg.id = some msg.ltime := by
  have effect := handleNodeJoinIntent_effect now msg members
  generalize handleNodeJoinIntent now msg members = outcome at effect
  cases effect with
  | stale old => exact absurd old fresh
  | buffered unknown _ => simp [heldTime, unknown]
  | recorded m after _ _ time _ _ => simp [heldTime_put, time]

theorem handleNodeLeaveIntent_taken (env : Environment Id Address) (state : SerfState)
    (now : Epoch) (msg : LeaveMessage Id) (members : Members Id Address)
    (consistent : TableInvariant.Consistent members) (fresh : ¬ Stale members msg.id msg.ltime) :
    let outcome := handleNodeLeaveIntent env state now msg members
    (outcome.refutes = true ∧ msg.id = env.localId ∧ state = .alive) ∨
      heldTime outcome.members msg.id = some msg.ltime ∨
      (msg.prune = true ∧ outcome.members.states.lookup msg.id = none) := by
  have effect := handleNodeLeaveIntent_effect env state now msg members
  generalize handleNodeLeaveIntent env state now msg members = outcome at effect
  cases effect with
  | stale old => exact absurd old fresh
  | refuted _ _ self => exact Or.inl ⟨rfl, self⟩
  | buffered unknown _ => exact Or.inr (Or.inl (by simp [heldTime, unknown]))
  | recorded m after _ found _ _ time owner _ states _ _ _ =>
    have key : after.member.node.id = msg.id := by
      rw [owner, consistent.keyed msg.id m found]
    by_cases pruned : msg.prune = true ∧ m.member.status ≠ .none
    · rw [if_pos pruned, key] at states
      exact Or.inr (Or.inr ⟨pruned.1, by simp [states]⟩)
    · rw [if_neg pruned] at states
      have here : outcome.members.states.lookup msg.id = some after := by simp [states]
      exact Or.inr (Or.inl (time ▸ heldTime_known outcome.members msg.id after here))

theorem handleNodeJoinIntent_idle (members : Members Id Address)
    (stale : Stale members msg.id msg.ltime) :
    handleNodeJoinIntent now msg members = unchanged members := by
  have effect := handleNodeJoinIntent_effect now msg members
  generalize handleNodeJoinIntent now msg members = outcome at effect
  cases effect with
  | stale _ => rfl
  | buffered _ fresh => exact absurd stale fresh
  | recorded _ _ _ fresh _ _ _ => exact absurd stale fresh

theorem handleNodeLeaveIntent_idle (now : Epoch) (msg : LeaveMessage Id)
    (members : Members Id Address) (stale : Stale members msg.id msg.ltime) :
    handleNodeLeaveIntent env state now msg members = unchanged members := by
  have effect := handleNodeLeaveIntent_effect env state now msg members
  generalize handleNodeLeaveIntent env state now msg members = outcome at effect
  cases effect with
  | stale _ => rfl
  | refuted _ fresh _ => exact absurd stale fresh
  | buffered _ fresh => exact absurd stale fresh
  | recorded _ _ _ _ fresh _ _ _ _ _ _ _ _ => exact absurd stale fresh

theorem handleNodeLeaveIntent_refuted (now : Epoch) (msg : LeaveMessage Id)
    (members : Members Id Address) (refutes : Refutes env state members msg.id) :
    (handleNodeLeaveIntent env state now msg members).members = members ∧
    (handleNodeLeaveIntent env state now msg members).sent = [] := by
  have effect := handleNodeLeaveIntent_effect env state now msg members
  generalize handleNodeLeaveIntent env state now msg members = outcome at effect
  cases effect with
  | stale _ => exact ⟨rfl, rfl⟩
  | refuted _ _ _ => exact ⟨rfl, rfl⟩
  | buffered unknown _ => exact absurd unknown refutes.1
  | recorded _ _ _ _ _ other _ _ _ _ _ _ _ => exact absurd refutes.2 other

end Serf.HeldTime
