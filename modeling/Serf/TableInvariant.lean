import Serf.MemberTable

/-!
The four collections of `Members` stay in step. `Consistent` is the invariant
of the membership table: the failed and the left list hold exactly the members
whose record has that status, once each, and nobody without a leave time. Every
handler and every reaper pass keeps it, so it holds after any sequence of them.
On such a table a reaper pass takes out the expired entries of its list and
nothing else.
-/

namespace Serf.TableInvariant

open Library.Collections Library.Machine MemberTable

variable {Id Address : Type} [DecidableEq Id]

def ids (old : List (MemberState Id Address)) : List Id :=
  old.map fun m => m.member.node.id

def statusOf (members : Members Id Address) (id : Id) : Option MemberStatus :=
  (members.states.lookup id).map fun m => m.member.status

def occurrences (list : OldList) (status : Option MemberStatus) : Nat :=
  if status = some list.status then 1 else 0

structure Consistent (members : Members Id Address) : Prop where
  keyed : ∀ id m, members.states.lookup id = some m → m.member.node.id = id
  listed : ∀ list id, (ids (oldMembers list members)).count id =
    occurrences list (statusOf members id)
  timed : ∀ list, ∀ m ∈ oldMembers list members, m.leaveTime.isSome
  gone : ∀ id m list, members.states.lookup id = some m →
    m.member.status = OldList.status list → m.leaveTime.isSome

theorem empty_consistent : Consistent (Members.empty : Members Id Address) where
  keyed := by simp [Members.empty]
  listed list id := by cases list <;> simp [Members.empty, oldMembers, ids, statusOf, occurrences]
  timed list := by cases list <;> simp [Members.empty, oldMembers]
  gone := by simp [Members.empty]

theorem consistent_update (before after : Members Id Address) (id : Id) (valid : Consistent before)
    (states : ∀ other, other ≠ id → after.states.lookup other = before.states.lookup other)
    (others : ∀ list other, other ≠ id →
      (ids (oldMembers list after)).count other = (ids (oldMembers list before)).count other)
    (keyed : ∀ m, after.states.lookup id = some m → m.member.node.id = id)
    (listed : ∀ list, (ids (oldMembers list after)).count id =
      occurrences list (statusOf after id))
    (timed : ∀ list, ∀ m ∈ oldMembers list after, m.leaveTime.isSome)
    (gone : ∀ m list, after.states.lookup id = some m →
      m.member.status = OldList.status list → m.leaveTime.isSome) :
    Consistent after := by
  constructor
  · intro other m found
    by_cases same : other = id
    · subst other
      exact keyed m found
    · exact valid.keyed other m (by rw [← states other same]; exact found)
  · intro list other
    by_cases same : other = id
    · subst other
      exact listed list
    · rw [others list other same, valid.listed list other]
      simp [statusOf, states other same]
  · exact timed
  · intro other m list found
    by_cases same : other = id
    · subst other
      exact gone m list found
    · exact valid.gone other m list (by rw [← states other same]; exact found)

variable (old : List (MemberState Id Address))

@[simp] theorem count_removeOldMember (id other : Id) :
    (ids (removeOldMember old id)).count other =
      if other = id then 0 else (ids old).count other := by
  induction old with
  | nil => simp [ids, removeOldMember]
  | cons first rest ih =>
    simp only [ids, removeOldMember] at ih ⊢
    by_cases removed : first.member.node.id = id
    · by_cases same : other = id
      · simp_all
      · have different : first.member.node.id ≠ other := by
          intro equal
          exact same (equal.symm.trans removed)
        simp_all
    · by_cases same : other = id
      · have different : first.member.node.id ≠ other := by
          intro equal
          exact removed (equal.trans same)
        simp_all
      · simp_all [List.count_cons]

@[simp] theorem count_append_one (m : MemberState Id Address) (other : Id) :
    (ids (old ++ [m])).count other =
      (ids old).count other + if m.member.node.id = other then 1 else 0 := by
  simp [ids, List.count_append, List.count_singleton]

theorem mem_removeOldMember (id : Id) (m : MemberState Id Address)
    (member : m ∈ removeOldMember old id) : m ∈ old :=
  List.mem_of_mem_filter member

variable (list : OldList) (members : Members Id Address)

theorem listed_status (valid : Consistent members) (m : MemberState Id Address)
    (member : m ∈ oldMembers list members) :
    statusOf members m.member.node.id = some list.status := by
  have present : m.member.node.id ∈ ids (oldMembers list members) :=
    List.mem_map_of_mem member
  have positive := List.count_pos_iff.mpr present
  rw [valid.listed, occurrences] at positive
  by_contra other
  simp [other] at positive

def Unlisted (status : MemberStatus) : Prop :=
  ∀ list : OldList, status ≠ list.status

theorem unlisted_iff (status : MemberStatus) :
    Unlisted status ↔ status ≠ .failed ∧ status ≠ .left := by
  constructor
  · intro unlisted
    exact ⟨unlisted .failed, unlisted .left⟩
  · rintro ⟨failed, left⟩ list
    cases list with
    | failed => exact failed
    | left => exact left

theorem put_consistent (id : Id) (m : MemberState Id Address) (valid : Consistent members)
    (keyed : m.member.node.id = id)
    (listed : ∀ list, occurrences list (statusOf members id) =
      occurrences list (some m.member.status))
    (gone : ∀ list, m.member.status = OldList.status list → m.leaveTime.isSome) :
    Consistent (putMember members id m) := by
  apply consistent_update members (putMember members id m) id valid
  · intro other different
    simp [different]
  · intro list other _
    simp
  · intro other here
    simp only [states_put, AList.lookup_insert, Option.some.injEq] at here
    subst other
    exact keyed
  · intro list
    rw [oldMembers_put, valid.listed, listed]
    simp [statusOf]
  · intro list other member
    exact valid.timed list other (by simpa using member)
  · intro other list here
    simp only [states_put, AList.lookup_insert, Option.some.injEq] at here
    subst other
    exact gone list

@[simp] theorem oldMembers_forgetOld (id : Id) :
    oldMembers list (forgetOld members id) = removeOldMember (oldMembers list members) id := by
  cases list <;> rfl

@[simp] theorem states_forgetOld (id : Id) : (forgetOld members id).states = members.states := rfl

variable (env : Environment Id Address) (n : NodeState Id Address)

theorem handleNodeJoin_consistent (members : Members Id Address) (valid : Consistent members) :
    Consistent (handleNodeJoin env n members).members := by
  unfold handleNodeJoin
  cases joinTags env n with
  | none => exact valid
  | some tags =>
    cases found : members.states.lookup n.node.id with
    | none =>
      -- A new member is alive, or leaving if its leave intent came first.
      have present : Unlisted (joinedNew env n tags members.recentIntents).member.status := by
        rw [joinedNew]
        cases recentIntent members.recentIntents n.node.id .leave <;> simp [unlisted_iff]
      apply put_consistent members n.node.id _ valid rfl
      · intro list
        simp [statusOf, found, occurrences, present list]
      · intro list gone
        exact absurd gone (present list)
    | some member =>
      have status : statusOf members n.node.id = some member.member.status := by
        simp [statusOf, found]
      have back : Unlisted (rejoined n tags member).member.status := by
        simp [unlisted_iff, rejoined]
      by_cases wasGone : member.member.status = .failed ∨ member.member.status = .left
      · -- The record returns to alive and both lists forget the node.
        simp only [wasGone, ↓reduceIte]
        apply consistent_update members _ n.node.id valid
        · intro other different
          simp [different]
        · intro list other different
          simp [different]
        · intro m here
          simp only [states_forgetOld, states_put, AList.lookup_insert,
            Option.some.injEq] at here
          subst m
          rfl
        · intro list
          simp [statusOf, occurrences, back list]
        · intro list m member
          rw [oldMembers_forgetOld, oldMembers_put] at member
          exact valid.timed list m (mem_removeOldMember _ _ m member)
        · intro m list here
          simp only [states_forgetOld, states_put, AList.lookup_insert,
            Option.some.injEq] at here
          subst m
          intro gone
          exact absurd gone (back list)
      · simp only [wasGone, ↓reduceIte]
        apply put_consistent members n.node.id _ valid rfl
        · intro list
          rw [status]
          cases list <;> simp_all [rejoined, occurrences, OldList.status]
        · intro list gone
          exact absurd gone (back list)

theorem depart_consistent (now : Epoch) (id : Id) (member : MemberState Id Address)
    (members : Members Id Address) (valid : Consistent members)
    (found : members.states.lookup id = some member) (present : Unlisted member.member.status) :
    Consistent (depart list now id member members) := by
  have keyed := valid.keyed id member found
  have absent : ∀ other, (ids (oldMembers other members)).count id = 0 := by
    intro other
    rw [valid.listed other id]
    simp [statusOf, found, occurrences, present other]
  -- The id was on no list, so its one new entry is the only one.
  apply consistent_update members _ id valid
  · intro other different
    simp [depart, different]
  · intro other id' different
    by_cases same : other = list
    · subst other
      simp [depart, departed, withStatus, keyed, Ne.symm different]
    · simp [depart, same]
  · intro m here
    simp only [depart, states_set, states_put, AList.lookup_insert, Option.some.injEq] at here
    subst m
    exact keyed
  · intro other
    by_cases same : other = list
    · subst other
      simp [depart, departed, withStatus, keyed, absent, statusOf, occurrences]
    · have different : list.status ≠ other.status := by
        cases list <;> cases other <;> simp_all [OldList.status]
      simp [depart, same, absent, departed, withStatus, statusOf, occurrences, different]
  · intro other m listed
    by_cases same : other = list
    · subst other
      simp only [depart, oldMembers_set, ↓reduceIte, oldMembers_put, List.mem_append,
        List.mem_singleton] at listed
      rcases listed with old | new
      · exact valid.timed list m old
      · subst m
        rfl
    · simp only [depart, oldMembers_set, same, ↓reduceIte, oldMembers_put] at listed
      exact valid.timed other m listed
  · intro m other here _
    simp only [depart, states_set, states_put, AList.lookup_insert, Option.some.injEq] at here
    subst m
    rfl

theorem handleNodeLeave_consistent (now : Epoch) (n : NodeState Id Address)
    (members : Members Id Address) (valid : Consistent members) :
    Consistent (handleNodeLeave now n members).members := by
  unfold handleNodeLeave
  cases found : members.states.lookup n.node.id with
  | none => exact valid
  | some member =>
    dsimp only
    split
    · rename_i status
      apply depart_consistent .left now n.node.id member members valid found
      simp [unlisted_iff, status]
    · rename_i status
      apply depart_consistent .failed now n.node.id member members valid found
      simp [unlisted_iff, status]
    · exact valid

theorem upsert_consistent (intents : Table Id NodeIntent) (valid : Consistent members) :
    Consistent { members with recentIntents := intents } where
  keyed := valid.keyed
  listed list := by
    cases list with
    | failed => exact valid.listed .failed
    | left => exact valid.listed .left
  timed list := by
    cases list with
    | failed => exact valid.timed .failed
    | left => exact valid.timed .left
  gone := valid.gone

theorem retime_consistent (id : Id) (member : MemberState Id Address) (time : LamportTime)
    (valid : Consistent members) (found : members.states.lookup id = some member) :
    Consistent (putMember members id (withStatusTime member time)) := by
  apply put_consistent members id (withStatusTime member time) valid
  · exact valid.keyed id member found
  · intro list
    simp [statusOf, found, withStatusTime]
  · intro list
    exact valid.gone id member list found

theorem restatus_consistent (id : Id) (member : MemberState Id Address) (time : LamportTime)
    (status : MemberStatus) (valid : Consistent members)
    (found : members.states.lookup id = some member) (before : Unlisted member.member.status)
    (after : Unlisted status) :
    Consistent (putMember members id (withStatus (withStatusTime member time) status)) := by
  apply put_consistent members id (withStatus (withStatusTime member time) status) valid
  · exact valid.keyed id member found
  · intro list
    simp [statusOf, found, withStatus, occurrences, before list, after list]
  · intro list gone
    exact absurd gone (after list)

theorem handleNodeJoinIntent_consistent (now : Epoch) (msg : JoinMessage Id)
    (members : Members Id Address) (valid : Consistent members) :
    Consistent (handleNodeJoinIntent now msg members).members := by
  unfold handleNodeJoinIntent
  cases found : members.states.lookup msg.id with
  | none => exact upsert_consistent members _ valid
  | some member =>
    dsimp only
    split
    · exact valid
    · dsimp only
      split
      · rename_i leaving
        have was : member.member.status = .leaving := leaving
        apply restatus_consistent members msg.id member msg.ltime .alive valid found
        · simp [unlisted_iff, was]
        · simp [unlisted_iff]
      · exact retime_consistent members msg.id member msg.ltime valid found

theorem erase_consistent (before after : Members Id Address) (id : Id) (valid : Consistent before)
    (states : after.states = before.states.erase id)
    (others : ∀ list other, other ≠ id →
      (ids (oldMembers list after)).count other = (ids (oldMembers list before)).count other)
    (absent : ∀ list, (ids (oldMembers list after)).count id = 0)
    (kept : ∀ list, ∀ m ∈ oldMembers list after, m ∈ oldMembers list before) :
    Consistent after := by
  have erased : after.states.lookup id = none := by simp [states]
  apply consistent_update before after id valid
  · intro other different
    simp [states, different]
  · exact others
  · intro m here
    simp [erased] at here
  · intro list
    rw [absent list]
    simp [statusOf, erased, occurrences]
  · intro list m member
    exact valid.timed list m (kept list m member)
  · intro m list here
    simp [erased] at here

theorem handlePrune_consistent (owned : MemberState Id Address) (members : Members Id Address)
    (id : Id) (valid : Consistent members) (found : members.states.lookup id = some owned)
    (leaving : owned.member.status = .leaving ∨ owned.member.status = .left) :
    Consistent (handlePrune owned members).1 := by
  have keyed := valid.keyed id owned found
  have notFailed : (ids members.failedMembers).count id = 0 := by
    rw [show members.failedMembers = oldMembers .failed members from rfl, valid.listed]
    rcases leaving with status | status <;>
      simp [statusOf, found, status, occurrences, OldList.status]
  apply erase_consistent members _ id valid
  · simp [handlePrune, leaving, eraseNode, keyed]
  · intro list other different
    cases list <;> simp [handlePrune, leaving, eraseNode, keyed, oldMembers, different]
  · intro list
    cases list with
    | failed => simpa [handlePrune, leaving, eraseNode, oldMembers] using notFailed
    | left => simp [handlePrune, leaving, eraseNode, oldMembers, keyed]
  · intro list m member
    cases list with
    | failed => simpa [handlePrune, leaving, eraseNode, oldMembers] using member
    | left =>
      simp only [handlePrune, leaving, ↓reduceIte, eraseNode, oldMembers] at member
      exact mem_removeOldMember _ _ m member

theorem acceptLeave_consistent (prune : Bool) (owned : MemberState Id Address)
    (members : Members Id Address) (sent : List (MemberEvent Id Address)) (id : Id)
    (valid : Consistent members) (found : members.states.lookup id = some owned)
    (leaving : owned.member.status = .leaving ∨ owned.member.status = .left) :
    Consistent (acceptLeave prune owned members sent).members := by
  unfold acceptLeave
  cases prune with
  | false => exact valid
  | true => exact handlePrune_consistent owned members id valid found leaving

theorem moveToLeft_consistent (owned : MemberState Id Address) (members : Members Id Address)
    (id : Id) (member : MemberState Id Address) (valid : Consistent members)
    (found : members.states.lookup id = some member) (failed : member.member.status = .failed)
    (keyed : owned.member.node.id = id) (left : owned.member.status = .left)
    (timed : owned.leaveTime.isSome) :
    Consistent (moveToLeft owned (putMember members id owned)) := by
  have notLeft : (ids members.leftMembers).count id = 0 := by
    rw [show members.leftMembers = oldMembers .left members from rfl, valid.listed]
    simp [statusOf, found, failed, occurrences, OldList.status]
  apply consistent_update members _ id valid
  · intro other different
    simp [moveToLeft, different]
  · intro list other different
    cases list <;>
      simp [moveToLeft, oldMembers, putMember, keyed, different, Ne.symm different]
  · intro m here
    simp only [moveToLeft, states_put, AList.lookup_insert, Option.some.injEq] at here
    subst m
    exact keyed
  · intro list
    cases list <;>
      simp [moveToLeft, oldMembers, putMember, keyed, left, notLeft, statusOf, occurrences,
        OldList.status]
  · intro list m member
    cases list with
    | failed => exact valid.timed .failed m (mem_removeOldMember _ _ m member)
    | left =>
      simp only [moveToLeft, oldMembers, putMember, List.mem_append, List.mem_singleton] at member
      rcases member with old | new
      · exact valid.timed .left m old
      · subst m
        exact timed
  · intro m list here _
    simp only [moveToLeft, states_put, AList.lookup_insert, Option.some.injEq] at here
    subst m
    exact timed

theorem handleNodeLeaveIntent_consistent (state : SerfState) (now : Epoch) (msg : LeaveMessage Id)
    (members : Members Id Address) (valid : Consistent members) :
    Consistent (handleNodeLeaveIntent env state now msg members).members := by
  unfold handleNodeLeaveIntent
  cases found : members.states.lookup msg.id with
  | none => exact upsert_consistent members _ valid
  | some member =>
    have keyed := valid.keyed msg.id member found
    have gone := fun list => valid.gone msg.id member list found
    have leaves : Unlisted member.member.status → Consistent
        (putMember members msg.id (withStatus (withStatusTime member msg.ltime) .leaving)) := by
      intro active
      exact restatus_consistent members msg.id member msg.ltime .leaving valid found active
        (by simp [unlisted_iff])
    dsimp only
    -- An old intent and a refuted one leave the table alone.
    split
    · exact valid
    split
    · exact valid
    -- One branch for each status, in the order of the match.
    split
    · exact retime_consistent members msg.id member msg.ltime valid found
    · rename_i status
      exact acceptLeave_consistent msg.prune _ _ [] msg.id
        (retime_consistent members msg.id member msg.ltime valid found) (by simp)
        (Or.inl status)
    · rename_i status
      exact acceptLeave_consistent msg.prune _ _ [] msg.id
        (retime_consistent members msg.id member msg.ltime valid found) (by simp)
        (Or.inr status)
    · -- A failed member changes lists before it may be pruned from the new one.
      rename_i status
      apply acceptLeave_consistent msg.prune _ _ _ msg.id
      · exact moveToLeft_consistent _ members msg.id member valid found status keyed rfl
          (gone .failed status)
      · simp [moveToLeft]
      · exact Or.inr rfl
    · rename_i status
      have was : member.member.status = .alive := status
      apply acceptLeave_consistent msg.prune _ _ [] msg.id
      · exact leaves (by simp [unlisted_iff, was])
      · simp
      · exact Or.inl rfl
    · rename_i value status
      have was : member.member.status = .unknown value := status
      apply acceptLeave_consistent msg.prune _ _ [] msg.id
      · exact leaves (by simp [unlisted_iff, was])
      · simp
      · exact Or.inl rfl

theorem handleNodeUpdate_consistent (members : Members Id Address) (valid : Consistent members) :
    Consistent (handleNodeUpdate env n members).members := by
  unfold handleNodeUpdate
  cases env.decodeTags n.metaBytes with
  | error reason => exact valid
  | ok tags =>
    cases found : members.states.lookup n.node.id with
    | none => exact valid
    | some member =>
      apply put_consistent members n.node.id _ valid rfl
      · intro list
        simp [statusOf, found]
      · intro list
        exact valid.gone n.node.id member list found

theorem filter_ids_count (keep : MemberState Id Address → Bool) (id : Id)
    (valid : Consistent members) :
    (ids ((oldMembers list members).filter keep)).count id =
      if id ∈ ids ((oldMembers list members).filter fun m => !keep m) then 0
      else occurrences list (statusOf members id) := by
  have both : (ids ((oldMembers list members).filter keep)).count id +
      (ids ((oldMembers list members).filter fun m => !keep m)).count id =
        occurrences list (statusOf members id) := by
    rw [← valid.listed list id, ← List.count_append, ids, ids, ids, ← List.map_append]
    exact ((List.filter_append_perm keep _).map _).count_eq id
  have once : occurrences list (statusOf members id) ≤ 1 := by
    unfold occurrences
    split <;> omega
  split
  · rename_i out
    have := List.count_pos_iff.mpr out
    omega
  · rename_i stays
    have := List.count_eq_zero.mpr stays
    omega

omit [DecidableEq Id] in
theorem ids_perm {old other : List (MemberState Id Address)} (same : old.Perm other) :
    (ids old).Perm (ids other) :=
  same.map _

theorem swept_status (drop : MemberState Id Address → Bool) (gone : List (MemberState Id Address))
    (valid : Consistent members) (out : gone.Perm ((oldMembers list members).filter drop)) (id : Id)
    (member : id ∈ ids gone) : statusOf members id = some list.status := by
  obtain ⟨m, entry, same⟩ := List.mem_map.mp member
  rw [← same]
  exact listed_status list members valid m (List.mem_of_mem_filter (out.subset entry))

variable (now : Id → Epoch) (timeout : Duration)

theorem reap_consistent (list : OldList) (members : Members Id Address)
    (valid : Consistent members) : Consistent (reap env now timeout list members).members := by
  obtain ⟨kept, gone, left, out, result⟩ := reap_swept env now timeout list members
  have same : ids gone = gone.map fun m => m.member.node.id := rfl
  rw [result, ← same]
  have status : ∀ id, ((eraseAll members.states (ids gone)).lookup id).map
      (fun m => m.member.status) = if id ∈ ids gone then none else statusOf members id := by
    intro id
    rw [lookup_eraseAll]
    split <;> rfl
  have records : ∀ id m, (eraseAll members.states (ids gone)).lookup id = some m →
      members.states.lookup id = some m := by
    intro id m found
    rw [lookup_eraseAll] at found
    split at found
    · cases found
    · exact found
  constructor
  · intro id m found
    exact valid.keyed id m (records id m (by simpa using found))
  · intro other id
    rw [statusOf, states_set, status, oldMembers_set]
    by_cases here : other = list
    · subst other
      have count := filter_ids_count list members (stays env now timeout) id valid
      simp only [← (ids_perm left).count_eq, ← (ids_perm out).mem_iff] at count
      rw [if_pos rfl, count]
      split
      · simp [occurrences]
      · rfl
    · rw [if_neg here]
      refine (valid.listed other id).trans ?_
      split
      · rename_i removed
        -- The entry was in the other list, so this one never had the id.
        have was := swept_status list members _ gone valid out id removed
        have different : list.status ≠ other.status := by
          cases list <;> cases other <;> simp_all [OldList.status]
        simp [occurrences, was, different]
      · rfl
  · intro other m member
    rw [oldMembers_set] at member
    split at member
    · exact valid.timed list m (List.mem_of_mem_filter (left.subset member))
    · exact valid.timed other m member
  · intro id m other found
    exact valid.gone id m other (records id m (by simpa using found))

theorem applyOp_consistent (members : Members Id Address) (op : TableOp Id Address)
    (valid : Consistent members) : Consistent (applyOp env members op).members := by
  cases op with
  | nodeJoin n => exact handleNodeJoin_consistent env n members valid
  | nodeLeave now n => exact handleNodeLeave_consistent now n members valid
  | nodeUpdate n => exact handleNodeUpdate_consistent env n members valid
  | joinIntent now msg => exact handleNodeJoinIntent_consistent now msg members valid
  | leaveIntent state now msg =>
    exact handleNodeLeaveIntent_consistent env state now msg members valid
  | reapFailed now timeout => exact reap_consistent env now timeout .failed members valid
  | reapLeft now timeout => exact reap_consistent env now timeout .left members valid
  | reapIntents now timeout => exact upsert_consistent members _ valid

theorem run_consistent (ops : List (TableOp Id Address)) (members : Members Id Address)
    (valid : Consistent members) : Consistent (run (tableStep env) members ops) :=
  run_invariant (tableStep env) (fun _ => True) Consistent
    (fun members op _ valid => applyOp_consistent env members op valid)
    members ops (fun _ _ => trivial) valid

theorem mem_ids_iff (id : Id) (valid : Consistent members) :
    id ∈ ids (oldMembers list members) ↔ statusOf members id = some list.status := by
  rw [← List.count_pos_iff, valid.listed]
  unfold occurrences
  split <;> simp_all

theorem ids_nodup (valid : Consistent members) : (ids (oldMembers list members)).Nodup := by
  rw [List.nodup_iff_count_le_one]
  intro id
  rw [valid.listed]
  unfold occurrences
  split <;> omega

theorem count_ids_iff (id : Id) (valid : Consistent members) :
    (ids (oldMembers list members)).count id = 1 ↔ statusOf members id = some list.status := by
  rw [valid.listed]
  unfold occurrences
  split <;> simp_all

theorem ids_disjoint (valid : Consistent members) (id : Id) :
    ¬ (id ∈ ids members.failedMembers ∧ id ∈ ids members.leftMembers) := by
  rintro ⟨failed, left⟩
  have first := (mem_ids_iff .failed members id valid).mp failed
  have second := (mem_ids_iff .left members id valid).mp left
  rw [first] at second
  cases second

theorem old_length_le (valid : Consistent members) :
    members.failedMembers.length + members.leftMembers.length ≤
      members.states.keys.length := by
  have nodup : (ids members.failedMembers ++ ids members.leftMembers).Nodup := by
    refine List.Nodup.append (ids_nodup .failed members valid) (ids_nodup .left members valid) ?_
    intro id failed left
    exact ids_disjoint members valid id ⟨failed, left⟩
  have known : ids members.failedMembers ++ ids members.leftMembers ⊆ members.states.keys := by
    intro id member
    rw [mem_keys_iff]
    rcases List.mem_append.mp member with failed | left
    · have status := (mem_ids_iff .failed members id valid).mp failed
      obtain ⟨found, here, _⟩ := Option.map_eq_some_iff.mp status
      exact ⟨found, here⟩
    · have status := (mem_ids_iff .left members id valid).mp left
      obtain ⟨found, here, _⟩ := Option.map_eq_some_iff.mp status
      exact ⟨found, here⟩
  have bound := (List.subperm_of_subset nodup known).length_le
  simpa [ids] using bound

theorem numAlive_defined (valid : Consistent members) :
    numAlive members = some (max (members.states.keys.length - members.failedMembers.length -
      members.leftMembers.length) 1) := by
  have bound := old_length_le members valid
  have first : members.failedMembers.length ≤ members.states.keys.length := by omega
  have second : members.leftMembers.length ≤
      members.states.keys.length - members.failedMembers.length := by omega
  simp [numAlive, checkedSub, first, second]

theorem reconnect_failed (forgo : Nat → Nat → Bool) (draw : Nat) (members : Members Id Address)
    (valid : Consistent members) :
    ∃ contact, reconnect forgo draw members = some contact ∧
      ∀ node, contact = some node → statusOf members node.id = some .failed := by
  unfold reconnect
  by_cases idle : members.failedMembers.length = 0
  · exact ⟨none, by simp [idle], by simp⟩
  · rw [numAlive_defined members valid]
    have inside : draw % members.failedMembers.length < members.failedMembers.length :=
      Nat.mod_lt _ (Nat.pos_of_ne_zero idle)
    simp only [idle, ↓reduceIte, Option.bind_some]
    split
    · exact ⟨none, rfl, by simp⟩
    · refine ⟨_, by rw [List.getElem?_eq_getElem inside]; rfl, ?_⟩
      intro node contact
      cases contact
      exact listed_status .failed members valid _ (List.getElem_mem inside)

theorem reap_other (list : OldList) (members : Members Id Address) (valid : Consistent members)
    (id : Id) (other : statusOf members id ≠ some list.status) :
    (reap env now timeout list members).members.states.lookup id = members.states.lookup id ∧
    ∀ event ∈ (reap env now timeout list members).sent, ∀ m ∈ event.members, m.node.id ≠ id := by
  obtain ⟨kept, gone, left, out, result⟩ := reap_swept env now timeout list members
  have absent : id ∉ ids gone :=
    fun removed => other (swept_status list members _ gone valid out id removed)
  rw [result]
  constructor
  · rw [states_set, lookup_eraseAll]
    exact if_neg absent
  · intro event sent m member same
    obtain ⟨entry, removed, reported⟩ := List.mem_map.mp sent
    subst event
    rw [List.mem_singleton.mp member] at same
    exact absent (List.mem_map.mpr ⟨entry, removed, same⟩)

def expired (env : Environment Id Address) (now : Id → Epoch) (timeout : Duration)
    (m : MemberState Id Address) : Bool :=
  match m.leaveTime with
  | some leaveTime =>
    decide (memberTimeout env timeout m < now m.member.node.id - leaveTime)
  | none => false

omit [DecidableEq Id] in
theorem expired_eq (m : MemberState Id Address) (timed : m.leaveTime.isSome) :
    expired env now timeout m = !stays env now timeout m := by
  obtain ⟨leaveTime, left⟩ := Option.isSome_iff_exists.mp timed
  simp only [expired, stays, left, ← decide_not, Nat.not_le]

/-- A pass of the reaper over a consistent table takes out the expired entries of its
list, from the list and from the states, reports each of them once, and leaves the
rest of the table as it was. -/
theorem reap_exact (env : Environment Id Address) (now : Id → Epoch) (timeout : Duration)
    (list : OldList) (members : Members Id Address) (valid : Consistent members) :
    let old := oldMembers list members
    let due := old.filter (expired env now timeout)
    let after := reap env now timeout list members
    (oldMembers list after.members).Perm (old.filter fun m => !expired env now timeout m) ∧
    (∀ id, after.members.states.lookup id =
      if id ∈ ids due then none else members.states.lookup id) ∧
    after.sent.Perm (due.map fun m => ⟨.reap, [m.member]⟩) ∧
    (ids due).Nodup ∧
    (∀ other, other ≠ list → oldMembers other after.members = oldMembers other members) ∧
    after.members.recentIntents = members.recentIntents := by
  intro old due after
  obtain ⟨kept, gone, left, out, result⟩ := reap_swept env now timeout list members
  have same : ∀ m ∈ old, expired env now timeout m = !stays env now timeout m :=
    fun m member => expired_eq env now timeout m (valid.timed list m member)
  have taken : gone.Perm due := by
    rw [show due = old.filter fun m => !stays env now timeout m from List.filter_congr same]
    exact out
  have stayed : kept.Perm (old.filter fun m => !expired env now timeout m) := by
    rw [List.filter_congr fun m member => by rw [same m member, Bool.not_not]]
    exact left
  have unchanged : ∀ id, (eraseAll members.states (ids gone)).lookup id =
      if id ∈ ids due then none else members.states.lookup id := by
    intro id
    simp only [lookup_eraseAll, (ids_perm taken).mem_iff]
  simp only [after, result]
  refine ⟨?_, ?_, taken.map _, ?_, ?_, ?_⟩
  · rw [oldMembers_set, if_pos rfl]
    exact stayed
  · intro id
    rw [states_set]
    exact unchanged id
  · exact (ids_nodup list members valid).sublist (List.filter_sublist.map _)
  · intro other different
    rw [oldMembers_set, if_neg different]
    rfl
  · cases list <;> rfl

/-- The members `b`, `c` and `d` are in the failed list, `c` only since a short while. -/
def threeFailed : Members String Nat :=
  run (tableStep plainNode) Members.empty
    [.nodeJoin ⟨⟨"b", 1⟩, []⟩, .nodeJoin ⟨⟨"c", 2⟩, []⟩, .nodeJoin ⟨⟨"d", 3⟩, []⟩,
      .nodeLeave 1 ⟨⟨"b", 1⟩, []⟩, .nodeLeave 95 ⟨⟨"c", 2⟩, []⟩, .nodeLeave 2 ⟨⟨"d", 3⟩, []⟩]

theorem reap_exact_first_and_last :
    Consistent threeFailed ∧
    ids ((oldMembers .failed threeFailed).filter (expired plainNode (fun _ => 100) 10)) =
      ["b", "d"] ∧
    (oldMembers .failed (reap plainNode (fun _ => 100) 10 .failed threeFailed).members).Perm
      ((oldMembers .failed threeFailed).filter fun m => !expired plainNode (fun _ => 100) 10 m) :=
  have valid := run_consistent plainNode _ Members.empty empty_consistent
  ⟨valid, by decide, (reap_exact plainNode (fun _ => 100) 10 .failed threeFailed valid).1⟩

/-- The membership table after any sequence of handlers and reaper passes. -/
theorem reachable_members (env : Environment Id Address) (ops : List (TableOp Id Address)) :
    let reached := run (tableStep env) Members.empty ops
    (∀ id, (ids reached.failedMembers).count id = 1 ↔ statusOf reached id = some .failed) ∧
    (∀ id, (ids reached.leftMembers).count id = 1 ↔ statusOf reached id = some .left) ∧
    (ids reached.failedMembers).Nodup ∧ (ids reached.leftMembers).Nodup ∧
    (∀ id, ¬ (id ∈ ids reached.failedMembers ∧ id ∈ ids reached.leftMembers)) ∧
    (∀ m ∈ reached.failedMembers ++ reached.leftMembers, m.leaveTime.isSome) ∧
    reached.failedMembers.length + reached.leftMembers.length ≤ reached.states.keys.length ∧
    (∀ forgo draw, ∃ contact, reconnect forgo draw reached = some contact ∧
      ∀ node, contact = some node → statusOf reached node.id = some .failed) ∧
    (∀ now timeout list id,
      statusOf reached id = some .alive ∨ statusOf reached id = some .leaving →
      (reap env now timeout list reached).members.states.lookup id = reached.states.lookup id ∧
      ∀ event ∈ (reap env now timeout list reached).sent, ∀ m ∈ event.members,
        m.node.id ≠ id) := by
  intro reached
  have valid : Consistent reached := run_consistent env ops Members.empty empty_consistent
  refine ⟨fun id => count_ids_iff .failed reached id valid,
    fun id => count_ids_iff .left reached id valid,
    ids_nodup .failed reached valid, ids_nodup .left reached valid,
    ids_disjoint reached valid, ?_, old_length_le reached valid,
    fun forgo draw => reconnect_failed forgo draw reached valid, ?_⟩
  · intro m member
    rcases List.mem_append.mp member with failed | left
    · exact valid.timed .failed m failed
    · exact valid.timed .left m left
  · intro now timeout list id active
    apply reap_other env now timeout list reached valid id
    rcases active with status | status <;> cases list <;> simp [status, OldList.status]

end Serf.TableInvariant
