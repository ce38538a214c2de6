import Serf.ClockDominance

/-!
Push/pull exchanges between nodes. Of a member, only its status and its status
time matter here; intents act on this record as on a register, and a merge acts
on the record of a left member as one leave intent a tick past the received
status time. No member ever issued that time: it can tie with the join intent
of a member that rejoins, and two nodes that agree still raise it at each
other.
-/

namespace Serf.AntiEntropy

open Library.Collections Library.Machine Library.Window
open LamportClock MemberTable TableInvariant HeldTime Serf.Core PushPull ClockDominance

variable {Id Address : Type} [DecidableEq Id]

/-- The status and the status time that a node records for an id. -/
def record (node : SerfCore Id Address) (id : Id) : Option (MemberStatus × LamportTime) :=
  (node.members.states.lookup id).map fun m => (m.member.status, m.statusTime)

def admitJoin (ltime : LamportTime) (held : MemberStatus × LamportTime) :
    MemberStatus × LamportTime :=
  if ltime ≤ held.2 then held
  else (if held.1 = .leaving then .alive else held.1, ltime)

def admitLeave (ltime : LamportTime) (held : MemberStatus × LamportTime) :
    MemberStatus × LamportTime :=
  if ltime ≤ held.2 then held
  else (statusAfterLeave held.1, ltime)

theorem admitLeave_idempotent (ltime : LamportTime) (held : MemberStatus × LamportTime) :
    admitLeave ltime (admitLeave ltime held) = admitLeave ltime held := by
  have reached : ltime ≤ (admitLeave ltime held).2 := by
    rw [admitLeave]
    split
    · assumption
    · exact le_refl _
  generalize admitLeave ltime held = after at reached
  rw [admitLeave, if_pos reached]

theorem record_eq_some (node : SerfCore Id Address) (id : Id) (status : MemberStatus)
    (time : LamportTime) :
    record node id = some (status, time) ↔
      ∃ m, node.members.states.lookup id = some m ∧ m.member.status = status ∧
        m.statusTime = time := by
  simp [record]

section Records

variable (env : NodeEnvironment Id Address) (node : SerfCore Id Address)

theorem joinIntent_record (now : Epoch) (msg : JoinMessage Id) (id : Id) :
    record (nodeStep env node (.joinIntent now msg)).1 id =
      if id = msg.id then (record node id).map (admitJoin msg.ltime) else record node id := by
  have effect := handleNodeJoinIntent_effect now msg node.members
  simp only [nodeStep, joinIntent, onTable, record]
  generalize handleNodeJoinIntent now msg node.members = outcome at effect
  by_cases same : id = msg.id
  · subst id
    rw [if_pos rfl]
    cases effect with
    | stale old =>
      cases found : node.members.states.lookup msg.id with
      | none => simp [unchanged, found]
      | some m =>
        have late := (stale_known node.members msg.id msg.ltime m found).mp old
        simp [unchanged, found, admitJoin, late]
    | buffered unknown _ => simp [unknown]
    | recorded m after found fresh time _ status =>
      have early : ¬ msg.ltime ≤ m.statusTime :=
        fun late => fresh ((stale_known node.members msg.id msg.ltime m found).mpr late)
      simp [found, admitJoin, early, time, status]
  · rw [if_neg same]
    cases effect with
    | stale _ => rfl
    | buffered _ _ => rfl
    | recorded _ _ _ _ _ _ _ => simp [same]

theorem leaveIntent_record (now : Epoch) (msg : LeaveMessage Id) (keeps : msg.prune = false)
    (id : Id) (other : id ≠ env.membership.localId) :
    record (nodeStep env node (.leaveIntent now msg)).1 id =
      if id = msg.id then (record node id).map (admitLeave msg.ltime) else record node id := by
  have effect := handleNodeLeaveIntent_effect env.membership node.state now msg node.members
  simp only [nodeStep, leaveIntent, onTable, record]
  generalize handleNodeLeaveIntent env.membership node.state now msg node.members = outcome
    at effect
  by_cases same : id = msg.id
  · subst id
    rw [if_pos rfl]
    cases effect with
    | stale old =>
      cases found : node.members.states.lookup msg.id with
      | none => simp [unchanged, found]
      | some m =>
        have late := (stale_known node.members msg.id msg.ltime m found).mp old
        simp [unchanged, found, admitLeave, late]
    | refuted _ _ self => exact absurd self.1 other
    | buffered unknown _ => simp [unknown]
    | recorded m after _ found fresh _ time _ status states _ _ _ =>
      have early : ¬ msg.ltime ≤ m.statusTime :=
        fun late => fresh ((stale_known node.members msg.id msg.ltime m found).mpr late)
      simp [states, keeps, found, admitLeave, early, time, status]
  · rw [if_neg same]
    cases effect with
    | stale _ => rfl
    | refuted _ _ _ => rfl
    | buffered _ _ => rfl
    | recorded _ _ _ _ _ _ _ _ _ states _ _ _ => simp [states, keeps, same]

theorem merge_record (now : Id → Epoch) (isJoin : Bool) (pp : PushPullMessage Id) (x : Id)
    (l : LamportTime) (other : x ≠ env.membership.localId) (left : x ∈ pp.leftMembers)
    (time : pp.statusLtimes.lookup x = some l) :
    record (run (nodeStep env) node (mergeRemoteState now isJoin (.pushPull pp))) x =
      (record node x).map (admitLeave (l + 1)) := by
  have applies : ∀ state, record (nodeStep env state (.leaveIntent (now x) ⟨l + 1, x, false⟩)).1 x =
      (record state x).map (admitLeave (l + 1)) := by
    intro state
    rw [leaveIntent_record env state _ _ rfl x other, if_pos rfl]
  apply run_view (nodeStep env) (fun state => record state x) (Option.map (admitLeave (l + 1)))
  · intro seen
    rw [Option.map_map]
    congr 1
    funext held
    exact admitLeave_idempotent (l + 1) held
  · intro op member
    rcases mergeRemoteState_op now isJoin pp op member with
      rfl | ⟨msg, sent, rfl⟩ | ⟨msg, sent, rfl⟩ | rfl | ⟨msg, _, rfl⟩
    · exact Or.inl fun _ => rfl
    · obtain ⟨ltime, found, shape⟩ := leftIntents_time pp msg sent
      by_cases same : msg.id = x
      · right
        rw [same, time] at found
        cases found
        rw [shape, same]
        exact applies
      · left
        intro state
        rw [leaveIntent_record env state _ msg (by rw [shape]) x other, if_neg (Ne.symm same)]
    · left
      intro state
      have apart : x ≠ msg.id := by
        intro same
        exact (otherIntents_time pp msg sent).1 (same ▸ left)
      rw [joinIntent_record, if_neg apart]
    · left
      intro state
      simp only [nodeStep, ignoreOldEvents]
      split <;> rfl
    · exact Or.inl fun _ => rfl
  · refine ⟨.leaveIntent (now x) ⟨l + 1, x, false⟩, ?_, applies⟩
    have sent : (⟨l + 1, x, false⟩ : LeaveMessage Id) ∈ leftIntents pp :=
      List.mem_filterMap.mpr ⟨x, left, by simp [time]⟩
    simp only [mergeRemoteState, List.mem_cons, List.mem_append, List.mem_map]
    exact Or.inr (Or.inl (Or.inl (Or.inl ⟨_, sent, rfl⟩)))

end Records

/-- Both orders of a merge and a join intent end with the member alive, in the
same record. -/
def RejoinSafe (env : NodeEnvironment Id Address) (node : SerfCore Id Address) (x : Id)
    (merge join : List (NodeOp Id Address)) : Prop :=
  let mergeFirst := run (nodeStep env) node (merge ++ join)
  let joinFirst := run (nodeStep env) node (join ++ merge)
  statusOf mergeFirst.members x = some .alive ∧ statusOf joinFirst.members x = some .alive ∧
    record mergeFirst x = record joinFirst x

theorem statusOf_record (node : SerfCore Id Address) (x : Id) :
    statusOf node.members x = (record node x).map Prod.fst := by
  simp [statusOf, record]
  rfl

variable (env : NodeEnvironment Id Address)

theorem rejoinSafe_iff (node : SerfCore Id Address) (x : Id) (l j : LamportTime)
    (other : x ≠ env.membership.localId) (alive : record node x = some (.alive, l)) (later : l < j)
    (pp : PushPullMessage Id) (left : x ∈ pp.leftMembers) (time : pp.statusLtimes.lookup x = some l)
    (now : Id → Epoch) (isJoin : Bool) (wall : Epoch) :
    RejoinSafe env node x (mergeRemoteState now isJoin (.pushPull pp)) [.joinIntent wall ⟨j, x⟩] ↔
      j ≠ l + 1 := by
  have next : l < l + 1 ∧ l + 1 ≤ j := by
    constructor <;> grind
  have mergeFirst : record (run (nodeStep env) node
      (mergeRemoteState now isJoin (.pushPull pp) ++ [.joinIntent wall ⟨j, x⟩])) x =
      some (admitJoin j (.leaving, l + 1)) := by
    rw [run_append, run, run, joinIntent_record, if_pos rfl,
      merge_record env node now isJoin pp x l other left time, alive]
    simp [admitLeave, statusAfterLeave, not_le_of_gt next.1]
  have joinFirst : record (run (nodeStep env) node
      ([.joinIntent wall ⟨j, x⟩] ++ mergeRemoteState now isJoin (.pushPull pp))) x =
      some (.alive, j) := by
    rw [run_append, merge_record env _ now isJoin pp x l other left time, run, run,
      joinIntent_record, if_pos rfl, alive]
    simp [admitJoin, admitLeave, not_le_of_gt later, next.2]
  simp only [RejoinSafe, statusOf_record, mergeFirst, joinFirst]
  constructor
  · -- On a tie the join intent is not newer than the made-up leave.
    rintro ⟨first, _⟩ tie
    simp [admitJoin, tie] at first
  · intro apart
    have beats : ¬ j ≤ l + 1 := fun low => apart (le_antisymm low next.2)
    simp [admitJoin, beats]

def peerX : NodeState String Nat := ⟨⟨"x", 7⟩, []⟩

/-- The member `x` has left at time 5. -/
def departure : List (NodeOp String Nat) :=
  [.nodeJoin peerX, .leaveIntent 0 ⟨5, "x", false⟩, .nodeLeave 0 peerX]

/-- The node `a` after `x` has left and was reported again. -/
def rejoinedNode : SerfCore String Nat :=
  run (nodeStep plainCore) (newIn (freshStart 2 (by decide))) (departure ++ [.nodeJoin peerX])

/-- A peer still lists `x` as left at time 5. -/
def leftState : PushPullMessage String :=
  ⟨6, AList.singleton "x" 5, ["x"], 1, [], 1⟩

theorem rejoinSafe_two_later :
    record rejoinedNode "x" = some (.alive, 5) ∧
    (RejoinSafe plainCore rejoinedNode "x"
      (mergeRemoteState (fun _ => 0) false (.pushPull leftState)) [.joinIntent 0 ⟨7, "x"⟩] ↔
      (7 : LamportTime) ≠ 5 + 1) :=
  ⟨by decide, rejoinSafe_iff plainCore rejoinedNode "x" 5 7 (by decide) (by decide) (by decide)
    leftState (by decide) (by decide) (fun _ => 0) false 0⟩

/-- The join intent that follows the leave directly comes too late if the merge
is first. -/
theorem rejoin_lost :
    let merge := mergeRemoteState (fun _ => 0) false (.pushPull leftState)
    let join := [NodeOp.joinIntent 0 ⟨6, "x"⟩]
    record rejoinedNode "x" = some (.alive, 5) ∧
    record (run (nodeStep plainCore) rejoinedNode (merge ++ join)) "x" = some (.leaving, 6) ∧
    record (run (nodeStep plainCore) rejoinedNode (join ++ merge)) "x" = some (.alive, 6) := by
  decide

section LocalState

variable (node : SerfCore Id Address)

theorem localState_status (consistent : Consistent node.members) (id : Id) (ltime : LamportTime) :
    (localState node).statusLtimes.lookup id = some ltime ↔
      ∃ status, record node id = some (status, ltime) := by
  -- The record of an entry carries the key of the entry.
  have keyed : node.members.states.entries.map
        (fun entry => (entry.2.member.node.id, entry.2.statusTime)) =
      node.members.states.entries.map fun entry => (entry.1, entry.2.statusTime) := by
    apply List.map_congr_left
    intro entry member
    rw [consistent.keyed entry.1 entry.2 (AList.mem_lookup_iff.mpr member)]
  have distinct : ((node.members.states.entries.map
      fun entry => (entry.1, entry.2.statusTime)).map Prod.fst).Nodup := by
    rw [List.map_map]
    exact node.members.states.nodupKeys
  rw [localState, keyed, lookup_collect _ distinct, List.mem_map]
  constructor
  · rintro ⟨entry, member, same⟩
    cases same
    exact ⟨entry.2.member.status, (record_eq_some node entry.1 _ _).mpr
      ⟨entry.2, AList.mem_lookup_iff.mpr member, rfl, rfl⟩⟩
  · rintro ⟨status, found⟩
    obtain ⟨m, here, _, rfl⟩ := (record_eq_some node id status ltime).mp found
    exact ⟨⟨id, m⟩, AList.mem_lookup_iff.mp here, rfl⟩

theorem localState_left (id : Id) :
    id ∈ (localState node).leftMembers ↔ id ∈ ids node.members.leftMembers := by
  rw [localState, List.mem_eraseDups, ids]

end LocalState

/-- The tables hold the same ids with the same status and status time and list
the same left members. -/
structure Agree (first second : SerfCore Id Address) : Prop where
  records : ∀ id, record first id = record second id
  left : ∀ id, id ∈ ids first.members.leftMembers ↔ id ∈ ids second.members.leftMembers

/-- A merge of one node's local state at the other. -/
inductive Exchange (Id : Type) where
  | atFirst (now : Id → Epoch) (isJoin : Bool)
  | atSecond (now : Id → Epoch) (isJoin : Bool)

def exchangeStep (firstEnv secondEnv : NodeEnvironment Id Address)
    (nodes : SerfCore Id Address × SerfCore Id Address) :
    Exchange Id → (SerfCore Id Address × SerfCore Id Address) × Unit
  | .atFirst now isJoin =>
    ((run (nodeStep firstEnv) nodes.1
      (mergeRemoteState now isJoin (.pushPull (localState nodes.2))), nodes.2), ())
  | .atSecond now isJoin =>
    ((nodes.1, run (nodeStep secondEnv) nodes.2
      (mergeRemoteState now isJoin (.pushPull (localState nodes.1)))), ())

def Unmoved (before after : SerfCore Id Address) : Prop :=
  after.members = before.members ∧ after.clock = before.clock

omit [DecidableEq Id] in
theorem unmoved_trans (before middle after : SerfCore Id Address)
    (first : Unmoved before middle) (second : Unmoved middle after) : Unmoved before after :=
  ⟨second.1.trans first.1, second.2.trans first.2⟩

/-- The remote node has no left member and nothing to tell the other. -/
structure Aligned (node remote : SerfCore Id Address) : Prop where
  consistent : Consistent remote.members
  behind : ∀ id m, remote.members.states.lookup id = some m → m.statusTime < remote.clock
  records : ∀ id, record node id = record remote id
  clocks : node.clock = remote.clock
  left : remote.members.leftMembers = []

theorem aligned_unmoved (node remote nodeAfter remoteAfter : SerfCore Id Address)
    (unmoved : Unmoved node nodeAfter) (remoteUnmoved : Unmoved remote remoteAfter)
    (aligned : Aligned node remote) : Aligned nodeAfter remoteAfter where
  consistent := by
    rw [remoteUnmoved.1]
    exact aligned.consistent
  behind := by
    rw [remoteUnmoved.1, remoteUnmoved.2]
    exact aligned.behind
  records id := by
    rw [record, record, unmoved.1, remoteUnmoved.1]
    exact aligned.records id
  clocks := by
    rw [unmoved.2, remoteUnmoved.2]
    exact aligned.clocks
  left := by
    rw [remoteUnmoved.1]
    exact aligned.left

theorem merge_unmoved (node remote : SerfCore Id Address) (aligned : Aligned node remote)
    (now : Id → Epoch) (isJoin : Bool) :
    Unmoved node (run (nodeStep env) node
      (mergeRemoteState now isJoin (.pushPull (localState remote)))) := by
  apply run_invariant (nodeStep env)
    (fun op => op ∈ mergeRemoteState now isJoin (.pushPull (localState remote))) (Unmoved node)
  · rintro state op member ⟨members, clock⟩
    rcases mergeRemoteState_op now isJoin (localState remote) op member with
      rfl | ⟨msg, sent, rfl⟩ | ⟨msg, sent, rfl⟩ | rfl | ⟨msg, _, rfl⟩
    · refine ⟨members, ?_⟩
      have reached : (localState remote).ltime ≤ state.clock := by
        rw [clock, aligned.clocks]
        exact le_refl _
      exact (witnessBefore_idle _ _ reached).trans clock
    · -- There is no left member to make a leave intent up for.
      obtain ⟨id, left, _⟩ := List.mem_filterMap.mp sent
      rw [localState_left, aligned.left] at left
      cases left
    · -- A join intent carries a time that the node already records.
      obtain ⟨status, found⟩ := (localState_status remote aligned.consistent msg.id msg.ltime).mp
        (otherIntents_time _ msg sent).2
      have behind : msg.ltime < state.clock := by
        obtain ⟨m, known, _, time⟩ := (record_eq_some remote _ _ _).mp found
        rw [clock, aligned.clocks, ← time]
        exact aligned.behind msg.id m known
      have stale : Stale state.members msg.id msg.ltime := by
        rw [← aligned.records] at found
        obtain ⟨m, known, _, time⟩ := (record_eq_some node _ _ _).mp found
        rw [members]
        exact (stale_known node.members msg.id msg.ltime m known).mpr (le_of_eq time.symm)
      simp only [nodeStep, joinIntent, handleNodeJoinIntent_idle _ msg state.members stale]
      exact ⟨members, (witness_idle _ _ behind).trans clock⟩
    · simp only [nodeStep, ignoreOldEvents]
      split <;> exact ⟨members, clock⟩
    · exact ⟨members, clock⟩
  · exact fun op member => member
  · exact ⟨rfl, rfl⟩

theorem merge_raises_left (startup : Startup) (node remote : SerfCore Id Address)
    (sound : Sound startup remote) (agree : Agree node remote)
    (self : env.membership.localId ∉ ids node.members.leftMembers) (x : Id)
    (left : x ∈ ids remote.members.leftMembers) (now : Id → Epoch) (isJoin : Bool) :
    ∃ time, record node x = some (.left, time) ∧
      record (run (nodeStep env) node
        (mergeRemoteState now isJoin (.pushPull (localState remote)))) x =
          some (.left, time + 1) := by
  have other : x ≠ env.membership.localId := by
    intro same
    exact self ((agree.left _).mpr (same ▸ left))
  have status := (mem_ids_iff .left remote.members x sound.consistent).mp left
  obtain ⟨m, known, isLeft⟩ := Option.map_eq_some_iff.mp status
  have found : record remote x = some (.left, m.statusTime) :=
    (record_eq_some remote x _ _).mpr ⟨m, known, isLeft, rfl⟩
  have time := (localState_status remote sound.consistent x m.statusTime).mpr ⟨_, found⟩
  refine ⟨m.statusTime, (agree.records x).trans found, ?_⟩
  rw [merge_record env node now isJoin _ x m.statusTime other
    ((localState_left remote x).mpr left) time, agree.records x, found]
  -- The status time is behind the clock, so its successor does not wrap.
  have behind := sound.table.statuses x m known
  have raises : ¬ m.statusTime + 1 ≤ m.statusTime := by grind
  simp [admitLeave, statusAfterLeave, raises]

omit [DecidableEq Id] in
theorem left_empty_iff (node : SerfCore Id Address) :
    node.members.leftMembers = [] ↔ ∀ id, id ∉ ids node.members.leftMembers := by
  rw [← List.eq_nil_iff_forall_not_mem, ids, List.map_eq_nil_iff]

theorem exchanges_unmoved (firstEnv secondEnv : NodeEnvironment Id Address)
    (first second : SerfCore Id Address) (aligned : Aligned first second)
    (back : Aligned second first) (exchanges : List (Exchange Id)) :
    let reached := run (exchangeStep firstEnv secondEnv) (first, second) exchanges
    Unmoved first reached.1 ∧ Unmoved second reached.2 := by
  apply run_invariant (exchangeStep firstEnv secondEnv) (fun _ => True)
    (fun nodes => Unmoved first nodes.1 ∧ Unmoved second nodes.2)
  · rintro nodes exchange _ ⟨firstUnmoved, secondUnmoved⟩
    cases exchange with
    | atFirst now isJoin =>
      have still := aligned_unmoved _ _ _ _ firstUnmoved secondUnmoved aligned
      exact ⟨unmoved_trans _ _ _ firstUnmoved (merge_unmoved firstEnv _ _ still now isJoin),
        secondUnmoved⟩
    | atSecond now isJoin =>
      have still := aligned_unmoved _ _ _ _ secondUnmoved firstUnmoved back
      exact ⟨firstUnmoved,
        unmoved_trans _ _ _ secondUnmoved (merge_unmoved secondEnv _ _ still now isJoin)⟩
  · exact fun _ _ => trivial
  · exact ⟨⟨rfl, rfl⟩, ⟨rfl, rfl⟩⟩

theorem antiEntropy_quiescent_iff (firstEnv secondEnv : NodeEnvironment Id Address)
    (firstStartup secondStartup : Startup) (first second : SerfCore Id Address)
    (firstSound : Sound firstStartup first) (secondSound : Sound secondStartup second)
    (agree : Agree first second) (clocks : first.clock = second.clock)
    (self : firstEnv.membership.localId ∉ ids first.members.leftMembers) :
    (∀ exchanges : List (Exchange Id),
      let reached := run (exchangeStep firstEnv secondEnv) (first, second) exchanges
      Unmoved first reached.1 ∧ Unmoved second reached.2) ↔
    first.members.leftMembers = [] := by
  constructor
  · intro quiescent
    rw [left_empty_iff]
    intro x left
    obtain ⟨time, before, after⟩ := merge_raises_left firstEnv secondStartup first second
      secondSound agree self x ((agree.left x).mp left) (fun _ => 0) false
    have unmoved := (quiescent [.atFirst (fun _ => 0) false]).1.1
    simp only [run, exchangeStep] at unmoved
    rw [record, unmoved, ← record, before] at after
    simp at after
  · intro none exchanges
    have noneSecond : second.members.leftMembers = [] := by
      rw [left_empty_iff] at none ⊢
      exact fun id left => none id ((agree.left id).mpr left)
    apply exchanges_unmoved
    · exact ⟨secondSound.consistent, secondSound.table.statuses, agree.records, clocks,
        noneSecond⟩
    · exact ⟨firstSound.consistent, firstSound.table.statuses, fun id => (agree.records id).symm,
        clocks.symm, none⟩

/-- The node `b`. -/
def peerCore : NodeEnvironment String Nat where
  membership := { plainNode with localId := "b" }
  limits := EventHandler.roomy
  query := { QueryHandler.plainEnvironment with advertiseNode := ⟨"b", 2⟩ }
  sameId := rfl
  encodeJoin _ := .ok []
  encodeLeave _ := .ok []

def startedNode (env : NodeEnvironment String Nat) (ops : List (NodeOp String Nat)) :
    SerfCore String Nat :=
  run (nodeStep env) (newIn (freshStart 2 (by decide))) ops

theorem startedNode_sound (env : NodeEnvironment String Nat) (ops : List (NodeOp String Nat))
    (bounded : ∀ op ∈ ops, ∀ time ∈ stamps op, time < u64Max)
    (reached : ∀ op ∈ ops, ∀ known, Reached known op)
    (clocks : ∀ visit ∈ visits (nodeStep env) (newIn (freshStart 2 (by decide))) ops,
      ClocksBelow visit.1) :
    Sound (freshStart 2 (by decide)) (startedNode env ops) := by
  apply run_guarded (nodeStep env) (fun node op => ClocksBelow node ∧ op ∈ ops)
  · rintro node op ⟨below, member⟩ sound
    exact nodeStep_sound env _ node op below (bounded op member) (reached op member _) sound
  · intro visit member
    exact ⟨clocks visit member, visits_ops _ _ _ visit member⟩
  · exact newIn_sound _ (by simp [SnapshotBelow, freshStart])

theorem antiEntropy_quiescent_joined :
    let first := startedNode plainCore [.nodeJoin peerX]
    let second := startedNode peerCore [.nodeJoin peerX]
    let reached := run (exchangeStep plainCore peerCore) (first, second)
      [.atFirst (fun _ => 0) true, .atSecond (fun _ => 1) false]
    first.members.leftMembers = [] ∧ Unmoved first reached.1 ∧ Unmoved second reached.2 := by
  have reached : ∀ op ∈ [NodeOp.nodeJoin peerX], ∀ known, Reached known op := by simp [Reached]
  have quiet := (antiEntropy_quiescent_iff plainCore peerCore _ _
    (startedNode plainCore [.nodeJoin peerX]) (startedNode peerCore [.nodeJoin peerX])
    (startedNode_sound _ _ (by simp [stamps]) reached (by decide))
    (startedNode_sound _ _ (by simp [stamps]) reached (by decide))
    ⟨fun _ => rfl, fun _ => Iff.rfl⟩ rfl (by decide)).mpr rfl
  exact ⟨rfl, quiet _⟩

theorem antiEntropy_drifts :
    let first := startedNode plainCore departure
    let second := startedNode peerCore departure
    let start := (first, second)
    let after (exchanges : List (Exchange String)) :=
      run (exchangeStep plainCore peerCore) start exchanges
    Agree first second ∧ first.clock = second.clock ∧
    first.events.clock = second.events.clock ∧ first.queries.clock = second.queries.clock ∧
    "a" ∉ ids first.members.leftMembers ∧ "b" ∉ ids second.members.leftMembers ∧
    record first "x" = some (.left, 5) ∧ first.clock = 6 ∧
    record (after [.atFirst (fun _ => 0) false]).1 "x" = some (.left, 6) ∧
    (after [.atFirst (fun _ => 0) false]).1.clock = 7 ∧
    record (after [.atFirst (fun _ => 0) false, .atSecond (fun _ => 0) false,
      .atFirst (fun _ => 0) false]).1 "x" = some (.left, 8) := by
  refine ⟨⟨fun _ => rfl, fun _ => Iff.rfl⟩, ?_⟩
  decide

end Serf.AntiEntropy
