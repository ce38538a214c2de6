import Serf.Library.LastWriter
import Serf.TableInvariant

/-!
What a node knows about another member after a set of join and leave intents is
a last-writer register: the entry with the newest Lamport time. An unknown
member keeps its entry in the intent buffer, a known one in its record, and
`handle_node_join` hands the entry over. So the order of delivery, and the
moment at which memberlist reports the member, make no difference.
-/

namespace Serf.IntentOrder

open Library.Collections Library.Machine Library.LastWriter MemberTable TableInvariant

variable {Id Address : Type} [DecidableEq Id]

/-- A join or a non-prune leave intent, with the wall time and the state of the
node at its delivery. -/
structure Intent where
  leave : Bool
  ltime : LamportTime
  now : Epoch
  state : SerfState
  deriving DecidableEq

def Intent.toOp (id : Id) (intent : Intent) : TableOp Id Address :=
  if intent.leave then .leaveIntent intent.state intent.now ⟨intent.ltime, id, false⟩
  else .joinIntent intent.now ⟨intent.ltime, id⟩

/-- The register entry that an intent writes. -/
def Intent.entry (intent : Intent) : LamportTime × Bool := (intent.ltime, intent.leave)

def activeStatus (leave : Bool) : MemberStatus := if leave then .leaving else .alive

def intentType (leave : Bool) : MessageType := if leave then .leave else .join

/-- The record of an active member whose newest intent is `held`. -/
def recordAt (base : MemberState Id Address) (held : LamportTime × Bool) :
    MemberState Id Address :=
  withStatus (withStatusTime base held.1) (activeStatus held.2)

def Buffered (intents : Table Id NodeIntent) (id : Id) (held : LamportTime × Bool) : Prop :=
  match intents.lookup id with
  | some intent => intent.ltime = held.1 ∧ intent.ty = intentType held.2
  | none => held = (0, false)

theorem upsertIntent_writes (intents : Table Id NodeIntent) (id : Id) (intent : Intent)
    (held : LamportTime × Bool) (positive : 1 ≤ intent.ltime) (tracked : Buffered intents id held) :
    Buffered (upsertIntent intents id (intentType intent.leave) intent.ltime intent.now).1 id
      (write held intent.entry) := by
  rw [Buffered] at tracked
  rw [upsertIntent]
  cases found : intents.lookup id with
  | none =>
    -- The vacant entry stands for a join at time 0, which every intent beats.
    rw [found] at tracked
    have newer : held.1 < intent.entry.1 := by
      rw [tracked]
      simp only [Intent.entry]
      grind
    rw [write_newer held intent.entry newer]
    simp [Buffered, Intent.entry]
  | some known =>
    rw [found] at tracked
    dsimp only
    by_cases newer : known.ltime < intent.ltime
    · have wins : held.1 < intent.entry.1 := tracked.1 ▸ newer
      rw [if_pos newer, write_newer held intent.entry wins]
      simp [Buffered, Intent.entry]
    · have loses : ¬ held.1 < intent.entry.1 := tracked.1 ▸ newer
      rw [if_neg newer, write_older held intent.entry loses]
      simp [Buffered, found, tracked]

variable (env : Environment Id Address) (members : Members Id Address)

theorem toOp_unknown (id : Id) (intent : Intent) (held : LamportTime × Bool)
    (positive : 1 ≤ intent.ltime) (unknown : members.states.lookup id = none)
    (tracked : Buffered members.recentIntents id held) :
    (applyOp env members (intent.toOp id)).members.states.lookup id = none ∧
    Buffered (applyOp env members (intent.toOp id)).members.recentIntents id
      (write held intent.entry) := by
  have written := upsertIntent_writes members.recentIntents id intent held positive tracked
  rw [Intent.toOp]
  cases leave : intent.leave with
  | true =>
    rw [leave] at written
    simp only [↓reduceIte, applyOp, handleNodeLeaveIntent, unknown]
    exact ⟨trivial, written⟩
  | false =>
    rw [leave] at written
    simp only [Bool.false_eq_true, ↓reduceIte, applyOp, handleNodeJoinIntent, unknown]
    exact ⟨trivial, written⟩

theorem toOp_active (id : Id) (intent : Intent) (base : MemberState Id Address)
    (held : LamportTime × Bool) (foreign : id ≠ env.localId)
    (tracked : members.states.lookup id = some (recordAt base held)) :
    (applyOp env members (intent.toOp id)).members.states.lookup id =
      some (recordAt base (write held intent.entry)) ∧
    (applyOp env members (intent.toOp id)).sent = [] := by
  rw [Intent.toOp]
  by_cases newer : held.1 < intent.ltime
  · have wins := write_newer held intent.entry newer
    have late : ¬ intent.ltime ≤ (recordAt base held).statusTime := not_le_of_gt newer
    rw [wins]
    cases leave : intent.leave with
    | true =>
      simp only [↓reduceIte, applyOp, handleNodeLeaveIntent, tracked, late, foreign, false_and]
      cases direction : held.2 <;>
        simp [recordAt, activeStatus, withStatus, withStatusTime, acceptLeave, direction,
          Intent.entry, leave]
    | false =>
      simp only [Bool.false_eq_true, ↓reduceIte, applyOp, handleNodeJoinIntent, tracked, late]
      cases direction : held.2 <;>
        simp [recordAt, activeStatus, withStatus, withStatusTime, direction, Intent.entry, leave]
  · have loses := write_older held intent.entry newer
    have old : intent.ltime ≤ (recordAt base held).statusTime := le_of_not_gt newer
    rw [loses]
    cases leave : intent.leave with
    | true => simp [applyOp, handleNodeLeaveIntent, tracked, old, unchanged]
    | false => simp [applyOp, handleNodeJoinIntent, tracked, old, unchanged]

theorem run_unknown (id : Id) (intents : List Intent) (held : LamportTime × Bool)
    (positive : ∀ intent ∈ intents, 1 ≤ intent.ltime) (unknown : members.states.lookup id = none)
    (tracked : Buffered members.recentIntents id held) :
    (run (tableStep env) members (intents.map (Intent.toOp id))).states.lookup id = none ∧
    Buffered (run (tableStep env) members (intents.map (Intent.toOp id))).recentIntents id
      (settle held (intents.map Intent.entry)) := by
  induction intents generalizing members held with
  | nil => exact ⟨unknown, tracked⟩
  | cons intent rest ih =>
    have step := toOp_unknown env members id intent held
      (positive intent List.mem_cons_self) unknown tracked
    exact ih _ _ (fun later member => positive later (List.mem_cons_of_mem intent member))
      step.1 step.2

theorem run_active (id : Id) (intents : List Intent) (base : MemberState Id Address)
    (held : LamportTime × Bool) (foreign : id ≠ env.localId)
    (tracked : members.states.lookup id = some (recordAt base held)) :
    (run (tableStep env) members (intents.map (Intent.toOp id))).states.lookup id =
      some (recordAt base (settle held (intents.map Intent.entry))) ∧
    emitted env members (intents.map (Intent.toOp id)) = [] := by
  induction intents generalizing members held with
  | nil => exact ⟨tracked, rfl⟩
  | cons intent rest ih =>
    have step := toOp_active env members id intent base held foreign tracked
    have tail := ih _ _ step.1
    refine ⟨tail.1, ?_⟩
    simp only [emitted, List.map_cons, answers, List.flatMap_cons]
    exact List.append_eq_nil_iff.mpr ⟨step.2, tail.2⟩

theorem nodeJoin_hands_over (n : NodeState Id Address) (tags : Tags) (held : LamportTime × Bool)
    (decodable : joinTags env n = some tags) (unknown : members.states.lookup n.node.id = none)
    (tracked : Buffered members.recentIntents n.node.id held) :
    (applyOp env members (.nodeJoin n)).members.states.lookup n.node.id =
      some (recordAt (joinedNew env n tags ∅) held) := by
  have record : joinedNew env n tags members.recentIntents =
      recordAt (joinedNew env n tags ∅) held := by
    rw [Buffered] at tracked
    cases found : members.recentIntents.lookup n.node.id with
    | none =>
      rw [found] at tracked
      subst held
      simp [joinedNew, recentIntent, recordAt, found, withStatus, withStatusTime, activeStatus]
    | some intent =>
      rw [found] at tracked
      obtain ⟨time, kind⟩ := tracked
      cases direction : held.2 <;>
        simp [joinedNew, recentIntent, recordAt, found, withStatus, withStatusTime,
          activeStatus, intentType, time, kind, direction]
  simp [applyOp, handleNodeJoin, decodable, unknown, record]

theorem entries_distinct (intents : List Intent)
    (distinct : (intents.map Intent.ltime).Nodup) : Distinct (intents.map Intent.entry) := by
  intro left inLeft right inRight same
  obtain ⟨first, here, rfl⟩ := List.mem_map.mp inLeft
  obtain ⟨second, there, rfl⟩ := List.mem_map.mp inRight
  rw [List.inj_on_of_nodup_map distinct here there same]

/-- However the intents are ordered and wherever the join notification falls
among them, the member ends with the same record: that of the newest intent. -/
theorem intents_order_independent (n : NodeState Id Address) (tags : Tags) (intents : List Intent)
    (foreign : n.node.id ≠ env.localId) (decodable : joinTags env n = some tags)
    (unknown : members.states.lookup n.node.id = none)
    (unheard : members.recentIntents.lookup n.node.id = none)
    (distinct : (intents.map Intent.ltime).Nodup)
    (positive : ∀ intent ∈ intents, 1 ≤ intent.ltime) :
    ∃ record : MemberState Id Address,
      (∀ before after : List Intent, (before ++ after).Perm intents →
        (run (tableStep env) members (before.map (Intent.toOp n.node.id) ++
          TableOp.nodeJoin n :: after.map (Intent.toOp n.node.id))).states.lookup n.node.id =
          some record) ∧
      (intents = [] → record.statusTime = 0 ∧ record.member.status = .alive) ∧
      (∀ top ∈ intents, (∀ intent ∈ intents, intent.ltime ≤ top.ltime) →
        record.statusTime = top.ltime ∧
        record.member.status = if top.leave then .leaving else .alive) := by
  have above : ∀ entry ∈ intents.map Intent.entry, (0, false).1 < entry.1 := by
    intro entry member
    obtain ⟨intent, here, rfl⟩ := List.mem_map.mp member
    have bound := positive intent here
    simp only [Intent.entry]
    grind
  refine ⟨recordAt (joinedNew env n tags ∅) (settle (0, false) (intents.map Intent.entry)),
    ?_, ?_, ?_⟩
  · -- Up to the notification the register is in the buffer, from there on in the record.
    intro before after order
    have early : ∀ intent ∈ before, 1 ≤ intent.ltime := by
      intro intent member
      exact positive intent (order.subset (List.mem_append_left after member))
    have buffered := run_unknown env members n.node.id before (0, false) early unknown
      (by simp [Buffered, unheard])
    have joined := nodeJoin_hands_over env _ n tags _ decodable buffered.1 buffered.2
    have settled := run_active env _ n.node.id after _ _ foreign joined
    rw [run_append, run]
    refine settled.1.trans ?_
    rw [← settle_perm (0, false) _ ((before ++ after).map Intent.entry)
      (entries_distinct intents distinct) (order.map Intent.entry) above]
    simp [settle]
  · rintro rfl
    exact ⟨rfl, rfl⟩
  · intro top member newest
    have inside := List.mem_map_of_mem (f := Intent.entry) member
    rw [settle_newest (0, false) _ (entries_distinct intents distinct) top.entry inside
      (by
        intro entry here
        obtain ⟨intent, there, rfl⟩ := List.mem_map.mp here
        exact newest intent there) (above _ inside)]
    exact ⟨rfl, rfl⟩

theorem intents_order_independent_early_leave :
    let join : Intent := ⟨false, 3, 0, .alive⟩
    let leave : Intent := ⟨true, 5, 0, .alive⟩
    ∃ record : MemberState String Nat,
      (run (tableStep plainNode) Members.empty
        [leave.toOp "b", .nodeJoin ⟨⟨"b", 2⟩, []⟩, join.toOp "b"]).states.lookup "b" =
        some record ∧
      record.statusTime = 5 ∧ record.member.status = .leaving := by
  intro join leave
  obtain ⟨record, reached, _, newest⟩ := intents_order_independent plainNode Members.empty
    ⟨⟨"b", 2⟩, []⟩ ∅ [join, leave] (by decide) rfl rfl rfl (by decide) (by decide)
  exact ⟨record, reached [leave] [join] (List.Perm.swap join leave []),
    newest leave (by simp) (by decide)⟩

def about (id : Id) (event : MemberEvent Id Address) : Bool :=
  event.members.any fun m => m.node.id = id

/-- The kind of the last event about a member. -/
def lastAbout (id : Id) (events : List (MemberEvent Id Address)) : Option MemberEventType :=
  ((events.filter (about id)).getLast?).map MemberEvent.ty

variable (id : Id) (events : List (MemberEvent Id Address))

theorem lastAbout_append (event : MemberEvent Id Address) (concerns : about id event = true) :
    lastAbout id (events ++ [event]) = some event.ty := by
  simp [lastAbout, List.filter_append, concerns]

theorem lastAbout_or (first second : List (MemberEvent Id Address)) :
    lastAbout id (first ++ second) = (lastAbout id second).or (lastAbout id first) := by
  rw [lastAbout, List.filter_append, List.getLast?_append, Option.map_or]
  rfl

theorem lastAbout_mem (ty : MemberEventType) (last : lastAbout id events = some ty) :
    ∃ event ∈ events, event.ty = ty ∧ ∃ member ∈ event.members, member.node.id = id := by
  obtain ⟨event, found, rfl⟩ := Option.map_eq_some_iff.mp last
  obtain ⟨inside, concerns⟩ := List.mem_filter.mp (List.mem_of_getLast? found)
  exact ⟨event, inside, rfl, by simpa [about] using concerns⟩

theorem lastAbout_none :
    lastAbout id events = none ↔
      ∀ event ∈ events, ∀ member ∈ event.members, member.node.id ≠ id := by
  rw [lastAbout, Option.map_eq_none_iff, List.getLast?_eq_none_iff, List.filter_eq_nil_iff]
  simp [about]

/-- A member that memberlist has reported as gone. While it counts as failed,
its newest intent is no leave. -/
def Gone (members : Members Id Address) (events : List (MemberEvent Id Address)) (id : Id)
    (held : LamportTime × Bool) : Prop :=
  ∃ m, members.states.lookup id = some m ∧ m.member.node.id = id ∧ m.statusTime = held.1 ∧
    ((m.member.status = .left ∧ lastAbout id events = some .leave) ∨
      (m.member.status = .failed ∧ held.2 = false))

theorem toOp_gone (id : Id) (intent : Intent) (held : LamportTime × Bool)
    (foreign : id ≠ env.localId) (gone : Gone members events id held) :
    Gone (applyOp env members (intent.toOp id)).members
      (events ++ (applyOp env members (intent.toOp id)).sent) id (write held intent.entry) := by
  obtain ⟨m, found, keyed, time, status⟩ := gone
  rw [Intent.toOp]
  by_cases newer : held.1 < intent.ltime
  · have late : ¬ intent.ltime ≤ m.statusTime := by
      rw [time]
      exact not_le_of_gt newer
    rw [write_newer held intent.entry newer]
    cases leave : intent.leave with
    | true =>
      simp only [↓reduceIte, applyOp, handleNodeLeaveIntent, found, late, foreign, false_and]
      rcases status with ⟨left, last⟩ | ⟨failed, _⟩
      · -- A left member takes the time and no event is sent.
        refine ⟨withStatusTime m intent.ltime, ?_, keyed, rfl, Or.inl ⟨left, ?_⟩⟩
        · simp [withStatusTime, left, acceptLeave]
        · simpa [withStatusTime, left, acceptLeave] using last
      · -- The move to the left list sends the leave event.
        refine ⟨withStatus (withStatusTime m intent.ltime) .left, ?_, keyed, rfl,
          Or.inl ⟨rfl, ?_⟩⟩
        · simp [withStatusTime, failed, acceptLeave, moveToLeft]
        · simp only [withStatusTime, failed, acceptLeave, Bool.false_eq_true, ↓reduceIte]
          apply lastAbout_append
          simp [about, withStatus, keyed]
    | false =>
      simp only [Bool.false_eq_true, ↓reduceIte, applyOp, handleNodeJoinIntent, found, late]
      refine ⟨withStatusTime m intent.ltime, ?_, keyed, rfl, ?_⟩
      · rcases status with ⟨left, _⟩ | ⟨failed, _⟩
        · simp [withStatusTime, left]
        · simp [withStatusTime, failed]
      · rcases status with ⟨left, last⟩ | ⟨failed, _⟩
        · exact Or.inl ⟨left, by simpa using last⟩
        · exact Or.inr ⟨failed, leave⟩
  · have old : intent.ltime ≤ m.statusTime := by
      rw [time]
      exact le_of_not_gt newer
    rw [write_older held intent.entry newer]
    cases leave : intent.leave with
    | true =>
      simp only [↓reduceIte, applyOp, handleNodeLeaveIntent, found, old, unchanged,
        List.append_nil]
      exact ⟨m, found, keyed, time, status⟩
    | false =>
      simp only [Bool.false_eq_true, ↓reduceIte, applyOp, handleNodeJoinIntent, found, old,
        unchanged, List.append_nil]
      exact ⟨m, found, keyed, time, status⟩

theorem run_gone (id : Id) (intents : List Intent) (held : LamportTime × Bool)
    (foreign : id ≠ env.localId) (gone : Gone members events id held) :
    Gone (run (tableStep env) members (intents.map (Intent.toOp id)))
      (events ++ emitted env members (intents.map (Intent.toOp id))) id
      (settle held (intents.map Intent.entry)) := by
  induction intents generalizing members events held with
  | nil => simpa [run, emitted, answers, settle] using gone
  | cons intent rest ih =>
    have tail := ih _ _ _ (toOp_gone env members events id intent held foreign gone)
    rw [List.append_assoc] at tail
    exact tail

theorem nodeLeave_gone (env : Environment Id Address) (members : Members Id Address)
    (n : NodeState Id Address) (base : MemberState Id Address) (held : LamportTime × Bool)
    (now : Epoch) (keyed : base.member.node.id = n.node.id)
    (tracked : members.states.lookup n.node.id = some (recordAt base held)) :
    Gone (applyOp env members (.nodeLeave now n)).members
      (applyOp env members (.nodeLeave now n)).sent n.node.id held := by
  simp only [applyOp, handleNodeLeave, tracked]
  cases direction : held.2 with
  | true =>
    refine ⟨departed .left now (recordAt base held), ?_, keyed, rfl, Or.inl ⟨rfl, ?_⟩⟩
    · simp [recordAt, withStatus, activeStatus, direction, depart]
    · simp [recordAt, withStatus, withStatusTime, activeStatus, direction, lastAbout, about,
        departed, keyed]
  | false =>
    refine ⟨departed .failed now (recordAt base held), ?_, keyed, rfl,
      Or.inr ⟨rfl, direction⟩⟩
    simp [recordAt, withStatus, activeStatus, direction, depart]

omit [DecidableEq Id] in
theorem recordAt_self (m : MemberState Id Address) (alive : m.member.status = .alive) :
    recordAt m (m.statusTime, false) = m := by
  simp [recordAt, withStatus, withStatusTime, activeStatus, ← alive]

theorem run_around (env : Environment Id Address) (start : Members Id Address)
    (before after : List (TableOp Id Address)) (op : TableOp Id Address) :
    run (tableStep env) start (before ++ op :: after) =
      run (tableStep env) (applyOp env (run (tableStep env) start before) op).members after := by
  simp only [run_append, run, tableStep]

theorem emitted_around (env : Environment Id Address) (start : Members Id Address)
    (before after : List (TableOp Id Address)) (op : TableOp Id Address)
    (silent : emitted env start before = []) :
    emitted env start (before ++ op :: after) =
      (applyOp env (run (tableStep env) start before) op).sent ++
        emitted env (applyOp env (run (tableStep env) start before) op).members after := by
  rw [emitted_append, silent, List.nil_append]
  simp only [emitted, answers, List.flatMap_cons, tableStep]

theorem settle_parts (held : LamportTime × Bool) (intents before after : List Intent)
    (top : Intent) (distinct : (intents.map Intent.ltime).Nodup) (member : top ∈ intents)
    (newest : ∀ intent ∈ intents, intent.ltime ≤ top.ltime) (above : held.1 < top.ltime)
    (order : (before ++ after).Perm intents) :
    settle (settle held (before.map Intent.entry)) (after.map Intent.entry) = top.entry := by
  have apart := entries_distinct _ ((order.map Intent.ltime).nodup_iff.mpr distinct)
  have inside := List.mem_map_of_mem (f := Intent.entry) (order.symm.subset member)
  have whole := settle_newest held ((before ++ after).map Intent.entry) apart top.entry inside
    (by
      intro entry here
      obtain ⟨intent, there, rfl⟩ := List.mem_map.mp here
      exact newest intent (order.subset there)) above
  simpa [settle] using whole

/-- Wherever the failure detector's notification falls among intents whose
newest is a leave, the member ends as left, and a leave event is the last word. -/
theorem newest_leave_commutes (env : Environment Id Address) (history : List (TableOp Id Address))
    (n : NodeState Id Address) (m : MemberState Id Address) (now : Epoch) (intents : List Intent)
    (top : Intent) (foreign : n.node.id ≠ env.localId)
    (found : (run (tableStep env) Members.empty history).states.lookup n.node.id = some m)
    (alive : m.member.status = .alive) (distinct : (intents.map Intent.ltime).Nodup)
    (member : top ∈ intents) (newest : ∀ intent ∈ intents, intent.ltime ≤ top.ltime)
    (leave : top.leave = true) (above : m.statusTime < top.ltime) (before after : List Intent)
    (order : (before ++ after).Perm intents) :
    let start := run (tableStep env) Members.empty history
    let ops := before.map (Intent.toOp n.node.id) ++
      TableOp.nodeLeave now n :: after.map (Intent.toOp n.node.id)
    let reached := run (tableStep env) start ops
    (∃ record, reached.states.lookup n.node.id = some record ∧
      record.member.status = .left ∧ record.statusTime = top.ltime) ∧
    (ids reached.leftMembers).count n.node.id = 1 ∧
    n.node.id ∉ ids reached.failedMembers ∧
    lastAbout n.node.id (emitted env start ops) = some .leave := by
  intro start ops reached
  have valid : Consistent start := run_consistent env history _ empty_consistent
  have keyed := valid.keyed n.node.id m found
  rw [← recordAt_self m alive] at found
  have active := run_active env start n.node.id before m _ foreign found
  have notified := nodeLeave_gone env _ n m _ now keyed active.1
  have gone := run_gone env _ _ n.node.id after _ foreign notified
  rw [settle_parts _ intents before after top distinct member newest above order,
    ← run_around, ← emitted_around env start _ _ _ active.2] at gone
  obtain ⟨record, here, _, time, status⟩ := gone
  rcases status with ⟨left, last⟩ | ⟨_, join⟩
  · have consistent : Consistent reached := run_consistent env ops start valid
    have status : statusOf reached n.node.id = some .left := by
      rw [statusOf, here, Option.map_some, left]
    refine ⟨⟨record, here, left, time⟩, ?_, ?_, last⟩
    · exact (count_ids_iff .left reached _ consistent).mpr status
    · intro inside
      have failed := (mem_ids_iff .failed reached _ consistent).mp inside
      rw [status] at failed
      cases failed
  · -- The newest intent is a leave, so the member cannot still count as failed.
    simp [Intent.entry, leave] at join

theorem newest_leave_commutes_late :
    let start := run (tableStep plainNode) Members.empty [.nodeJoin ⟨⟨"b", 2⟩, []⟩]
    let ops := [.nodeLeave 10 ⟨⟨"b", 2⟩, []⟩, Intent.toOp "b" ⟨true, 5, 11, .alive⟩]
    lastAbout "b" (emitted plainNode start ops) = some .leave :=
  (newest_leave_commutes plainNode [.nodeJoin ⟨⟨"b", 2⟩, []⟩] ⟨⟨"b", 2⟩, []⟩ _ 10
    [⟨true, 5, 11, .alive⟩] ⟨true, 5, 11, .alive⟩ (by decide) rfl rfl (by decide) (by decide)
    (by decide) rfl (by decide) [] [⟨true, 5, 11, .alive⟩] (List.Perm.refl _)).2.2.2

end Serf.IntentOrder
