import Serf.MemberLog
import Serf.SnapshotReplay

/-!
The membership table and the snapshotter behind its event channel. The alive
nodes of the snapshotter follow the member events alone, and what an event does
for a node depends on the events about its id. So one section of the table is
followed exactly when its transition of each node and the events of that
transition say the same, which only a prune of a live member fails to do.
-/

namespace Serf.SnapshotTable

open Library.Collections Library.Machine MemberTable TableInvariant IntentOrder MemberLog
open Snapshotter SnapshotReplay

variable {Id Address : Type} [DecidableEq Id] [DecidableEq Address]

section Following

def followMember (ty : MemberEventType) (alive : ItemSet (Node Id Address))
    (m : Member Id Address) : ItemSet (Node Id Address) :=
  match ty with
  | .join => alive.insert m.node
  | .leave | .failed => alive.remove m.node
  | .update | .reap => alive

def follow (alive : ItemSet (Node Id Address)) (event : MemberEvent Id Address) :
    ItemSet (Node Id Address) :=
  event.members.foldl (followMember event.ty) alive

def memberEvents (ops : List (SnapshotOp Id Address)) : List (MemberEvent Id Address) :=
  ops.filterMap fun op =>
    match op with
    | .memberEvent _ event => some event
    | _ => none

variable (env : SnapshotEnv Id Address)

theorem processMember_follows (ty : MemberEventType) (m : Member Id Address)
    (snapshot : Snapshot Id Address) :
    (processMember env ty m.node snapshot).aliveNodes = followMember ty snapshot.aliveNodes m := by
  cases ty with
  | join => exact tryAppend_aliveNodes env _ _
  | leave => exact tryAppend_aliveNodes env _ _
  | failed => exact tryAppend_aliveNodes env _ _
  | update => rfl
  | reap => rfl

theorem processMembers_stopped (ty : MemberEventType) (members : List (Member Id Address))
    (snapshot : Snapshot Id Address) (stopped : snapshot.panicked = true) :
    processMembers env ty members snapshot = snapshot := by
  induction members with
  | nil => rfl
  | cons m rest ih =>
    rw [processMembers, unlessPanicked, if_pos stopped]
    exact ih

theorem processMembers_follows (ty : MemberEventType) (members : List (Member Id Address))
    (snapshot : Snapshot Id Address)
    (running : (processMembers env ty members snapshot).panicked = false) :
    (processMembers env ty members snapshot).aliveNodes =
      members.foldl (followMember ty) snapshot.aliveNodes := by
  induction members generalizing snapshot with
  | nil => rfl
  | cons m rest ih =>
    have going : snapshot.panicked ≠ true := by
      intro stopped
      rw [processMembers_stopped env ty (m :: rest) snapshot stopped, stopped] at running
      cases running
    rw [processMembers, unlessPanicked, if_neg going] at running ⊢
    rw [ih _ running, processMember_follows, List.foldl_cons]

theorem processMemberEvent_follows (time : LamportTime) (event : MemberEvent Id Address)
    (snapshot : Snapshot Id Address)
    (running : (processMemberEvent env time event snapshot).panicked = false) :
    (processMemberEvent env time event snapshot).aliveNodes =
      follow snapshot.aliveNodes event := by
  rw [processMemberEvent, unlessPanicked] at running ⊢
  split at running
  · rename_i stopped
    rw [stopped] at running
    cases running
  · rename_i going
    have kept := updateClock_view (fun snapshot : Snapshot Id Address => snapshot.aliveNodes)
      ⟨fun _ _ _ _ => rfl, fun _ _ _ => rfl⟩ env (fun _ _ => rfl) time
      (processMembers env event.ty event.members snapshot)
    rw [if_neg going, kept]
    exact processMembers_follows env event.ty event.members snapshot (by simpa using going)

theorem run_stopped (ops : List (SnapshotOp Id Address)) (snapshot : Snapshot Id Address)
    (stopped : snapshot.panicked = true) : run (snapshotStep env) snapshot ops = snapshot := by
  induction ops with
  | nil => rfl
  | cons op rest ih =>
    rw [run, snapshotStep, unlessPanicked, if_pos stopped]
    exact ih

theorem applySnapshotOp_follows (op : SnapshotOp Id Address) (snapshot : Snapshot Id Address)
    (running : (applySnapshotOp env snapshot op).panicked = false) :
    (applySnapshotOp env snapshot op).aliveNodes =
      (memberEvents [op]).foldl follow snapshot.aliveNodes := by
  cases op with
  | memberEvent time event => exact processMemberEvent_follows env time event snapshot running
  | userEvent event =>
    simp only [applySnapshotOp, processUserEvent]
    split
    · rfl
    · exact tryAppend_aliveNodes env _ _
  | queryEvent ltime =>
    simp only [applySnapshotOp, processQueryEvent]
    split
    · rfl
    · exact tryAppend_aliveNodes env _ _
  | updateClock time =>
    exact updateClock_view _ ⟨fun _ _ _ _ => rfl, fun _ _ _ => rfl⟩ env (fun _ _ => rfl) time
      snapshot

theorem run_follows (ops : List (SnapshotOp Id Address)) (snapshot : Snapshot Id Address)
    (running : (run (snapshotStep env) snapshot ops).panicked = false) :
    (run (snapshotStep env) snapshot ops).aliveNodes =
      (memberEvents ops).foldl follow snapshot.aliveNodes := by
  induction ops generalizing snapshot with
  | nil => rfl
  | cons op rest ih =>
    -- A snapshotter that has panicked stays so, hence neither this step nor the next has.
    have going : snapshot.panicked ≠ true := by
      intro stopped
      rw [run_stopped env (op :: rest) snapshot stopped, stopped] at running
      cases running
    have step : (snapshotStep env snapshot op).1 = applySnapshotOp env snapshot op := by
      rw [snapshotStep, unlessPanicked, if_neg going]
    rw [run, step] at running ⊢
    have next : (applySnapshotOp env snapshot op).panicked = false := by
      by_contra stopped
      rw [run_stopped env rest _ (by simpa using stopped)] at running
      exact stopped running
    have split : memberEvents (op :: rest) = memberEvents [op] ++ memberEvents rest := by
      rw [memberEvents, memberEvents, memberEvents, ← List.filterMap_append]
      rfl
    rw [ih _ running, applySnapshotOp_follows env op snapshot next, split, List.foldl_append]

end Following

section OneNode

theorem mem_follow_single (ty : MemberEventType) (m : Member Id Address)
    (alive : ItemSet (Node Id Address)) (node : Node Id Address) :
    node ∈ follow alive ⟨ty, [m]⟩ ↔
      match ty with
      | .join => node = m.node ∨ node ∈ alive
      | .leave | .failed => node ≠ m.node ∧ node ∈ alive
      | .update | .reap => node ∈ alive := by
  cases ty <;> simp [follow, followMember]

theorem mem_followMember_other (ty : MemberEventType) (m : Member Id Address)
    (alive : ItemSet (Node Id Address)) (node : Node Id Address) (other : m.node.id ≠ node.id) :
    node ∈ followMember ty alive m ↔ node ∈ alive := by
  have apart : node ≠ m.node := fun same => other (by rw [same])
  cases ty <;> simp [followMember, apart]

theorem mem_followMember_congr (ty : MemberEventType) (m : Member Id Address)
    (left right : ItemSet (Node Id Address)) (node : Node Id Address)
    (same : node ∈ left ↔ node ∈ right) :
    node ∈ followMember ty left m ↔ node ∈ followMember ty right m := by
  cases ty <;> simp [followMember, same]

theorem mem_follow_congr (event : MemberEvent Id Address)
    (left right : ItemSet (Node Id Address)) (node : Node Id Address)
    (same : node ∈ left ↔ node ∈ right) : node ∈ follow left event ↔ node ∈ follow right event := by
  obtain ⟨ty, members⟩ := event
  unfold follow
  induction members generalizing left right with
  | nil => exact same
  | cons m rest ih => exact ih _ _ (mem_followMember_congr ty m left right node same)

theorem mem_follow_other (event : MemberEvent Id Address) (alive : ItemSet (Node Id Address))
    (node : Node Id Address) (other : about node.id event = false) :
    node ∈ follow alive event ↔ node ∈ alive := by
  obtain ⟨ty, members⟩ := event
  unfold follow
  induction members generalizing alive with
  | nil => rfl
  | cons m rest ih =>
    simp only [about, List.any_cons, Bool.or_eq_false_iff, decide_eq_false_iff_not] at other
    rw [List.foldl_cons, ih _ other.2]
    exact mem_followMember_other ty m alive node other.1

theorem mem_follow_filter (events : List (MemberEvent Id Address))
    (left right : ItemSet (Node Id Address)) (node : Node Id Address)
    (same : node ∈ left ↔ node ∈ right) :
    node ∈ events.foldl follow left ↔
      node ∈ (events.filter (about node.id)).foldl follow right := by
  induction events generalizing left right with
  | nil => exact same
  | cons event rest ih =>
    cases here : about node.id event with
    | true =>
      rw [List.filter_cons_of_pos here]
      exact ih _ _ (mem_follow_congr event left right node same)
    | false =>
      rw [List.filter_cons_of_neg (by simp [here])]
      exact ih _ _ ((mem_follow_other event left node here).trans same)

end OneNode

section Sections

variable (table : Environment Id Address) (env : SnapshotEnv Id Address)

/-- A section of the table, and what the snapshotter takes from its channels
until it has taken the events of that section. -/
abbrev FeedOp (Id Address : Type) := TableOp Id Address × List (SnapshotOp Id Address)

def feedStep (state : Members Id Address × Snapshot Id Address) (op : FeedOp Id Address) :
    (Members Id Address × Snapshot Id Address) × Unit :=
  (((applyOp table state.1 op.1).members, run (snapshotStep env) state.2 op.2), ())

/-- No event is lost, and memberlist reports a join of new and dead nodes only
and moves no live one. -/
structure Feeds (members : Members Id Address) (op : FeedOp Id Address) : Prop where
  events : memberEvents op.2 = (applyOp table members op.1).sent
  joins : ∀ n m, op.1 = .nodeJoin n → members.states.lookup n.node.id = some m →
    ¬ Live m.member.status
  updates : ∀ n m, op.1 = .nodeUpdate n → members.states.lookup n.node.id = some m →
    Live m.member.status → m.member.node = n.node

/-- The alive nodes are the nodes of the members that are alive or leaving. -/
def TracksTable (state : Members Id Address × Snapshot Id Address) : Prop :=
  ∀ node, node ∈ state.2.aliveNodes ↔ ∃ id m, state.1.states.lookup id = some m ∧
    Live m.member.status ∧ m.member.node = node

/-- The section accepts a leave intent that prunes a live member. -/
def PrunesLive (members : Members Id Address) (op : TableOp Id Address) : Prop :=
  ∃ state now msg m, op = .leaveIntent state now msg ∧ msg.prune = true ∧
    members.states.lookup msg.id = some m ∧ Live m.member.status ∧ Accepts table state msg m

def Stands : Option (MemberState Id Address) → Node Id Address → Prop
  | some m, node => Live m.member.status ∧ m.member.node = node
  | none, _ => False

omit [DecidableEq Address] in
theorem exists_stands (members : Members Id Address) (valid : Consistent members)
    (node : Node Id Address) :
    (∃ id m, members.states.lookup id = some m ∧ Live m.member.status ∧ m.member.node = node) ↔
      Stands (members.states.lookup node.id) node := by
  constructor
  · rintro ⟨id, m, found, live, rfl⟩
    rw [valid.keyed id m found, found]
    exact ⟨live, rfl⟩
  · intro stands
    cases found : members.states.lookup node.id with
    | none =>
      rw [found] at stands
      cases stands
    | some m =>
      rw [found] at stands
      exact ⟨node.id, m, found, stands⟩

omit [DecidableEq Id] [DecidableEq Address] in
theorem not_live_old (list : OldList) : ¬ Live list.status := by
  cases list <;> simp [Live, OldList.status]

theorem transition_follows (members : Members Id Address) (op : FeedOp Id Address)
    (feeds : Feeds table members op) (spares : ¬ PrunesLive table members op.1)
    (node : Node Id Address) (events : List (MemberEvent Id Address))
    (after : Option (MemberState Id Address))
    (step : Transition table op.1 node.id (members.states.lookup node.id) events after)
    (alive : ItemSet (Node Id Address))
    (tracks : node ∈ alive ↔ Stands (members.states.lookup node.id) node) :
    node ∈ events.foldl follow alive ↔ Stands after node := by
  have dead : ∀ old : MemberState Id Address, ¬ Live old.member.status → ¬ Stands (some old) node :=
    fun _ dead stands => dead stands.1
  generalize found : members.states.lookup node.id = before at step tracks
  cases step with
  | idle => exact tracks
  | joined n _ m notified target place live =>
    -- A notified join is never about a node that is live already.
    have absent : node ∉ alive := by
      rw [tracks]
      cases before with
      | none => exact fun none => none
      | some old =>
        rintro ⟨was, _⟩
        exact feeds.joins n old notified (by rw [target]; exact found) was
    rw [List.foldl_cons, List.foldl_nil, mem_follow_single]
    simp [absent, Stands, live, eq_comm]
  | updated n old m notified target place status =>
    -- The snapshotter ignores updates, and a live node keeps its address.
    rw [List.foldl_cons, List.foldl_nil, mem_follow_single]
    simp only [tracks, Stands, status]
    apply and_congr_right
    intro live
    have kept := feeds.updates n old notified (by rw [target]; exact found) live
    rw [kept, place]
  | retimed old m place status =>
    rw [List.foldl_nil, tracks]
    simp only [Stands, place]
    rcases status with same | ⟨was, now⟩
    · rw [same]
    · simp [was, now]
  | departed list old m place live status =>
    -- The event names the node of the record, and so removes what stood there.
    have gone : ¬ Stands (some m) node := by
      rintro ⟨now, _⟩
      rw [status] at now
      exact not_live_old list now
    have removed : ¬ (node ≠ m.member.node ∧ node ∈ alive) := by
      rintro ⟨other, held⟩
      exact other (by rw [place, (tracks.mp held).2])
    rw [List.foldl_cons, List.foldl_nil, mem_follow_single]
    cases list with
    | failed => exact iff_of_false removed gone
    | left => exact iff_of_false removed gone
  | moved old m place failed left =>
    have absent : node ∉ alive := fun held => dead old (by simp [failed, Live]) (tracks.mp held)
    rw [List.foldl_cons, List.foldl_nil, mem_follow_single]
    simp [absent, Stands, left, Live]
  | movedAway old m place failed =>
    have absent : node ∉ alive := fun held => dead old (by simp [failed, Live]) (tracks.mp held)
    rw [List.foldl_cons, List.foldl_cons, List.foldl_nil, mem_follow_single]
    simp [mem_follow_single, absent, Stands]
  | pruned state now msg old m received target prune accepts place known =>
    -- The reap event is ignored, which is right only where nothing was live.
    have spared : ¬ Live old.member.status := fun live =>
      spares ⟨state, now, msg, old, received, prune, by rw [target]; exact found, live, accepts⟩
    have absent : node ∉ alive := fun held => dead old spared (tracks.mp held)
    rw [List.foldl_cons, List.foldl_nil, mem_follow_single]
    simp [absent, Stands]
  | reaped list old m status target =>
    have absent : node ∉ alive := fun held =>
      dead old (by rw [status]; exact not_live_old list) (tracks.mp held)
    rw [List.foldl_cons, List.foldl_nil, mem_follow_single]
    simp [absent, Stands]

variable (state : Members Id Address × Snapshot Id Address) (op : FeedOp Id Address)

theorem feedStep_follows (valid : Consistent state.1)
    (known : ∀ id m, state.1.states.lookup id = some m → Known m.member.status)
    (feeds : Feeds table state.1 op) (spares : ¬ PrunesLive table state.1 op.1)
    (running : (feedStep table env state op).1.2.panicked = false) (tracks : TracksTable state) :
    TracksTable (feedStep table env state op).1 := by
  have next := applyOp_consistent table state.1 op.1 valid
  intro node
  have before := tracks node
  rw [exists_stands state.1 valid] at before
  have step := applyOp_steps table state.1 op.1 node.id valid (known node.id)
  simp only [feedStep] at running ⊢
  rw [exists_stands _ next, run_follows env op.2 state.2 running, feeds.events,
    mem_follow_filter _ _ _ node Iff.rfl]
  exact transition_follows table state.1 op feeds spares node _ _ step _ before

theorem feedStep_strays (valid : Consistent state.1) (feeds : Feeds table state.1 op)
    (prunes : PrunesLive table state.1 op.1)
    (running : (feedStep table env state op).1.2.panicked = false) (tracks : TracksTable state) :
    ¬ TracksTable (feedStep table env state op).1 := by
  obtain ⟨life, now, msg, m, received, prune, found, live, newer, foreign⟩ := prunes
  have keyed := valid.keyed msg.id m found
  have effect : (applyOp table state.1 op.1).members.states.lookup msg.id = none ∧
      ∃ gone, (applyOp table state.1 op.1).sent = [⟨.reap, [gone]⟩] := by
    have ends := fun owned own => acceptLeave_lookup msg.prune owned
      (putMember state.1 msg.id owned) [] msg.id own (by simp)
    rw [received]
    simp only [applyOp, handleNodeLeaveIntent, found, not_le_of_gt newer, foreign, ↓reduceIte]
    rcases live with alive | leaving
    · obtain ⟨erased, sent⟩ := ends (withStatus (withStatusTime m msg.ltime) .leaving) keyed
      simp only [withStatusTime, alive] at erased sent ⊢
      rw [erased, sent, prune]
      exact ⟨rfl, _, rfl⟩
    · obtain ⟨erased, sent⟩ := ends (withStatusTime m msg.ltime) keyed
      simp only [withStatusTime, leaving] at erased sent ⊢
      rw [erased, sent, prune]
      exact ⟨rfl, _, rfl⟩
  obtain ⟨erased, gone, sent⟩ := effect
  intro tracked
  have next := applyOp_consistent table state.1 op.1 valid
  have was : m.member.node ∈ state.2.aliveNodes :=
    (tracks m.member.node).mpr ⟨msg.id, m, found, live, rfl⟩
  have still : m.member.node ∈ (feedStep table env state op).1.2.aliveNodes := by
    simp only [feedStep] at running ⊢
    rw [run_follows env op.2 state.2 running, feeds.events, sent, List.foldl_cons, List.foldl_nil,
      mem_follow_single]
    exact was
  have stands := (exists_stands _ next m.member.node).mp ((tracked m.member.node).mp still)
  rw [keyed, erased] at stands
  exact stands

theorem run_feed (ops : List (FeedOp Id Address)) :
    run (feedStep table env) state ops =
      (run (tableStep table) state.1 (ops.map Prod.fst),
        run (snapshotStep env) state.2 (ops.flatMap Prod.snd)) := by
  induction ops generalizing state with
  | nil => rfl
  | cons op rest ih =>
    rw [run, ih, List.flatMap_cons, run_append]
    rfl

theorem run_feed_running (front rest : List (FeedOp Id Address))
    (running : (run (feedStep table env) state (front ++ rest)).2.panicked = false) :
    (run (feedStep table env) state front).2.panicked = false := by
  by_contra stopped
  rw [run_append, run_feed] at running
  rw [run_stopped env _ _ (by simpa using stopped)] at running
  exact stopped running

end Sections

/-- The alive nodes are the live members at every point of a run exactly when
the run prunes no live member. -/
theorem alive_nodes_track_iff (table : Environment Id Address) (env : SnapshotEnv Id Address)
    (snapshot : Snapshot Id Address) (fresh : ∀ node, node ∉ snapshot.aliveNodes)
    (ops : List (FeedOp Id Address))
    (fed : ∀ visit ∈ visits (feedStep table env) (Members.empty, snapshot) ops,
      Feeds table visit.1.1 visit.2)
    (running : (run (feedStep table env) (Members.empty, snapshot) ops).2.panicked = false) :
    (∀ front, front <+: ops →
      TracksTable (run (feedStep table env) (Members.empty, snapshot) front)) ↔
    ∀ visit ∈ visits (feedStep table env) (Members.empty, snapshot) ops,
      ¬ PrunesLive table visit.1.1 visit.2.1 := by
  have valid : ∀ front, Consistent
      (run (feedStep table env) (Members.empty, snapshot) front).1 := by
    intro front
    rw [run_feed]
    exact run_consistent table _ Members.empty empty_consistent
  have known : ∀ front id m,
      (run (feedStep table env) (Members.empty, snapshot) front).1.states.lookup id = some m →
      Known m.member.status := by
    intro front id m found
    rw [run_feed] at found
    apply tells_known
    have told := run_tells table (front.map Prod.fst) id
    simpa [statusOf, found] using told
  have visited : ∀ front op rest, ops = front ++ op :: rest →
      (run (feedStep table env) (Members.empty, snapshot) front, op) ∈
        visits (feedStep table env) (Members.empty, snapshot) ops := by
    intro front op rest split
    rw [split, visits_append]
    exact List.mem_append_right _ List.mem_cons_self
  have stays : ∀ front op rest, ops = front ++ op :: rest →
      (feedStep table env (run (feedStep table env) (Members.empty, snapshot) front)
        op).1.2.panicked = false := by
    intro front op rest split
    have here := run_feed_running table env (Members.empty, snapshot) (front ++ [op]) rest
      (by rw [List.append_assoc]; simpa [← split] using running)
    rwa [run_append] at here
  constructor
  · rintro tracks visit member prunes
    obtain ⟨front, rest, split, here⟩ := mem_visits _ _ ops visit member
    have before := tracks front ⟨visit.2 :: rest, split.symm⟩
    have after := tracks (front ++ [visit.2]) ⟨rest, by rw [split]; simp⟩
    rw [run_append] at after
    rw [here] at prunes
    have feeds := fed _ (visited front visit.2 rest split)
    exact feedStep_strays table env _ visit.2 (valid front) feeds prunes
      (stays front visit.2 rest split) before after
  · -- From the end, so that the step to add starts where the others end.
    intro spares front
    induction front using List.reverseRecOn with
    | nil =>
      intro _ node
      simp [run, Members.empty, fresh node]
    | append_singleton front op ih =>
      rintro ⟨rest, split⟩
      have parts : ops = front ++ op :: rest := by rw [← split]; simp
      have before := ih ⟨op :: rest, parts.symm⟩
      have visit := visited front op rest parts
      rw [run_append]
      exact feedStep_follows table env _ op (valid front) (known front) (fed _ visit)
        (spares _ visit) (stays front op rest parts) before

def smallTable : Environment UInt8 UInt8 := ⟨9, .v1, .v1, .v1, .v1, fun _ => .ok ∅, none⟩

def emptyStart : Members UInt8 UInt8 × Snapshot UInt8 UInt8 :=
  (Members.empty, fromReplayResult .initial [] 100 false)

def joinFeed : FeedOp UInt8 UInt8 :=
  (.nodeJoin ⟨⟨1, 7⟩, []⟩, [.memberEvent 1 ⟨.join, [plainMember 1]⟩])

def pruneFeed : FeedOp UInt8 UInt8 :=
  (.leaveIntent .alive 0 ⟨5, 1, true⟩,
    [.memberEvent 6 ⟨.reap, [{ plainMember 1 with status := .leaving }]⟩])

theorem joinFeed_feeds : Feeds smallTable Members.empty joinFeed where
  events := rfl
  joins n m _ found := by cases found
  updates n m other := by cases other

def busyFeeds : List (FeedOp UInt8 UInt8) :=
  [joinFeed, (.nodeJoin ⟨⟨2, 7⟩, []⟩, [.memberEvent 1 ⟨.join, [plainMember 2]⟩]),
    (.nodeJoin ⟨⟨3, 7⟩, []⟩, [.memberEvent 2 ⟨.join, [plainMember 3]⟩]),
    (.leaveIntent .alive 0 ⟨5, 1, false⟩, []),
    (.nodeLeave 0 ⟨⟨1, 7⟩, []⟩,
      [.memberEvent 6 ⟨.leave, [{ plainMember 1 with status := .left }]⟩]),
    (.nodeLeave 0 ⟨⟨2, 7⟩, []⟩,
      [.memberEvent 6 ⟨.failed, [{ plainMember 2 with status := .failed }]⟩])]

theorem busyFeeds_fed : ∀ visit ∈ visits (feedStep smallTable calmEnv) emptyStart busyFeeds,
    Feeds smallTable visit.1.1 visit.2 := by
  simp only [busyFeeds, visits, List.mem_cons, List.not_mem_nil, or_false]
  rintro visit (rfl | rfl | rfl | rfl | rfl | rfl)
  all_goals
    refine ⟨rfl, fun n m joins found => ?_, fun n m updates => by cases updates⟩
    cases joins
    try cases found

theorem alive_nodes_track_joined :
    (run (feedStep smallTable calmEnv) emptyStart busyFeeds).2.aliveNodes.items = [⟨3, 7⟩] ∧
      TracksTable (run (feedStep smallTable calmEnv) emptyStart busyFeeds) := by
  refine ⟨by decide, (alive_nodes_track_iff smallTable calmEnv emptyStart.2
    (fun node => ItemSet.mem_empty node) busyFeeds busyFeeds_fed (by decide)).mpr ?_ busyFeeds
    (List.prefix_refl _)⟩
  simp only [busyFeeds, visits, List.mem_cons, List.not_mem_nil, or_false]
  rintro visit (rfl | rfl | rfl | rfl | rfl | rfl) ⟨_, _, _, _, received, prune, _⟩
  all_goals cases received
  cases prune

theorem pruned_live_stays :
    Feeds smallTable Members.empty joinFeed ∧
    Feeds smallTable (run (feedStep smallTable calmEnv) emptyStart [joinFeed]).1 pruneFeed ∧
    AllOk (run (feedStep smallTable calmEnv) emptyStart [joinFeed, pruneFeed]).2 ∧
    (run (feedStep smallTable calmEnv) emptyStart [joinFeed, pruneFeed]).2.aliveNodes.items =
      [⟨1, 7⟩] ∧
    (run (feedStep smallTable calmEnv) emptyStart [joinFeed, pruneFeed]).1.states.lookup 1 =
      none := by
  refine ⟨joinFeed_feeds, ⟨rfl, ?_, ?_⟩, by decide, by decide, rfl⟩
  · intro n m other
    cases other
  · intro n m other
    cases other

end Serf.SnapshotTable
