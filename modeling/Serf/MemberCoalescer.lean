import Serf.Coalesce
import Serf.IntentOrder

/-!
The member coalescer over whole runs. Its two maps are hash maps, so a flush visits
them in any order: what it sends is fixed up to the order of the events and of the
members in them. Per node, that is per id and address, the last type sent is the last
type that came in. Per id it need not be: the events about two addresses of one id go
out in any order, and an address may keep silent about a type that it has sent before
the other address came up.
-/

namespace Serf.MemberCoalescer

open Library.Collections QueryHandler IntentOrder Coalesce

variable {Id Address : Type} [DecidableEq Id] [DecidableEq Address]

/-- The members of the events, each under its node and with the type of its event. -/
def entries (events : List (MemberEvent Id Address)) :
    List (Node Id Address × CoalesceEvent Id Address) :=
  events.flatMap fun event => event.members.map fun member => (member.node, ⟨event.ty, member⟩)

def latest (events : List (MemberEvent Id Address)) (node : Node Id Address) :
    Option (CoalesceEvent Id Address) :=
  lastOf (entries events) node

def lastType (events : List (MemberEvent Id Address)) (node : Node Id Address) :
    Option MemberEventType :=
  (latest events node).map CoalesceEvent.ty

def coalesceAll (window : List (MemberEvent Id Address)) (state : MemberEventCoalescer Id Address) :
    MemberEventCoalescer Id Address :=
  window.foldl (fun state event => coalesceMember state (.member event)) state

/-- A flush, with the maps visited in any order. -/
def Flushes (state after : MemberEventCoalescer Id Address)
    (sent : List (MemberEvent Id Address)) : Prop :=
  ∃ drained : List (Node Id Address × CoalesceEvent Id Address),
    drained.Perm (pairs state.latestEvents) ∧
    after = ⟨(drained.foldl settle (state.lastEvents, ∅)).1, ∅⟩ ∧
    sent.Perm ((pairs (drained.foldl settle (state.lastEvents, ∅)).2).map fun event =>
      ⟨event.1, event.2⟩)

theorem flushMember_flushes (state : MemberEventCoalescer Id Address) :
    ∃ sent, (flushMember state).2 = sent.map .member ∧
      Flushes state (flushMember state).1 sent := by
  let settled := (pairs state.latestEvents).foldl settle (state.lastEvents, ∅)
  refine ⟨(pairs settled.2).map fun event => ⟨event.1, event.2⟩, ?_, pairs state.latestEvents,
    List.Perm.refl _, rfl, List.Perm.refl _⟩
  simp [flushMember, settled]

/-- Windows of events, each flushed, and all that was sent. -/
inductive Delivers : List (List (MemberEvent Id Address)) → MemberEventCoalescer Id Address →
    List (MemberEvent Id Address) → Prop where
  | start : Delivers [] memberEventCoalescer.new []
  | flush (windows : List (List (MemberEvent Id Address))) (window : List (MemberEvent Id Address))
      (before after : MemberEventCoalescer Id Address) (out sent : List (MemberEvent Id Address))
      (reached : Delivers windows before out)
      (flushed : Flushes (coalesceAll window before) after sent) :
      Delivers (windows ++ [window]) after (out ++ sent)

omit [DecidableEq Id] [DecidableEq Address] in
theorem entries_append (first second : List (MemberEvent Id Address)) :
    entries (first ++ second) = entries first ++ entries second := by
  simp [entries]

omit [DecidableEq Id] [DecidableEq Address] in
theorem mem_entries (events : List (MemberEvent Id Address)) (node : Node Id Address)
    (held : CoalesceEvent Id Address) :
    (node, held) ∈ entries events ↔
      held.member.node = node ∧
        ∃ event ∈ events, event.ty = held.ty ∧ held.member ∈ event.members := by
  simp only [entries, List.mem_flatMap, List.mem_map, Prod.mk.injEq]
  constructor
  · rintro ⟨event, there, member, inside, rfl, rfl⟩
    exact ⟨rfl, event, there, rfl, inside⟩
  · rintro ⟨rfl, event, there, same, inside⟩
    refine ⟨event, there, held.member, inside, rfl, ?_⟩
    rw [same]

theorem lastType_append (first second : List (MemberEvent Id Address)) (node : Node Id Address) :
    lastType (first ++ second) node = (lastType second node).or (lastType first node) := by
  rw [lastType, latest, entries_append, lastOf_append, Option.map_or]
  rfl

theorem coalesceAll_latest (window : List (MemberEvent Id Address))
    (state : MemberEventCoalescer Id Address) :
    (coalesceAll window state).lastEvents = state.lastEvents ∧
    ∀ node, (coalesceAll window state).latestEvents.lookup node =
      (latest window node).or (state.latestEvents.lookup node) := by
  induction window generalizing state with
  | nil => exact ⟨rfl, fun node => by simp [coalesceAll, latest, entries, lastOf]⟩
  | cons event rest ih =>
    obtain ⟨last, held⟩ := ih (coalesceMember state (.member event))
    refine ⟨last, fun node => ?_⟩
    have first : (coalesceMember state (.member event)).latestEvents.lookup node =
        (latest [event] node).or (state.latestEvents.lookup node) := by
      have inserted := lookup_foldl_last
        (event.members.map fun member => (member.node, CoalesceEvent.mk event.ty member))
        state.latestEvents node
      rw [List.foldl_map] at inserted
      simpa [latest, entries, coalesceMember] using inserted
    have together : latest (event :: rest) node =
        (latest rest node).or (latest [event] node) := by
      rw [← List.singleton_append, latest, entries_append, lastOf_append]
      rfl
    rw [together, Option.or_assoc, ← first]
    exact held node

section Settling

variable (last : Table (Node Id Address) MemberEventType)

def GoesOut (entry : Node Id Address × CoalesceEvent Id Address) : Prop :=
  entry.2.ty = .update ∨ last.lookup entry.1 ≠ some entry.2.ty

instance (entry : Node Id Address × CoalesceEvent Id Address) : Decidable (GoesOut last entry) :=
  inferInstanceAs (Decidable (_ ∨ _))

def kept (drained : List (Node Id Address × CoalesceEvent Id Address)) :
    List (Node Id Address × CoalesceEvent Id Address) :=
  drained.filter fun entry => GoesOut last entry

theorem kept_cons (entry : Node Id Address × CoalesceEvent Id Address)
    (rest : List (Node Id Address × CoalesceEvent Id Address)) :
    kept last (entry :: rest) =
      if GoesOut last entry then entry :: kept last rest else kept last rest := by
  simp [kept, List.filter_cons]

variable (drained : List (Node Id Address × CoalesceEvent Id Address))

theorem foldl_settle (distinct : (drained.map Prod.fst).Nodup)
    (groups : Table MemberEventType (List (Member Id Address))) :
    drained.foldl settle (last, groups) =
      (((kept last drained).map fun entry => (entry.1, entry.2.ty)).foldl
          (fun table pair => table.insert pair.1 pair.2) last,
        ((kept last drained).map fun entry => (entry.2.ty, entry.2.member)).foldl
          (fun table item => addTo table item.1 item.2) groups) := by
  induction drained generalizing last groups with
  | nil => rfl
  | cons entry rest ih =>
    rw [List.map_cons, List.nodup_cons] at distinct
    rw [List.foldl_cons, kept_cons]
    by_cases goes : GoesOut last entry
    · have step : settle (last, groups) entry =
          (last.insert entry.1 entry.2.ty, addTo groups entry.2.ty entry.2.member) := by
        refine if_neg ?_
        rintro ⟨same, other⟩
        exact goes.elim other fun differs => differs same
      have others : kept (last.insert entry.1 entry.2.ty) rest = kept last rest := by
        refine List.filter_congr fun other member => ?_
        have apart : other.1 ≠ entry.1 := by
          intro same
          exact distinct.1 (List.mem_map.mpr ⟨other, member, same⟩)
        refine decide_eq_decide.mpr ?_
        rw [GoesOut, GoesOut, lookup_insert_eq, if_neg apart]
      rw [step, ih _ distinct.2, others, if_pos goes]
      rfl
    · have step : settle (last, groups) entry = (last, groups) := by
        refine if_pos ?_
        simpa [GoesOut, and_comm] using goes
      rw [step, ih _ distinct.2, if_neg goes]

def grouped (drained : List (Node Id Address × CoalesceEvent Id Address)) (ty : MemberEventType) :
    List (Member Id Address) :=
  ((kept last drained).filter fun entry => entry.2.ty = ty).map fun entry => entry.2.member

theorem groups_lookup (distinct : (drained.map Prod.fst).Nodup) (ty : MemberEventType) :
    (drained.foldl settle (last, ∅)).2.lookup ty =
      if grouped last drained ty = [] then none else some (grouped last drained ty) := by
  have items : (((kept last drained).map fun entry => (entry.2.ty, entry.2.member)).filter
      fun item => item.1 = ty).map Prod.snd = grouped last drained ty := by
    rw [List.filter_map, List.map_map]
    rfl
  rw [foldl_settle last drained distinct, lookup_foldl_addTo, items, AList.lookup_empty,
    Option.getD_none, List.nil_append]
  by_cases none : grouped last drained ty = []
  · rw [if_pos none, if_neg]
    intro member
    rw [← items, List.map_eq_nil_iff, List.filter_eq_nil_iff] at none
    obtain ⟨item, there, same⟩ := List.mem_map.mp member
    exact none item there (by simpa using same)
  · rw [if_neg none, if_pos]
    obtain ⟨member, rest, split⟩ := List.exists_cons_of_ne_nil none
    have there : member ∈ grouped last drained ty := by simp [split]
    obtain ⟨item, inside, _⟩ := List.mem_map.mp (items ▸ there)
    obtain ⟨inside, same⟩ := List.mem_filter.mp inside
    exact List.mem_map.mpr ⟨item, inside, by simpa using same⟩

theorem mem_grouped (ty : MemberEventType) (member : Member Id Address) :
    member ∈ grouped last drained ty ↔
      ∃ node, (node, ⟨ty, member⟩) ∈ drained ∧ GoesOut last (node, ⟨ty, member⟩) := by
  simp only [grouped, kept, List.mem_map, List.mem_filter, decide_eq_true_eq]
  constructor
  · rintro ⟨⟨node, held⟩, ⟨⟨inside, goes⟩, rfl⟩, rfl⟩
    exact ⟨node, inside, goes⟩
  · rintro ⟨node, inside, goes⟩
    exact ⟨(node, ⟨ty, member⟩), ⟨⟨inside, goes⟩, rfl⟩, rfl⟩

end Settling

section Flushing

variable {state after : MemberEventCoalescer Id Address} {sent : List (MemberEvent Id Address)}

def Keyed (state : MemberEventCoalescer Id Address) : Prop :=
  ∀ node held, state.latestEvents.lookup node = some held → held.member.node = node

variable {drained : List (Node Id Address × CoalesceEvent Id Address)}

omit [DecidableEq Id] [DecidableEq Address] in
theorem drained_distinct (order : drained.Perm (pairs state.latestEvents)) :
    (drained.map Prod.fst).Nodup := by
  rw [(order.map Prod.fst).nodup_iff]
  exact pairs_distinct state.latestEvents

theorem mem_drained (order : drained.Perm (pairs state.latestEvents)) (node : Node Id Address)
    (held : CoalesceEvent Id Address) :
    (node, held) ∈ drained ↔ state.latestEvents.lookup node = some held := by
  rw [order.mem_iff, mem_pairs]

structure Flushed (state after : MemberEventCoalescer Id Address)
    (sent : List (MemberEvent Id Address)) : Prop where
  empty : after.latestEvents = ∅
  last : ∀ node, after.lastEvents.lookup node =
    ((state.latestEvents.lookup node).map CoalesceEvent.ty).or (state.lastEvents.lookup node)
  types : (sent.map MemberEvent.ty).Nodup
  nodes : ((sent.flatMap MemberEvent.members).map Member.node).Nodup
  sends : ∀ ty member, (∃ event ∈ sent, event.ty = ty ∧ member ∈ event.members) ↔
    state.latestEvents.lookup member.node = some ⟨ty, member⟩ ∧
      (ty = .update ∨ state.lastEvents.lookup member.node ≠ some ty)

theorem lastEvents_lookup (last : Table (Node Id Address) MemberEventType)
    (drained : List (Node Id Address × CoalesceEvent Id Address))
    (distinct : (drained.map Prod.fst).Nodup) (node : Node Id Address) :
    (drained.foldl settle (last, ∅)).1.lookup node =
      ((lastOf drained node).map CoalesceEvent.ty).or (last.lookup node) := by
  have sub : ((kept last drained).map Prod.fst).Sublist (drained.map Prod.fst) :=
    List.filter_sublist.map Prod.fst
  have keys : ((kept last drained).map fun entry => (entry.1, entry.2.ty)).map Prod.fst =
      (kept last drained).map Prod.fst := by
    rw [List.map_map]
    rfl
  rw [foldl_settle last drained distinct, lookup_foldl_last]
  cases held : lastOf drained node with
  | none =>
    have absent := (lastOf_eq_none drained node).mp held
    rw [(lastOf_eq_none _ node).mpr]
    · rfl
    · rw [keys]
      exact fun member => absent (sub.subset member)
  | some held' =>
    have there := (lastOf_distinct drained distinct node held').mp held
    by_cases goes : GoesOut last (node, held')
    · have found : lastOf ((kept last drained).map fun entry => (entry.1, entry.2.ty)) node =
          some held'.ty := by
        refine (lastOf_distinct _ (by rw [keys]; exact distinct.sublist sub) _ _).mpr ?_
        refine List.mem_map.mpr ⟨(node, held'), List.mem_filter.mpr ⟨there, ?_⟩, rfl⟩
        simpa using goes
      rw [found]
      rfl
    · have none : lastOf ((kept last drained).map fun entry => (entry.1, entry.2.ty)) node =
          none := by
        rw [lastOf_eq_none, keys]
        intro member
        obtain ⟨other, inside, same⟩ := List.mem_map.mp member
        obtain ⟨inside, out⟩ := List.mem_filter.mp inside
        have equal := List.inj_on_of_nodup_map distinct inside there same
        rw [equal] at out
        exact goes (by simpa using out)
      have before : last.lookup node = some held'.ty := by
        by_contra other
        exact goes (Or.inr other)
      rw [none, before]
      rfl

theorem grouped_nodes (keyed : Keyed state) (order : drained.Perm (pairs state.latestEvents))
    (ty : MemberEventType) : ((grouped state.lastEvents drained ty).map Member.node).Nodup := by
  have nodes : (grouped state.lastEvents drained ty).map Member.node =
      ((kept state.lastEvents drained).filter fun entry => entry.2.ty = ty).map Prod.fst := by
    rw [grouped, List.map_map]
    refine List.map_congr_left fun entry member => ?_
    have inside := List.mem_of_mem_filter (List.mem_of_mem_filter member)
    exact keyed entry.1 entry.2 ((mem_drained order entry.1 entry.2).mp inside)
  rw [nodes]
  refine (drained_distinct order).sublist (List.Sublist.map Prod.fst ?_)
  exact List.filter_sublist.trans List.filter_sublist

theorem grouped_iff (keyed : Keyed state) (order : drained.Perm (pairs state.latestEvents))
    (ty : MemberEventType) (member : Member Id Address) :
    member ∈ grouped state.lastEvents drained ty ↔
      state.latestEvents.lookup member.node = some ⟨ty, member⟩ ∧
        (ty = .update ∨ state.lastEvents.lookup member.node ≠ some ty) := by
  rw [mem_grouped]
  constructor
  · rintro ⟨node, inside, goes⟩
    have found := (mem_drained order node _).mp inside
    have same : member.node = node := keyed node _ found
    rw [same]
    exact ⟨found, goes⟩
  · rintro ⟨found, goes⟩
    exact ⟨member.node, (mem_drained order _ _).mpr found, goes⟩

theorem mem_groups (last : Table (Node Id Address) MemberEventType)
    (drained : List (Node Id Address × CoalesceEvent Id Address))
    (distinct : (drained.map Prod.fst).Nodup) (ty : MemberEventType)
    (members : List (Member Id Address)) :
    (ty, members) ∈ pairs (drained.foldl settle (last, ∅)).2 ↔
      grouped last drained ty ≠ [] ∧ members = grouped last drained ty := by
  rw [mem_pairs, groups_lookup last drained distinct ty]
  by_cases none : grouped last drained ty = []
  · simp [none]
  · simp [none, eq_comm]

theorem groups_nodes (keyed : Keyed state) (order : drained.Perm (pairs state.latestEvents)) :
    ((pairs (drained.foldl settle (state.lastEvents, ∅)).2).flatMap fun group =>
      group.2.map Member.node).Nodup := by
  have groups := mem_groups state.lastEvents drained (drained_distinct order)
  rw [List.nodup_flatMap]
  constructor
  · rintro ⟨ty, members⟩ member
    rw [((groups ty members).mp member).2]
    exact grouped_nodes keyed order ty
  · refine (List.pairwise_map.mp (pairs_distinct _)).imp_of_mem ?_
    rintro ⟨ty, members⟩ ⟨other, others⟩ here there differ node first second
    obtain ⟨member, inside, rfl⟩ := List.mem_map.mp first
    obtain ⟨twin, beside, same⟩ := List.mem_map.mp second
    dsimp only at inside beside
    rw [((groups ty members).mp here).2, grouped_iff keyed order] at inside
    rw [((groups other others).mp there).2, grouped_iff keyed order, same] at beside
    have equal := inside.1.symm.trans beside.1
    simp only [Option.some.injEq, CoalesceEvent.mk.injEq] at equal
    exact differ equal.1

theorem flushes_flushed (keyed : Keyed state) (flushes : Flushes state after sent) :
    Flushed state after sent := by
  obtain ⟨drained, order, rfl, sends⟩ := flushes
  have distinct := drained_distinct order
  have groups := mem_groups state.lastEvents drained distinct
  constructor
  · rfl
  · intro node
    have same : lastOf drained node = state.latestEvents.lookup node := by
      apply Option.ext
      intro held
      rw [lastOf_distinct drained distinct, mem_drained order]
    rw [lastEvents_lookup state.lastEvents drained distinct node, same]
  · rw [(sends.map MemberEvent.ty).nodup_iff, List.map_map]
    exact pairs_distinct _
  · rw [((sends.flatMap_right MemberEvent.members).map Member.node).nodup_iff, List.flatMap_map,
      List.map_flatMap]
    exact groups_nodes keyed order
  · intro ty member
    rw [← grouped_iff keyed order]
    constructor
    · rintro ⟨event, inside, rfl, there⟩
      obtain ⟨⟨ty, members⟩, listed, rfl⟩ := List.mem_map.mp (sends.mem_iff.mp inside)
      exact ((groups ty members).mp listed).2 ▸ there
    · intro there
      have listed := (groups ty _).mpr ⟨List.ne_nil_of_mem there, rfl⟩
      refine ⟨⟨ty, grouped state.lastEvents drained ty⟩, ?_, rfl, there⟩
      exact sends.mem_iff.mpr (List.mem_map.mpr ⟨_, listed, rfl⟩)

end Flushing

section Runs

variable {windows : List (List (MemberEvent Id Address))} {window : List (MemberEvent Id Address)}
  {before after : MemberEventCoalescer Id Address} {out sent : List (MemberEvent Id Address)}

/-- The coalescer between two flushes: nothing is waiting, and for every node it has
noted the last type that came in, which is the last that went out. -/
structure Settled (windows : List (List (MemberEvent Id Address)))
    (state : MemberEventCoalescer Id Address) (out : List (MemberEvent Id Address)) : Prop where
  empty : state.latestEvents = ∅
  received : ∀ node, state.lastEvents.lookup node = lastType windows.flatten node
  sent : ∀ node, state.lastEvents.lookup node = lastType out node

theorem settled_lookup (settled : Settled windows before out) (node : Node Id Address) :
    (coalesceAll window before).latestEvents.lookup node = latest window node := by
  rw [(coalesceAll_latest window before).2 node, settled.empty, AList.lookup_empty,
    Option.or_none]

theorem settled_keyed (settled : Settled windows before out) :
    Keyed (coalesceAll window before) := by
  intro node held found
  rw [settled_lookup settled] at found
  exact ((mem_entries window node held).mp (lastOf_mem _ _ _ found)).1

theorem settled_flushed (settled : Settled windows before out)
    (flushes : Flushes (coalesceAll window before) after sent) :
    Flushed (coalesceAll window before) after sent :=
  flushes_flushed (settled_keyed settled) flushes

theorem flushed_lastType (settled : Settled windows before out)
    (flushed : Flushed (coalesceAll window before) after sent) (node : Node Id Address)
    (ty : MemberEventType) :
    lastType sent node = some ty ↔
      lastType window node = some ty ∧ (ty = .update ∨ lastType out node ≠ some ty) := by
  have distinct : ((entries sent).map Prod.fst).Nodup := by
    have keys : (entries sent).map Prod.fst =
        (sent.flatMap MemberEvent.members).map Member.node := by
      simp [entries, List.map_flatMap, Function.comp_def]
    rw [keys]
    exact flushed.nodes
  have last : (coalesceAll window before).lastEvents = before.lastEvents :=
    (coalesceAll_latest window before).1
  simp only [lastType, Option.map_eq_some_iff, latest]
  constructor
  · rintro ⟨held, found, rfl⟩
    have listed := (lastOf_distinct _ distinct node held).mp found
    obtain ⟨rfl, event, inside, same, there⟩ := (mem_entries sent node held).mp listed
    have goes := (flushed.sends held.ty held.member).mp ⟨event, inside, same, there⟩
    rw [settled_lookup settled, last, settled.sent] at goes
    exact ⟨⟨held, goes.1, rfl⟩, goes.2⟩
  · rintro ⟨⟨held, found, rfl⟩, goes⟩
    have keyed := ((mem_entries window node held).mp (lastOf_mem _ _ _ found)).1
    subst keyed
    have gone : (coalesceAll window before).latestEvents.lookup held.member.node =
        some ⟨held.ty, held.member⟩ ∧ (held.ty = .update ∨
          (coalesceAll window before).lastEvents.lookup held.member.node ≠ some held.ty) := by
      rw [settled_lookup settled, last, settled.sent]
      exact ⟨found, goes⟩
    obtain ⟨event, inside, same, there⟩ := (flushed.sends held.ty held.member).mpr gone
    refine ⟨held, (lastOf_distinct _ distinct _ held).mpr ?_, rfl⟩
    exact (mem_entries sent _ held).mpr ⟨rfl, event, inside, same, there⟩

theorem flushed_sent (settled : Settled windows before out)
    (flushed : Flushed (coalesceAll window before) after sent) (node : Node Id Address) :
    lastType (out ++ sent) node = (lastType window node).or (lastType out node) := by
  rw [lastType_append]
  cases came : lastType window node with
  | none =>
    cases went : lastType sent node with
    | none => rfl
    | some ty =>
      have both := (flushed_lastType settled flushed node ty).mp went
      rw [came] at both
      cases both.1
  | some ty =>
    by_cases goes : ty = .update ∨ lastType out node ≠ some ty
    · rw [(flushed_lastType settled flushed node ty).mpr ⟨came, goes⟩, Option.some_or]
    · have held : lastType out node = some ty := by
        by_contra other
        exact goes (Or.inr other)
      cases went : lastType sent node with
      | none => rw [held, Option.none_or, Option.some_or]
      | some other =>
        have both := (flushed_lastType settled flushed node other).mp went
        rw [came] at both
        rw [both.1, Option.some_or]

theorem flushed_settled (settled : Settled windows before out)
    (flushes : Flushes (coalesceAll window before) after sent) :
    Settled (windows ++ [window]) after (out ++ sent) := by
  have flushed := settled_flushed settled flushes
  have noted : ∀ node, after.lastEvents.lookup node =
      (lastType window node).or (before.lastEvents.lookup node) := by
    intro node
    rw [flushed.last node, settled_lookup settled, (coalesceAll_latest window before).1]
    rfl
  refine ⟨flushed.empty, fun node => ?_, fun node => ?_⟩
  · rw [noted, settled.received, List.flatten_append, lastType_append]
    simp
  · rw [noted, settled.sent, flushed_sent settled flushed]

theorem delivers_settled (delivers : Delivers windows before out) :
    Settled windows before out := by
  induction delivers with
  | start =>
    refine ⟨rfl, fun node => ?_, fun node => ?_⟩
    · simp [memberEventCoalescer, lastType, latest, entries, lastOf]
    · simp [memberEventCoalescer, lastType, latest, entries, lastOf]
  | flush windows window before after out sent _ flushed ih => exact flushed_settled ih flushed

/-- After any windows of events and flushes, a flush sends one event per type at most
and names each node once at most; it sends a node exactly if events about it came since
the flush before, with the type and data of the last of them, unless that type is no
update and the last that was sent about the node. So what was last sent about a node is
always what last came in. -/
theorem member_flush_coalesces (reached : Delivers windows before out)
    (flushes : Flushes (coalesceAll window before) after sent) :
    (sent.map MemberEvent.ty).Nodup ∧
    ((sent.flatMap MemberEvent.members).map Member.node).Nodup ∧
    (∀ ty member, (∃ event ∈ sent, event.ty = ty ∧ member ∈ event.members) ↔
      latest window member.node = some ⟨ty, member⟩ ∧
        (ty = .update ∨ lastType out member.node ≠ some ty)) ∧
    ∀ node, lastType (out ++ sent) node = lastType (windows.flatten ++ window) node := by
  have settled := delivers_settled reached
  have flushed := settled_flushed settled flushes
  refine ⟨flushed.types, flushed.nodes, ?_, ?_⟩
  · intro ty member
    rw [flushed.sends ty member, settled_lookup settled, (coalesceAll_latest window before).1,
      settled.sent]
  · intro node
    rw [flushed_sent settled flushed, lastType_append, ← settled.sent, settled.received]

end Runs

section Ids

variable {windows : List (List (MemberEvent Id Address))} {window : List (MemberEvent Id Address)}
  {before after : MemberEventCoalescer Id Address} {out sent : List (MemberEvent Id Address)}

/-- Out of this window, behind those events, something of this type is sent about the id. -/
def Tells (past window : List (MemberEvent Id Address)) (id : Id) (ty : MemberEventType) : Prop :=
  ∃ node, node.id = id ∧ lastType window node = some ty ∧
    (ty = .update ∨ lastType past node ≠ some ty)

/-- The type is among those told about the id by the last window that tells anything. -/
inductive MayBeLast (id : Id) : List (List (MemberEvent Id Address)) → MemberEventType → Prop where
  | told (windows : List (List (MemberEvent Id Address))) (window : List (MemberEvent Id Address))
      (ty : MemberEventType) (tells : Tells windows.flatten window id ty) :
      MayBeLast id (windows ++ [window]) ty
  | kept (windows : List (List (MemberEvent Id Address))) (window : List (MemberEvent Id Address))
      (ty : MemberEventType) (earlier : MayBeLast id windows ty)
      (silent : ∀ other, ¬ Tells windows.flatten window id other) :
      MayBeLast id (windows ++ [window]) ty

theorem flushed_tells (settled : Settled windows before out)
    (flushed : Flushed (coalesceAll window before) after sent) (id : Id) (ty : MemberEventType) :
    (∃ event ∈ sent, event.ty = ty ∧ ∃ member ∈ event.members, member.node.id = id) ↔
      Tells windows.flatten window id ty := by
  have went : ∀ node, lastType sent node = some ty ↔
      lastType window node = some ty ∧
        (ty = .update ∨ lastType windows.flatten node ≠ some ty) := by
    intro node
    rw [flushed_lastType settled flushed, ← settled.sent, settled.received]
  constructor
  · rintro ⟨event, inside, rfl, member, there, rfl⟩
    have goes := (flushed.sends event.ty member).mp ⟨event, inside, rfl, there⟩
    rw [settled_lookup settled, (coalesceAll_latest window before).1, settled.received] at goes
    exact ⟨member.node, rfl, by rw [lastType, goes.1]; rfl, goes.2⟩
  · rintro ⟨node, rfl, tells⟩
    obtain ⟨held, found, rfl⟩ := Option.map_eq_some_iff.mp ((went node).mpr tells)
    obtain ⟨rfl, event, inside, same, there⟩ :=
      (mem_entries sent node held).mp (lastOf_mem _ _ _ found)
    exact ⟨event, inside, same, held.member, there, rfl⟩

theorem delivered_last (delivers : Delivers windows before out) (id : Id) (ty : MemberEventType)
    (last : lastAbout id out = some ty) : MayBeLast id windows ty := by
  induction delivers with
  | start => cases last
  | flush windows window before after out sent reached flushes ih =>
    have settled := delivers_settled reached
    have flushed := settled_flushed settled flushes
    rw [lastAbout_or, Option.or_eq_some_iff] at last
    rcases last with now | ⟨silent, earlier⟩
    · exact .told windows window ty
        ((flushed_tells settled flushed id ty).mp (lastAbout_mem id sent ty now))
    · refine .kept windows window ty (ih earlier) fun other tells => ?_
      obtain ⟨event, inside, _, member, there, same⟩ :=
        (flushed_tells settled flushed id other).mpr tells
      exact (lastAbout_none id sent).mp silent event inside member there same

theorem flushes_ending {state after : MemberEventCoalescer Id Address}
    (flushes : Flushes state after sent) (event : MemberEvent Id Address) (inside : event ∈ sent) :
    ∃ rest, Flushes state after (rest ++ [event]) := by
  obtain ⟨drained, order, same, sends⟩ := flushes
  obtain ⟨front, tail, rfl⟩ := List.append_of_mem inside
  refine ⟨front ++ tail, drained, order, same, List.Perm.trans ?_ sends⟩
  rw [List.append_assoc]
  exact (List.perm_append_singleton event tail).append_left front

theorem delivers_some (windows : List (List (MemberEvent Id Address))) :
    ∃ state out, Delivers windows state out := by
  induction windows using List.reverseRecOn with
  | nil => exact ⟨_, _, .start⟩
  | append_singleton windows window ih =>
    obtain ⟨state, out, reached⟩ := ih
    obtain ⟨sent, _, flushes⟩ := flushMember_flushes (coalesceAll window state)
    exact ⟨_, _, .flush windows window state _ out sent reached flushes⟩

theorem last_delivered (id : Id) (ty : MemberEventType) (may : MayBeLast id windows ty) :
    ∃ state out, Delivers windows state out ∧ lastAbout id out = some ty := by
  induction may with
  | told windows window ty tells =>
    obtain ⟨state, out, reached⟩ := delivers_some windows
    obtain ⟨sent, _, flushes⟩ := flushMember_flushes (coalesceAll window state)
    have settled := delivers_settled reached
    have flushed := settled_flushed settled flushes
    obtain ⟨event, inside, same, member, there, concerns⟩ :=
      (flushed_tells settled flushed id ty).mpr tells
    obtain ⟨rest, ending⟩ := flushes_ending flushes event inside
    refine ⟨_, _, .flush windows window state _ out (rest ++ [event]) reached ending, ?_⟩
    rw [← List.append_assoc, lastAbout_append id _ event, same]
    simpa [about] using ⟨member, there, concerns⟩
  | kept windows window ty _ silent ih =>
    obtain ⟨state, out, reached, last⟩ := ih
    obtain ⟨sent, _, flushes⟩ := flushMember_flushes (coalesceAll window state)
    have settled := delivers_settled reached
    have flushed := settled_flushed settled flushes
    refine ⟨_, _, .flush windows window state _ out sent reached flushes, ?_⟩
    have quiet : lastAbout id sent = none := by
      rw [lastAbout_none]
      intro event inside member there same
      exact silent event.ty ((flushed_tells settled flushed id event.ty).mp
        ⟨event, inside, rfl, member, there, same⟩)
    rw [lastAbout_or, quiet, last]
    rfl

theorem delivered_some (delivers : Delivers windows before out) (id : Id)
    (silent : lastAbout id out = none) : lastAbout id windows.flatten = none := by
  have settled := delivers_settled delivers
  rw [lastAbout_none] at silent ⊢
  intro event inside member there same
  have came : lastType windows.flatten member.node ≠ none := by
    rw [lastType, Ne, Option.map_eq_none_iff, latest, lastOf_eq_none, not_not]
    exact List.mem_map.mpr ⟨_, (mem_entries _ _ ⟨event.ty, member⟩).mpr
      ⟨rfl, event, inside, rfl, there⟩, rfl⟩
  rw [← settled.received, settled.sent, lastType, Ne, Option.map_eq_none_iff] at came
  obtain ⟨held, found⟩ := Option.ne_none_iff_exists'.mp came
  obtain ⟨keyed, told, sends, _, here⟩ := (mem_entries out _ held).mp (lastOf_mem _ _ _ found)
  exact silent told sends held.member here (keyed ▸ same)

/-- Whatever the order of the maps, the last word that goes out about an id is the last
that came in exactly if every type told about the id by the last window that tells
anything, under whichever address, is the type of the last event that came in. -/
theorem last_word_kept_iff (windows : List (List (MemberEvent Id Address))) (id : Id) :
    (∀ state out, Delivers windows state out → lastAbout id out = lastAbout id windows.flatten) ↔
      ∀ ty, MayBeLast id windows ty → lastAbout id windows.flatten = some ty := by
  constructor
  · intro all ty may
    obtain ⟨state, out, delivers, last⟩ := last_delivered id ty may
    rw [← all state out delivers, last]
  · intro all state out delivers
    cases last : lastAbout id out with
    | none => exact (delivered_some delivers id last).symm
    | some ty => exact (all ty (delivered_last delivers id ty last)).symm

end Ids

/-- The member `b` under an address. -/
def memberAt (address : Nat) (status : MemberStatus) : Member String Nat :=
  ⟨⟨"b", address⟩, ∅, status, .v1, .v1, .v1, .v1⟩

theorem member_flush_coalesces_failed :
    let first := [⟨.join, [memberAt 2 .alive]⟩, ⟨.failed, [memberAt 2 .failed]⟩]
    let again := [⟨.failed, [memberAt 2 .failed]⟩]
    let told := (flushMember (coalesceAll first memberEventCoalescer.new)).1
    Flushes (coalesceAll first memberEventCoalescer.new) told again ∧
    Flushes (coalesceAll again told) (flushMember (coalesceAll again told)).1 [] ∧
    (∀ ty member, ¬ (latest again member.node = some ⟨ty, member⟩ ∧
      (ty = .update ∨ lastType ([] ++ again) member.node ≠ some ty))) ∧
    ∀ node, lastType ([] ++ again ++ []) node = lastType ([[], first].flatten ++ again) node := by
  intro first again told
  have flushes : Flushes (coalesceAll first memberEventCoalescer.new) told again :=
    ⟨_, List.Perm.refl _, rfl, List.Perm.refl _⟩
  have silent : Flushes (coalesceAll again told) (flushMember (coalesceAll again told)).1 [] :=
    ⟨_, List.Perm.refl _, rfl, List.Perm.refl _⟩
  obtain ⟨_, _, sends, last⟩ := member_flush_coalesces
    (.flush [] first _ told [] again .start flushes) silent
  refine ⟨flushes, silent, fun ty member held => ?_, last⟩
  obtain ⟨event, none, _⟩ := (sends ty member).mpr held
  cases none

open MemberTable in
/-- The member `b` joins, fails and comes back under another address, and the failure
and the second join fall into one window: the last word may be the failure. It is the
failure, too, when the first address comes back, whose join has been told before. -/
theorem last_word_lost :
    let joined := [⟨.join, [memberAt 2 .alive]⟩]
    let moved := [⟨.failed, [memberAt 2 .failed]⟩, ⟨.join, [memberAt 3 .alive]⟩]
    let elsewhere := [[⟨.join, [memberAt 3 .alive]⟩], [⟨.failed, [memberAt 3 .failed]⟩]]
    emitted plainNode Members.empty [.nodeJoin ⟨⟨"b", 2⟩, []⟩, .nodeLeave 0 ⟨⟨"b", 2⟩, []⟩,
      .nodeJoin ⟨⟨"b", 3⟩, []⟩] = [joined, moved].flatten ∧
    lastAbout "b" [joined, moved].flatten = some .join ∧
    (∃ state out, Delivers [joined, moved] state out ∧ lastAbout "b" out = some .failed) ∧
    lastAbout "b" (joined :: elsewhere ++ [joined]).flatten = some .join ∧
    ∃ state out, Delivers (joined :: elsewhere ++ [joined]) state out ∧
      lastAbout "b" out = some .failed := by
  intro joined moved elsewhere
  refine ⟨rfl, by decide, last_delivered "b" .failed (.told [joined] moved .failed ?_), by decide,
    last_delivered "b" .failed (.kept (joined :: elsewhere) joined .failed ?_ ?_)⟩
  · exact ⟨⟨"b", 2⟩, rfl, by decide, Or.inr (by decide)⟩
  · refine .told [joined, [⟨.join, [memberAt 3 .alive]⟩]] _ .failed ?_
    exact ⟨⟨"b", 3⟩, rfl, by decide, Or.inr (by decide)⟩
  · rintro other ⟨node, _, found, goes⟩
    obtain ⟨held, there, rfl⟩ := Option.map_eq_some_iff.mp found
    have listed := lastOf_mem _ _ _ there
    simp only [joined, entries, List.flatMap_cons, List.flatMap_nil, List.map_cons, List.map_nil,
      List.append_nil, List.mem_singleton, Prod.mk.injEq] at listed
    obtain ⟨rfl, rfl⟩ := listed
    revert goes
    decide

end Serf.MemberCoalescer
