import Serf.QueryDedup
import Serf.Wire.Message
import Serf.Wire.QueryRef

/-!
`should_process_query` is written twice: over the filters of a query that was
issued here, and over the bytes of one that arrived. On filters that were encoded
both come to the same verdict, which is that every filter admits the node. On
other bytes the second may fail, and where it fails depends on the node; a query
on which it fails is not forwarded.
-/

namespace Serf.Filtering

open Library.Collections Library.Encoding Library.Slots QueryHandler QueryDedup Wire LamportClock

variable {Id Address : Type} [DecidableEq Id] (env : QueryEnvironment Id Address)

section Verdict

/-- What a filter asks of the node. -/
def Admits : QueryHandler.Filter Id → Prop
  | .id nodes => env.advertiseNode.id ∈ nodes
  | .tag filter => ∃ value, env.tags.lookup filter.tag = some value ∧
      ∀ expr, filter.expr = some expr → expr.isMatch value = true

/-- The expression is the one that its text compiles to. -/
def Compiled : QueryHandler.Filter Id → Prop
  | .id _ => True
  | .tag filter => ∀ expr, filter.expr = some expr → env.regexNew expr.pattern = some expr

omit [DecidableEq Id] in
theorem tags_known (tag value : String) (found : env.tags.lookup tag = some value) :
    env.tags.keys.isEmpty = false := by
  have member := (mem_keys_iff env.tags tag).mpr ⟨value, found⟩
  cases keys : env.tags.keys with
  | nil => simp [keys] at member
  | cons first rest => rfl

theorem filterPasses_iff (filter : QueryHandler.Filter Id) :
    filterPasses env filter = true ↔ Admits env filter := by
  cases filter with
  | id nodes => simp [filterPasses, Admits]
  | tag filter =>
    cases found : env.tags.lookup filter.tag with
    | none => simp [filterPasses, Admits, found]
    | some value =>
      have known := tags_known env filter.tag value found
      cases given : filter.expr with
      | none => simp [filterPasses, Admits, found, known, given]
      | some expr => simp [filterPasses, Admits, found, known, given]

theorem targeted_ok (localId : Id) (ids : List Id) :
    targeted localId (ids.map .ok) = .ok (ids.any fun id => id = localId) := by
  induction ids with
  | nil => rfl
  | cons id rest ih =>
    rw [List.map_cons, targeted, ih]
    by_cases same : id = localId
    · simp [same]
    · simp [same]

variable (empty : ∀ expr, env.regexNew "" = some expr → ∀ text, expr.isMatch text = true)

include empty

theorem borrow_passes (filter : QueryHandler.Filter Id) (compiled : Compiled env filter) :
    filterRefPasses env (borrow filter) = .ok (filterPasses env filter) := by
  cases filter with
  | id nodes => exact targeted_ok _ nodes
  | tag filter =>
    cases found : env.tags.lookup filter.tag with
    | none => simp [filterRefPasses, tagRefPasses, borrow, filterPasses, found]
    | some value =>
      have known := tags_known env filter.tag value found
      cases given : filter.expr with
      | none =>
        simp [filterRefPasses, tagRefPasses, borrow, filterPasses, found, known, given]
      | some expr =>
        have same := compiled expr given
        by_cases blank : expr.pattern = ""
        · rw [blank] at same
          simp [filterRefPasses, tagRefPasses, borrow, filterPasses, found, known, given,
            Option.filter, blank, empty expr same value]
        · simp [filterRefPasses, tagRefPasses, borrow, filterPasses, found, known, given,
            Option.filter, blank, same]

theorem borrowed_pass (filters : List (QueryHandler.Filter Id))
    (compiled : ∀ filter ∈ filters, Compiled env filter) :
    filterRefsPass env (filters.map fun filter => .ok (borrow filter)) =
      .ok (filters.all (filterPasses env)) := by
  induction filters with
  | nil => rfl
  | cons filter rest ih =>
    have first := borrow_passes env empty filter (compiled filter List.mem_cons_self)
    have later := ih fun other inside => compiled other (List.mem_cons_of_mem filter inside)
    rw [List.map_cons, filterRefsPass, first, later, List.all_cons]
    cases filterPasses env filter with
    | false => rfl
    | true => rfl

/-- The filters of a query are judged alike by the node that issued it and by one that
reads the encoded query, if both have the same id and tags. -/
theorem filtering_agrees {proto : Proto Id Address} (laws : QueryLaws proto)
    (message : QueryMessage Id Address) (proper : IsDuration message.timeout)
    (compiled : ∀ filter ∈ message.filters, Compiled env filter) (bytes : Bytes)
    (encoded : encodeMessageToBytes proto ((Message.query message).encodable proto) = .ok bytes) :
    ∃ rest ref verdict, bytes = merge .lengthDelimited 5 :: rest ∧
      readQueryRef proto rest = .ok (rest.length, ref) ∧
      shouldProcessQuery env (.left ref) = .ok verdict ∧
      shouldProcessQuery env (.right message) = .ok verdict ∧
      (verdict = true ↔ ∀ filter ∈ message.filters, Admits env filter) := by
  have small : queryLen proto message ≤ maxLen := encodeMessageToBytes_small _ bytes encoded
  have fits : (Writer.ofCodec (query proto) message).Fits (queryLen proto message) 0 :=
    query_encodes laws.encoders message proper small
  obtain ⟨front, body, rfl, short, made, ⟨room, written⟩⟩ :=
    encodeMessageToBytes_parts laws.lengths _ fits bytes encoded
  have decoded := queryRef_decodes laws message proper small room body ⟨room, written⟩
  have read := decodeFramed_frame laws.u32 rfl front body [] short made _ _ decoded
  rw [List.append_nil, ← List.length_append] at read
  refine ⟨front ++ body, borrowQuery message, message.filters.all (filterPasses env), rfl, read,
    borrowed_pass env empty message.filters compiled, rfl, ?_⟩
  rw [List.all_eq_true]
  exact forall₂_congr fun filter _ => filterPasses_iff env filter

omit empty

def webNode : QueryEnvironment UInt8 UInt8 where
  advertiseNode := { id := 3, address := 0 }
  tags := collect [("role", "web")]
  regexNew pattern := (reference.regexNew pattern).toOption
  encodeResponse _ := .ok []
  querySizeLimit := 1024
  encodedMessageLen _ := 16
  encodeMessageToBytes _ := .ok []

def anyRole : QueryMessage UInt8 UInt8 :=
  { deployQuery with
    filters := [.id [4, 3], .tag { tag := "role", expr := some ⟨"", fun _ => true⟩ }] }

theorem anyRole_compiled (filter : QueryHandler.Filter UInt8) (inside : filter ∈ anyRole.filters) :
    Compiled webNode filter := by
  simp only [anyRole, List.mem_cons, List.not_mem_nil, or_false] at inside
  rcases inside with rfl | rfl
  · trivial
  · rintro expr ⟨⟩
    rfl

theorem filtering_agrees_blank :
    ∃ bytes,
      encodeMessageToBytes reference ((Message.query anyRole).encodable reference) = .ok bytes ∧
      ∃ rest ref verdict, bytes = merge .lengthDelimited 5 :: rest ∧
        readQueryRef reference rest = .ok (rest.length, ref) ∧
        shouldProcessQuery webNode (.left ref) = .ok verdict ∧
        shouldProcessQuery webNode (.right anyRole) = .ok verdict ∧
        (verdict = true ↔ ∀ filter ∈ anyRole.filters, Admits webNode filter) := by
  refine ⟨_, rfl, filtering_agrees webNode ?_ reference_laws.toQueryLaws anyRole ?_ anyRole_compiled
    _ rfl⟩
  · rintro expr ⟨⟩ text
    rfl
  · unfold IsDuration
    decide

end Verdict

section Forwarding

def Passes (filter : Except DecodeError (FilterRef Id)) : Prop :=
  ∃ ref, filter = .ok ref ∧ filterRefPasses env ref = .ok true

/-- The node cannot judge the filter: it does not decode, an id that does not stands
before the id of the node, or the node has the tag and the expression does not compile. -/
def Fails : Except DecodeError (FilterRef Id) → Prop
  | .error _ => True
  | .ok (.id ids) =>
    ComesTo (fun id => id ≠ .ok env.advertiseNode.id) (fun id => ∃ reason, id = .error reason) ids
  | .ok (.tag filter) => ∃ value expr, env.tags.lookup filter.tag = some value ∧
      filter.expr = some expr ∧ env.regexNew expr = none

/-- The node comes to a filter that it cannot judge, or it is addressed and cannot
convert the sender. -/
def Stumbles (message : QueryMessageRef Id Address) : Prop :=
  ComesTo (Passes env) (Fails env) message.filters ∨
    ((∀ filter ∈ message.filters, Passes env filter) ∧
      ∃ reason, message.fromNode = .error reason)

/-- Nothing in the query is malformed: every filter decodes with all its ids, every
expression compiles, and the sender converts. -/
structure Legible (regexNew : String → Option Regex) (message : QueryMessageRef Id Address) :
    Prop where
  filters : ∀ filter ∈ message.filters, ∃ ref, filter = .ok ref
  ids : ∀ ids, .ok (.id ids) ∈ message.filters → ∀ id ∈ ids, ∃ value, id = .ok value
  exprs : ∀ filter, .ok (.tag filter) ∈ message.filters → ∀ expr, filter.expr = some expr →
    ∃ regex, regexNew expr = some regex
  sender : ∃ node, message.fromNode = .ok node

/-- The query is in the window and its id is not recorded. -/
structure FirstSeen (state : QueryState) (q : QueryInput Id Address) : Prop where
  slots : size state.core.buffer ≠ 0
  admitted : Admissible (witness state.clock q.ltime) q.ltime state.core
  unseen : ¬ Holds state.core q.ltime q.id

theorem targeted_error_iff (ids : List (Except DecodeError Id)) (localId : Id) :
    (∃ reason, targeted localId ids = .error reason) ↔
      ComesTo (fun id => id ≠ .ok localId) (fun id => ∃ reason, id = .error reason) ids := by
  induction ids with
  | nil => simp [targeted, not_comesTo_nil]
  | cons id rest ih =>
    rw [comesTo_cons, ← ih]
    cases id with
    | error reason => simp [targeted]
    | ok id =>
      by_cases same : id = localId
      · simp [targeted, same]
      · simp [targeted, same]

theorem filterRefPasses_error_iff (ref : FilterRef Id) :
    (∃ reason, filterRefPasses env ref = .error reason) ↔ Fails env (.ok ref) := by
  cases ref with
  | id ids => exact targeted_error_iff ids env.advertiseNode.id
  | tag filter =>
    cases found : env.tags.lookup filter.tag with
    | none => simp [filterRefPasses, tagRefPasses, Fails, found]
    | some value =>
      have known := tags_known env filter.tag value found
      cases given : filter.expr with
      | none => simp [filterRefPasses, tagRefPasses, Fails, found, known, given]
      | some expr =>
        cases compiled : env.regexNew expr with
        | none =>
          simp [filterRefPasses, tagRefPasses, Fails, found, known, given, compiled]
        | some regex =>
          simp [filterRefPasses, tagRefPasses, Fails, found, known, given, compiled]

theorem filterRefsPass_error_iff (filters : List (Except DecodeError (FilterRef Id))) :
    (∃ reason, filterRefsPass env filters = .error reason) ↔
      ComesTo (Passes env) (Fails env) filters := by
  induction filters with
  | nil => simp [filterRefsPass, not_comesTo_nil]
  | cons filter rest ih =>
    rw [comesTo_cons, ← ih]
    cases filter with
    | error reason => simp [filterRefsPass, Fails]
    | ok ref =>
      rw [← filterRefPasses_error_iff, filterRefsPass]
      cases judged : filterRefPasses env ref with
      | error reason => simp [Passes, judged]
      | ok verdict => cases verdict <;> simp [Passes, judged]

theorem filterRefsPass_true_iff (filters : List (Except DecodeError (FilterRef Id))) :
    filterRefsPass env filters = .ok true ↔ ∀ filter ∈ filters, Passes env filter := by
  induction filters with
  | nil => simp [filterRefsPass]
  | cons filter rest ih =>
    rw [List.forall_mem_cons, ← ih]
    cases filter with
    | error reason => simp [filterRefsPass, Passes]
    | ok ref =>
      rw [filterRefsPass]
      cases judged : filterRefPasses env ref with
      | error reason => simp [Passes, judged]
      | ok verdict => cases verdict <;> simp [Passes, judged]

theorem processQuery_forwards_iff (ty : Option (InternalQueryEvent Id))
    (message : QueryMessageRef Id Address) (state : QueryState)
    (spreads : contains message.flags .NO_BROADCAST = false) :
    (processQuery env ty (.left message) state).returned = some (.ok true) ↔
      ¬ Stumbles env message := by
  have failed := filterRefsPass_error_iff env message.filters
  have passed := filterRefsPass_true_iff env message.filters
  rw [Stumbles, ← failed, ← passed]
  simp only [processQuery, shouldProcessQuery, QueryInput.event, QueryInput.flags, spreads]
  cases judged : filterRefsPass env message.filters with
  | error reason => simp
  | ok verdict =>
    cases verdict with
    | false => simp
    | true =>
      cases message.fromNode with
      | error reason => simp
      | ok node => simp

theorem legible_not_stumbles (message : QueryMessageRef Id Address)
    (legible : Legible env.regexNew message) : ¬ Stumbles env message := by
  rintro (⟨before, filter, after, parts, _, fails⟩ | ⟨_, reason, failed⟩)
  · have inside : filter ∈ message.filters := by
      rw [parts]
      simp
    obtain ⟨ref, rfl⟩ := legible.filters filter inside
    cases ref with
    | id ids =>
      obtain ⟨front, id, back, split, _, reason, wrong⟩ := fails
      obtain ⟨value, right⟩ := legible.ids ids inside id (by rw [split]; simp)
      rw [right] at wrong
      cases wrong
    | tag filter =>
      obtain ⟨_, expr, _, given, fault⟩ := fails
      obtain ⟨regex, compiled⟩ := legible.exprs filter inside expr given
      rw [compiled] at fault
      cases fault
  · obtain ⟨node, converted⟩ := legible.sender
    rw [converted] at failed
    cases failed

omit [DecidableEq Id] in
theorem borrowQuery_legible (message : QueryMessage Id Address)
    (compiled : ∀ filter ∈ message.filters, Compiled env filter) :
    Legible env.regexNew (borrowQuery message) where
  filters filter inside := by
    obtain ⟨one, _, rfl⟩ := List.mem_map.mp inside
    exact ⟨borrow one, rfl⟩
  ids ids inside id member := by
    obtain ⟨one, _, same⟩ := List.mem_map.mp inside
    cases one with
    | id nodes =>
      cases same
      obtain ⟨value, _, rfl⟩ := List.mem_map.mp member
      exact ⟨value, rfl⟩
    | tag filter => cases same
  exprs filter inside expr given := by
    obtain ⟨one, held, same⟩ := List.mem_map.mp inside
    cases one with
    | id nodes => cases same
    | tag filter =>
      cases same
      obtain ⟨text, _⟩ := Option.filter_eq_some_iff.mp given
      obtain ⟨regex, found, rfl⟩ := Option.map_eq_some_iff.mp text
      exact ⟨regex, compiled (.tag filter) held regex found⟩
  sender := ⟨message.fromNode, rfl⟩

/-- A node asks for the rebroadcast of a query that it sees for the first time exactly if
it does not stumble over it. What it stumbles over depends on its id and its tags, but
over a query without malformed parts no node does. -/
theorem forwarding_iff (message : QueryMessageRef Id Address) (ty : Option (InternalQueryEvent Id))
    (state : QueryState) (first : FirstSeen state (.left message : QueryInput Id Address))
    (spreads : contains message.flags .NO_BROADCAST = false) :
    (∀ env : QueryEnvironment Id Address,
      (handleQuery env ty (.left message) state).returned = some (.ok true) ↔
        ¬ Stumbles env message) ∧
    ∀ env : QueryEnvironment Id Address, Legible env.regexNew message →
      (handleQuery env ty (.left message) state).returned = some (.ok true) := by
  have recorded := recordQuery_fresh (witness state.clock message.ltime) message.ltime message.id
    state.core first.slots first.admitted first.unseen
  have decides : ∀ env : QueryEnvironment Id Address,
      (handleQuery env ty (.left message) state).returned = some (.ok true) ↔
        ¬ Stumbles env message := by
    intro env
    simp only [handleQuery, QueryInput.ltime, QueryInput.id, recorded]
    exact processQuery_forwards_iff env ty message _ spreads
  exact ⟨decides, fun env legible => (decides env).mpr (legible_not_stumbles env message legible)⟩

def bareNode : QueryEnvironment UInt8 UInt8 :=
  { webNode with advertiseNode := { id := 4, address := 0 }, tags := ∅ }

theorem four_slots : 4 < 2 ^ 64 := by decide

def noQueries : QueryState := ⟨0, ∅, 0, vacant 4 four_slots⟩

/-- The query by an expression that `Regex::new` refuses, as it is read. -/
def octalRef : QueryMessageRef UInt8 UInt8 := borrowQuery octalQuery

theorem noQueries_first (message : QueryMessageRef UInt8 UInt8) (early : message.ltime = 7) :
    FirstSeen noQueries (.left message : QueryInput UInt8 UInt8) := by
  refine ⟨by decide, ⟨?_, ?_⟩, ?_⟩
  · exact Nat.zero_le _
  · change Library.Window.InWindow (witness 0 message.ltime) _ message.ltime
    rw [early]
    decide
  · rintro ⟨seen, found, _⟩
    change readSlot noQueries.core.buffer message.ltime = _ at found
    rw [early] at found
    cases found

theorem octalQuery_dropped :
    (∃ rest, encodeMessageToBytes reference ((Message.query octalQuery).encodable reference) =
        .ok (merge .lengthDelimited 5 :: rest) ∧
      readQueryRef reference rest = .ok (rest.length, octalRef)) ∧
    FirstSeen noQueries (.left octalRef : QueryInput UInt8 UInt8) ∧
    contains octalRef.flags .NO_BROADCAST = false ∧
    (handleQuery bareNode none (.left octalRef) noQueries).returned = some (.ok true) ∧
    (handleQuery webNode none (.left octalRef) noQueries).returned =
      some (.error (.custom "invalid regex")) :=
  ⟨⟨_, rfl, rfl⟩, noQueries_first octalRef rfl, by decide, rfl, rfl⟩

theorem forwarding_iff_anyRole :
    FirstSeen noQueries (.left (borrowQuery anyRole) : QueryInput UInt8 UInt8) ∧
    contains (borrowQuery anyRole).flags .NO_BROADCAST = false ∧
    (handleQuery webNode none (.left (borrowQuery anyRole)) noQueries).returned =
      some (.ok true) :=
  have first := noQueries_first (borrowQuery anyRole) rfl
  ⟨first, by decide,
    (forwarding_iff (borrowQuery anyRole) none noQueries first (by decide)).2 webNode
      (borrowQuery_legible webNode anyRole anyRole_compiled)⟩

end Forwarding

end Serf.Filtering
