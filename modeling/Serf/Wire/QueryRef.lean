import Serf.Wire.Query

/-!
Queries as `handle_query` borrows them. The decoder of a query finds the range in
which the filters stand and leaves them there; `should_process_query` decodes
them one by one, the ids of a filter likewise, and compiles an expression when it
comes to it. Such an iterator is here the list of what it yields, up to the first
item that fails.
-/

namespace Serf.Wire

open Library.Encoding Library.Fields QueryHandler

variable {Id Address : Type} (proto : Proto Id Address)

section Decode

def tagFilterRefDecode (buffer : Bytes) : Outcome (Nat × TagFilterRef) := do
  let (offset, fields) ← scan (tagFilterArms proto) {} buffer
  return (offset,
    { tag := fields.tag.getD "", expr := fields.expr.filter fun expr => !expr.isEmpty })

structure FilterRefFields where
  ids : Option (Nat × Nat) := none
  tag : Option TagFilterRef := none

def FilterRefFields.idsSlot : Slot FilterRefFields (Nat × Nat) :=
  { held := ids, put := fun fields value => { fields with ids := value } }

def FilterRefFields.tagSlot : Slot FilterRefFields TagFilterRef :=
  { held := tag, put := fun fields value => { fields with tag := value } }

def filterRefArms (byte : UInt8) : Arm DecodeError FilterRefFields :=
  if byte = merge proto.id.wireType 1 then
    spread FilterRefFields.idsSlot (proto.skip "Filter")
  else if byte = merge .lengthDelimited 2 then
    unlessHeld FilterRefFields.tagSlot (.duplicateField "Filter" "tag" 2)
      (unlessHeld FilterRefFields.idsSlot (.duplicateField "Filter" "id" 1)
        (latest FilterRefFields.tagSlot
          (proto.framing.decodeFramed .lengthDelimited (tagFilterRefDecode proto))))
  else
    pass (proto.skip "Filter")

def filterRefDecode (buffer : Bytes) : Outcome (Nat × FilterRef Id) := do
  let (offset, fields) ← scan (filterRefArms proto) {} buffer
  match fields.tag with
  | some tag => return (offset, .tag tag)
  | none =>
    let ids ← proto.repeating.iterated (merge proto.id.wireType 1) (proto.readOwned proto.id)
      buffer fields.ids
    return (offset, .id ids)

/-- `decode_length_delimited` of a filter. -/
def readFilterRef : Read DecodeError (FilterRef Id) :=
  proto.framing.decodeFramed .lengthDelimited (filterRefDecode proto)

def queryRefDecode (buffer : Bytes) : Outcome (Nat × QueryMessageRef Id Address) := do
  let (offset, fields) ← scan (queryArms proto) {} buffer
  let ltime ← need "QueryMessage" "ltime" fields.ltime
  let id ← need "QueryMessage" "id" fields.id
  let sender ← need "QueryMessage" "from" fields.fromNode
  let flags ← need "QueryMessage" "flags" fields.flags
  let relayFactor ← need "QueryMessage" "relay_factor" fields.relayFactor
  let timeout ← need "QueryMessage" "timeout" fields.timeout
  let filters ← proto.repeating.iterated (merge .lengthDelimited 4) (readFilterRef proto) buffer
    fields.filters
  let fromNode ← reported sender
  return (offset,
    { ltime, id, fromNode, filters, flags, relayFactor, timeout
      name := fields.name.getD "", payload := fields.payload.getD [] })

/-- `decode_length_delimited` of a query. -/
def readQueryRef : Read DecodeError (QueryMessageRef Id Address) :=
  proto.framing.decodeFramed .lengthDelimited (queryRefDecode proto)

end Decode

section Convert

/-- `from_ref` of a filter by tag, which compiles the expression. -/
def convertTag (filter : TagFilterRef) : Outcome TagFilter :=
  match filter.expr with
  | none => .ok { tag := filter.tag, expr := none }
  | some pattern => do
      let expr ← compile proto pattern
      return { tag := filter.tag, expr := some expr }

theorem tagFilterDecode_eq :
    tagFilterDecode proto = mapRead (convertTag proto) (tagFilterRefDecode proto) := by
  funext buffer
  rw [tagFilterDecode, mapRead, tagFilterRefDecode]
  cases scan (tagFilterArms proto) {} buffer with
  | error fault => rfl
  | ok result => rfl

theorem read_tagFilter_eq :
    proto.read (tagFilter proto) = mapRead (convertTag proto)
      (proto.framing.decodeFramed .lengthDelimited (tagFilterRefDecode proto)) := by
  rw [← proto.framing.decodeFramed_mapRead, ← tagFilterDecode_eq]
  rfl

def FilterRefFields.convert (fields : FilterRefFields) : FilterFields :=
  { ids := fields.ids, tag := fields.tag.map (convertTag proto) }

theorem filterArms_alike (tag : UInt8) (offset : Nat) (fields : FilterRefFields) (bytes : Bytes) :
    filterArms proto tag offset (fields.convert proto) bytes =
      (filterRefArms proto tag offset fields bytes).map fun (next, taken) =>
        (next.convert proto, taken) := by
  unfold filterArms filterRefArms
  split_ifs with isIds isTag
  · rw [spread, spread]
    cases proto.skip "Filter" bytes with
    | error fault => rfl
    | ok taken => rfl
  · obtain ⟨ids, held⟩ := fields
    cases held with
    | some other => rfl
    | none =>
      cases ids with
      | some range => rfl
      | none =>
        change latest FilterFields.tagSlot (proto.read (tagFilter proto)) offset {} bytes =
          (latest FilterRefFields.tagSlot _ offset {} bytes).map _
        rw [latest, latest, read_tagFilter_eq, mapRead]
        cases proto.framing.decodeFramed .lengthDelimited (tagFilterRefDecode proto)
            bytes.tail with
        | error fault => rfl
        | ok result => rfl
  · rw [Library.Fields.pass, Library.Fields.pass]
    cases proto.skip "Filter" bytes with
    | error fault => rfl
    | ok taken => rfl

theorem filter_scan_eq (bytes : Bytes) :
    scan (filterArms proto) {} bytes = (scan (filterRefArms proto) {} bytes).map
      fun (offset, fields) => (offset, fields.convert proto) :=
  scan_maps (FilterRefFields.convert proto) (filterArms_alike proto) {} bytes

end Convert

section Written

def borrow : QueryHandler.Filter Id → FilterRef Id
  | .id ids => .id (ids.map .ok)
  | .tag filter => .tag
      { tag := filter.tag
        expr := (filter.expr.map Regex.pattern).filter fun expr => !expr.isEmpty }

def borrowQuery (message : QueryMessage Id Address) : QueryMessageRef Id Address where
  ltime := message.ltime
  id := message.id
  fromNode := .ok message.fromNode
  filters := message.filters.map fun one => .ok (borrow one)
  flags := truncateFlags message.flags
  relayFactor := message.relayFactor
  timeout := message.timeout
  name := message.name
  payload := message.payload

variable {proto}

theorem tagFilterRef_reads (laws : QueryLaws proto) (filter : TagFilter)
    (small : proto.framing.framedLen (tagFilter proto) filter ≤ maxLen) :
    Inverts (proto.framing.framed (tagFilter proto) filter)
      (proto.framing.decodeFramed .lengthDelimited (tagFilterRefDecode proto))
      (fun found => FilterRef.tag found = (borrow (.tag filter) : FilterRef Id)) := by
  have short := framed_small proto.framing filter small
  refine delimited_inverts laws.u32 rfl rfl filter
    (tagFilter_encodes laws.encoders filter trivial short) ?_
  rintro body ⟨room, written⟩
  have scanned := tagFilter_scans laws filter short room body ⟨room, written⟩
  refine ⟨_, rfl, ?_⟩
  rw [tagFilterRefDecode, scanned]
  rfl

theorem filterRefArms_tag :
    filterRefArms proto (merge .lengthDelimited 2) =
      unlessHeld FilterRefFields.tagSlot (.duplicateField "Filter" "tag" 2)
        (unlessHeld FilterRefFields.idsSlot (.duplicateField "Filter" "id" 1)
          (latest FilterRefFields.tagSlot
            (proto.framing.decodeFramed .lengthDelimited (tagFilterRefDecode proto)))) := by
  rw [filterRefArms, if_neg (merge_ne _ _ _ _ (by decide)), if_pos rfl]

theorem filterRef_tag_decodes (laws : QueryLaws proto) (filter : TagFilter)
    (small : filterLen proto (.tag filter) ≤ maxLen) (room : Nat) (bytes : Bytes)
    (made : (filterWriter proto (.tag filter) room).Makes bytes) :
    filterRefDecode proto bytes = .ok (bytes.length, borrow (.tag filter)) := by
  simp only [filterLen] at small
  have so := stands_written (filterRefArms proto) {} (filter_spells (.tag filter) room) made
  have stores : Stores (filterRefArms proto) (merge .lengthDelimited 2) FilterRefFields.tagSlot
      (proto.framing.decodeFramed .lengthDelimited (tagFilterRefDecode proto)) {} := by
    intro offset bytes
    rw [filterRefArms_tag]
    rfl
  obtain ⟨found, same, so⟩ := so.field stores (tagFilterRef_reads laws filter (by omega))
  rw [filterRefDecode, so.scans, ← same]
  rfl

theorem filterRef_ids_scans (bytes : Bytes) (taken : Nat) (range : Option (Nat × Nat))
    (scanned : scan (filterArms proto) {} bytes = .ok (taken, { ids := range })) :
    scan (filterRefArms proto) {} bytes = .ok (taken, { ids := range }) := by
  rw [filter_scan_eq] at scanned
  obtain ⟨⟨offset, ids, held⟩, found, same⟩ := map_ok scanned
  rw [found]
  cases held with
  | none =>
    cases same
    rfl
  | some tag => cases same

theorem filterRef_decodes (laws : QueryLaws proto) (one : QueryHandler.Filter Id)
    (small : filterLen proto one ≤ maxLen) (room : Nat) (bytes : Bytes)
    (made : (filterWriter proto one room).Makes bytes) :
    filterRefDecode proto bytes = .ok (bytes.length, borrow one) := by
  cases one with
  | id ids =>
    obtain ⟨range, scanned, held⟩ := filter_ids_scans laws ids small room bytes made
    rw [filterRefDecode, filterRef_ids_scans bytes _ range scanned]
    have all := proto.repeating.iterated_of_repeated bytes range ids held
    simp only [bind, Except.bind, all, pure, Except.pure]
    rfl
  | tag filter => exact filterRef_tag_decodes laws filter small room bytes made

theorem queryRef_decodes (laws : QueryLaws proto) (message : QueryMessage Id Address)
    (proper : IsDuration message.timeout) (small : queryLen proto message ≤ maxLen) (room : Nat)
    (bytes : Bytes) (made : (queryWriter proto message room).Makes bytes) :
    queryRefDecode proto bytes = .ok (bytes.length, borrowQuery message) := by
  have short := items_small proto (filter proto) message.filters (by
    simp only [queryLen, List.sum_cons, List.sum_nil] at small
    omega)
  have inverts : ∀ one ∈ message.filters, Inverts (proto.framing.framed (filter proto) one)
      (readFilterRef proto) (borrow one = ·) := by
    intro one inside
    have small := framed_small proto.framing one (short one inside)
    refine delimited_inverts laws.u32 rfl rfl one
      (filter_encodes laws.encoders one trivial small) ?_
    rintro body ⟨room, written⟩
    exact ⟨_, rfl, filterRef_decodes laws one small room body ⟨room, written⟩⟩
  obtain ⟨range, found, name, payload, scanned, matched, held, keptName, keptPayload⟩ :=
    query_scans laws message proper small made inverts
  have same : message.filters.map borrow = found := by
    rw [← List.forall₂_eq_eq_eq, List.forall₂_map_left_iff]
    exact matched
  rw [queryRefDecode, scanned]
  simp [need, bind, Except.bind, pure, Except.pure, proto.repeating.iterated_of_repeated bytes range
    found held,
    reported, keptName, keptPayload, borrowQuery, ← same]

end Written

end Serf.Wire
