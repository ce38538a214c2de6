import Serf.Wire.Basic

/-!
The codecs of queries: the filters, the query and the response to it. A filter
by tag carries the text of an expression, which is compiled again where the
filter is converted.
-/

namespace Serf.Wire

open Library.Encoding Library.Fields QueryHandler

variable {Id Address : Type} (proto : Proto Id Address)

section Filters

def exprLen (expr : Regex) : Nat :=
  List.sum [
    1,
    proto.u32.encodedLen (UInt32.ofNat (utf8 expr.pattern).length),
    (utf8 expr.pattern).length]

def tagFilterLen (filter : TagFilter) : Nat :=
  List.sum [
    1 + proto.framing.framedLen proto.str filter.tag,
    match filter.expr with
    | some expr => exprLen proto expr
    | none => 0]

/-- The pattern is not written by the codec of strings: the room for all of it
is asked for once, then its length and its bytes are copied. -/
def exprWriter (len room : Nat) (expr : Regex) : Writer :=
  .checking (fun left =>
      if left < exprLen proto expr then some (.insufficientBuffer len room) else none)
    (.all [
      .byte (.insufficientBuffer len room) (merge .lengthDelimited 2),
      .ofCodec proto.u32 (UInt32.ofNat (utf8 expr.pattern).length),
      .raw (.insufficientBuffer len room) (utf8 expr.pattern)])

def tagFilterWriter (filter : TagFilter) (room : Nat) : Writer :=
  let len := tagFilterLen proto filter
  .all [
    tagged len room (merge .lengthDelimited 1)
      (proto.updated len room (proto.framing.framed proto.str filter.tag)),
    match filter.expr with
    | some expr => exprWriter proto len room expr
    | none => .nothing]

def exprContent (expr : Regex) : Writer :=
  .all [.ofCodec proto.u32 (UInt32.ofNat (utf8 expr.pattern).length),
    .raw .tooLarge (utf8 expr.pattern)]

def tagFilterParts (filter : TagFilter) : List (List Part) :=
  [[⟨merge .lengthDelimited 1, proto.framing.framed proto.str filter.tag⟩],
    filter.expr.toList.map fun expr => ⟨merge .lengthDelimited 2, exprContent proto expr⟩]

structure TagFilterFields where
  tag : Option String := none
  expr : Option String := none

def TagFilterFields.tagSlot : Slot TagFilterFields String :=
  { held := tag, put := fun fields value => { fields with tag := value } }

def TagFilterFields.exprSlot : Slot TagFilterFields String :=
  { held := expr, put := fun fields value => { fields with expr := value } }

def tagFilterArms (byte : UInt8) : Arm DecodeError TagFilterFields :=
  if byte = merge .lengthDelimited 1 then
    once TagFilterFields.tagSlot (.duplicateField "TagFilter" "tag" 1) (proto.readOwned proto.str)
  else if byte = merge .lengthDelimited 2 then
    once TagFilterFields.exprSlot (.duplicateField "TagFilter" "expr" 2)
      (proto.readOwned proto.str)
  else
    pass (proto.skip "TagFilter")

/-- `Regex::new` with its error as a decoding error. -/
def compile (pattern : String) : Outcome Regex :=
  match proto.regexNew pattern with
  | .ok regex => .ok regex
  | .error message => .error (.error (.custom message))

def tagFilterDecode (buffer : Bytes) : Outcome (Nat × Outcome TagFilter) := do
  let (offset, fields) ← scan (tagFilterArms proto) {} buffer
  let tag := fields.tag.getD ""
  -- An empty expression is none.
  return (offset, match fields.expr.filter fun expr => !expr.isEmpty with
    | none => .ok { tag, expr := none }
    | some pattern => do
        let expr ← compile proto pattern
        return { tag, expr := some expr })

def tagFilter : Data TagFilter :=
  ofWriter (tagFilterLen proto) (tagFilterWriter proto) (tagFilterDecode proto)

/-- The expressions that `Regex::new` accepts. -/
def Compiles (expr : Regex) : Prop := ∃ regex, proto.regexNew expr.pattern = .ok regex

def GoodTagFilter (filter : TagFilter) : Prop :=
  ∀ expr, filter.expr = some expr → expr.pattern ≠ "" ∧ Compiles proto expr

/-- `PartialEq`: expressions are compared by their text. -/
def SameTagFilter (filter other : TagFilter) : Prop :=
  filter.tag = other.tag ∧ filter.expr.map Regex.pattern = other.expr.map Regex.pattern

section

variable {proto}

theorem expr_fits (encoders : QueryEncoders proto) (len room : Nat) (expr : Regex) :
    (exprWriter proto len room expr).Fits (exprLen proto expr) 0 := by
  apply Writer.fits_checking
  · intro left enough
    exact if_neg (by omega)
  · have length := encoders.u32 (UInt32.ofNat (utf8 expr.pattern).length)
    exact Writer.fits_all (.cons (Writer.fits_byte _ (merge .lengthDelimited 2))
      (.cons length (.cons (Writer.fits_raw _ (utf8 expr.pattern)) .nil)))

theorem expr_spells (len room : Nat) (expr : Regex) :
    (exprWriter proto len room expr).Spells
      [⟨merge .lengthDelimited 2, exprContent proto expr⟩] := by
  refine Writer.spells_checking (Writer.spells_content _ _ ?_)
  rintro bytes ⟨left, written⟩
  refine ⟨left, ?_⟩
  simp only [exprContent, Writer.all, Writer.andThen_ok_iff, Writer.raw_ok_iff] at written ⊢
  exact written

theorem expr_inverts (laws : QueryLaws proto) (expr : Regex)
    (small : (utf8 expr.pattern).length ≤ maxLen) :
    Inverts (exprContent proto expr) (proto.read proto.str) (Yields (expr.pattern = ·)) :=
  raw_inverts laws.u32 laws.strWire .tooLarge (utf8 expr.pattern) small
    expr.pattern (laws.strBytes expr.pattern)

theorem tagFilter_spells (filter : TagFilter) (room : Nat) :
    (tagFilterWriter proto filter room).Spells (tagFilterParts proto filter).flatten := by
  refine Writer.spells_all (.cons (Writer.spells_updated _ _ _ _) (.cons ?_ .nil))
  cases filter.expr with
  | none => exact Writer.spells_nothing
  | some expr => exact expr_spells _ room expr

theorem tagFilter_encodes (encoders : QueryEncoders proto) :
    Encodes (tagFilter proto) (fun _ => True) 0 := by
  refine encodes_ofWriter fun filter _ small room => ?_
  simp only [tagFilterLen, List.sum_cons, List.sum_nil] at small
  have tag := encoders.fits encoders.str filter.tag trivial (by omega)
  refine Writer.fits_all (.cons (Writer.fits_field (Writer.fits_mapErr tag)) (.cons ?_ .nil))
  cases filter.expr with
  | none => exact Writer.fits_nothing 0
  | some expr => exact expr_fits encoders _ room expr

theorem tagFilter_scans (laws : QueryLaws proto) (filter : TagFilter)
    (small : tagFilterLen proto filter ≤ maxLen) (room : Nat) (bytes : Bytes)
    (made : (tagFilterWriter proto filter room).Makes bytes) :
    scan (tagFilterArms proto) {} bytes =
      .ok (bytes.length, { tag := some filter.tag, expr := filter.expr.map Regex.pattern }) := by
  simp only [tagFilterLen, List.sum_cons, List.sum_nil] at small
  have short : ∀ expr, filter.expr = some expr → (utf8 expr.pattern).length ≤ maxLen := by
    intro expr given
    simp only [given, exprLen, List.sum_cons, List.sum_nil] at small
    omega
  have so := stands_written (tagFilterArms proto) {} (tagFilter_spells filter room) made
  obtain ⟨_, rfl, so⟩ := so.field (once_stores rfl rfl)
    (laws.readsOwned laws.str filter.tag trivial (by omega))
  obtain ⟨found, matched, so⟩ := so.optional filter.expr (once_stores rfl rfl)
    (fun expr given => inverts_owned (expr_inverts laws expr (short expr given))) rfl
  have same : found = filter.expr.map Regex.pattern := by
    generalize filter.expr = held at matched
    cases matched with
    | none => rfl
    | some same => rw [← same]; rfl
  rw [so.scans, same]
  rfl

theorem tagFilter_lawful (laws : QueryLaws proto) :
    Lawful (tagFilter proto) (GoodTagFilter proto) SameTagFilter 0 := by
  have encodes := tagFilter_encodes laws.encoders
  refine lawful_ofWriter (fun filter _ small => encodes filter trivial small) ?_
  intro filter good small room bytes made
  have scanned := tagFilter_scans laws filter small room bytes made
  cases given : filter.expr with
  | none =>
    refine ⟨{ tag := filter.tag, expr := none }, ⟨rfl, by rw [given]⟩, ?_⟩
    rw [tagFilterDecode, scanned, given]
    rfl
  | some expr =>
    obtain ⟨present, regex, compiled⟩ := good expr given
    have text := laws.regexText expr.pattern regex compiled
    have kept : (some expr.pattern).filter (fun text => !text.isEmpty) =
        some expr.pattern := by
      simp [Option.filter, present]
    refine ⟨{ tag := filter.tag, expr := some regex }, ⟨rfl, by simp [given, text]⟩, ?_⟩
    rw [tagFilterDecode, scanned, given]
    simp [bind, Except.bind, pure, Except.pure, kept, compile, compiled]

theorem tagFilter_total (total : ProtoTotal proto) : TotalCodec (tagFilter proto) := by
  have safe : ∀ byte, Safe (fun _ _ => True) (tagFilterArms proto byte) := by
    intro byte
    unfold tagFilterArms
    split_ifs
    · exact once_safe (total.readOwned total.str) fun _ _ _ _ held _ => held
    · exact once_safe (total.readOwned total.str) fun _ _ _ _ held _ => held
    · exact pass_safe (total.skip _) fun _ _ _ held => held
  refine total_of_ends fun buffer => ends_scan safe {} trivial buffer fun fields _ => ⟨le_rfl, ?_⟩
  simp only
  split
  · trivial
  · rename_i pattern _
    refine returns_bind ?_ fun _ _ => trivial
    unfold compile
    split <;> trivial

end

def filterLen : QueryHandler.Filter Id → Nat
  | .id ids => (ids.map fun id => 1 + proto.framing.framedLen proto.id id).sum
  | .tag tag => 1 + proto.framing.framedLen (tagFilter proto) tag

def filterWriter (filter : QueryHandler.Filter Id) (room : Nat) : Writer :=
  let len := filterLen proto filter
  .checking (fun left => if left < 1 then some (.insufficientBuffer len room) else none)
    (match filter with
    | .id ids => proto.updated len room (.all (ids.map fun id =>
      tagged len room (merge proto.id.wireType 1) (proto.framing.framed proto.id id)))
    | .tag tag => tagged len room (merge .lengthDelimited 2)
        (proto.updated len room (proto.framing.framed (tagFilter proto) tag)))

def filterParts : QueryHandler.Filter Id → List (List Part)
  | .id ids => [ids.map fun id => ⟨merge proto.id.wireType 1, proto.framing.framed proto.id id⟩]
  | .tag tag => [[⟨merge .lengthDelimited 2, proto.framing.framed (tagFilter proto) tag⟩]]

structure FilterFields where
  ids : Option (Nat × Nat) := none
  tag : Option (Outcome TagFilter) := none

def FilterFields.idsSlot : Slot FilterFields (Nat × Nat) :=
  { held := ids, put := fun fields value => { fields with ids := value } }

def FilterFields.tagSlot : Slot FilterFields (Outcome TagFilter) :=
  { held := tag, put := fun fields value => { fields with tag := value } }

def filterArms (byte : UInt8) : Arm DecodeError FilterFields :=
  if byte = merge proto.id.wireType 1 then
    spread FilterFields.idsSlot (proto.skip "Filter")
  else if byte = merge .lengthDelimited 2 then
    unlessHeld FilterFields.tagSlot (.duplicateField "Filter" "tag" 2)
      (unlessHeld FilterFields.idsSlot (.duplicateField "Filter" "id" 1)
        (latest FilterFields.tagSlot (proto.read (tagFilter proto))))
  else
    pass (proto.skip "Filter")

def filterDecode (buffer : Bytes) : Outcome (Nat × Outcome (QueryHandler.Filter Id)) := do
  let (offset, fields) ← scan (filterArms proto) {} buffer
  return (offset, match fields.tag with
    | some tag => do
        let tag ← tag
        return .tag tag
    | none => do
        let ids ← proto.collect proto.id proto.id.wireType 1 buffer fields.ids
        return .id ids)

def filter : Data (QueryHandler.Filter Id) :=
  ofWriter (filterLen proto) (filterWriter proto) (filterDecode proto)

def GoodFilter : QueryHandler.Filter Id → Prop
  | .id _ => True
  | .tag tag => GoodTagFilter proto tag

def SameFilter : QueryHandler.Filter Id → QueryHandler.Filter Id → Prop
  | .id ids, .id others => ids = others
  | .tag tag, .tag other => SameTagFilter tag other
  | _, _ => False

theorem filterArms_ids :
    filterArms proto (merge proto.id.wireType 1) =
      spread FilterFields.idsSlot (proto.skip "Filter") :=
  if_pos rfl

theorem filterArms_tag :
    filterArms proto (merge .lengthDelimited 2) =
      unlessHeld FilterFields.tagSlot (.duplicateField "Filter" "tag" 2)
        (unlessHeld FilterFields.idsSlot (.duplicateField "Filter" "id" 1)
          (latest FilterFields.tagSlot (proto.read (tagFilter proto)))) := by
  rw [filterArms, if_neg (merge_ne _ _ _ _ (by decide)), if_pos rfl]

variable {proto}

theorem filter_fits (encoders : QueryEncoders proto) (one : QueryHandler.Filter Id)
    (small : filterLen proto one ≤ maxLen) (slack : Nat)
    (some : 1 ≤ filterLen proto one + slack) (room : Nat) :
    (filterWriter proto one room).Fits (filterLen proto one) slack := by
  apply Writer.fits_checking
  · intro left enough
    exact if_neg (by omega)
  · cases one with
    | id ids =>
      have short := items_small proto proto.id ids small
      refine Writer.fits_slack _ _ 0 slack (Writer.fits_mapErr ?_) (Nat.zero_le _)
      exact Writer.fits_each _ _ _ 0 fun id inside =>
        Writer.fits_field (encoders.fits encoders.id id trivial (short id inside))
    | tag tag =>
      simp only [filterLen] at small
      refine Writer.fits_slack _ _ 0 slack (Writer.fits_field (Writer.fits_mapErr ?_))
        (Nat.zero_le _)
      exact encoders.fits (tagFilter_encodes encoders) tag trivial (by omega)

theorem filter_encodes (encoders : QueryEncoders proto) :
    Encodes (filter proto) (fun _ => True) 1 :=
  encodes_ofWriter fun one _ small room =>
    filter_fits encoders one small 1 (Nat.le_add_left ..) room

theorem filter_spells (one : QueryHandler.Filter Id) (room : Nat) :
    (filterWriter proto one room).Spells (filterParts proto one).flatten := by
  cases one with
  | id ids =>
    exact Writer.spells_group (Writer.spells_checking
      (Writer.spells_mapErr (Writer.spells_each ids fun _ => Writer.spells_field _ _ _)))
  | tag tag =>
    exact Writer.spells_group (Writer.spells_checking (Writer.spells_updated _ _ _ _))

theorem filter_ids_scans (laws : QueryLaws proto) (ids : List Id)
    (small : filterLen proto (.id ids) ≤ maxLen) (room : Nat) (bytes : Bytes)
    (made : (filterWriter proto (.id ids) room).Makes bytes) :
    ∃ range, scan (filterArms proto) {} bytes = .ok (bytes.length, { ids := range }) ∧
      proto.collect proto.id proto.id.wireType 1 bytes range = .ok ids := by
  have short := items_small proto proto.id ids small
  have so := stands_written (filterArms proto) {} (filter_spells (.id ids) room) made
  obtain ⟨range, found, matched, held, so⟩ := laws.collects laws.id ids so
    (filterArms_ids proto)
    (fun id inside => laws.skips_id laws.toIdLaws id (short id inside) "Filter" 1 (by decide))
    (fun _ _ => trivial) short rfl
  rw [List.forall₂_eq_eq_eq] at matched
  subst matched
  exact ⟨range, so.scans, held⟩

theorem filter_lawful (laws : QueryLaws proto) :
    Lawful (filter proto) (GoodFilter proto) SameFilter 1 := by
  have lawful := tagFilter_lawful laws
  have encodes := filter_encodes laws.encoders
  refine lawful_ofWriter (fun one _ small => encodes one trivial small) ?_
  intro one good small room bytes made
  cases one with
  | id ids =>
    obtain ⟨range, scanned, held⟩ := filter_ids_scans laws ids small room bytes made
    refine ⟨.id ids, rfl, ?_⟩
    rw [filterDecode, scanned]
    simp [bind, Except.bind, pure, Except.pure, held]
  | tag tag =>
    simp only [filterLen] at small
    have so := stands_written (filterArms proto) {} (filter_spells (.tag tag) room) made
    have stores : Stores (filterArms proto) (merge .lengthDelimited 2) FilterFields.tagSlot
        (proto.read (tagFilter proto)) {} := by
      intro offset bytes
      rw [filterArms_tag]
      rfl
    obtain ⟨_, ⟨result, rfl, same⟩, so⟩ := so.field stores
      (laws.reads lawful tag good (by omega))
    refine ⟨.tag result, same, ?_⟩
    rw [filterDecode, so.scans]
    rfl

theorem filter_total (total : ProtoTotal proto) : TotalCodec (filter proto) := by
  have safe : ∀ byte, Safe (fun offset fields => Within fields.ids offset ∧ Settled fields.tag)
      (filterArms proto byte) := by
    intro byte
    unfold filterArms
    split_ifs
    · exact spread_safe (total.skip _) fun _ taken _ held =>
        ⟨within_extend taken held.1, held.2⟩
    · refine unlessHeld_safe (unlessHeld_safe ?_)
      exact latest_safe (total.read (tagFilter_total total)) fun _ taken _ _ held back =>
        ⟨within_grows taken held.1, settled_some back⟩
    · exact pass_safe (total.skip _) fun _ taken _ held => ⟨within_grows taken held.1, held.2⟩
  refine total_of_ends fun buffer =>
    ends_scan safe {} ⟨trivial, settled_none⟩ buffer fun fields held => ⟨le_rfl, ?_⟩
  simp only
  split
  · rename_i tag given
    exact returns_bind (held.2 tag given) fun _ _ => trivial
  · exact returns_bind (total.collect total.id _ 1 buffer _ held.1) fun _ _ => trivial

end Filters

section Queries

def queryLen (message : QueryMessage Id Address) : Nat :=
  List.sum [
    1 + proto.u64.encodedLen message.ltime,
    1 + proto.u32.encodedLen message.id,
    1 + proto.framing.framedLen proto.node message.fromNode,
    (message.filters.map fun one => 1 + proto.framing.framedLen (filter proto) one).sum,
    1 + proto.u32.encodedLen message.flags,
    1 + proto.u8.encodedLen message.relayFactor,
    1 + proto.duration.encodedLen message.timeout,
    if !message.name.isEmpty then 1 + proto.framing.framedLen proto.str message.name else 0,
    if !message.payload.isEmpty then 1 + proto.framing.framedLen proto.bytes message.payload else 0]

def queryWriter (message : QueryMessage Id Address) (room : Nat) : Writer :=
  let len := queryLen proto message
  .all [
    tagged len room (merge .varint 1) (proto.updated len room (.ofCodec proto.u64 message.ltime)),
    tagged len room (merge .varint 2) (proto.updated len room (.ofCodec proto.u32 message.id)),
    tagged len room (merge .lengthDelimited 3)
      (proto.updated len room (proto.framing.framed proto.node message.fromNode)),
    .all (message.filters.map fun one =>
      tagged len room (merge .lengthDelimited 4)
        (proto.updated len room (proto.framing.framed (filter proto) one))),
    tagged len room (merge .varint 5) (proto.updated len room (.ofCodec proto.u32 message.flags)),
    tagged len room (merge .varint 6) (.byte (.insufficientBuffer len room) message.relayFactor),
    tagged len room (merge .varint 7)
      (proto.updated len room (.ofCodec proto.duration message.timeout)),
    .onlyIf (!message.name.isEmpty)
      (tagged len room (merge .lengthDelimited 8)
        (proto.updated len room (proto.framing.framed proto.str message.name))),
    .onlyIf (!message.payload.isEmpty)
      (tagged len room (merge .lengthDelimited 9)
        (proto.updated len room (proto.framing.framed proto.bytes message.payload)))]

structure QueryFields (Id Address : Type) where
  ltime : Option LamportTime := none
  id : Option UInt32 := none
  fromNode : Option (Outcome (Node Id Address)) := none
  filters : Option (Nat × Nat) := none
  flags : Option QueryFlag := none
  relayFactor : Option UInt8 := none
  timeout : Option Duration := none
  name : Option String := none
  payload : Option Bytes := none

def QueryFields.ltimeSlot : Slot (QueryFields Id Address) LamportTime :=
  { held := ltime, put := fun fields value => { fields with ltime := value } }

def QueryFields.idSlot : Slot (QueryFields Id Address) UInt32 :=
  { held := id, put := fun fields value => { fields with id := value } }

def QueryFields.fromNodeSlot : Slot (QueryFields Id Address) (Outcome (Node Id Address)) :=
  { held := fromNode, put := fun fields value => { fields with fromNode := value } }

def QueryFields.filtersSlot : Slot (QueryFields Id Address) (Nat × Nat) :=
  { held := filters, put := fun fields value => { fields with filters := value } }

def QueryFields.flagsSlot : Slot (QueryFields Id Address) QueryFlag :=
  { held := flags, put := fun fields value => { fields with flags := value } }

def QueryFields.relayFactorSlot : Slot (QueryFields Id Address) UInt8 :=
  { held := relayFactor, put := fun fields value => { fields with relayFactor := value } }

def QueryFields.timeoutSlot : Slot (QueryFields Id Address) Duration :=
  { held := timeout, put := fun fields value => { fields with timeout := value } }

def QueryFields.nameSlot : Slot (QueryFields Id Address) String :=
  { held := name, put := fun fields value => { fields with name := value } }

def QueryFields.payloadSlot : Slot (QueryFields Id Address) Bytes :=
  { held := payload, put := fun fields value => { fields with payload := value } }

def truncateFlags (bits : UInt32) : QueryFlag :=
  bits &&& (QueryFlag.ACK ||| QueryFlag.NO_BROADCAST)

def queryArms (byte : UInt8) : Arm DecodeError (QueryFields Id Address) :=
  if byte = merge .varint 1 then
    once QueryFields.ltimeSlot (.duplicateField "QueryMessage" "ltime" 1) proto.u64.decodeOwned
  else if byte = merge .varint 2 then
    once QueryFields.idSlot (.duplicateField "QueryMessage" "id" 2) proto.u32.decodeOwned
  else if byte = merge .lengthDelimited 3 then
    once QueryFields.fromNodeSlot (.duplicateField "QueryMessage" "from" 3) (proto.read proto.node)
  else if byte = merge .lengthDelimited 4 then
    spread QueryFields.filtersSlot (proto.skip "QueryMessage")
  else if byte = merge .varint 5 then
    once QueryFields.flagsSlot (.duplicateField "QueryMessage" "flags" 5)
      (mapRead truncateFlags proto.u32.decodeOwned)
  else if byte = merge .varint 6 then
    once QueryFields.relayFactorSlot (.duplicateField "QueryMessage" "relay_factor" 6)
      proto.u8.decodeOwned
  else if byte = merge .varint 7 then
    once QueryFields.timeoutSlot (.duplicateField "QueryMessage" "timeout" 7)
      proto.duration.decodeOwned
  else if byte = merge .lengthDelimited 8 then
    once QueryFields.nameSlot (.duplicateField "QueryMessage" "name" 8)
      (proto.readOwned proto.str)
  else if byte = merge .lengthDelimited 9 then
    once QueryFields.payloadSlot (.duplicateField "QueryMessage" "payload" 9)
      (proto.readOwned proto.bytes)
  else
    pass (proto.skip "QueryMessage")

def queryDecode (buffer : Bytes) : Outcome (Nat × Outcome (QueryMessage Id Address)) := do
  let (offset, fields) ← scan (queryArms proto) {} buffer
  let ltime ← need "QueryMessage" "ltime" fields.ltime
  let id ← need "QueryMessage" "id" fields.id
  let sender ← need "QueryMessage" "from" fields.fromNode
  let flags ← need "QueryMessage" "flags" fields.flags
  let relayFactor ← need "QueryMessage" "relay_factor" fields.relayFactor
  let timeout ← need "QueryMessage" "timeout" fields.timeout
  return (offset, do
    let filters ← proto.collect (filter proto) .lengthDelimited 4 buffer fields.filters
    let fromNode ← sender
    return {
      ltime, id, fromNode, filters, flags, relayFactor, timeout
      name := fields.name.getD "", payload := fields.payload.getD [] })

def query : Data (QueryMessage Id Address) :=
  ofWriter (queryLen proto) (queryWriter proto) (queryDecode proto)

def queryParts (message : QueryMessage Id Address) : List (List Part) :=
  [[⟨merge .varint 1, .ofCodec proto.u64 message.ltime⟩],
    [⟨merge .varint 2, .ofCodec proto.u32 message.id⟩],
    [⟨merge .lengthDelimited 3, proto.framing.framed proto.node message.fromNode⟩],
    message.filters.map fun one =>
      ⟨merge .lengthDelimited 4, proto.framing.framed (filter proto) one⟩,
    [⟨merge .varint 5, .ofCodec proto.u32 message.flags⟩],
    [⟨merge .varint 6, .byte .tooLarge message.relayFactor⟩],
    [⟨merge .varint 7, .ofCodec proto.duration message.timeout⟩],
    if !message.name.isEmpty then
      [⟨merge .lengthDelimited 8, proto.framing.framed proto.str message.name⟩] else [],
    if !message.payload.isEmpty then
      [⟨merge .lengthDelimited 9, proto.framing.framed proto.bytes message.payload⟩] else []]

theorem query_spells (message : QueryMessage Id Address) (room : Nat) :
    (queryWriter proto message room).Spells (queryParts proto message).flatten :=
  Writer.spells_all
    (.cons (Writer.spells_updated _ _ _ _)
    (.cons (Writer.spells_updated _ _ _ _)
    (.cons (Writer.spells_updated _ _ _ _)
    (.cons (Writer.spells_each _ fun _ => Writer.spells_updated _ _ _ _)
    (.cons (Writer.spells_updated _ _ _ _)
    (.cons (Writer.spells_byte _ _ _ _ _)
    (.cons (Writer.spells_updated _ _ _ _)
    (.cons (Writer.spells_onlyIf (Writer.spells_updated _ _ _ _))
    (.cons (Writer.spells_onlyIf (Writer.spells_updated _ _ _ _)) .nil)))))))))

structure GoodQuery (message : QueryMessage Id Address) : Prop where
  flags : truncateFlags message.flags = message.flags
  timeout : IsDuration message.timeout
  filters : ∀ one ∈ message.filters, GoodFilter proto one

structure SameQuery (message other : QueryMessage Id Address) : Prop where
  ltime : message.ltime = other.ltime
  id : message.id = other.id
  fromNode : message.fromNode = other.fromNode
  filters : List.Forall₂ SameFilter message.filters other.filters
  flags : message.flags = other.flags
  relayFactor : message.relayFactor = other.relayFactor
  timeout : message.timeout = other.timeout
  name : message.name = other.name
  payload : message.payload = other.payload

section

variable {proto}

theorem query_encodes (encoders : QueryEncoders proto) :
    Encodes (query proto) (fun message => IsDuration message.timeout) 0 := by
  refine encodes_ofWriter fun message proper small room => ?_
  simp only [queryLen, List.sum_cons, List.sum_nil] at small
  have ltime := encoders.u64 message.ltime trivial (by omega)
  have id := encoders.u32 message.id
  have sender := encoders.fits encoders.node message.fromNode trivial (by omega)
  have each := filter_encodes encoders
  have short := items_small proto (filter proto) message.filters (by omega)
  have flags := encoders.u32 message.flags
  have timeout := encoders.duration message.timeout proper (by omega)
  have name : (!message.name.isEmpty) = true → _ := fun present =>
    encoders.fits encoders.str message.name trivial (by
      rw [if_pos present] at small
      omega)
  have payload : (!message.payload.isEmpty) = true → _ := fun present =>
    encoders.fits encoders.bytes message.payload trivial (by
      rw [if_pos present] at small
      omega)
  have relay := encoders.u8Len message.relayFactor
  unfold queryLen
  rw [relay]
  -- The byte that a filter wants to see free is the tag of the flags.
  refine Writer.fits_cons _ _ _ _ 0 (Writer.fits_field (Writer.fits_mapErr ltime))
    (Writer.fits_cons _ _ _ _ 0 (Writer.fits_field (Writer.fits_mapErr id))
    (Writer.fits_cons _ _ _ _ 0 (Writer.fits_field (Writer.fits_mapErr sender))
    (Writer.fits_andThen _ _ _ _ 1 0
      (Writer.fits_each _ _ _ 1 fun one inside =>
        Writer.fits_field (Writer.fits_mapErr
          (encoders.fits each one trivial (short one inside))))
      (Writer.fits_all
        (.cons (Writer.fits_field (Writer.fits_mapErr flags))
        (.cons (Writer.fits_field (Writer.fits_byte _ message.relayFactor))
        (.cons (Writer.fits_field (Writer.fits_mapErr timeout))
        (.cons (Writer.fits_onlyIf fun present =>
          Writer.fits_field (Writer.fits_mapErr (name present)))
        (.cons (Writer.fits_onlyIf fun present =>
          Writer.fits_field (Writer.fits_mapErr (payload present))) .nil)))))) ?_)))
  rw [List.foldr_cons]
  omega

theorem query_scans (laws : QueryLaws proto) (message : QueryMessage Id Address)
    (proper : IsDuration message.timeout) (small : queryLen proto message ≤ maxLen) {room : Nat}
    {bytes : Bytes} (made : (queryWriter proto message room).Makes bytes) {Found : Type}
    {read : Read DecodeError Found} {wanted : QueryHandler.Filter Id → Found → Prop}
    (inverts : ∀ one ∈ message.filters,
      Inverts (proto.framing.framed (filter proto) one) read (wanted one)) :
    ∃ range found name payload,
      scan (queryArms proto) {} bytes = .ok (bytes.length,
        { ltime := some message.ltime, id := some message.id,
          fromNode := some (.ok message.fromNode), filters := range,
          flags := some (truncateFlags message.flags), relayFactor := some message.relayFactor,
          timeout := some message.timeout, name := name, payload := payload }) ∧
      List.Forall₂ wanted message.filters found ∧
      proto.repeating.repeated (merge .lengthDelimited 4) read bytes range = .ok found ∧
      name.getD "" = message.name ∧ payload.getD [] = message.payload := by
  simp only [queryLen, List.sum_cons, List.sum_nil] at small
  have short := items_small proto (filter proto) message.filters (by omega)
  have skips : ∀ one ∈ message.filters, Skipped (merge .lengthDelimited 4)
      (proto.skip "QueryMessage") (proto.framing.framed (filter proto) one) := by
    intro one inside
    have fits := filter_encodes laws.encoders one trivial
      (framed_small proto.framing one (short one inside))
    exact laws.skips_frame rfl one fits _ 4 (by decide)
  have so := stands_written (queryArms proto) {} (query_spells proto message room) made
  obtain ⟨_, rfl, so⟩ := so.field (once_stores rfl rfl)
    (plain_inverts laws.u64 message.ltime trivial (by omega))
  obtain ⟨_, rfl, so⟩ := so.field (once_stores rfl rfl)
    (plain_inverts laws.u32.toPlain message.id trivial (by omega))
  obtain ⟨_, ⟨_, rfl, rfl⟩, so⟩ := so.field (once_stores rfl rfl)
    (laws.reads laws.node message.fromNode trivial (by omega))
  obtain ⟨range, found, matched, held, so⟩ := so.repeated message.filters rfl skips inverts rfl
  obtain ⟨_, ⟨_, rfl, rfl⟩, so⟩ := so.field (once_stores rfl rfl)
    (inverts_mapRead truncateFlags
      (plain_inverts laws.u32.toPlain message.flags trivial (by omega)))
  obtain ⟨_, rfl, so⟩ := so.field (once_stores rfl rfl)
    (laws.u8_inverts _ message.relayFactor)
  obtain ⟨_, rfl, so⟩ := so.field (once_stores rfl rfl)
    (plain_inverts laws.duration message.timeout proper (by omega))
  obtain ⟨name, keptName, so⟩ := so.elided (!message.name.isEmpty) (fun _ => rfl)
    (fun present => laws.readsOwned laws.str message.name trivial (by
      rw [if_pos present] at small
      omega)) rfl
  obtain ⟨payload, keptPayload, so⟩ := so.elided (!message.payload.isEmpty) (fun _ => rfl)
    (fun present => laws.readsOwned laws.bytes message.payload trivial (by
      rw [if_pos present] at small
      omega)) rfl
  rw [← proto.repeating.repeated_eq] at held
  exact ⟨range, found, name, payload, so.scans, matched, held,
    elided_value keptName isEmpty_string, elided_value keptPayload isEmpty_bytes⟩

theorem query_lawful (laws : QueryLaws proto) :
    Lawful (query proto) (GoodQuery proto) SameQuery 0 := by
  have encodes := query_encodes laws.encoders
  refine lawful_ofWriter (fun message good small => encodes message good.timeout small) ?_
  intro message good small room bytes made
  have short := items_small proto (filter proto) message.filters (by
    simp only [queryLen, List.sum_cons, List.sum_nil] at small
    omega)
  obtain ⟨range, found, name, payload, scanned, matched, held, keptName, keptPayload⟩ :=
    query_scans laws message good.timeout small made fun one inside =>
      laws.readsOwned (filter_lawful laws) one (good.filters one inside) (short one inside)
  refine ⟨{ message with filters := found },
    ⟨rfl, rfl, rfl, matched, rfl, rfl, rfl, rfl, rfl⟩, ?_⟩
  rw [queryDecode, scanned]
  simp [need, bind, Except.bind, pure, Except.pure, held, good.flags, keptName, keptPayload]

theorem query_total (total : ProtoTotal proto) : TotalCodec (query proto) := by
  have safe : ∀ byte, Safe (fun offset fields => Within fields.filters offset ∧
      Settled fields.fromNode) (queryArms proto byte) := by
    intro byte
    unfold queryArms
    apply safe_ite
    · exact once_safe (total_decodeOwned total.u64) fun _ taken _ _ held _ =>
        ⟨within_grows taken held.1, held.2⟩
    apply safe_ite
    · exact once_safe (total_decodeOwned total.u32) fun _ taken _ _ held _ =>
        ⟨within_grows taken held.1, held.2⟩
    apply safe_ite
    · exact once_safe (total.read total.wholeNode) fun _ taken _ _ held back =>
        ⟨within_grows taken held.1, settled_some back⟩
    apply safe_ite
    · exact spread_safe (total.skip _) fun _ taken _ held =>
        ⟨within_extend taken held.1, held.2⟩
    apply safe_ite
    · exact once_safe (total_mapRead (fun _ => True) (total_decodeOwned total.u32)
        fun _ _ => trivial) fun _ taken _ _ held _ => ⟨within_grows taken held.1, held.2⟩
    apply safe_ite
    · exact once_safe (total_decodeOwned total.u8) fun _ taken _ _ held _ =>
        ⟨within_grows taken held.1, held.2⟩
    apply safe_ite
    · exact once_safe (total_decodeOwned total.duration) fun _ taken _ _ held _ =>
        ⟨within_grows taken held.1, held.2⟩
    apply safe_ite
    · exact once_safe (total.readOwned total.str) fun _ taken _ _ held _ =>
        ⟨within_grows taken held.1, held.2⟩
    apply safe_ite
    · exact once_safe (total.readOwned total.bytes) fun _ taken _ _ held _ =>
        ⟨within_grows taken held.1, held.2⟩
    exact pass_safe (total.skip _) fun _ taken _ held => ⟨within_grows taken held.1, held.2⟩
  refine total_of_ends fun buffer => ends_scan safe {} ⟨trivial, settled_none⟩ buffer ?_
  intro fields held
  refine ends_need _ _ _ fun _ _ => ends_need _ _ _ fun _ _ => ends_need _ _ _ fun sender given =>
    ends_need _ _ _ fun _ _ => ends_need _ _ _ fun _ _ => ends_need _ _ _ fun _ _ => ⟨le_rfl, ?_⟩
  refine returns_bind (total.collect (filter_total total) _ 4 buffer _ held.1) fun _ _ => ?_
  exact returns_bind (held.2 sender given) fun _ _ => trivial

end

def queryResponseLen (message : QueryResponseMessage Id Address) : Nat :=
  List.sum [
    1 + proto.u64.encodedLen message.ltime,
    1 + proto.u32.encodedLen message.id,
    1 + proto.framing.framedLen proto.node message.fromNode,
    1 + proto.u32.encodedLen message.flags,
    if !message.payload.isEmpty then 1 + proto.framing.framedLen proto.bytes message.payload else 0]

def queryResponseWriter (message : QueryResponseMessage Id Address) (room : Nat) : Writer :=
  let len := queryResponseLen proto message
  .all [
    tagged len room (merge .varint 1) (proto.updated len room (.ofCodec proto.u64 message.ltime)),
    tagged len room (merge .varint 2) (proto.updated len room (.ofCodec proto.u32 message.id)),
    tagged len room (merge .lengthDelimited 3)
      (proto.updated len room (proto.framing.framed proto.node message.fromNode)),
    tagged len room (merge .varint 4) (proto.updated len room (.ofCodec proto.u32 message.flags)),
    .onlyIf (!message.payload.isEmpty)
      (tagged len room (merge .lengthDelimited 5)
        (proto.updated len room (proto.framing.framed proto.bytes message.payload)))]

structure QueryResponseFields (Id Address : Type) where
  ltime : Option LamportTime := none
  id : Option UInt32 := none
  fromNode : Option (Outcome (Node Id Address)) := none
  flags : Option QueryFlag := none
  payload : Option Bytes := none

def QueryResponseFields.ltimeSlot : Slot (QueryResponseFields Id Address) LamportTime :=
  { held := ltime, put := fun fields value => { fields with ltime := value } }

def QueryResponseFields.idSlot : Slot (QueryResponseFields Id Address) UInt32 :=
  { held := id, put := fun fields value => { fields with id := value } }

def QueryResponseFields.fromNodeSlot :
    Slot (QueryResponseFields Id Address) (Outcome (Node Id Address)) :=
  { held := fromNode, put := fun fields value => { fields with fromNode := value } }

def QueryResponseFields.flagsSlot : Slot (QueryResponseFields Id Address) QueryFlag :=
  { held := flags, put := fun fields value => { fields with flags := value } }

def QueryResponseFields.payloadSlot : Slot (QueryResponseFields Id Address) Bytes :=
  { held := payload, put := fun fields value => { fields with payload := value } }

def queryResponseArms (byte : UInt8) : Arm DecodeError (QueryResponseFields Id Address) :=
  if byte = merge .varint 1 then
    once QueryResponseFields.ltimeSlot (.duplicateField "QueryResponseMessage" "ltime" 1)
      proto.u64.decodeOwned
  else if byte = merge .varint 2 then
    once QueryResponseFields.idSlot (.duplicateField "QueryResponseMessage" "id" 2)
      proto.u32.decodeOwned
  else if byte = merge .lengthDelimited 3 then
    once QueryResponseFields.fromNodeSlot (.duplicateField "QueryResponseMessage" "from" 3)
      (proto.read proto.node)
  else if byte = merge .varint 4 then
    once QueryResponseFields.flagsSlot (.duplicateField "QueryResponseMessage" "flags" 4)
      proto.u32.decodeOwned
  else if byte = merge .lengthDelimited 5 then
    once QueryResponseFields.payloadSlot (.duplicateField "QueryResponseMessage" "payload" 5)
      (proto.readOwned proto.bytes)
  else
    pass (proto.skip "QueryResponseMessage")

def queryResponseDecode (buffer : Bytes) :
    Outcome (Nat × Outcome (QueryResponseMessage Id Address)) := do
  let (offset, fields) ← scan (queryResponseArms proto) {} buffer
  let ltime ← need "QueryResponseMessage" "ltime" fields.ltime
  let id ← need "QueryResponseMessage" "id" fields.id
  let sender ← need "QueryResponseMessage" "from" fields.fromNode
  let flags ← need "QueryResponseMessage" "flags" fields.flags
  return (offset, do
    let fromNode ← sender
    return { ltime, id, fromNode, flags, payload := fields.payload.getD [] })

def queryResponse : Data (QueryResponseMessage Id Address) :=
  ofWriter (queryResponseLen proto) (queryResponseWriter proto) (queryResponseDecode proto)

def queryResponseParts (message : QueryResponseMessage Id Address) : List (List Part) :=
  [[⟨merge .varint 1, .ofCodec proto.u64 message.ltime⟩],
    [⟨merge .varint 2, .ofCodec proto.u32 message.id⟩],
    [⟨merge .lengthDelimited 3, proto.framing.framed proto.node message.fromNode⟩],
    [⟨merge .varint 4, .ofCodec proto.u32 message.flags⟩],
    if !message.payload.isEmpty then
      [⟨merge .lengthDelimited 5, proto.framing.framed proto.bytes message.payload⟩] else []]

theorem queryResponse_spells (message : QueryResponseMessage Id Address) (room : Nat) :
    (queryResponseWriter proto message room).Spells (queryResponseParts proto message).flatten :=
  Writer.spells_all
    (.cons (Writer.spells_updated _ _ _ _)
    (.cons (Writer.spells_updated _ _ _ _)
    (.cons (Writer.spells_updated _ _ _ _)
    (.cons (Writer.spells_updated _ _ _ _)
    (.cons (Writer.spells_onlyIf (Writer.spells_updated _ _ _ _)) .nil)))))

variable {proto}

theorem queryResponse_encodes (encoders : QueryEncoders proto) :
    Encodes (queryResponse proto) (fun _ => True) 0 := by
  refine encodes_ofWriter fun message _ small room => ?_
  simp only [queryResponseLen, List.sum_cons, List.sum_nil] at small
  have ltime := encoders.u64 message.ltime trivial (by omega)
  have id := encoders.u32 message.id
  have sender := encoders.fits encoders.node message.fromNode trivial (by omega)
  have flags := encoders.u32 message.flags
  exact Writer.fits_all
    (.cons (Writer.fits_field (Writer.fits_mapErr ltime))
    (.cons (Writer.fits_field (Writer.fits_mapErr id))
    (.cons (Writer.fits_field (Writer.fits_mapErr sender))
    (.cons (Writer.fits_field (Writer.fits_mapErr flags))
    (.cons (Writer.fits_onlyIf fun present => Writer.fits_field (Writer.fits_mapErr
      (encoders.fits encoders.bytes message.payload trivial (by
        rw [if_pos present] at small
        omega)))) .nil)))))

theorem queryResponse_lawful (laws : QueryLaws proto) :
    Lawful (queryResponse proto) (fun _ => True) Eq 0 := by
  refine lawful_ofWriter (queryResponse_encodes laws.encoders) ?_
  intro message _ small room bytes made
  refine ⟨message, rfl, ?_⟩
  simp only [queryResponseLen, List.sum_cons, List.sum_nil] at small
  have so := stands_written (queryResponseArms proto) {}
    (queryResponse_spells proto message room) made
  obtain ⟨_, rfl, so⟩ := so.field (once_stores rfl rfl)
    (plain_inverts laws.u64 message.ltime trivial (by omega))
  obtain ⟨_, rfl, so⟩ := so.field (once_stores rfl rfl)
    (plain_inverts laws.u32.toPlain message.id trivial (by omega))
  obtain ⟨_, ⟨_, rfl, rfl⟩, so⟩ := so.field (once_stores rfl rfl)
    (laws.reads laws.node message.fromNode trivial (by omega))
  obtain ⟨_, rfl, so⟩ := so.field (once_stores rfl rfl)
    (plain_inverts laws.u32.toPlain message.flags trivial (by omega))
  obtain ⟨payload, keptPayload, so⟩ := so.elided (!message.payload.isEmpty) (fun _ => rfl)
    (fun present => laws.readsOwned laws.bytes message.payload trivial (by
      rw [if_pos present] at small
      omega)) rfl
  rw [queryResponseDecode, so.scans]
  simp [QueryResponseFields.ltimeSlot, QueryResponseFields.idSlot,
    QueryResponseFields.fromNodeSlot, QueryResponseFields.flagsSlot,
    QueryResponseFields.payloadSlot, need, bind, Except.bind, pure, Except.pure,
    elided_value keptPayload isEmpty_bytes]

theorem queryResponse_total (total : ProtoTotal proto) : TotalCodec (queryResponse proto) := by
  have safe : ∀ byte, Safe (fun _ fields => Settled fields.fromNode)
      (queryResponseArms proto byte) := by
    intro byte
    unfold queryResponseArms
    split_ifs
    · exact once_safe (total_decodeOwned total.u64) fun _ _ _ _ held _ => held
    · exact once_safe (total_decodeOwned total.u32) fun _ _ _ _ held _ => held
    · exact once_safe (total.read total.wholeNode) fun _ _ _ _ _ back => settled_some back
    · exact once_safe (total_decodeOwned total.u32) fun _ _ _ _ held _ => held
    · exact once_safe (total.readOwned total.bytes) fun _ _ _ _ held _ => held
    · exact pass_safe (total.skip _) fun _ _ _ held => held
  refine total_of_ends fun buffer => ends_scan safe {} settled_none buffer ?_
  intro fields settled
  refine ends_need _ _ _ fun _ _ => ends_need _ _ _ fun _ _ => ends_need _ _ _ fun sender given =>
    ends_need _ _ _ fun _ _ => ⟨le_rfl, ?_⟩
  exact returns_bind (settled sender given) fun _ _ => trivial

end Queries

end Serf.Wire
