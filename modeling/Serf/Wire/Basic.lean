import Mathlib.Algebra.Order.BigOperators.Group.List
import Serf.Library.Fields
import Serf.QueryHandler

/-!
What the codecs of `serf-core/src/types` take from other crates, and the laws
that are assumed of it. The codecs themselves are in the modules next to this
one: an encoder is a writer; a decoder is the table of its arms, keyed by tag
byte, and what it makes of the fields once the buffer is used up. A borrowed
value stands for what `from_ref` makes of it.
-/

namespace Serf.Wire

open Library.Encoding Library.Fields QueryHandler

variable {Id Address : Type}

/-- The bytes of an AES key. -/
structure SecretKey where
  bytes : Bytes
  size : bytes.length = 16 ∨ bytes.length = 24 ∨ bytes.length = 32
  deriving DecidableEq

/-- The bit pattern of an `f64`. -/
abbrev F64 := UInt64

/-- The `Data` of a type. -/
abbrev Data (Value : Type) := Codec (Fault DecodeError) Value

abbrev Outcome (Value : Type) := Except (Fault DecodeError) Value

abbrev NodeRef (Id Address : Type) := Node (Outcome Id) (Outcome Address)

def convertNode (node : NodeRef Id Address) : Outcome (Node Id Address) := do
  let id ← node.id
  let address ← node.address
  return { id, address }

def borrowNode (node : Node Id Address) : NodeRef Id Address where
  id := .ok node.id
  address := .ok node.address

theorem convertNode_ok_iff (ref : NodeRef Id Address) (node : Node Id Address) :
    convertNode ref = .ok node ↔ ref = borrowNode node := by
  obtain ⟨id, address⟩ := ref
  constructor
  · intro converted
    obtain ⟨id, rfl, rest⟩ := bind_ok converted
    obtain ⟨address, rfl, made⟩ := bind_ok rest
    cases made
    rfl
  · intro borrowed
    cases borrowed
    rfl

theorem borrowNode_injective : Function.Injective (borrowNode : Node Id Address → _) := by
  intro node other same
  have converted := (convertNode_ok_iff _ node).mpr same.symm
  rw [(convertNode_ok_iff _ other).mpr rfl] at converted
  exact (Except.ok.inj converted).symm

/-- The `Data` of a node; decoding borrows it. -/
structure NodeData (Id Address : Type) where
  wireType : WireType
  encodedLen : Node Id Address → Nat
  encode : Node Id Address → (room : Nat) → Except EncodeError Bytes
  decodeRef : Read DecodeError (NodeRef Id Address)
  bounded : ∀ value room bytes, encode value room = .ok bytes → bytes.length ≤ room

def NodeData.data (node : NodeData Id Address) : Data (Node Id Address) where
  wireType := node.wireType
  encodedLen := node.encodedLen
  encode := node.encode
  decode := mapRead convertNode node.decodeRef
  bounded := node.bounded

abbrev TotalNode (node : NodeData Id Address) : Prop :=
  Total node.decodeRef (if node.wireType = .lengthDelimited then 0 else 1)
    fun ref => Returns ref.id ∧ Returns ref.address

/-- What the codecs take from memberlist-proto and from regex. `statusLtime`
and `tag` are the encoded pairs. -/
structure Proto (Id Address : Type) where
  framing : Framing DecodeError
  u8 : Data UInt8
  u64 : Data UInt64
  f64 : Data F64
  bool : Data Bool
  duration : Data Duration
  str : Data String
  bytes : Data Bytes
  id : Data Id
  nodeData : NodeData Id Address
  statusLtime : Data (Id × LamportTime)
  tag : Data (String × String)
  secretKey : Data SecretKey
  skip : (type : String) → Skip DecodeError
  repeating : RepeatedDecoder DecodeError
  regexNew : String → Except String Regex

variable (proto : Proto Id Address)

section Primitives

variable {Value : Type}

abbrev Proto.u32 : Data UInt32 := proto.framing.u32

abbrev Proto.node : Data (Node Id Address) := proto.nodeData.data

abbrev Proto.skipItem : Skip DecodeError := proto.repeating.skip

abbrev Proto.read (codec : Data Value) : Read DecodeError (Outcome Value) :=
  proto.framing.decodeFramed codec.wireType codec.decode

abbrev Proto.readOwned (codec : Data Value) : Read DecodeError Value :=
  owned (proto.read codec)

def Proto.readNode : Read DecodeError (NodeRef Id Address) :=
  proto.framing.decodeFramed proto.nodeData.wireType proto.nodeData.decodeRef

/-- The values that a `RepeatedDecoder` yields, converted. -/
abbrev Proto.collect (codec : Data Value) (wire : WireType) (tag : UInt8) (buffer : Bytes)
    (range : Option (Nat × Nat)) : Outcome (List Value) :=
  proto.repeating.repeated (merge wire tag) (proto.readOwned codec) buffer range

abbrev tagged (required room : Nat) (tag : UInt8) (body : Writer) : Writer :=
  .field (.insufficientBuffer required room) tag body

abbrev Proto.updated (required room : Nat) (body : Writer) : Writer :=
  body.mapErr (proto.framing.update required room)

def need (type field : String) : Option Value → Outcome Value
  | some value => .ok value
  | none => .error (.error (.missingField type field))

def utf8 (text : String) : Bytes := text.toUTF8.data.toList

end Primitives

/-- The nanoseconds that a `Duration` can hold. -/
def IsDuration (duration : Duration) : Prop := duration < 2 ^ 64 * 1000000000

section Laws

/-- Lengths round-trip, and `skip` takes a length and as many bytes as one field. -/
structure FrameLaws : Prop where
  u32 : LengthPrefix proto.u32
  skipsFrame : ∀ type tag, tag < 8 → ∀ length front body more,
    (Writer.ofCodec proto.u32 (UInt32.ofNat length)).Makes front → length ≤ maxLen →
    body.length = length →
    proto.skip type (merge .lengthDelimited tag :: (front ++ body ++ more)) =
      .ok (1 + (front ++ body).length)

structure ScalarLaws : Prop where
  u8Len : ∀ value, proto.u8.encodedLen value = 1
  u8Byte : ∀ value more, proto.u8.decode (value :: more) = .ok (1, .ok value)
  u64 : Plain proto.u64 fun _ => True
  bool : Plain proto.bool fun _ => True
  boolLen : proto.bool.encodedLen true = 1
  boolByte : ∀ more, proto.bool.decode (1 :: more) = .ok (1, .ok true)
  duration : Plain proto.duration IsDuration

structure TextLaws : Prop where
  str : Lawful proto.str (fun _ => True) Eq 0
  strWire : proto.str.wireType = .lengthDelimited
  strBytes : ∀ text, proto.str.decode (utf8 text) = .ok ((utf8 text).length, .ok text)
  bytes : Lawful proto.bytes (fun _ => True) Eq 0

structure IdLaws : Prop where
  id : Lawful proto.id (fun _ => True) Eq 0
  skipsId : proto.id.wireType ≠ .lengthDelimited → ∀ type tag, tag < 8 → ∀ value content more,
    (Writer.ofCodec proto.id value).Makes content →
    proto.skip type (merge proto.id.wireType tag :: (content ++ more)) = .ok (1 + content.length)

structure TagLaws : Prop where
  tag : Lawful proto.tag (fun _ => True) Eq 0
  tagWire : proto.tag.wireType = .lengthDelimited

/-- What the messages about joining, leaving and user events are made of. -/
structure GossipLaws : Prop
    extends FrameLaws proto, ScalarLaws proto, TextLaws proto, IdLaws proto where
  statusLtime : Lawful proto.statusLtime (fun _ => True) Eq 0
  statusLtimeWire : proto.statusLtime.wireType = .lengthDelimited

structure MemberLaws : Prop extends FrameLaws proto, TagLaws proto where
  node : Lawful proto.node (fun _ => True) Eq 0

/-- What queries and their answers are made of. An expression keeps its text. -/
structure QueryLaws : Prop
    extends FrameLaws proto, ScalarLaws proto, TextLaws proto, IdLaws proto where
  node : Lawful proto.node (fun _ => True) Eq 0
  regexText : ∀ pattern regex, proto.regexNew pattern = .ok regex → regex.pattern = pattern

structure KeyLaws : Prop extends FrameLaws proto, ScalarLaws proto, TextLaws proto where
  secretKey : Lawful proto.secretKey (fun _ => True) Eq 0
  secretKeyWire : proto.secretKey.wireType = .lengthDelimited

structure ProtoLaws : Prop
    extends GossipLaws proto, MemberLaws proto, QueryLaws proto, KeyLaws proto

structure FrameEncoders : Prop where
  u32 : ∀ value, (Writer.ofCodec proto.u32 value).Fits (proto.u32.encodedLen value) 0

structure ScalarEncoders : Prop where
  u8Len : ∀ value, proto.u8.encodedLen value = 1
  u64 : Encodes proto.u64 (fun _ => True) 0
  flag : (Writer.ofCodec proto.bool true).Fits 1 0
  duration : Encodes proto.duration IsDuration 0

structure TextEncoders : Prop where
  str : Encodes proto.str (fun _ => True) 0
  bytes : Encodes proto.bytes (fun _ => True) 0

structure GossipEncoders : Prop
    extends FrameEncoders proto, ScalarEncoders proto, TextEncoders proto where
  id : Encodes proto.id (fun _ => True) 0
  statusLtime : Encodes proto.statusLtime (fun _ => True) 0

structure MemberEncoders : Prop extends FrameEncoders proto where
  node : Encodes proto.node (fun _ => True) 0
  tag : Encodes proto.tag (fun _ => True) 0

structure QueryEncoders : Prop
    extends FrameEncoders proto, ScalarEncoders proto, TextEncoders proto where
  id : Encodes proto.id (fun _ => True) 0
  node : Encodes proto.node (fun _ => True) 0

structure KeyEncoders : Prop
    extends FrameEncoders proto, ScalarEncoders proto, TextEncoders proto where
  secretKey : Encodes proto.secretKey (fun _ => True) 0

structure Encoders : Prop
    extends GossipEncoders proto, MemberEncoders proto, QueryEncoders proto, KeyEncoders proto

/-- Reading a length and passing over a field come back on any bytes, take some
and no more than there are. -/
structure FrameTotal : Prop where
  u32 : TotalCodec proto.u32
  u32Plain : proto.u32.wireType ≠ .lengthDelimited
  skip : ∀ type, Skips (proto.skip type)
  skipItem : Skips proto.skipItem

structure ProtoTotal : Prop extends FrameTotal proto where
  u8 : TotalCodec proto.u8
  u64 : TotalCodec proto.u64
  f64 : TotalCodec proto.f64
  bool : TotalCodec proto.bool
  duration : TotalCodec proto.duration
  str : TotalCodec proto.str
  bytes : TotalCodec proto.bytes
  id : TotalCodec proto.id
  node : TotalNode proto.nodeData
  statusLtime : TotalCodec proto.statusLtime
  tag : TotalCodec proto.tag

end Laws

variable {proto}

section RoundTrips

variable {Value : Type} {codec : Data Value} {good : Value → Prop} {same : Value → Value → Prop}
  {slack : Nat}

theorem FrameEncoders.fits (encoders : FrameEncoders proto) (encodes : Encodes codec good slack)
    (value : Value) (valid : good value) (small : proto.framing.framedLen codec value ≤ maxLen) :
    (proto.framing.framed codec value).Fits (proto.framing.framedLen codec value) slack :=
  have short := framed_small proto.framing value small
  fits_frame encoders.u32 value (encodes value valid short) short

section Encoders

theorem FrameLaws.lengths (laws : FrameLaws proto) : FrameEncoders proto where
  u32 := laws.u32.encodes

theorem ScalarLaws.scalars (laws : ScalarLaws proto) : ScalarEncoders proto where
  u8Len := laws.u8Len
  u64 := laws.u64.fits
  flag := by
    have fits := laws.bool.fits true trivial (by rw [laws.boolLen]; decide)
    rwa [laws.boolLen] at fits
  duration := laws.duration.fits

theorem TextLaws.texts (laws : TextLaws proto) : TextEncoders proto where
  str := laws.str.fits
  bytes := laws.bytes.fits

theorem GossipLaws.encoders (laws : GossipLaws proto) : GossipEncoders proto where
  toFrameEncoders := laws.lengths
  toScalarEncoders := laws.scalars
  toTextEncoders := laws.texts
  id := laws.id.fits
  statusLtime := laws.statusLtime.fits

theorem MemberLaws.encoders (laws : MemberLaws proto) : MemberEncoders proto where
  toFrameEncoders := laws.lengths
  node := laws.node.fits
  tag := laws.tag.fits

theorem QueryLaws.encoders (laws : QueryLaws proto) : QueryEncoders proto where
  toFrameEncoders := laws.lengths
  toScalarEncoders := laws.scalars
  toTextEncoders := laws.texts
  id := laws.id.fits
  node := laws.node.fits

theorem KeyLaws.encoders (laws : KeyLaws proto) : KeyEncoders proto where
  toFrameEncoders := laws.lengths
  toScalarEncoders := laws.scalars
  toTextEncoders := laws.texts
  secretKey := laws.secretKey.fits

theorem ProtoLaws.encoders (laws : ProtoLaws proto) : Encoders proto where
  toGossipEncoders := laws.toGossipLaws.encoders
  node := laws.node.fits
  tag := laws.tag.fits
  secretKey := laws.secretKey.fits

end Encoders

section Frames

variable (laws : FrameLaws proto)

include laws

theorem FrameLaws.reads (lawful : Lawful codec good same slack) (value : Value)
    (valid : good value) (small : proto.framing.framedLen codec value ≤ maxLen) :
    Inverts (proto.framing.framed codec value) (proto.read codec) (Yields (same value)) :=
  framed_inverts laws.u32 lawful value valid (framed_small proto.framing value small)

theorem FrameLaws.readsOwned (lawful : Lawful codec good same slack) (value : Value)
    (valid : good value) (small : proto.framing.framedLen codec value ≤ maxLen) :
    Inverts (proto.framing.framed codec value) (proto.readOwned codec) (same value) :=
  inverts_owned (laws.reads lawful value valid small)

theorem FrameLaws.readsNode (lawful : Lawful proto.node (fun _ => True) Eq 0)
    (node : Node Id Address) (small : proto.node.encodedLen node ≤ maxLen) :
    Inverts (proto.framing.framed proto.node node) proto.readNode (borrowNode node = ·) := by
  intro bytes made
  obtain ⟨_, ⟨_, rfl, rfl⟩, reads⟩ := framed_inverts laws.u32 lawful node trivial small bytes made
  refine ⟨borrowNode node, rfl, ?_⟩
  intro more
  have whole : proto.read proto.node _ = _ := reads more
  rw [Proto.read, show proto.node.decode = mapRead convertNode proto.nodeData.decodeRef from rfl,
    proto.framing.decodeFramed_mapRead] at whole
  obtain ⟨⟨taken, ref⟩, borrowed, equal⟩ := map_ok whole
  obtain ⟨rfl, converted⟩ := Prod.mk.injEq .. ▸ equal
  rw [convertNode_ok_iff] at converted
  rw [← converted]
  exact borrowed

theorem FrameLaws.skips_frame (delimited : codec.wireType = .lengthDelimited) (value : Value)
    (fits : (Writer.ofCodec codec value).Fits (codec.encodedLen value) slack) (type : String)
    (tag : UInt8) (low : tag < 8) :
    Skipped (merge .lengthDelimited tag) (proto.skip type) (proto.framing.framed codec value) := by
  intro content made more
  obtain ⟨front, body, rfl, small, head, _⟩ := makes_framed delimited value fits content made
  exact laws.skipsFrame type tag low _ front body more head small rfl

theorem FrameLaws.skips (lawful : Lawful codec good same slack)
    (delimited : codec.wireType = .lengthDelimited) (value : Value) (valid : good value)
    (small : proto.framing.framedLen codec value ≤ maxLen) (type : String) (tag : UInt8)
    (low : tag < 8) :
    Skipped (merge .lengthDelimited tag) (proto.skip type) (proto.framing.framed codec value) :=
  laws.skips_frame delimited value
    (lawful.fits value valid (framed_small proto.framing value small)) type tag low

theorem FrameLaws.skips_id (ids : IdLaws proto) (id : Id)
    (small : proto.framing.framedLen proto.id id ≤ maxLen) (type : String) (tag : UInt8)
    (low : tag < 8) :
    Skipped (merge proto.id.wireType tag) (proto.skip type)
      (proto.framing.framed proto.id id) := by
  by_cases delimited : proto.id.wireType = .lengthDelimited
  · have skips := laws.skips ids.id delimited id trivial small type tag low
    rwa [← delimited] at skips
  · intro content made more
    rw [proto.framing.framed_plain delimited] at made
    exact ids.skipsId delimited type tag low id content more made

theorem FrameLaws.collects (lawful : Lawful codec good same slack) {State : Type}
    {arms : UInt8 → Arm DecodeError State} {start state : State} {buffer : Bytes}
    {groups : List (List Part)} {slot : Slot State (Nat × Nat)}
    {skip : Skip DecodeError} {wire : WireType} {tag : UInt8} (items : List Value)
    (so : Stands arms start buffer state
      ((items.map fun item => ⟨merge wire tag, proto.framing.framed codec item⟩) :: groups))
    (arm : arms (merge wire tag) = spread slot skip)
    (skips : ∀ item ∈ items,
      Skipped (merge wire tag) skip (proto.framing.framed codec item))
    (valid : ∀ item ∈ items, good item)
    (short : ∀ item ∈ items, proto.framing.framedLen codec item ≤ maxLen)
    (fresh : slot.held state = none) :
    ∃ range found, List.Forall₂ same items found ∧
      proto.collect codec wire tag buffer range = .ok found ∧
      Stands arms start buffer (slot.put state range) groups := by
  obtain ⟨range, found, alike, collected, stands⟩ := so.repeated items arm skips
    (fun item inside => laws.readsOwned lawful item (valid item inside) (short item inside)) fresh
  refine ⟨range, found, alike, ?_, stands⟩
  rw [Proto.collect, proto.repeating.repeated_eq]
  exact collected

end Frames

theorem byte_inverts {Found : Type} (full : EncodeError) (value : UInt8)
    (read : Read DecodeError Found) (found : Found)
    (reads : ∀ more, read (value :: more) = .ok (1, found)) :
    Inverts (Writer.byte full value) read (found = ·) := by
  intro bytes made
  rw [Writer.makes_byte full value bytes made]
  exact ⟨found, rfl, reads⟩

theorem ScalarLaws.flag_inverts (laws : ScalarLaws proto) (full : EncodeError) :
    Inverts (Writer.byte full 1) proto.bool.decodeOwned (true = ·) := by
  apply byte_inverts
  intro more
  rw [Codec.decodeOwned, laws.boolByte more]

theorem ScalarLaws.u8_inverts (laws : ScalarLaws proto) (full : EncodeError) (value : UInt8) :
    Inverts (Writer.byte full value) proto.u8.decodeOwned (value = ·) := by
  apply byte_inverts
  intro more
  rw [Codec.decodeOwned, laws.u8Byte value more]

end RoundTrips

theorem elided_value {Value : Type} {present : Bool} {held : Option Value} {value default : Value}
    (kept : if present then ∃ found, held = some found ∧ value = found else held = none)
    (absent : present = false → value = default) : held.getD default = value := by
  cases present with
  | false =>
    rw [show held = none from kept, absent rfl]
    rfl
  | true =>
    obtain ⟨found, rfl, rfl⟩ := kept
    rfl

theorem elided_flag {present : Bool} {held : Option Bool}
    (kept : if present then ∃ found, held = some found ∧ true = found else held = none) :
    held.getD false = present := by
  cases present with
  | false =>
    rw [show held = none from kept]
    rfl
  | true =>
    obtain ⟨found, rfl, rfl⟩ := kept
    rfl

theorem isEmpty_string {text : String} (empty : (!text.isEmpty) = false) : text = "" := by
  simpa using empty

theorem isEmpty_bytes {bytes : Bytes} (empty : (!bytes.isEmpty) = false) : bytes = [] := by
  simpa using empty

theorem items_small {Value : Type} (proto : Proto Id Address) (codec : Data Value)
    (items : List Value)
    (small : (items.map fun item => 1 + proto.framing.framedLen codec item).sum ≤ maxLen) :
    ∀ item ∈ items, proto.framing.framedLen codec item ≤ maxLen := by
  intro item inside
  have part := List.le_sum_of_mem
    (List.mem_map_of_mem (f := fun item => 1 + proto.framing.framedLen codec item) inside)
  omega

section Totals

variable {Value : Type} {codec : Data Value} (total : FrameTotal proto)

theorem total_decodeOwned (back : TotalCodec codec) :
    Total codec.decodeOwned 0 fun _ => True := by
  have owns := total_owned back
  rw [← decodeOwned_eq] at owns
  exact ⟨takes_least owns.takes, owns.returns⟩

def Settled (held : Option (Outcome Value)) : Prop :=
  ∀ outcome, held = some outcome → Returns outcome

theorem settled_none : Settled (none : Option (Outcome Value)) := by
  intro outcome held
  cases held

theorem settled_some {outcome : Outcome Value} (back : Returns outcome) :
    Settled (some outcome) := by
  intro other held
  cases held
  exact back

def SettledNode (held : Option (NodeRef Id Address)) : Prop :=
  ∀ node, held = some node → Returns node.id ∧ Returns node.address

theorem settledNode_none : SettledNode (none : Option (NodeRef Id Address)) := by
  intro node held
  cases held

theorem settledNode_some {node : NodeRef Id Address}
    (back : Returns node.id ∧ Returns node.address) : SettledNode (some node) := by
  intro other held
  cases held
  exact back

theorem ends_need {Next : Type} {after : Next → Prop} {next : Value → Outcome Next}
    (type field : String) (held : Option Value)
    (later : ∀ value, held = some value → Ends after (next value)) :
    Ends after (need type field held >>= next) := by
  cases held with
  | none => trivial
  | some value => exact later value rfl

include total

theorem FrameTotal.lengths : Total proto.u32.decodeOwned 1 fun _ => True := by
  have back := total.u32
  rw [TotalCodec, if_neg total.u32Plain] at back
  rw [decodeOwned_eq]
  exact total_owned back

theorem FrameTotal.read (back : TotalCodec codec) : Total (proto.read codec) 1 Returns :=
  total_framed total.lengths back

theorem FrameTotal.readOwned (back : TotalCodec codec) :
    Total (proto.readOwned codec) 1 fun _ => True :=
  total_owned (total.read back)

theorem FrameTotal.collect (back : TotalCodec codec) (wire : WireType) (tag : UInt8)
    (buffer : Bytes) (range : Option (Nat × Nat)) (inside : Within range buffer.length) :
    Returns (proto.collect codec wire tag buffer range) := by
  rw [Proto.collect, proto.repeating.repeated_eq]
  exact repeated_returns total.skipItem (total.readOwned back) (merge wire tag) buffer range inside

theorem FrameTotal.readNode (back : TotalNode proto.nodeData) :
    Total proto.readNode 1 fun node => Returns node.id ∧ Returns node.address :=
  total_framed total.lengths back

omit total in
theorem convertNode_returns (node : NodeRef Id Address)
    (back : Returns node.id ∧ Returns node.address) : Returns (convertNode node) :=
  returns_bind back.1 fun _ _ => returns_bind back.2 fun _ _ => trivial

omit total in
theorem ProtoTotal.wholeNode (total : ProtoTotal proto) : TotalCodec proto.node :=
  total_mapRead Returns total.node convertNode_returns

end Totals

end Serf.Wire
