import Serf.Library.Pieces
import Serf.Wire.Message
import Serf.Wire.Reference

/-!
What `encode` does with a buffer of any length. It fills as many bytes of it as
`encoded_len` says, or it reports that there is no room for them. A length-delimited part
whose length does not fit into 32 bits is reported as too large instead, once there is
room for its tag byte. Two encoders have faults of their own: that of a member does not
look whether there is room for its last byte, so a buffer that is one byte short makes it
panic, and with it the encoder of an answer to an id conflict; that of a filter refuses an
empty buffer even where it has nothing to write.
-/

namespace Serf.Wire

open Library.Collections Library.Encoding QueryHandler

variable {Id Address : Type} [DecidableEq Id] (proto : Proto Id Address)

/-- A value of one of the types that this crate encodes. -/
inductive Datum (Id Address : Type) where
  | message (message : Message Id Address)
  | filter (filter : QueryHandler.Filter Id)
  | tagFilter (filter : TagFilter)
  | tags (tags : Tags)
  | member (member : Member Id Address)
  | coordinate (coordinate : Coordinate)
  | userEvent (event : UserEvent)
  | userEvents (events : UserEvents)

def Datum.encodedLen : Datum Id Address → Nat
  | .message value => (value.encodable proto).encodedLen
  | .filter value => filterLen proto value
  | .tagFilter value => tagFilterLen proto value
  | .tags value => tagsLen proto value
  | .member value => memberLen proto value
  | .coordinate value => coordinateLen proto value
  | .userEvent value => userEventLen proto value
  | .userEvents value => userEventsLen proto value

def Datum.encode : Datum Id Address → Writer
  | .message value => (value.encodable proto).encode
  | .filter value => .ofCodec (Wire.filter proto) value
  | .tagFilter value => .ofCodec (Wire.tagFilter proto) value
  | .tags value => .ofCodec (Wire.tags proto) value
  | .member value => .ofCodec (Wire.member proto) value
  | .coordinate value => .ofCodec (Wire.coordinate proto) value
  | .userEvent value => .ofCodec (Wire.userEvent proto) value
  | .userEvents value => .ofCodec (Wire.userEvents proto) value

/-- The timeout of a query is a duration. -/
def Datum.Proper : Datum Id Address → Prop
  | .message value => value.Proper
  | _ => True

/-- With this much room the buffer is filled as announced, or refused for the lack of it. -/
def Honoured (writer : Writer) (length room : Nat) : Prop :=
  if length ≤ room then ∃ bytes, writer.write room = .ok bytes ∧ bytes.length = length
  else ∃ required remaining, writer.write room = .error (.insufficientBuffer required remaining)

/-- The buffers with which an encoder has a fault of its own. -/
def Datum.Breaks (room : Nat) : Datum Id Address → Prop
  | .message (.conflictResponse value) => room + 1 = conflictResponseLen proto value
  | .member value => room + 1 = memberLen proto value
  | .filter value => filterLen proto value = 0 ∧ room = 0
  | _ => False

section Pieces

abbrev framedPiece {Value : Type} (codec : Data Value) (value : Value) : Piece :=
  .framed proto.framing codec value

def userEventPieces (event : UserEvent) : List Piece :=
  [if !event.name.isEmpty then [framedPiece proto proto.str event.name] else [],
    if !event.payload.isEmpty then [framedPiece proto proto.bytes event.payload] else []].flatten

def userEventsPieces (events : UserEvents) : List Piece :=
  [[.plain (proto.u64.encodedLen events.ltime)],
    events.events.map (framedPiece proto (userEvent proto))].flatten

def tagFilterPieces (filter : TagFilter) : List Piece :=
  [[framedPiece proto proto.str filter.tag],
    filter.expr.toList.map fun expr =>
      .plain (proto.u32.encodedLen (UInt32.ofNat (utf8 expr.pattern).length) +
        (utf8 expr.pattern).length)].flatten

def filterPieces : QueryHandler.Filter Id → List Piece
  | .id ids => ids.map (framedPiece proto proto.id)
  | .tag tag => [framedPiece proto (tagFilter proto) tag]

def memberPieces (member : Member Id Address) : List Piece :=
  [[framedPiece proto proto.node member.node], [framedPiece proto (tags proto) member.tags],
    [.plain 1], [.plain 1], [.plain 1], [.plain 1], [.plain 1]].flatten

def messagePieces : Message Id Address → List Piece
  | .leave message =>
    [[.plain (proto.u64.encodedLen message.ltime)], if message.prune then [.plain 1] else [],
      [framedPiece proto proto.id message.id]].flatten
  | .join message =>
    [[.plain (proto.u64.encodedLen message.ltime)],
      [framedPiece proto proto.id message.id]].flatten
  | .pushPull message =>
    [[.plain (proto.u64.encodedLen message.ltime)],
      (pairs message.statusLtimes).map (framedPiece proto proto.statusLtime),
      message.leftMembers.map (framedPiece proto proto.id),
      [.plain (proto.u64.encodedLen message.eventLtime)],
      message.events.map (framedPiece proto (userEvents proto)),
      [.plain (proto.u64.encodedLen message.queryLtime)]].flatten
  | .userEvent message =>
    [[.plain (proto.u64.encodedLen message.ltime)], if message.cc then [.plain 1] else [],
      if !message.name.isEmpty then [framedPiece proto proto.str message.name] else [],
      if !message.payload.isEmpty then
        [framedPiece proto proto.bytes message.payload] else []].flatten
  | .query message =>
    [[.plain (proto.u64.encodedLen message.ltime)], [.plain (proto.u32.encodedLen message.id)],
      [framedPiece proto proto.node message.fromNode],
      message.filters.map (framedPiece proto (filter proto)),
      [.plain (proto.u32.encodedLen message.flags)],
      [.plain (proto.u8.encodedLen message.relayFactor)],
      [.plain (proto.duration.encodedLen message.timeout)],
      if !message.name.isEmpty then [framedPiece proto proto.str message.name] else [],
      if !message.payload.isEmpty then
        [framedPiece proto proto.bytes message.payload] else []].flatten
  | .queryResponse message =>
    [[.plain (proto.u64.encodedLen message.ltime)], [.plain (proto.u32.encodedLen message.id)],
      [framedPiece proto proto.node message.fromNode],
      [.plain (proto.u32.encodedLen message.flags)],
      if !message.payload.isEmpty then
        [framedPiece proto proto.bytes message.payload] else []].flatten
  | .conflictResponse message => [framedPiece proto (member proto) message.member]
  | .keyRequest message => message.key.toList.map (framedPiece proto proto.secretKey)
  | .keyResponse message =>
    [if message.result then [.plain 1] else [],
      if !message.message.isEmpty then [framedPiece proto proto.str message.message] else [],
      message.keys.map (framedPiece proto proto.secretKey),
      message.primaryKey.toList.map (framedPiece proto proto.secretKey)].flatten

def Datum.pieces : Datum Id Address → List Piece
  | .message value => messagePieces proto value
  | .filter value => filterPieces proto value
  | .tagFilter value => tagFilterPieces proto value
  | .tags value => (pairs value).map (framedPiece proto proto.tag)
  | .member value => memberPieces proto value
  | .coordinate value =>
    [value.portion.map fun x => .plain (proto.f64.encodedLen x),
      [.plain (proto.f64.encodedLen value.error)],
      [.plain (proto.f64.encodedLen value.adjustment)],
      [.plain (proto.f64.encodedLen value.height)]].flatten
  | .userEvent value => userEventPieces proto value
  | .userEvents value => userEventsPieces proto value

/-- A length-delimited part is too large, and the buffer reaches as far as its tag byte. -/
def Datum.TooLarge (room : Nat) (value : Datum Id Address) : Prop :=
  ∃ before part behind, value.pieces proto = before ++ part :: behind ∧
    maxLen < part.content ∧ totalSize before < room

end Pieces

section Contract

omit [DecidableEq Id]

variable {Value : Type}

def Honest (codec : Data Value) (good : Value → Prop) (ending : Ending) : Prop :=
  ∀ value, good value → announcedLen codec value ≤ maxLen →
    (Writer.ofCodec codec value).Settles (codec.encodedLen value) 0 ending

def Exact (codec : Data Value) (good : Value → Prop) : Prop :=
  ∀ value, good value → (Writer.ofCodec codec value).Settles (codec.encodedLen value) 0 .neat

/-- The encoders of other crates honour the contract. Numbers are not length-delimited. -/
structure PrimitiveContract : Prop where
  u8Len : ∀ value, proto.u8.encodedLen value = 1
  u32 : Exact proto.u32 fun _ => True
  u64 : Exact proto.u64 fun _ => True
  f64 : Exact proto.f64 fun _ => True
  f64Wire : proto.f64.wireType ≠ .lengthDelimited
  flag : (Writer.ofCodec proto.bool true).Settles 1 0 .neat
  duration : Exact proto.duration IsDuration
  str : Honest proto.str (fun _ => True) .neat
  bytes : Honest proto.bytes (fun _ => True) .neat
  id : Honest proto.id (fun _ => True) .neat
  node : Honest proto.node (fun _ => True) .neat
  statusLtime : Honest proto.statusLtime (fun _ => True) .neat
  tag : Honest proto.tag (fun _ => True) .neat
  secretKey : Honest proto.secretKey (fun _ => True) .neat

variable {proto}

theorem honest_of_follows {codec : Data Value} {good : Value → Prop} {ending : Ending}
    (pieces : Value → List Piece) (delimits : codec.wireType = .lengthDelimited)
    (sizes : ∀ value, totalSize (pieces value) = codec.encodedLen value)
    (follows : ∀ value, good value → (Writer.ofCodec codec value).Follows (pieces value) ending) :
    Honest codec good ending := by
  intro value valid small
  rw [announcedLen, if_pos delimits, ← sizes] at small
  rw [← sizes]
  exact Writer.settles_of_follows (follows value valid) small

theorem total_framed (codec : Data Value) (items : List Value) :
    totalSize (items.map (framedPiece proto codec)) =
      (items.map fun item => 1 + proto.framing.framedLen codec item).sum := by
  rw [totalSize, List.map_map]
  rfl

variable (contract : PrimitiveContract proto)

section Fields

variable {codec : Data Value} {good : Value → Prop} {len room : Nat} {tag : UInt8}

theorem follows_byte (value : UInt8) :
    (tagged len room tag (.byte (.insufficientBuffer len room) value)).Follows [.plain 1] .neat :=
  Writer.follows_field _ Ending.noConfusion
    (Writer.settles_of_fits (Writer.fits_byte _ _) (Writer.orderly_byte _ _ _))

theorem follows_plain {writer : Writer} {length : Nat} (settles : writer.Settles length 0 .neat) :
    (tagged len room tag writer).Follows [.plain length] .neat :=
  Writer.follows_field _ Ending.noConfusion settles

theorem follows_updated {writer : Writer} {length : Nat} (settles : writer.Settles length 0 .neat) :
    (tagged len room tag (proto.updated len room writer)).Follows [.plain length] .neat :=
  follows_plain (settles_update len room settles)

include contract

theorem PrimitiveContract.settles {ending : Ending} (honest : Honest codec good ending)
    (value : Value) (valid : good value) (loose : ending = .loose → 0 < codec.encodedLen value) :
    (proto.framing.framed codec value).Settles (proto.framing.framedLen codec value)
      (announcedLen codec value) ending :=
  settles_frame (fun length => contract.u32 length trivial) (honest value valid) loose

theorem PrimitiveContract.frame (honest : Honest codec good .neat) (value : Value)
    (valid : good value) :
    (tagged len room tag (proto.framing.framed codec value)).Follows
      [framedPiece proto codec value] .neat :=
  Writer.follows_field _ Ending.noConfusion
    (contract.settles honest value valid Ending.noConfusion)

theorem PrimitiveContract.frameUpdated (honest : Honest codec good .neat) (value : Value)
    (valid : good value) :
    (tagged len room tag (proto.updated len room (proto.framing.framed codec value))).Follows
      [framedPiece proto codec value] .neat :=
  Writer.follows_field _ Ending.noConfusion
    (settles_update len room (contract.settles honest value valid Ending.noConfusion))

end Fields

section Sizes

omit contract

theorem total_if {present : Bool} (piece : Piece) :
    totalSize (if present then [piece] else []) = if present then piece.size else 0 := by
  cases present <;> rfl

theorem total_key (key : Option SecretKey) :
    totalSize (key.toList.map (framedPiece proto proto.secretKey)) = keyLen proto key := by
  cases key <;> rfl

theorem userEvent_sizes (event : UserEvent) :
    totalSize (userEventPieces proto event) = userEventLen proto event := by
  simp only [userEventPieces, userEventLen, List.flatten_cons, List.flatten_nil, totalSize_append,
    total_if, List.sum_cons]
  rfl

theorem userEvents_sizes (events : UserEvents) :
    totalSize (userEventsPieces proto events) = userEventsLen proto events := by
  simp only [userEventsPieces, userEventsLen, List.flatten_cons, List.flatten_nil,
    totalSize_append, total_framed, List.sum_cons]
  rfl

theorem tagFilter_sizes (filter : TagFilter) :
    totalSize (tagFilterPieces proto filter) = tagFilterLen proto filter := by
  simp only [tagFilterPieces, tagFilterLen, List.flatten_cons, List.flatten_nil,
    totalSize_append, List.sum_cons]
  cases filter.expr <;> rfl

theorem filter_sizes (one : QueryHandler.Filter Id) :
    totalSize (filterPieces proto one) = filterLen proto one := by
  cases one with
  | id ids => exact total_framed proto.id ids
  | tag tag => rfl

theorem member_sizes (value : Member Id Address) :
    totalSize (memberPieces proto value) = memberLen proto value := rfl

theorem message_sizes [DecidableEq Id] (value : Message Id Address) :
    totalSize (messagePieces proto value) = (value.encodable proto).encodedLen := by
  cases value with
  | leave | join | pushPull | query | queryResponse =>
    simp only [messagePieces, List.flatten_cons, List.flatten_nil, totalSize_append, total_if,
      total_framed]
    rfl
  | userEvent message =>
    -- The flag is counted last and written second.
    simp only [messagePieces, List.flatten_cons, List.flatten_nil, totalSize_append, total_if,
      totalSize_cons, totalSize_nil]
    change _ = userEventMessageLen proto message
    simp only [userEventMessageLen, List.sum_cons, List.sum_nil, Piece.plain, Piece.framed]
    omega
  | conflictResponse => rfl
  | keyRequest message => exact total_key message.key
  | keyResponse message =>
    simp only [messagePieces, List.flatten_cons, List.flatten_nil, totalSize_append, total_if,
      total_key]
    rw [total_framed]
    rfl

end Sizes

include contract

theorem userEvent_follows (event : UserEvent) :
    (Writer.ofCodec (userEvent proto) event).Follows (userEventPieces proto event) .neat := by
  refine follows_ofWriter fun room => Writer.follows_all (.cons ?_ (.cons ?_ .nil))
  · exact Writer.follows_onlyIf (contract.frame contract.str event.name trivial)
  · exact Writer.follows_onlyIf (contract.frame contract.bytes event.payload trivial)

theorem userEvent_honest : Honest (userEvent proto) (fun _ => True) .neat :=
  honest_of_follows (userEventPieces proto) rfl userEvent_sizes fun event _ =>
    userEvent_follows contract event

theorem userEvents_follows (events : UserEvents) :
    (Writer.ofCodec (userEvents proto) events).Follows (userEventsPieces proto events) .neat := by
  refine follows_ofWriter fun room => Writer.follows_all (.cons ?_ (.cons ?_ .nil))
  · exact follows_updated (contract.u64 events.ltime trivial)
  · exact follows_update _ _ (Writer.follows_each Ending.noConfusion fun event _ =>
      contract.frame (userEvent_honest contract) event trivial)

theorem userEvents_honest : Honest (userEvents proto) (fun _ => True) .neat :=
  honest_of_follows (userEventsPieces proto) rfl userEvents_sizes fun events _ =>
    userEvents_follows contract events

theorem expr_follows (len size : Nat) (expr : Regex) :
    (exprWriter proto len size expr).Follows
      [.plain (proto.u32.encodedLen (UInt32.ofNat (utf8 expr.pattern).length) +
        (utf8 expr.pattern).length)] .neat := by
  refine Writer.follows_checking fun room enough => ?_
  simp only [List.foldr_cons, List.foldr_nil, Nat.add_zero] at enough ⊢
  have head : (Writer.byte (.insufficientBuffer len size) (merge .lengthDelimited 2)).Fills room
      1 := ⟨_, if_neg (by omega), rfl⟩
  have length := contract.u32 (UInt32.ofNat (utf8 expr.pattern).length) trivial (room - 1)
  rw [if_neg (Nat.not_lt_zero _), if_neg (by omega)] at length
  obtain filled | ⟨⟨⟩, _⟩ := length
  have pattern : (Writer.raw (.insufficientBuffer len size) (utf8 expr.pattern)).Fills
      (room - 1 - proto.u32.encodedLen (UInt32.ofNat (utf8 expr.pattern).length))
      (utf8 expr.pattern).length := ⟨_, if_neg (by omega), rfl⟩
  exact Writer.andThen_fills head (Writer.andThen_fills filled
    (Writer.andThen_fills pattern ⟨[], rfl, rfl⟩))

theorem tagFilter_follows (filter : TagFilter) :
    (Writer.ofCodec (tagFilter proto) filter).Follows (tagFilterPieces proto filter) .neat := by
  refine follows_ofWriter fun room => Writer.follows_all (.cons ?_ (.cons ?_ .nil))
  · exact contract.frameUpdated contract.str filter.tag trivial
  · cases filter.expr with
    | none => exact Writer.follows_nothing
    | some expr => exact expr_follows contract _ room expr

theorem tagFilter_honest : Honest (tagFilter proto) (fun _ => True) .neat :=
  honest_of_follows (tagFilterPieces proto) rfl tagFilter_sizes fun filter _ =>
    tagFilter_follows contract filter

theorem tags_follows (value : Tags) :
    (Writer.ofCodec (tags proto) value).Follows ((pairs value).map (framedPiece proto proto.tag))
      .neat :=
  follows_ofWriter fun _ => follows_update _ _ (Writer.follows_each Ending.noConfusion
    fun pair _ => contract.frame contract.tag pair trivial)

theorem tags_honest : Honest (tags proto) (fun _ => True) .neat :=
  honest_of_follows _ rfl (fun value => total_framed proto.tag (pairs value))
    fun value _ => tags_follows contract value

theorem filterFields_follows (len room : Nat) (one : QueryHandler.Filter Id) :
    (match one with
    | .id ids => proto.updated len room (.all (ids.map fun id =>
      tagged len room (merge proto.id.wireType 1) (proto.framing.framed proto.id id)))
    | .tag tag => tagged len room (merge .lengthDelimited 2)
        (proto.updated len room (proto.framing.framed (tagFilter proto) tag))).Follows
      (filterPieces proto one) .neat := by
  cases one with
  | id ids =>
    exact follows_update _ _ (Writer.follows_each Ending.noConfusion fun id _ =>
      contract.frame contract.id id trivial)
  | tag tag => exact contract.frameUpdated (tagFilter_honest contract) tag trivial

theorem filter_honest : Honest (filter proto) (fun _ => True) .hungry :=
  honest_of_follows (filterPieces proto) rfl filter_sizes fun one _ => follows_ofWriter fun room =>
    Writer.hungry_checking (filterFields_follows contract _ room one)

theorem member_follows (value : Member Id Address) :
    (Writer.ofCodec (member proto) value).Follows (memberPieces proto value) .loose := by
  have last (version : UInt8) : (Writer.byte .outOfBounds version).Settles 1 0 .loose := by
    intro room
    cases room with
    | zero => exact rfl
    | succ left => exact Or.inl ⟨[version], rfl, rfl⟩
  refine follows_ofWriter fun room => ?_
  refine Writer.follows_cons (contract.frame contract.node value.node trivial) ?_ nofun
  refine Writer.follows_cons (contract.frame (tags_honest contract) value.tags trivial) ?_ nofun
  iterate 4 refine Writer.follows_cons (follows_byte _) ?_ nofun
  exact Writer.follows_last (Writer.follows_field _ (fun _ => Nat.one_pos) (last _))

theorem member_honest : Honest (member proto) (fun _ => True) .loose :=
  honest_of_follows (memberPieces proto) rfl member_sizes fun value _ =>
    member_follows contract value

omit contract in
theorem member_pos (value : Member Id Address) : 0 < memberLen proto value := by
  simp only [memberLen, List.sum_cons]
  omega

theorem conflictResponse_follows (message : ConflictResponseMessage Id Address) :
    (Writer.ofCodec (conflictResponse proto) message).Follows
      [framedPiece proto (member proto) message.member] .loose := by
  have some : 0 < memberLen proto message.member := member_pos message.member
  refine follows_ofWriter fun room => Writer.follows_field _ (fun _ => ?_) (settles_update _ _
    (contract.settles (member_honest contract) message.member trivial fun _ => some))
  rw [proto.framing.framedLen_delimited rfl]
  exact lt_of_lt_of_le some (Nat.le_add_left ..)

theorem query_follows (message : QueryMessage Id Address) (proper : IsDuration message.timeout) :
    (Writer.ofCodec (query proto) message).Follows (messagePieces proto (.query message))
      .neat := by
  refine follows_ofWriter fun room => ?_
  have filters (len : Nat) : (Writer.all (message.filters.map fun one =>
      tagged len room (merge .lengthDelimited 4)
        (proto.updated len room (proto.framing.framed (filter proto) one)))).Follows
      (message.filters.map (framedPiece proto (filter proto))) .hungry :=
    Writer.follows_each Ending.noConfusion fun one _ =>
      Writer.follows_field _ Ending.noConfusion (settles_update _ _
        (contract.settles (filter_honest contract) one trivial Ending.noConfusion))
  refine Writer.follows_cons (follows_updated (contract.u64 message.ltime trivial)) ?_
    Ending.noConfusion
  refine Writer.follows_cons (follows_updated (contract.u32 message.id trivial)) ?_
    Ending.noConfusion
  refine Writer.follows_cons (contract.frameUpdated contract.node message.fromNode trivial) ?_
    Ending.noConfusion
  -- The flags behind the filters keep the last of them from standing at the end of the slice.
  refine Writer.follows_andThen Ending.noConfusion (filters _) (Writer.follows_all
      (.cons (follows_updated (contract.u32 message.flags trivial)) (.cons ?_
      (.cons (follows_updated (contract.duration message.timeout proper))
      (.cons (Writer.follows_onlyIf (contract.frameUpdated contract.str message.name trivial))
      (.cons (Writer.follows_onlyIf (contract.frameUpdated contract.bytes message.payload trivial))
      .nil)))))) ?_ Ending.noConfusion
  · rw [contract.u8Len]
    exact follows_byte message.relayFactor
  · intro _
    exact ⟨Ending.noConfusion, fun empty => absurd empty (List.cons_ne_nil _ _)⟩

theorem message_follows [DecidableEq Id] (value : Message Id Address) (proper : value.Proper)
    (other : value.ty ≠ .conflictResponse) :
    (value.encodable proto).encode.Follows (messagePieces proto value) .neat := by
  have ltime (ltime : LamportTime) := contract.u64 ltime trivial
  have word (value : UInt32) := contract.u32 value trivial
  cases value with
  | leave message =>
    exact follows_ofWriter fun room => Writer.follows_all
      (.cons (follows_updated (ltime message.ltime))
      (.cons (Writer.follows_onlyIf (follows_updated contract.flag))
      (.cons (contract.frameUpdated contract.id message.id trivial) .nil)))
  | join message =>
    exact follows_ofWriter fun room => Writer.follows_all
      (.cons (follows_plain (ltime message.ltime))
      (.cons (contract.frame contract.id message.id trivial) .nil))
  | pushPull message =>
    exact follows_ofWriter fun room => Writer.follows_all
      (.cons (follows_plain (ltime message.ltime))
      (.cons (follows_update _ _ (Writer.follows_each Ending.noConfusion fun pair _ =>
        contract.frame contract.statusLtime pair trivial))
      (.cons (follows_update _ _ (Writer.follows_each Ending.noConfusion fun id _ =>
        contract.frame contract.id id trivial))
      (.cons (follows_plain (ltime message.eventLtime))
      (.cons (follows_update _ _ (Writer.follows_each Ending.noConfusion fun events _ =>
        contract.frame (userEvents_honest contract) events trivial))
      (.cons (follows_plain (ltime message.queryLtime)) .nil))))))
  | userEvent message =>
    exact follows_ofWriter fun room => Writer.follows_all
      (.cons (follows_updated (ltime message.ltime))
      (.cons (Writer.follows_onlyIf (follows_byte 1))
      (.cons (Writer.follows_onlyIf (contract.frame contract.str message.name trivial))
      (.cons (Writer.follows_onlyIf (contract.frame contract.bytes message.payload trivial))
      .nil))))
  | query message => exact query_follows contract message proper
  | queryResponse message =>
    exact follows_ofWriter fun room => Writer.follows_all
      (.cons (follows_updated (ltime message.ltime))
      (.cons (follows_updated (word message.id))
      (.cons (contract.frameUpdated contract.node message.fromNode trivial)
      (.cons (follows_updated (word message.flags))
      (.cons (Writer.follows_onlyIf
        (contract.frameUpdated contract.bytes message.payload trivial)) .nil)))))
  | conflictResponse message => exact absurd rfl other
  | keyRequest message =>
    exact follows_ofWriter fun room => Writer.follows_optional message.key fun key =>
      contract.frame contract.secretKey key trivial
  | keyResponse message =>
    exact follows_ofWriter fun room => Writer.follows_all
      (.cons (Writer.follows_onlyIf (follows_byte 1))
      (.cons (Writer.follows_onlyIf (contract.frame contract.str message.message trivial))
      (.cons (Writer.follows_each Ending.noConfusion fun key _ =>
        contract.frame contract.secretKey key trivial)
      (.cons (Writer.follows_optional message.primaryKey fun key =>
        contract.frame contract.secretKey key trivial) .nil))))

theorem coordinate_follows (value : Coordinate) :
    (Writer.ofCodec (coordinate proto) value).Follows
      ([value.portion.map fun x => .plain (proto.f64.encodedLen x),
        [.plain (proto.f64.encodedLen value.error)],
        [.plain (proto.f64.encodedLen value.adjustment)],
        [.plain (proto.f64.encodedLen value.height)]].flatten) .neat := by
  have number (x : F64) := contract.f64 x trivial
  exact follows_ofWriter fun room => Writer.follows_all
    (.cons (Writer.follows_each Ending.noConfusion fun x _ => follows_updated (number x))
    (.cons (follows_plain (number value.error))
    (.cons (follows_plain (number value.adjustment))
    (.cons (follows_plain (number value.height)) .nil))))

theorem coordinate_sizes (value : Coordinate) :
    totalSize [value.portion.map fun x => .plain (proto.f64.encodedLen x),
        [.plain (proto.f64.encodedLen value.error)],
        [.plain (proto.f64.encodedLen value.adjustment)],
        [.plain (proto.f64.encodedLen value.height)]].flatten = coordinateLen proto value := by
  have portion : totalSize (value.portion.map fun x => .plain (proto.f64.encodedLen x)) =
      (value.portion.map fun x => 1 + proto.framing.framedLen proto.f64 x).sum := by
    rw [totalSize, List.map_map]
    simp only [proto.framing.framedLen_plain contract.f64Wire]
    rfl
  simp only [List.flatten_cons, List.flatten_nil, totalSize_append, portion]
  rfl

end Contract

section Honoured

omit [DecidableEq Id]

variable {writer : Writer} {pieces : List Piece} {length room : Nat}

theorem honoured_of_meets (sizes : totalSize pieces = length)
    (meets : writer.Meets room (totalSize pieces) .neat (verdict pieces room)) :
    Honoured writer length room ↔ verdict pieces room ≠ .refused := by
  subst sizes
  cases reached : verdict pieces room with
  | refused =>
    rw [reached] at meets
    refine iff_of_false ?_ (not_not_intro rfl)
    intro honoured
    have failed : writer.write room = .error .tooLarge := meets
    rw [Honoured, failed] at honoured
    split_ifs at honoured
    · obtain ⟨_, ⟨⟩, _⟩ := honoured
    · obtain ⟨_, _, ⟨⟩⟩ := honoured
  | short =>
    rw [reached] at meets
    have short := verdict_short reached
    refine iff_of_true ?_ (fun same => by cases same)
    rw [Honoured, if_neg (by omega)]
    rwa [Writer.Meets, if_neg (by rintro ⟨⟨⟩, _⟩)] at meets
  | filled left =>
    rw [reached] at meets
    have counted := verdict_filled reached
    refine iff_of_true ?_ (fun same => by cases same)
    rw [Honoured, if_pos (by omega)]
    obtain fills | ⟨⟨⟩, _⟩ := meets
    exact fills

theorem honoured_iff (follows : writer.Follows pieces .neat) (sizes : totalSize pieces = length) :
    Honoured writer length room ↔ verdict pieces room ≠ .refused :=
  honoured_of_meets sizes (follows room)

theorem honoured_loose_iff (follows : writer.Follows pieces .loose)
    (sizes : totalSize pieces = length) :
    Honoured writer length room ↔ room + 1 ≠ length ∧ verdict pieces room ≠ .refused := by
  by_cases tight : room + 1 = length
  · refine iff_of_false ?_ fun both => both.1 tight
    have meets := follows room
    rw [sizes] at meets
    intro honoured
    rw [Honoured, if_neg (by omega)] at honoured
    obtain ⟨_, _, failed⟩ := honoured
    cases reached : verdict pieces room with
    | refused =>
      rw [reached, Writer.Meets, failed] at meets
      cases meets
    | short =>
      rw [reached, Writer.Meets, if_pos ⟨rfl, tight⟩, failed] at meets
      cases meets
    | filled left =>
      have counted := verdict_filled reached
      omega
  · rw [and_iff_right tight]
    refine honoured_of_meets sizes ?_
    have meets := follows room
    subst sizes
    revert meets
    cases verdict pieces room with
    | refused => exact id
    | short =>
      intro meets
      rw [Writer.Meets, if_neg fun both => tight both.2] at meets
      exact Writer.meets_short meets Ending.noConfusion
    | filled left =>
      intro meets
      obtain fills | ⟨⟨⟩, _⟩ := meets
      exact Or.inl fills

theorem filter_honoured_iff {proto : Proto Id Address} (contract : PrimitiveContract proto)
    (one : QueryHandler.Filter Id) :
    Honoured (.ofCodec (filter proto) one) (filterLen proto one) room ↔
      ¬ (filterLen proto one = 0 ∧ room = 0) ∧ verdict (filterPieces proto one) room ≠
        .refused := by
  by_cases empty : filterLen proto one = 0 ∧ room = 0
  · refine iff_of_false ?_ fun both => both.1 empty
    obtain ⟨none, rfl⟩ := empty
    intro honoured
    rw [Honoured, if_pos (by omega)] at honoured
    obtain ⟨bytes, written, _⟩ := honoured
    cases written
  · rw [and_iff_right empty]
    refine honoured_of_meets (filter_sizes one) ?_
    refine Writer.meets_congr rfl (Writer.meets_checking
      (filterFields_follows contract (filterLen proto one) room one) room ?_)
    intro none zero
    rw [← filter_sizes, none] at empty
    exact empty ⟨rfl, zero⟩

end Honoured

/-- With any buffer an encoder fills as many bytes as announced or reports that they do not
fit, unless the buffer reaches a part that is too large. The exceptions are a member or an answer
to an id conflict with a buffer that is one byte short, and a filter of no ids with an empty
buffer. -/
theorem encode_honours_iff (contract : PrimitiveContract proto) (value : Datum Id Address)
    (proper : value.Proper) (room : Nat) :
    Honoured (value.encode proto) (value.encodedLen proto) room ↔
      ¬ value.Breaks proto room ∧ ¬ value.TooLarge proto room := by
  have large : value.TooLarge proto room ↔ verdict (value.pieces proto) room = .refused :=
    (refused_iff _ _).symm
  rw [large]
  have plain {writer : Writer} {pieces : List Piece} {length : Nat}
      (follows : writer.Follows pieces .neat) (sizes : totalSize pieces = length) :
      Honoured writer length room ↔ ¬ False ∧ verdict pieces room ≠ .refused := by
    rw [and_iff_right not_false]
    exact honoured_iff follows sizes
  cases value with
  | message value =>
    have others (other : value.ty ≠ .conflictResponse) :=
      plain (message_follows contract value proper other) (message_sizes value)
    cases value with
    | conflictResponse message =>
      exact honoured_loose_iff (conflictResponse_follows contract message)
        (message_sizes (.conflictResponse message))
    | leave | join | pushPull | userEvent | query | queryResponse | keyRequest | keyResponse =>
      exact others nofun
  | filter value => exact filter_honoured_iff contract value
  | tagFilter value => exact plain (tagFilter_follows contract value) (tagFilter_sizes value)
  | tags value => exact plain (tags_follows contract value) (total_framed proto.tag (pairs value))
  | member value => exact honoured_loose_iff (member_follows contract value) (member_sizes value)
  | coordinate value =>
    exact plain (coordinate_follows contract value) (coordinate_sizes contract value)
  | userEvent value => exact plain (userEvent_follows contract value) (userEvent_sizes value)
  | userEvents value => exact plain (userEvents_follows contract value) (userEvents_sizes value)

section Reference

section Codecs

variable {Value First Second : Type}

theorem copied_settles {wire : WireType} {toBytes : Value → Bytes}
    {read : Bytes → Except DecodeError (Nat × Value)} (value : Value) :
    (Writer.ofCodec (copied wire toBytes read) value).Settles (toBytes value).length 0 .neat :=
  Writer.settles_of_fits (copied_fits value) (copied_orderly value)

theorem wholeSlice_settles (toBytes : Value → Bytes)
    (ofBytes : Bytes → Except DecodeError Value) (value : Value) :
    (Writer.ofCodec (wholeSlice toBytes ofBytes) value).Settles (toBytes value).length 0 .neat :=
  copied_settles value

theorem varint_frame {codec : Data Value} (honest : Honest codec (fun _ => True) .neat)
    (len room : Nat) (tag : UInt8) (value : Value) :
    (tagged len room tag (varintFraming.framed codec value)).Follows
      [.framed varintFraming codec value] .neat :=
  Writer.follows_field _ Ending.noConfusion
    (settles_frame (fun length => copied_settles length) (honest value trivial)
      Ending.noConfusion)

theorem pair_honest {first : Data First} {second : Data Second} (type one two : String)
    (front : Honest first (fun _ => True) .neat) (back : Honest second (fun _ => True) .neat) :
    Honest (pair type one two first second) (fun _ => True) .neat := by
  refine honest_of_follows (fun pair => [[.framed varintFraming first pair.1],
    [.framed varintFraming second pair.2]].flatten) rfl (fun _ => rfl) fun pair _ => ?_
  exact follows_ofWriter fun room => Writer.follows_all
    (.cons (varint_frame front _ _ _ pair.1) (.cons (varint_frame back _ _ _ pair.2) .nil))

end Codecs

theorem rawBytes_honest : Honest rawBytes (fun _ => True) .neat :=
  fun bytes _ _ => wholeSlice_settles id .ok bytes

theorem secretKey_honest : Honest (secretKeyData .panic) (fun _ => True) .neat := by
  refine honest_of_follows (fun key => [.framed varintFraming rawBytes key.bytes]) rfl
    (fun _ => rfl) fun key _ => ?_
  exact follows_ofWriter fun room => varint_frame rawBytes_honest _ _ _ _

theorem reference_contract : PrimitiveContract reference where
  u8Len _ := rfl
  u32 value _ := copied_settles value
  u64 value _ := copied_settles value
  f64 value _ := copied_settles value
  f64Wire := nofun
  flag := copied_settles true
  duration value _ := copied_settles value
  str value _ _ := copied_settles value
  bytes := rawBytes_honest
  id value _ _ := copied_settles value
  node node _ small := pair_honest "Node" "id" "address" (fun value _ _ => copied_settles value)
    (fun value _ _ => copied_settles value) (nodePair node) trivial small
  statusLtime := pair_honest _ _ _ (fun value _ _ => copied_settles value)
    fun value _ _ => copied_settles value
  tag := pair_honest _ _ _ (fun value _ _ => copied_settles value)
    fun value _ _ => copied_settles value
  secretKey := secretKey_honest

def bareMember : Member UInt8 UInt8 where
  node := { id := 1, address := 2 }
  tags := ∅
  status := .alive
  memberlistProtocolVersion := .v1
  memberlistDelegateVersion := .v1
  protocolVersion := .v1
  delegateVersion := .v1

theorem encode_honours_bareMember :
    memberLen reference bareMember = 18 ∧
      ∀ room, Honoured (.ofCodec (member reference) bareMember) 18 room ↔ room + 1 ≠ 18 := by
  refine ⟨rfl, fun room => ?_⟩
  have small : ¬ (Datum.member bareMember).TooLarge reference room := by
    rw [Datum.TooLarge, ← refused_iff]
    exact not_refused_of_small (by decide) room
  have exact := encode_honours_iff reference reference_contract (.member bareMember) trivial room
  rw [and_iff_left small] at exact
  exact exact

theorem large_payload_refused (payload : Bytes) (large : maxLen < payload.length) (room : Nat)
    (some : 0 < room) :
    (userEvent reference).encode ⟨"", payload⟩ room = .error .tooLarge := by
  have present : (!payload.isEmpty) = true := by
    cases payload with
    | nil => exact absurd large (Nat.not_lt_zero _)
    | cons _ _ => rfl
  have pieces : userEventPieces reference ⟨"", payload⟩ =
      [] ++ framedPiece reference reference.bytes payload :: [] := by
    simp only [userEventPieces, present, if_true]
    rfl
  have refused := (refused_iff (userEventPieces reference ⟨"", payload⟩) room).mpr
    ⟨[], _, [], pieces, large, some⟩
  have meets := userEvent_follows reference_contract ⟨"", payload⟩ room
  rw [refused] at meets
  exact meets

/-- The encoder of a member panics where the last byte is missing, that of an answer to an
id conflict as well. An empty filter is refused by a buffer that has room for it, and a
payload whose length does not fit into 32 bits by a buffer of one byte, as too large. -/
theorem encode_breaks :
    memberLen reference bareMember = 18 ∧
      (member reference).encode bareMember 17 = .error .outOfBounds ∧
      conflictResponseLen reference ⟨bareMember⟩ = 20 ∧
      (conflictResponse reference).encode ⟨bareMember⟩ 19 = .error .outOfBounds ∧
      filterLen reference (.id []) = 0 ∧
      (filter reference).encode (.id []) 0 = .error (.insufficientBuffer 0 0) ∧
      (userEvent reference).encode ⟨"", List.replicate (2 ^ 32) 0⟩ 1 = .error .tooLarge := by
  refine ⟨rfl, rfl, rfl, rfl, rfl, rfl, large_payload_refused _ ?_ 1 Nat.one_pos⟩
  rw [List.length_replicate]
  decide

end Reference

end Serf.Wire
