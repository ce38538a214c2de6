import Serf.Library.Occurrences
import Serf.Wire.Relay

/-!
Messages in which a field occurs more than once. The decoders refuse a second field of a
tag that belongs to one value. Two of them have no such check: the id of a leave message
and the key of a key request are those of the last field. A filter is either ids or a tag:
a tag behind ids is refused, ids behind a tag are not. Where nothing is checked, a buffer
is refused only for what else is wrong with it.
-/

namespace Serf.Wire

open Library.Encoding Library.Fields QueryHandler

/-- The types that are decoded field by field. -/
inductive Kind where
  | leave
  | join
  | userEvent
  | userEvents
  | userEventMessage
  | pushPull
  | keyRequest
  | keyResponse
  | tags
  | member
  | conflictResponse
  | coordinate
  | tagFilter
  | filter
  | query
  | queryResponse
  | relay
  | message

/-- Which fields there are in a buffer, which of them cannot be read, and whether the buffer
is refused. -/
structure Decoder where
  tagsIn : Bytes → List UInt8
  obstacle : Bytes → Option (Fault DecodeError)
  Refuses : Bytes → Prop

def Decoder.of {State Value : Type} (arms : UInt8 → Arm DecodeError State) (start : State)
    (decode : Bytes → Outcome Value) : Decoder where
  tagsIn := Library.Fields.tagsIn arms start
  obstacle := Library.Fields.obstacle arms start
  Refuses bytes := Refused (decode bytes)

variable {Id Address : Type} (proto : Proto Id Address)

/-- The tags of each singular field whose arm looks whether it is there already. The value of
a message is a field with one tag for every type. -/
def Kind.checked : Kind → List (List UInt8)
  | .leave => [[merge .varint 1], [merge .byte 2]]
  | .join => [[merge .varint 1], [merge proto.id.wireType 2]]
  | .userEvent => [[merge .lengthDelimited 1], [merge .lengthDelimited 2]]
  | .userEvents => [[merge .varint 1]]
  | .userEventMessage =>
    [[merge .varint 1], [merge .byte 2], [merge .lengthDelimited 3], [merge .lengthDelimited 4]]
  | .pushPull => [[merge .varint 1], [merge .varint 4], [merge .varint 6]]
  | .keyRequest => []
  | .keyResponse => [[merge .byte 1], [merge .lengthDelimited 2], [merge .lengthDelimited 4]]
  | .tags => []
  | .member =>
    [[merge .lengthDelimited 1], [merge .lengthDelimited 2], [merge .byte 3], [merge .byte 4],
      [merge .byte 5], [merge .byte 6], [merge .byte 7]]
  | .conflictResponse => [[merge .lengthDelimited 1]]
  | .coordinate => [[merge .fixed64 2], [merge .fixed64 3], [merge .fixed64 4]]
  | .tagFilter => [[merge .lengthDelimited 1], [merge .lengthDelimited 2]]
  | .filter => [[merge .lengthDelimited 2]]
  | .query =>
    [[merge .varint 1], [merge .varint 2], [merge .lengthDelimited 3], [merge .varint 5],
      [merge .varint 6], [merge .varint 7], [merge .lengthDelimited 8],
      [merge .lengthDelimited 9]]
  | .queryResponse =>
    [[merge .varint 1], [merge .varint 2], [merge .lengthDelimited 3], [merge .varint 4],
      [merge .lengthDelimited 5]]
  | .relay => [[merge .lengthDelimited 1], [merge .lengthDelimited 2]]
  | .message =>
    [[merge .lengthDelimited 1, merge .lengthDelimited 2, merge .lengthDelimited 3,
      merge .lengthDelimited 4, merge .lengthDelimited 5, merge .lengthDelimited 6,
      merge .lengthDelimited 7, merge .lengthDelimited 8, merge .lengthDelimited 9,
      merge .lengthDelimited 10]]

def Kind.unchecked : Kind → List (List UInt8)
  | .leave => [[merge proto.id.wireType 3]]
  | .keyRequest => [[merge .lengthDelimited 1]]
  | _ => []

def Kind.singular (kind : Kind) : List (List UInt8) := kind.checked proto ++ kind.unchecked proto

section Decoders

variable [DecidableEq Id]

def Kind.decoder : Kind → Decoder
  | .leave => .of (leaveArms proto) {} (leaveDecode proto)
  | .join => .of (joinArms proto) {} (joinDecode proto)
  | .userEvent => .of (userEventArms proto) {} (userEventDecode proto)
  | .userEvents => .of (userEventsArms proto) {} (userEventsDecode proto)
  | .userEventMessage => .of (userEventMessageArms proto) {} (userEventMessageDecode proto)
  | .pushPull => .of (pushPullArms proto) {} (pushPullDecode proto)
  | .keyRequest => .of (keyRequestArms proto) {} (keyRequestDecode proto)
  | .keyResponse => .of (keyResponseArms proto) {} (keyResponseDecode proto)
  | .tags => .of (tagsArms proto) {} (tagsDecode proto)
  | .member => .of (memberArms proto) {} (memberRefDecode proto)
  | .conflictResponse => .of (conflictResponseArms proto) {} (conflictResponseRefDecode proto)
  | .coordinate => .of (coordinateArms proto) {} (coordinateDecode proto)
  | .tagFilter => .of (tagFilterArms proto) {} (tagFilterDecode proto)
  | .filter => .of (filterArms proto) {} (filterDecode proto)
  | .query => .of (queryArms proto) {} (queryDecode proto)
  | .queryResponse => .of (queryResponseArms proto) {} (queryResponseDecode proto)
  | .relay => .of (relayArms proto) {} (decodeRelay proto)
  | .message => .of (messageArms proto) none (decodeMessage proto)

/-- The field occurs more than once in the buffer. -/
def Kind.Repeats (kind : Kind) (field : List UInt8) (bytes : Bytes) : Prop :=
  2 ≤ ((kind.decoder proto).tagsIn bytes).countP (· ∈ field)

def Kind.needed : Kind → List UInt8
  | .leave => [merge .varint 1, merge proto.id.wireType 3]
  | _ => []

/-- A checked field is there twice, or a field cannot be read, or, where all can be, one is
missing. -/
def Kind.Flawed (kind : Kind) (bytes : Bytes) : Prop :=
  (∃ field ∈ kind.checked proto, kind.Repeats proto field bytes) ∨
    (∃ reason, (kind.decoder proto).obstacle bytes = some (.error reason)) ∨
    (kind.decoder proto).obstacle bytes = none ∧
      ∃ tag ∈ kind.needed proto, tag ∉ (kind.decoder proto).tagsIn bytes

end Decoders

variable {proto}

theorem leaveArms_ok {tag : UInt8} {offset : Nat} {state next : LeaveFields Id} {bytes : Bytes}
    {taken : Nat} (now : leaveArms proto tag offset state bytes = .ok (next, taken)) :
    (tag = merge .varint 1 ∧ ∃ value, next = { state with ltime := some value }) ∨
      (tag = merge .byte 2 ∧ ∃ value, next = { state with prune := some value }) ∨
      (tag = merge proto.id.wireType 3 ∧ ∃ value, next = { state with id := some value }) ∨
      tag ∉ leaveTags proto ∧ next = state := by
  by_cases ltime : tag = merge .varint 1
  · subst ltime
    obtain ⟨_, value, _, same, _⟩ := latest_ok (unlessHeld_ok now).2
    exact .inl ⟨rfl, value, same⟩
  by_cases prune : tag = merge .byte 2
  · subst prune
    obtain ⟨_, value, _, same, _⟩ := latest_ok (unlessHeld_ok now).2
    exact .inr (.inl ⟨rfl, value, same⟩)
  by_cases id : tag = merge proto.id.wireType 3
  · rw [leaveArms, if_neg ltime, if_neg prune, if_pos id] at now
    obtain ⟨_, value, _, same, _⟩ := latest_ok now
    exact .inr (.inr (.inl ⟨id, value, same⟩))
  · have other : tag ∉ leaveTags proto := by simp [leaveTags, ltime, prune, id]
    rw [leaveArms_others proto tag other] at now
    exact .inr (.inr (.inr ⟨other, (pass_ok now).1⟩))

theorem leave_tracks_ltime :
    Tracks (leaveArms proto) {} LeaveFields.ltimeSlot.full (merge .varint 1) := by
  refine tracks_of rfl (fun _ _ _ _ _ now => latest_fills _ _ _ _ _ (unlessHeld_ok now).2) ?_
  intro tag offset state bytes next taken unlike now
  obtain ⟨same, _⟩ | ⟨_, _, rfl⟩ | ⟨_, _, rfl⟩ | ⟨_, rfl⟩ := leaveArms_ok now
  · exact absurd same unlike
  all_goals rfl

theorem leave_tracks_prune :
    Tracks (leaveArms proto) {} LeaveFields.pruneSlot.full (merge .byte 2) := by
  refine tracks_of rfl (fun _ _ _ _ _ now => latest_fills _ _ _ _ _ (unlessHeld_ok now).2) ?_
  intro tag offset state bytes next taken unlike now
  obtain ⟨_, _, rfl⟩ | ⟨same, _⟩ | ⟨_, _, rfl⟩ | ⟨_, rfl⟩ := leaveArms_ok now
  · rfl
  · exact absurd same unlike
  all_goals rfl

theorem leave_tracks_id :
    Tracks (leaveArms proto) {} LeaveFields.idSlot.full (merge proto.id.wireType 3) := by
  refine tracks_of rfl (fun _ _ _ _ _ now => ?_) ?_
  · rw [leaveArms_id] at now
    exact latest_fills _ _ _ _ _ now
  intro tag offset state bytes next taken unlike now
  obtain ⟨_, _, rfl⟩ | ⟨_, _, rfl⟩ | ⟨same, _⟩ | ⟨_, rfl⟩ := leaveArms_ok now
  · rfl
  · rfl
  · exact absurd same unlike
  · rfl

def leaveBars : List (Bar (LeaveFields Id)) :=
  [⟨LeaveFields.ltimeSlot.full, merge .varint 1, merge .varint 1⟩,
    ⟨LeaveFields.pruneSlot.full, merge .byte 2, merge .byte 2⟩]

theorem leave_bars : Bars (leaveArms proto) {} leaveBars where
  tracks := List.forall_mem_cons.mpr ⟨leave_tracks_ltime,
    List.forall_mem_singleton.mpr leave_tracks_prune⟩
  refuses := List.forall_mem_cons.mpr ⟨fun _ _ => unlessHeld_refuses _,
    List.forall_mem_singleton.mpr fun _ _ => unlessHeld_refuses _⟩
  free tag offset state bytes empty := by
    have ltime := empty _ (.head _)
    have prune := empty _ (.tail _ (.head _))
    unfold leaveArms
    split_ifs with first second
    · exact unlessHeld_alike rfl (ltime first.symm) (latest_alike _ _ _ _)
    · exact unlessHeld_alike rfl (prune second.symm) (latest_alike _ _ _ _)
    · exact latest_alike _ _ _ _
    · exact pass_alike _ _ _ _

theorem leave_guarded :
    ∀ field ∈ Kind.leave.checked proto, Guarded (leaveArms proto) {} field :=
  List.forall_mem_cons.mpr ⟨⟨_, leave_bars.guard (.head _)⟩,
    List.forall_mem_singleton.mpr ⟨_, leave_bars.guard (.tail _ (.head _))⟩⟩

def joinPlaces : List (JoinFields Id → Bool) :=
  [JoinFields.ltimeSlot.full, JoinFields.idSlot.full]

theorem joinArms_regular (tag : UInt8) :
    Regular joinPlaces {} (joinArms proto tag) := by
  unfold joinArms
  refine regular_ite (regular_once rfl fun _ _ => ⟨fun _ => rfl, id⟩) ?_
  refine regular_ite (regular_once rfl fun _ _ => ⟨id, fun _ => rfl⟩) ?_
  exact regular_pass

theorem join_guarded :
    ∀ field ∈ Kind.join.checked proto, Guarded (joinArms proto) {} field :=
  guarded_places joinArms_regular (.cons (.of rfl) (.cons (.of (joinArms_id proto)) .nil))

def userEventPlaces : List (UserEventFields → Bool) :=
  [UserEventFields.nameSlot.full, UserEventFields.payloadSlot.full]

theorem userEventArms_regular (tag : UInt8) :
    Regular userEventPlaces {} (userEventArms proto tag) := by
  unfold userEventArms
  refine regular_ite (regular_once rfl fun _ _ => ⟨fun _ => rfl, id⟩) ?_
  refine regular_ite (regular_once rfl fun _ _ => ⟨id, fun _ => rfl⟩) ?_
  exact regular_pass

theorem userEvent_guarded :
    ∀ field ∈ Kind.userEvent.checked proto, Guarded (userEventArms proto) {} field :=
  guarded_places userEventArms_regular (.cons (.of rfl) (.cons (.of rfl) .nil))

def userEventsPlaces : List (UserEventsFields → Bool) :=
  [UserEventsFields.ltimeSlot.full]

theorem userEventsArms_regular (tag : UInt8) :
    Regular userEventsPlaces {} (userEventsArms proto tag) := by
  unfold userEventsArms
  refine regular_ite (regular_once rfl fun _ _ _ => rfl) ?_
  refine regular_ite (regular_spread fun _ _ => id) ?_
  exact regular_pass

theorem userEvents_guarded :
    ∀ field ∈ Kind.userEvents.checked proto, Guarded (userEventsArms proto) {} field :=
  guarded_places userEventsArms_regular (.cons (.of rfl) .nil)

def userEventMessagePlaces : List (UserEventMessageFields → Bool) :=
  [UserEventMessageFields.ltimeSlot.full, UserEventMessageFields.ccSlot.full,
    UserEventMessageFields.nameSlot.full, UserEventMessageFields.payloadSlot.full]

theorem userEventMessageArms_regular (tag : UInt8) :
    Regular userEventMessagePlaces {} (userEventMessageArms proto tag) := by
  unfold userEventMessageArms
  refine regular_ite (regular_once rfl fun _ _ => ⟨fun _ => rfl, id, id, id⟩) ?_
  refine regular_ite (regular_once rfl fun _ _ => ⟨id, fun _ => rfl, id, id⟩) ?_
  refine regular_ite (regular_once rfl fun _ _ => ⟨id, id, fun _ => rfl, id⟩) ?_
  refine regular_ite (regular_once rfl fun _ _ => ⟨id, id, id, fun _ => rfl⟩) ?_
  exact regular_pass

theorem userEventMessage_guarded :
    ∀ field ∈ Kind.userEventMessage.checked proto, Guarded (userEventMessageArms proto) {} field :=
  guarded_places userEventMessageArms_regular (.cons (.of rfl) (.cons (.of rfl)
    (.cons (.of rfl) (.cons (.of rfl) .nil))))

def pushPullPlaces : List (PushPullFields → Bool) :=
  [PushPullFields.ltimeSlot.full, PushPullFields.eventLtimeSlot.full,
    PushPullFields.queryLtimeSlot.full]

theorem pushPullArms_regular (tag : UInt8) :
    Regular pushPullPlaces {} (pushPullArms proto tag) := by
  unfold pushPullArms
  refine regular_ite (regular_once rfl fun _ _ => ⟨fun _ => rfl, id, id⟩) ?_
  refine regular_ite (regular_spread fun _ _ => ⟨id, id, id⟩) ?_
  refine regular_ite (regular_spread fun _ _ => ⟨id, id, id⟩) ?_
  refine regular_ite (regular_once rfl fun _ _ => ⟨id, fun _ => rfl, id⟩) ?_
  refine regular_ite (regular_spread fun _ _ => ⟨id, id, id⟩) ?_
  refine regular_ite (regular_once rfl fun _ _ => ⟨id, id, fun _ => rfl⟩) ?_
  exact regular_pass

theorem pushPull_guarded :
    ∀ field ∈ Kind.pushPull.checked proto, Guarded (pushPullArms proto) {} field :=
  guarded_places pushPullArms_regular (.cons (.of rfl)
    (.cons (.of (pushPullArms_eventLtime proto))
    (.cons (.of (pushPullArms_queryLtime proto)) .nil)))

theorem keyRequest_bars : Bars (keyRequestArms proto) {} [] where
  tracks := List.forall_mem_nil _
  refuses := List.forall_mem_nil _
  free tag offset state bytes _ := by
    unfold keyRequestArms
    split_ifs with first
    · exact latest_alike _ _ _ _
    · exact pass_alike _ _ _ _

def keyResponsePlaces : List (KeyResponseFields → Bool) :=
  [KeyResponseFields.resultSlot.full, KeyResponseFields.messageSlot.full,
    KeyResponseFields.primaryKeySlot.full]

theorem keyResponseArms_regular (tag : UInt8) :
    Regular keyResponsePlaces {} (keyResponseArms proto tag) := by
  unfold keyResponseArms
  refine regular_ite (regular_once rfl fun _ _ => ⟨fun _ => rfl, id, id⟩) ?_
  refine regular_ite (regular_once rfl fun _ _ => ⟨id, fun _ => rfl, id⟩) ?_
  refine regular_ite (regular_spread fun _ _ => ⟨id, id, id⟩) ?_
  refine regular_ite (regular_once rfl fun _ _ => ⟨id, id, fun _ => rfl⟩) ?_
  exact regular_pass

theorem keyResponse_guarded :
    ∀ field ∈ Kind.keyResponse.checked proto, Guarded (keyResponseArms proto) {} field :=
  guarded_places keyResponseArms_regular (.cons (.of rfl) (.cons (.of rfl)
    (.cons (.of rfl) .nil)))

def memberPlaces : List (MemberFields Id Address → Bool) :=
  [MemberFields.nodeSlot.full, MemberFields.tagsSlot.full, MemberFields.statusSlot.full,
    MemberFields.memberlistProtocolVersionSlot.full,
    MemberFields.memberlistDelegateVersionSlot.full, MemberFields.protocolVersionSlot.full,
    MemberFields.delegateVersionSlot.full]

theorem memberArms_regular (tag : UInt8) :
    Regular memberPlaces {} (memberArms proto tag) := by
  unfold memberArms
  refine regular_ite (regular_once rfl
    fun _ _ => ⟨fun _ => rfl, id, id, id, id, id, id⟩) ?_
  refine regular_ite (regular_once rfl
    fun _ _ => ⟨id, fun _ => rfl, id, id, id, id, id⟩) ?_
  refine regular_ite (regular_once rfl
    fun _ _ => ⟨id, id, fun _ => rfl, id, id, id, id⟩) ?_
  refine regular_ite (regular_once rfl
    fun _ _ => ⟨id, id, id, fun _ => rfl, id, id, id⟩) ?_
  refine regular_ite (regular_once rfl
    fun _ _ => ⟨id, id, id, id, fun _ => rfl, id, id⟩) ?_
  refine regular_ite (regular_once rfl
    fun _ _ => ⟨id, id, id, id, id, fun _ => rfl, id⟩) ?_
  refine regular_ite (regular_once rfl
    fun _ _ => ⟨id, id, id, id, id, id, fun _ => rfl⟩) ?_
  exact regular_pass

theorem member_guarded :
    ∀ field ∈ Kind.member.checked proto, Guarded (memberArms proto) {} field :=
  guarded_places memberArms_regular (.cons (.of rfl) (.cons (.of rfl) (.cons (.of rfl)
    (.cons (.of rfl) (.cons (.of rfl) (.cons (.of rfl) (.cons (.of rfl) .nil)))))))

def conflictResponsePlaces : List (ConflictResponseFields Id Address → Bool) :=
  [ConflictResponseFields.memberSlot.full]

theorem conflictResponseArms_regular (tag : UInt8) :
    Regular conflictResponsePlaces {} (conflictResponseArms proto tag) := by
  unfold conflictResponseArms
  refine regular_ite (regular_once rfl fun _ _ _ => rfl) ?_
  exact regular_pass

theorem conflictResponse_guarded :
    ∀ field ∈ Kind.conflictResponse.checked proto, Guarded (conflictResponseArms proto) {} field :=
  guarded_places conflictResponseArms_regular (.cons (.of rfl) .nil)

def coordinatePlaces : List (CoordinateFields → Bool) :=
  [CoordinateFields.errorSlot.full, CoordinateFields.adjustmentSlot.full,
    CoordinateFields.heightSlot.full]

theorem coordinateArms_regular (tag : UInt8) :
    Regular coordinatePlaces {} (coordinateArms proto tag) := by
  unfold coordinateArms
  refine regular_ite (regular_spread fun _ _ => ⟨id, id, id⟩) ?_
  refine regular_ite (regular_once rfl fun _ _ => ⟨fun _ => rfl, id, id⟩) ?_
  refine regular_ite (regular_once rfl fun _ _ => ⟨id, fun _ => rfl, id⟩) ?_
  refine regular_ite (regular_once rfl fun _ _ => ⟨id, id, fun _ => rfl⟩) ?_
  exact regular_pass

theorem coordinate_guarded :
    ∀ field ∈ Kind.coordinate.checked proto, Guarded (coordinateArms proto) {} field :=
  guarded_places coordinateArms_regular (.cons (.of rfl) (.cons (.of rfl)
    (.cons (.of rfl) .nil)))

def tagFilterPlaces : List (TagFilterFields → Bool) :=
  [TagFilterFields.tagSlot.full, TagFilterFields.exprSlot.full]

theorem tagFilterArms_regular (tag : UInt8) :
    Regular tagFilterPlaces {} (tagFilterArms proto tag) := by
  unfold tagFilterArms
  refine regular_ite (regular_once rfl fun _ _ => ⟨fun _ => rfl, id⟩) ?_
  refine regular_ite (regular_once rfl fun _ _ => ⟨id, fun _ => rfl⟩) ?_
  exact regular_pass

theorem tagFilter_guarded :
    ∀ field ∈ Kind.tagFilter.checked proto, Guarded (tagFilterArms proto) {} field :=
  guarded_places tagFilterArms_regular (.cons (.of rfl) (.cons (.of rfl) .nil))

def queryPlaces : List (QueryFields Id Address → Bool) :=
  [QueryFields.ltimeSlot.full, QueryFields.idSlot.full, QueryFields.fromNodeSlot.full,
    QueryFields.flagsSlot.full, QueryFields.relayFactorSlot.full, QueryFields.timeoutSlot.full,
    QueryFields.nameSlot.full, QueryFields.payloadSlot.full]

theorem queryArms_regular (tag : UInt8) :
    Regular queryPlaces {} (queryArms proto tag) := by
  unfold queryArms
  refine regular_ite (regular_once rfl
    fun _ _ => ⟨fun _ => rfl, id, id, id, id, id, id, id⟩) ?_
  refine regular_ite (regular_once rfl
    fun _ _ => ⟨id, fun _ => rfl, id, id, id, id, id, id⟩) ?_
  refine regular_ite (regular_once rfl
    fun _ _ => ⟨id, id, fun _ => rfl, id, id, id, id, id⟩) ?_
  refine regular_ite (regular_spread
    fun _ _ => ⟨id, id, id, id, id, id, id, id⟩) ?_
  refine regular_ite (regular_once rfl
    fun _ _ => ⟨id, id, id, fun _ => rfl, id, id, id, id⟩) ?_
  refine regular_ite (regular_once rfl
    fun _ _ => ⟨id, id, id, id, fun _ => rfl, id, id, id⟩) ?_
  refine regular_ite (regular_once rfl
    fun _ _ => ⟨id, id, id, id, id, fun _ => rfl, id, id⟩) ?_
  refine regular_ite (regular_once rfl
    fun _ _ => ⟨id, id, id, id, id, id, fun _ => rfl, id⟩) ?_
  refine regular_ite (regular_once rfl
    fun _ _ => ⟨id, id, id, id, id, id, id, fun _ => rfl⟩) ?_
  exact regular_pass

theorem query_guarded :
    ∀ field ∈ Kind.query.checked proto, Guarded (queryArms proto) {} field :=
  guarded_places queryArms_regular (.cons (.of rfl) (.cons (.of rfl) (.cons (.of rfl)
    (.cons (.of rfl) (.cons (.of rfl) (.cons (.of rfl) (.cons (.of rfl)
    (.cons (.of rfl) .nil))))))))

def queryResponsePlaces : List (QueryResponseFields Id Address → Bool) :=
  [QueryResponseFields.ltimeSlot.full, QueryResponseFields.idSlot.full,
    QueryResponseFields.fromNodeSlot.full, QueryResponseFields.flagsSlot.full,
    QueryResponseFields.payloadSlot.full]

theorem queryResponseArms_regular (tag : UInt8) :
    Regular queryResponsePlaces {} (queryResponseArms proto tag) := by
  unfold queryResponseArms
  refine regular_ite (regular_once rfl
    fun _ _ => ⟨fun _ => rfl, id, id, id, id⟩) ?_
  refine regular_ite (regular_once rfl
    fun _ _ => ⟨id, fun _ => rfl, id, id, id⟩) ?_
  refine regular_ite (regular_once rfl
    fun _ _ => ⟨id, id, fun _ => rfl, id, id⟩) ?_
  refine regular_ite (regular_once rfl
    fun _ _ => ⟨id, id, id, fun _ => rfl, id⟩) ?_
  refine regular_ite (regular_once rfl
    fun _ _ => ⟨id, id, id, id, fun _ => rfl⟩) ?_
  exact regular_pass

theorem queryResponse_guarded :
    ∀ field ∈ Kind.queryResponse.checked proto, Guarded (queryResponseArms proto) {} field :=
  guarded_places queryResponseArms_regular (.cons (.of rfl) (.cons (.of rfl) (.cons (.of rfl)
    (.cons (.of rfl) (.cons (.of rfl) .nil)))))

theorem relay_guarded :
    ∀ field ∈ Kind.relay.checked proto, Guarded (relayArms proto) {} field :=
  guarded_places relayArms_regular (.cons (.of rfl) (.cons (.of rfl) .nil))

theorem filterArms_ok {tag : UInt8} {offset : Nat} {state next : FilterFields} {bytes : Bytes}
    {taken : Nat} (now : filterArms proto tag offset state bytes = .ok (next, taken)) :
    (tag = merge proto.id.wireType 1 ∧ ∃ range, next = { state with ids := some range }) ∨
      (tag = merge .lengthDelimited 2 ∧ ∃ value, next = { state with tag := some value }) ∨
      next = state := by
  unfold filterArms at now
  split_ifs at now with ids own
  · obtain ⟨_, _, same⟩ := map_ok now
    cases same
    exact .inl ⟨ids, _, rfl⟩
  · obtain ⟨_, value, _, same, _⟩ := latest_ok (unlessHeld_ok (unlessHeld_ok now).2).2
    exact .inr (.inl ⟨own, value, same⟩)
  · exact .inr (.inr (pass_ok now).1)

theorem filter_tracks_ids :
    Tracks (filterArms proto) {} FilterFields.idsSlot.full (merge proto.id.wireType 1) := by
  refine tracks_of rfl (fun _ _ _ _ _ now => ?_) ?_
  · rw [filterArms_ids] at now
    obtain ⟨_, _, same⟩ := map_ok now
    cases same
    rfl
  intro tag offset state bytes next taken unlike now
  obtain ⟨same, _⟩ | ⟨_, _, rfl⟩ | rfl := filterArms_ok now
  · exact absurd same unlike
  all_goals rfl

theorem filter_tracks_tag :
    Tracks (filterArms proto) {} FilterFields.tagSlot.full (merge .lengthDelimited 2) := by
  refine tracks_of rfl (fun _ _ _ _ _ now => ?_) ?_
  · rw [filterArms_tag] at now
    exact latest_fills _ _ _ _ _ (unlessHeld_ok (unlessHeld_ok now).2).2
  intro tag offset state bytes next taken unlike now
  obtain ⟨_, _, rfl⟩ | ⟨same, _⟩ | rfl := filterArms_ok now
  · rfl
  · exact absurd same unlike
  · rfl

def filterBars (idTag : UInt8) : List (Bar FilterFields) :=
  [⟨FilterFields.tagSlot.full, merge .lengthDelimited 2, merge .lengthDelimited 2⟩,
    ⟨FilterFields.idsSlot.full, idTag, merge .lengthDelimited 2⟩]

theorem filter_bars :
    Bars (filterArms proto) {} (filterBars (merge proto.id.wireType 1)) where
  tracks := List.forall_mem_cons.mpr ⟨filter_tracks_tag,
    List.forall_mem_singleton.mpr filter_tracks_ids⟩
  refuses := by
    rw [filterBars, List.forall_mem_cons, List.forall_mem_singleton, filterArms_tag]
    refine ⟨fun _ _ => unlessHeld_refuses _, fun offset state bytes held => ?_⟩
    by_cases also : FilterFields.tagSlot.full state = true
    · exact unlessHeld_refuses offset bytes also
    · have empty : FilterFields.tagSlot.held state = none := by
        simpa [Slot.full] using also
      simp only [unlessHeld, empty]
      exact unlessHeld_refuses offset bytes held
  free tag offset state bytes empty := by
    have own := empty _ (.head _)
    have ids := empty _ (.tail _ (.head _))
    unfold filterArms
    split_ifs with first second
    · exact spread_alike _ _ _ _
    · exact unlessHeld_alike rfl (own second.symm)
        (unlessHeld_alike rfl (ids second.symm) (latest_alike _ _ _ _))
    · exact pass_alike _ _ _ _

theorem filter_guarded :
    ∀ field ∈ Kind.filter.checked proto, Guarded (filterArms proto) {} field :=
  List.forall_mem_singleton.mpr ⟨_, filter_bars.guard (.head _)⟩

def messagePlaces : List (Option (MessageRef Id Address) → Bool) := [messageSlot.full]

theorem relayArm_full (offset : Nat) (state : Option (MessageRef Id Address)) (bytes : Bytes)
    (next : Option (MessageRef Id Address)) (taken : Nat)
    (now : relayArm proto offset state bytes = .ok (next, taken)) :
    messageSlot.full next = true := by
  obtain ⟨⟨readed, node, payload⟩, _, rest⟩ := bind_ok now
  dsimp only at rest
  split at rest
  · cases rest
  · cases rest
    rfl

theorem messageArm_regular {Found : Type} (tag : UInt8) (decode : Read DecodeError Found)
    (wrap : Found → MessageRef Id Address) :
    Regular messagePlaces none (messageArm proto tag decode wrap) :=
  regular_once rfl fun _ _ _ => rfl

theorem relayArm_regular : Regular messagePlaces none (relayArm proto) where
  uniform _ _ _ := .inr rfl
  extend _ _ _ _ _ now _ := relayArm_full _ _ _ _ _ now

variable [DecidableEq Id]

theorem messageArms_regular (tag : UInt8) : Regular messagePlaces none (messageArms proto tag) := by
  unfold messageArms
  iterate 7 refine regular_ite (messageArm_regular _ _ _) ?_
  refine regular_ite (regular_unlessHeld rfl relayArm_regular) ?_
  iterate 2 refine regular_ite (messageArm_regular _ _ _) ?_
  exact regular_pass

theorem message_guarded :
    ∀ field ∈ Kind.message.checked proto, Guarded (messageArms proto) none field := by
  intro field inside
  rw [Kind.checked, List.mem_singleton] at inside
  refine ⟨_, guard_slot messageArms_regular (.head _) field ?_⟩
  intro tag among
  simp only [inside, List.mem_cons, List.not_mem_nil, or_false] at among
  rcases among with rfl | rfl | rfl | rfl | rfl | rfl | rfl | relay | rfl | rfl
  iterate 7 exact ⟨_, _, rfl, latest_fills⟩
  · subst relay
    exact ⟨_, _, rfl, relayArm_full⟩
  iterate 2 exact ⟨_, _, rfl, latest_fills⟩

theorem checked_refused (kind : Kind) (field : List UInt8) (inside : field ∈ kind.checked proto)
    (bytes : Bytes) (twice : kind.Repeats proto field bytes) :
    (kind.decoder proto).Refuses bytes := by
  cases kind with
  | leave => exact (leave_guarded field inside).refuses _ bytes twice
  | join => exact (join_guarded field inside).refuses _ bytes twice
  | userEvent => exact (userEvent_guarded field inside).refuses _ bytes twice
  | userEvents => exact (userEvents_guarded field inside).refuses _ bytes twice
  | userEventMessage => exact (userEventMessage_guarded field inside).refuses _ bytes twice
  | pushPull => exact (pushPull_guarded field inside).refuses _ bytes twice
  | keyRequest => cases inside
  | keyResponse => exact (keyResponse_guarded field inside).refuses _ bytes twice
  | tags => cases inside
  | member => exact (member_guarded field inside).refuses _ bytes twice
  | conflictResponse => exact (conflictResponse_guarded field inside).refuses _ bytes twice
  | coordinate => exact (coordinate_guarded field inside).refuses _ bytes twice
  | tagFilter => exact (tagFilter_guarded field inside).refuses _ bytes twice
  | filter => exact (filter_guarded field inside).refuses _ bytes twice
  | query => exact (query_guarded field inside).refuses _ bytes twice
  | queryResponse => exact (queryResponse_guarded field inside).refuses _ bytes twice
  | relay => exact (relay_guarded field inside).refuses _ bytes twice
  | message => exact (message_guarded field inside).refuses _ bytes twice

theorem repeats_iff (kind : Kind) (tag : UInt8) (bytes : Bytes) :
    kind.Repeats proto [tag] bytes ↔ [tag, tag].Sublist ((kind.decoder proto).tagsIn bytes) :=
  twice_iff_sublist tag _

theorem leave_refuses_iff (bytes : Bytes) :
    (Kind.leave.decoder proto).Refuses bytes ↔ Kind.leave.Flawed proto bytes := by
  have bars : Bars (leaveArms proto) {} leaveBars := leave_bars
  have scanned : Refused (scan (leaveArms proto) {} bytes) ↔
      (∃ field ∈ Kind.leave.checked proto, Kind.leave.Repeats proto field bytes) ∨
        ∃ reason, (Kind.leave.decoder proto).obstacle bytes = some (.error reason) := by
    rw [bars.scan_refused_iff]
    simp [leaveBars, Kind.checked, repeats_iff, Kind.decoder, Decoder.of]
  refine (refused_bind_iff _ _).trans ?_
  rw [Kind.Flawed, ← or_assoc, ← scanned]
  refine or_congr_right' fun fine => ?_
  -- Both fields are there at the end if and only if they occur.
  have there : ∀ stop fields, scan (leaveArms proto) {} bytes = .ok (stop, fields) →
      (fields.ltime.isSome = true ↔
        merge .varint 1 ∈ (Kind.leave.decoder proto).tagsIn bytes) ∧
      (fields.id.isSome = true ↔
        merge proto.id.wireType 3 ∈ (Kind.leave.decoder proto).tagsIn bytes) :=
    fun _ _ reads => ⟨leave_tracks_ltime.scanned bars.uniform reads,
      leave_tracks_id.scanned bars.uniform reads⟩
  simp only [Kind.needed, List.mem_cons, List.not_mem_nil, or_false, exists_eq_or_imp,
    exists_eq_left]
  constructor
  · rintro ⟨⟨stop, fields⟩, reads, failed⟩
    refine ⟨obstacle_of_scan bars.uniform reads, ?_⟩
    rw [← (there stop fields reads).1, ← (there stop fields reads).2]
    cases time : fields.ltime with
    | none => exact .inl Bool.false_ne_true
    | some ltime =>
      cases own : fields.id with
      | none => exact .inr Bool.false_ne_true
      | some id =>
        obtain ⟨reason, refusal⟩ := failed
        simp only [time, own] at refusal
        cases refusal
  · rintro ⟨clear, missing⟩
    obtain ⟨⟨stop, fields⟩, reads⟩ := scan_clear bars.uniform fine clear
    rw [← (there stop fields reads).1, ← (there stop fields reads).2] at missing
    refine ⟨_, reads, ?_⟩
    cases time : fields.ltime with
    | none => exact ⟨_, rfl⟩
    | some ltime =>
      cases own : fields.id with
      | none => exact ⟨_, rfl⟩
      | some id => simp [time, own] at missing

theorem keyRequest_refuses_iff (bytes : Bytes) :
    (Kind.keyRequest.decoder proto).Refuses bytes ↔ Kind.keyRequest.Flawed proto bytes := by
  have bars : Bars (keyRequestArms proto) {} [] := keyRequest_bars
  refine (refused_bind_iff _ _).trans ?_
  rw [bars.scan_refused_iff]
  simp [Kind.Flawed, Kind.checked, Kind.needed, Refused, Kind.decoder, Decoder.of, pure,
    Except.pure]

theorem filter_refuses_iff (bytes : Bytes) :
    (Kind.filter.decoder proto).Refuses bytes ↔
      [merge proto.id.wireType 1, merge .lengthDelimited 2].Sublist
          ((Kind.filter.decoder proto).tagsIn bytes) ∨ Kind.filter.Flawed proto bytes := by
  have bars : Bars (filterArms proto) {} (filterBars (merge proto.id.wireType 1)) := filter_bars
  refine (refused_bind_iff _ _).trans ?_
  rw [bars.scan_refused_iff]
  simp [Kind.Flawed, Kind.checked, Kind.needed, Refused, filterBars, repeats_iff, Kind.decoder,
    Decoder.of, pure, Except.pure]
  tauto

/-- A buffer in which a singular field occurs more than once is refused if the field is
checked, and else for another flaw only. A filter with ids and a tag is refused if a tag
stands behind an id, and else for another flaw only. -/
theorem ambiguous_refused_iff :
    (∀ (kind : Kind) (field : List UInt8), field ∈ kind.singular proto →
      ∀ bytes, kind.Repeats proto field bytes →
        ((kind.decoder proto).Refuses bytes ↔ kind.Flawed proto bytes)) ∧
      ∀ bytes, merge proto.id.wireType 1 ∈ (Kind.filter.decoder proto).tagsIn bytes →
        merge .lengthDelimited 2 ∈ (Kind.filter.decoder proto).tagsIn bytes →
        ((Kind.filter.decoder proto).Refuses bytes ↔
          [merge proto.id.wireType 1, merge .lengthDelimited 2].Sublist
            ((Kind.filter.decoder proto).tagsIn bytes) ∨ Kind.filter.Flawed proto bytes) := by
  refine ⟨?_, fun bytes _ _ => filter_refuses_iff bytes⟩
  intro kind field singular bytes twice
  obtain inside | inside := List.mem_append.mp singular
  · exact iff_of_true (checked_refused kind field inside bytes twice)
      (.inl ⟨field, inside, twice⟩)
  · cases kind with
    | leave =>
      exact leave_refuses_iff bytes
    | keyRequest => exact keyRequest_refuses_iff bytes
    | _ => cases inside

section Reference

theorem ambiguous_refused_leave :
    Kind.leave.Repeats reference [3] [3, 1, 3, 2] ∧
      Refused (leaveDecode reference [3, 1, 3, 2]) ∧
      (Kind.filter.decoder reference).tagsIn [1, 5, 18, 3, 17, 1, 97] = [1, 18] ∧
      Refused (filterDecode reference [1, 5, 18, 3, 17, 1, 97]) := by
  have twice : Kind.leave.Repeats reference [3] [3, 1, 3, 2] := by
    unfold Kind.Repeats
    decide
  have flawed : Kind.leave.Flawed reference [3, 1, 3, 2] :=
    .inr (.inr ⟨rfl, 9, .head _, by decide⟩)
  have mixed : (Kind.filter.decoder reference).tagsIn [1, 5, 18, 3, 17, 1, 97] = [1, 18] := rfl
  refine ⟨twice, ?_, mixed, ?_⟩
  · exact (ambiguous_refused_iff.1 Kind.leave [3] (.tail _ (.tail _ (.head _))) _ twice).mpr flawed
  · exact (ambiguous_refused_iff.2 _ (mixed ▸ .head _) (mixed ▸ .tail _ (.head _))).mpr
      (.inl (mixed ▸ List.Sublist.refl _))

/-- The last id of a leave message is taken, the last key of a key request, and the tag of a
filter whose ids stand behind it. -/
theorem ambiguous_accepted :
    Kind.leave.Repeats reference [3] [9, 7, 3, 1, 3, 2] ∧
      leaveDecode reference [9, 7, 3, 1, 3, 2] =
        .ok (6, .ok { ltime := 7, id := 2, prune := false }) ∧
      Kind.keyRequest.Repeats reference [17]
        ([17, 18, 17, 16] ++ List.replicate 16 5 ++ [17, 18, 17, 16] ++ List.replicate 16 6) ∧
      keyRequestDecode reference
          ([17, 18, 17, 16] ++ List.replicate 16 5 ++ [17, 18, 17, 16] ++ List.replicate 16 6) =
        .ok (40, .ok { key := some (.filled 6) }) ∧
      (Kind.filter.decoder reference).tagsIn [18, 3, 17, 1, 97, 1, 5] = [18, 1] ∧
      filterDecode reference [18, 3, 17, 1, 97, 1, 5] =
        .ok (7, .ok (.tag { tag := "a", expr := none })) := by
  refine ⟨?_, rfl, ?_, rfl, rfl, rfl⟩
  · unfold Kind.Repeats
    decide
  · unfold Kind.Repeats
    decide

end Reference

end Serf.Wire
