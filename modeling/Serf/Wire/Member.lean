import Serf.Wire.Basic

/-!
Members, their tags and their coordinates, and the answer to an id conflict,
which carries a member. The decoder of a member reads its status and its
versions without looking whether there is a byte left to read; it is the only
one here that some bytes make panic.
-/

namespace Serf.Wire

open Library.Collections Library.Encoding Library.Fields Library.RecordLog

variable {Id Address : Type} (proto : Proto Id Address)

section Tags

def tagsLen (tags : Tags) : Nat :=
  ((pairs tags).map fun pair => 1 + proto.framing.framedLen proto.tag pair).sum

def tagsWriter (tags : Tags) (room : Nat) : Writer :=
  proto.updated (tagsLen proto tags) room (.all ((pairs tags).map fun pair =>
    .field (.insufficientBuffer 1 0) (merge .lengthDelimited 1)
      (proto.framing.framed proto.tag pair)))

def tagsParts (tags : Tags) : List (List Part) :=
  [(pairs tags).map fun pair => ⟨merge .lengthDelimited 1, proto.framing.framed proto.tag pair⟩]

structure TagsFields where
  tags : Option (Nat × Nat) := none

def TagsFields.tagsSlot : Slot TagsFields (Nat × Nat) :=
  { held := tags, put := fun fields value => { fields with tags := value } }

def tagsArms (byte : UInt8) : Arm DecodeError TagsFields :=
  if byte = merge .lengthDelimited 1 then
    spread TagsFields.tagsSlot (proto.skip "Tags")
  else
    pass (proto.skip "Tags")

def tagsDecode (buffer : Bytes) : Outcome (Nat × Outcome Tags) := do
  let (offset, fields) ← scan (tagsArms proto) {} buffer
  return (offset, do
    let tags ← proto.collect proto.tag .lengthDelimited 1 buffer fields.tags
    return collect tags)

def tags : Data Tags :=
  ofWriter (tagsLen proto) (tagsWriter proto) (tagsDecode proto)

/-- `PartialEq` of an `IndexMap`, which does not look at the order. -/
def SameTags (tags other : Tags) : Prop := ∀ key, tags.lookup key = other.lookup key

section

variable {proto}

theorem tags_encodes (encoders : FrameEncoders proto) (tag : Encodes proto.tag (fun _ => True) 0) :
    Encodes (tags proto) (fun _ => True) 0 := by
  refine encodes_ofWriter fun value _ small room => ?_
  have short := items_small proto proto.tag (pairs value) small
  exact Writer.fits_mapErr (Writer.fits_each _ _ _ 0 fun pair inside =>
    Writer.fits_field (encoders.fits tag pair trivial (short pair inside)))

theorem tags_spells (value : Tags) (room : Nat) :
    (tagsWriter proto value room).Spells (tagsParts proto value).flatten :=
  Writer.spells_group
    (Writer.spells_mapErr (Writer.spells_each _ fun _ => Writer.spells_field _ _ _))

theorem tags_lawful (frames : FrameLaws proto) (laws : TagLaws proto) :
    Lawful (tags proto) (fun _ => True) SameTags 0 := by
  refine lawful_ofWriter (tags_encodes frames.lengths laws.tag.fits) ?_
  intro value _ small room bytes made
  have short := items_small proto proto.tag (pairs value) small
  have so := stands_written (tagsArms proto) {} (tags_spells value room) made
  obtain ⟨range, found, matched, held, so⟩ := frames.collects laws.tag (pairs value) so rfl
    (fun pair inside =>
      frames.skips laws.tag laws.tagWire pair trivial (short pair inside) "Tags" 1 (by decide))
    (fun _ _ => trivial) short rfl
  rw [List.forall₂_eq_eq_eq] at matched
  refine ⟨collect (pairs value), fun key => (lookup_collect_pairs value key).symm, ?_⟩
  rw [tagsDecode, so.scans]
  simp [TagsFields.tagsSlot, bind, Except.bind, pure, Except.pure, held, matched]

theorem tags_total (total : FrameTotal proto) (tag : TotalCodec proto.tag) :
    TotalCodec (tags proto) := by
  have safe : ∀ byte, Safe (fun offset fields => Within fields.tags offset)
      (tagsArms proto byte) := by
    intro byte
    unfold tagsArms
    split_ifs
    · exact spread_safe (total.skip _) fun _ taken _ held => within_extend taken held
    · exact pass_safe (total.skip _) fun _ taken _ held => within_grows taken held
  refine total_of_ends fun buffer => ends_scan safe {} trivial buffer ?_
  intro fields held
  exact ⟨le_rfl, returns_bind (total.collect tag _ 1 buffer _ held) fun _ _ => trivial⟩

end

end Tags

section Members

def statusByte : MemberStatus → UInt8
  | .none => 0
  | .alive => 1
  | .leaving => 2
  | .left => 3
  | .failed => 4
  | .unknown value => value

def statusOf (value : UInt8) : MemberStatus :=
  if value = 0 then .none
  else if value = 1 then .alive
  else if value = 2 then .leaving
  else if value = 3 then .left
  else if value = 4 then .failed
  else .unknown value

def versionOf {Version : Type} (v1 : Version) (unknown : UInt8 → Version) (value : UInt8) :
    Version :=
  if value = 1 then v1 else unknown value

def memberlistProtocolVersionOf : UInt8 → MemberlistProtocolVersion := versionOf .v1 .unknown

def memberlistProtocolVersionByte : MemberlistProtocolVersion → UInt8
  | .v1 => 1
  | .unknown value => value

def memberlistDelegateVersionOf : UInt8 → MemberlistDelegateVersion := versionOf .v1 .unknown

def memberlistDelegateVersionByte : MemberlistDelegateVersion → UInt8
  | .v1 => 1
  | .unknown value => value

def protocolVersionOf : UInt8 → ProtocolVersion := versionOf .v1 .unknown

def protocolVersionByte : ProtocolVersion → UInt8
  | .v1 => 1
  | .unknown value => value

def delegateVersionOf : UInt8 → DelegateVersion := versionOf .v1 .unknown

def delegateVersionByte : DelegateVersion → UInt8
  | .v1 => 1
  | .unknown value => value

def memberLen (member : Member Id Address) : Nat :=
  List.sum [
    1 + proto.framing.framedLen proto.node member.node,
    1 + proto.framing.framedLen (tags proto) member.tags,
    1 + 1, 1 + 1, 1 + 1, 1 + 1, 1 + 1]

def memberWriter (member : Member Id Address) (room : Nat) : Writer :=
  let len := memberLen proto member
  let full : EncodeError := .insufficientBuffer len room
  .all [
    tagged len room (merge .lengthDelimited 1) (proto.framing.framed proto.node member.node),
    tagged len room (merge .lengthDelimited 2) (proto.framing.framed (tags proto) member.tags),
    tagged len room (merge .byte 3) (.byte full (statusByte member.status)),
    tagged len room (merge .byte 4)
      (.byte full (memberlistProtocolVersionByte member.memberlistProtocolVersion)),
    tagged len room (merge .byte 5)
      (.byte full (memberlistDelegateVersionByte member.memberlistDelegateVersion)),
    tagged len room (merge .byte 6) (.byte full (protocolVersionByte member.protocolVersion)),
    tagged len room (merge .byte 7)
      (.byte .outOfBounds (delegateVersionByte member.delegateVersion))]

def memberParts (member : Member Id Address) : List (List Part) :=
  [[⟨merge .lengthDelimited 1, proto.framing.framed proto.node member.node⟩],
    [⟨merge .lengthDelimited 2, proto.framing.framed (tags proto) member.tags⟩],
    [⟨merge .byte 3, .byte .tooLarge (statusByte member.status)⟩],
    [⟨merge .byte 4,
      .byte .tooLarge (memberlistProtocolVersionByte member.memberlistProtocolVersion)⟩],
    [⟨merge .byte 5,
      .byte .tooLarge (memberlistDelegateVersionByte member.memberlistDelegateVersion)⟩],
    [⟨merge .byte 6, .byte .tooLarge (protocolVersionByte member.protocolVersion)⟩],
    [⟨merge .byte 7, .byte .tooLarge (delegateVersionByte member.delegateVersion)⟩]]

structure MemberFields (Id Address : Type) where
  node : Option (NodeRef Id Address) := none
  tags : Option (Outcome Tags) := none
  status : Option MemberStatus := none
  memberlistProtocolVersion : Option MemberlistProtocolVersion := none
  memberlistDelegateVersion : Option MemberlistDelegateVersion := none
  protocolVersion : Option ProtocolVersion := none
  delegateVersion : Option DelegateVersion := none

def MemberFields.nodeSlot : Slot (MemberFields Id Address) (NodeRef Id Address) :=
  { held := node, put := fun fields value => { fields with node := value } }

def MemberFields.tagsSlot : Slot (MemberFields Id Address) (Outcome Tags) :=
  { held := tags, put := fun fields value => { fields with tags := value } }

def MemberFields.statusSlot : Slot (MemberFields Id Address) MemberStatus :=
  { held := status, put := fun fields value => { fields with status := value } }

def MemberFields.memberlistProtocolVersionSlot :
    Slot (MemberFields Id Address) MemberlistProtocolVersion :=
  { held := memberlistProtocolVersion
    put := fun fields value => { fields with memberlistProtocolVersion := value } }

def MemberFields.memberlistDelegateVersionSlot :
    Slot (MemberFields Id Address) MemberlistDelegateVersion :=
  { held := memberlistDelegateVersion
    put := fun fields value => { fields with memberlistDelegateVersion := value } }

def MemberFields.protocolVersionSlot : Slot (MemberFields Id Address) ProtocolVersion :=
  { held := protocolVersion, put := fun fields value => { fields with protocolVersion := value } }

def MemberFields.delegateVersionSlot : Slot (MemberFields Id Address) DelegateVersion :=
  { held := delegateVersion, put := fun fields value => { fields with delegateVersion := value } }

/-- `buf[offset]`, without a check of the bounds. -/
def indexed : Read DecodeError UInt8
  | [] => .error .panic
  | value :: _ => .ok (1, value)

def memberArms (byte : UInt8) : Arm DecodeError (MemberFields Id Address) :=
  if byte = merge .lengthDelimited 1 then
    once MemberFields.nodeSlot (.duplicateField "Member" "node" 1) proto.readNode
  else if byte = merge .lengthDelimited 2 then
    once MemberFields.tagsSlot (.duplicateField "Member" "tags" 2) (proto.read (tags proto))
  else if byte = merge .byte 3 then
    once MemberFields.statusSlot (.duplicateField "Member" "status" 3) (mapRead statusOf indexed)
  else if byte = merge .byte 4 then
    once MemberFields.memberlistProtocolVersionSlot
      (.duplicateField "Member" "memberlist_protocol_version" 4)
      (mapRead memberlistProtocolVersionOf indexed)
  else if byte = merge .byte 5 then
    once MemberFields.memberlistDelegateVersionSlot
      (.duplicateField "Member" "memberlist_delegate_version" 5)
      (mapRead memberlistDelegateVersionOf indexed)
  else if byte = merge .byte 6 then
    once MemberFields.protocolVersionSlot (.duplicateField "Member" "protocol_version" 6)
      (mapRead protocolVersionOf indexed)
  else if byte = merge .byte 7 then
    once MemberFields.delegateVersionSlot (.duplicateField "Member" "delegate_version" 7)
      (mapRead delegateVersionOf indexed)
  else
    pass (proto.skip "Member")

structure MemberRef (Id Address : Type) where
  node : NodeRef Id Address
  tags : Outcome Tags
  status : MemberStatus
  memberlistProtocolVersion : MemberlistProtocolVersion
  memberlistDelegateVersion : MemberlistDelegateVersion
  protocolVersion : ProtocolVersion
  delegateVersion : DelegateVersion

def memberRefDecode (buffer : Bytes) : Outcome (Nat × MemberRef Id Address) := do
  let (offset, fields) ← scan (memberArms proto) {} buffer
  let node ← need "Member" "node" fields.node
  let tags ← need "Member" "tags" fields.tags
  let status ← need "Member" "status" fields.status
  let memberlistProtocolVersion ←
    need "Member" "memberlist_protocol_version" fields.memberlistProtocolVersion
  let memberlistDelegateVersion ←
    need "Member" "memberlist_delegate_version" fields.memberlistDelegateVersion
  let protocolVersion ← need "Member" "protocol_version" fields.protocolVersion
  let delegateVersion ← need "Member" "delegate_version" fields.delegateVersion
  return (offset, {
    node, tags, status, memberlistProtocolVersion, memberlistDelegateVersion
    protocolVersion, delegateVersion })

def convertMember (member : MemberRef Id Address) : Outcome (Member Id Address) := do
  let node ← convertNode member.node
  let tags ← member.tags
  return {
    node, tags
    status := member.status
    memberlistProtocolVersion := member.memberlistProtocolVersion
    memberlistDelegateVersion := member.memberlistDelegateVersion
    protocolVersion := member.protocolVersion
    delegateVersion := member.delegateVersion }

def memberDecode : Read DecodeError (Outcome (Member Id Address)) :=
  mapRead convertMember (memberRefDecode proto)

def member : Data (Member Id Address) :=
  ofWriter (memberLen proto) (memberWriter proto) (memberDecode proto)

structure Canonical (member : Member Id Address) : Prop where
  status : ∀ value, member.status = .unknown value → 4 < value
  memberlistProtocolVersion :
    ∀ value, member.memberlistProtocolVersion = .unknown value → value ≠ 1
  memberlistDelegateVersion :
    ∀ value, member.memberlistDelegateVersion = .unknown value → value ≠ 1
  protocolVersion : ∀ value, member.protocolVersion = .unknown value → value ≠ 1
  delegateVersion : ∀ value, member.delegateVersion = .unknown value → value ≠ 1

structure SameMember (member other : Member Id Address) : Prop where
  node : member.node = other.node
  tags : SameTags member.tags other.tags
  status : member.status = other.status
  memberlistProtocolVersion : member.memberlistProtocolVersion = other.memberlistProtocolVersion
  memberlistDelegateVersion : member.memberlistDelegateVersion = other.memberlistDelegateVersion
  protocolVersion : member.protocolVersion = other.protocolVersion
  delegateVersion : member.delegateVersion = other.delegateVersion

theorem statusOf_statusByte (status : MemberStatus)
    (canonical : ∀ value, status = .unknown value → 4 < value) :
    statusOf (statusByte status) = status := by
  cases status with
  | unknown value =>
    -- The byte is behind the five that have a name.
    have large := canonical value rfl
    rw [UInt8.lt_iff_toNat_lt] at large
    have other : ∀ named : UInt8, named ≤ 4 → value ≠ named := by
      rintro named small rfl
      rw [UInt8.le_iff_toNat_le] at small
      omega
    rw [statusByte, statusOf, if_neg (other 0 (by decide)), if_neg (other 1 (by decide)),
      if_neg (other 2 (by decide)), if_neg (other 3 (by decide)), if_neg (other 4 (by decide))]
  | none => rfl
  | alive => rfl
  | leaving => rfl
  | left => rfl
  | failed => rfl

theorem versionOf_byte {Version : Type} {v1 : Version} {unknown : UInt8 → Version}
    {byte : Version → UInt8} {version : Version} (named : byte v1 = 1)
    (kept : ∀ value, byte (unknown value) = value)
    (either : version = v1 ∨ ∃ value, version = unknown value)
    (canonical : ∀ value, version = unknown value → value ≠ 1) :
    versionOf v1 unknown (byte version) = version := by
  rcases either with rfl | ⟨value, rfl⟩
  · rw [named, versionOf, if_pos rfl]
  · rw [kept, versionOf, if_neg (canonical value rfl)]

theorem canonical_versions (member : Member Id Address) (canonical : Canonical member) :
    memberlistProtocolVersionOf (memberlistProtocolVersionByte member.memberlistProtocolVersion) =
        member.memberlistProtocolVersion ∧
      memberlistDelegateVersionOf
          (memberlistDelegateVersionByte member.memberlistDelegateVersion) =
        member.memberlistDelegateVersion ∧
      protocolVersionOf (protocolVersionByte member.protocolVersion) = member.protocolVersion ∧
      delegateVersionOf (delegateVersionByte member.delegateVersion) = member.delegateVersion :=
  ⟨versionOf_byte rfl (fun _ => rfl) (by cases member.memberlistProtocolVersion <;> simp)
      canonical.memberlistProtocolVersion,
    versionOf_byte rfl (fun _ => rfl) (by cases member.memberlistDelegateVersion <;> simp)
      canonical.memberlistDelegateVersion,
    versionOf_byte rfl (fun _ => rfl) (by cases member.protocolVersion <;> simp)
      canonical.protocolVersion,
    versionOf_byte rfl (fun _ => rfl) (by cases member.delegateVersion <;> simp)
      canonical.delegateVersion⟩

section

variable {proto}

theorem indexed_inverts {Found : Type} (full : EncodeError) (value : UInt8)
    (change : UInt8 → Found) (found : Found) (back : change value = found) :
    Inverts (Writer.byte full value) (mapRead change indexed) (found = ·) := by
  subst back
  exact byte_inverts full value _ _ fun _ => rfl

theorem member_encodes (encoders : MemberEncoders proto) :
    Encodes (member proto) (fun _ => True) 0 := by
  refine encodes_ofWriter fun value _ small room => ?_
  simp only [memberLen, List.sum_cons, List.sum_nil] at small
  have node := encoders.fits encoders.node value.node trivial (by omega)
  have tags := encoders.fits (tags_encodes encoders.toFrameEncoders encoders.tag) value.tags trivial
    (by omega)
  exact Writer.fits_all
    (.cons (Writer.fits_field node)
    (.cons (Writer.fits_field tags)
    (.cons (Writer.fits_field (Writer.fits_byte _ _))
    (.cons (Writer.fits_field (Writer.fits_byte _ _))
    (.cons (Writer.fits_field (Writer.fits_byte _ _))
    (.cons (Writer.fits_field (Writer.fits_byte _ _))
    (.cons (Writer.fits_field (Writer.fits_byte _ _)) .nil)))))))

theorem member_spells (value : Member Id Address) (room : Nat) :
    (memberWriter proto value room).Spells (memberParts proto value).flatten :=
  Writer.spells_all
    (.cons (Writer.spells_field _ _ _)
    (.cons (Writer.spells_field _ _ _)
    (.cons (Writer.spells_byte _ _ _ _ _)
    (.cons (Writer.spells_byte _ _ _ _ _)
    (.cons (Writer.spells_byte _ _ _ _ _)
    (.cons (Writer.spells_byte _ _ _ _ _)
    (.cons (Writer.spells_byte _ _ _ _ _) .nil)))))))

theorem memberRef_reads (laws : MemberLaws proto) (value : Member Id Address)
    (canonical : Canonical value) (small : memberLen proto value ≤ maxLen) (room : Nat)
    (bytes : Bytes) (made : (memberWriter proto value room).Makes bytes) :
    ∃ ref result, SameMember value result ∧ ref.node = borrowNode value.node ∧
      convertMember ref = .ok result ∧ memberRefDecode proto bytes = .ok (bytes.length, ref) := by
  simp only [memberLen, List.sum_cons, List.sum_nil] at small
  obtain ⟨memberlistProtocolVersion, memberlistDelegateVersion, protocolVersion,
    delegateVersion⟩ := canonical_versions value canonical
  have so := stands_written (memberArms proto) {} (member_spells value room) made
  obtain ⟨_, rfl, so⟩ := so.field (once_stores rfl rfl)
    (laws.readsNode laws.node value.node (framed_small proto.framing value.node (by omega)))
  obtain ⟨_, ⟨tags, rfl, sameTags⟩, so⟩ := so.field (once_stores rfl rfl)
    (laws.reads (tags_lawful laws.toFrameLaws laws.toTagLaws) value.tags trivial (by omega))
  obtain ⟨_, rfl, so⟩ := so.field (once_stores rfl rfl)
    (indexed_inverts _ _ _ _ (statusOf_statusByte value.status canonical.status))
  obtain ⟨_, rfl, so⟩ := so.field (once_stores rfl rfl)
    (indexed_inverts _ _ _ _ memberlistProtocolVersion)
  obtain ⟨_, rfl, so⟩ := so.field (once_stores rfl rfl)
    (indexed_inverts _ _ _ _ memberlistDelegateVersion)
  obtain ⟨_, rfl, so⟩ := so.field (once_stores rfl rfl) (indexed_inverts _ _ _ _ protocolVersion)
  obtain ⟨_, rfl, so⟩ := so.field (once_stores rfl rfl) (indexed_inverts _ _ _ _ delegateVersion)
  refine ⟨{ value with node := borrowNode value.node, tags := .ok tags }, { value with tags },
    ⟨rfl, sameTags, rfl, rfl, rfl, rfl, rfl⟩, rfl, rfl, ?_⟩
  rw [memberRefDecode, so.scans]
  simp [MemberFields.nodeSlot, MemberFields.tagsSlot, MemberFields.statusSlot,
    MemberFields.memberlistProtocolVersionSlot, MemberFields.memberlistDelegateVersionSlot,
    MemberFields.protocolVersionSlot, MemberFields.delegateVersionSlot, need, bind, Except.bind,
    pure, Except.pure]

end

def MemberFields.unread (fields : MemberFields Id Address) (tag : UInt8) : Bool :=
  if tag = merge .byte 3 then fields.status.isNone
  else if tag = merge .byte 4 then fields.memberlistProtocolVersion.isNone
  else if tag = merge .byte 5 then fields.memberlistDelegateVersion.isNone
  else if tag = merge .byte 6 then fields.protocolVersion.isNone
  else if tag = merge .byte 7 then fields.delegateVersion.isNone
  else false

structure MemberRef.Settles (member : MemberRef Id Address) : Prop where
  node : Returns member.node.id ∧ Returns member.node.address
  tags : Returns member.tags

theorem convertMember_returns (member : MemberRef Id Address) (settles : member.Settles) :
    Returns (convertMember member) :=
  returns_bind (convertNode_returns _ settles.node) fun _ _ =>
    returns_bind settles.tags fun _ _ => trivial

/-- The last byte of the buffer is the tag byte of such a field. -/
def CutMember (bytes : Bytes) : Prop :=
  ∃ offset fields tag,
    Reaches (fieldTurn (memberArms proto)) (0, {}) bytes (offset, fields) [tag] ∧
      fields.unread tag = true

section

variable {proto}

theorem indexed_takes {Found : Type} (change : UInt8 → Found) :
    Takes (mapRead change indexed) 1 fun _ => True := by
  have takes : Takes indexed 1 fun _ => True := by
    intro bytes taken value now
    cases bytes with
    | nil => cases now
    | cons first rest =>
      cases now
      exact ⟨le_rfl, by simp, trivial⟩
  exact takes_mapRead _ takes fun _ _ => trivial

theorem indexed_returns_iff {Found : Type} (change : UInt8 → Found) (bytes : Bytes) :
    Returns (mapRead change indexed bytes) ↔ bytes ≠ [] := by
  cases bytes with
  | nil => simp [mapRead, indexed, Except.map, Returns, Fault.Reported]
  | cons first rest => simp [mapRead, indexed, Except.map, Returns]

theorem indexedArm_returns_iff {State Found : Type} (slot : Slot State Found)
    (duplicate : DecodeError) (change : UInt8 → Found) (offset : Nat) (state : State)
    (tag : UInt8) (rest : Bytes) :
    Returns (once slot duplicate (mapRead change indexed) offset state (tag :: rest)) ↔
      (rest = [] → (slot.held state).isNone = false) := by
  rw [once_returns_iff, List.tail_cons, indexed_returns_iff]
  cases slot.held state <;> simp

variable (total : ProtoTotal proto)

include total

theorem memberArms_steady (byte : UInt8) :
    Steady (fun _ fields => SettledNode fields.node ∧ Settled fields.tags)
      (memberArms proto byte) := by
  rw [memberArms]
  apply steady_ite
  · exact (once_safe (total.readNode total.node) fun _ _ _ _ held back =>
      ⟨settledNode_some back, held.2⟩).toSteady
  apply steady_ite
  · exact (once_safe (total.read (tags_total total.toFrameTotal total.tag))
      fun _ _ _ _ held back => ⟨held.1, settled_some back⟩).toSteady
  apply steady_ite
  · exact once_steady (indexed_takes statusOf) fun _ _ _ _ held _ => held
  apply steady_ite
  · exact once_steady (indexed_takes memberlistProtocolVersionOf) fun _ _ _ _ held _ => held
  apply steady_ite
  · exact once_steady (indexed_takes memberlistDelegateVersionOf) fun _ _ _ _ held _ => held
  apply steady_ite
  · exact once_steady (indexed_takes protocolVersionOf) fun _ _ _ _ held _ => held
  apply steady_ite
  · exact once_steady (indexed_takes delegateVersionOf) fun _ _ _ _ held _ => held
  exact (pass_safe (total.skip _) fun _ _ _ held => held).toSteady

theorem memberArms_returns_iff (offset : Nat) (fields : MemberFields Id Address) (tag : UInt8)
    (rest : Bytes) :
    Returns (memberArms proto tag offset fields (tag :: rest)) ↔
      (rest = [] → fields.unread tag = false) := by
  by_cases status : tag = merge .byte 3
  · subst tag
    exact indexedArm_returns_iff MemberFields.statusSlot _ statusOf offset fields _ rest
  by_cases memberlistProtocol : tag = merge .byte 4
  · subst tag
    exact indexedArm_returns_iff MemberFields.memberlistProtocolVersionSlot _
      memberlistProtocolVersionOf offset fields _ rest
  by_cases memberlistDelegate : tag = merge .byte 5
  · subst tag
    exact indexedArm_returns_iff MemberFields.memberlistDelegateVersionSlot _
      memberlistDelegateVersionOf offset fields _ rest
  by_cases protocol : tag = merge .byte 6
  · subst tag
    exact indexedArm_returns_iff MemberFields.protocolVersionSlot _ protocolVersionOf offset fields
      _ rest
  by_cases delegate : tag = merge .byte 7
  · subst tag
    exact indexedArm_returns_iff MemberFields.delegateVersionSlot _ delegateVersionOf offset fields
      _ rest
  -- Every other arm asks whether there is enough to read.
  have read : fields.unread tag = false := by
    simp only [MemberFields.unread, if_neg status, if_neg memberlistProtocol,
      if_neg memberlistDelegate, if_neg protocol, if_neg delegate]
  have back : Returns (memberArms proto tag offset fields (tag :: rest)) := by
    unfold memberArms
    rw [if_neg status, if_neg memberlistProtocol, if_neg memberlistDelegate, if_neg protocol,
      if_neg delegate]
    split_ifs
    · exact (once_returns_iff _ _ _).mpr fun _ => (total.readNode total.node).returns _
    · exact (once_returns_iff _ _ _).mpr fun _ =>
        (total.read (tags_total total.toFrameTotal total.tag)).returns _
    · exact (returns_map _ _).mpr ((total.skip _).returns _)
  exact ⟨fun _ _ => read, fun _ => back⟩

theorem member_ends (bytes : Bytes) (back : Returns (scan (memberArms proto) {} bytes)) :
    Ends (fun result => result.1 ≤ bytes.length ∧ result.2.Settles)
      (memberRefDecode proto bytes) := by
  refine ends_steady (memberArms_steady total) {} ⟨settledNode_none, settled_none⟩ bytes back ?_
  intro fields settled
  refine ends_need _ _ _ fun node givenNode => ends_need _ _ _ fun tags givenTags =>
    ends_need _ _ _ fun _ _ => ends_need _ _ _ fun _ _ => ends_need _ _ _ fun _ _ =>
    ends_need _ _ _ fun _ _ => ends_need _ _ _ fun _ _ => ⟨le_rfl, ?_⟩
  exact ⟨settled.1 node givenNode, settled.2 tags givenTags⟩

theorem memberRef_takes : Takes (memberRefDecode proto) 0 MemberRef.Settles :=
  takes_of_ends fun bytes back => member_ends total bytes (returns_of_bind back)

theorem member_returns_iff (bytes : Bytes) :
    Returns (memberRefDecode proto bytes) ↔ ¬ CutMember proto bytes := by
  refine (scan_bind_returns_iff (memberArms_steady total) {} bytes
    (member_ends total bytes)).trans ?_
  constructor
  · rintro all ⟨offset, fields, tag, reached, unread⟩
    have back := (memberArms_returns_iff total offset fields tag []).mp
      (all offset fields tag [] reached) rfl
    rw [unread] at back
    cases back
  · intro whole offset fields tag rest reached
    rw [memberArms_returns_iff total]
    rintro rfl
    by_contra unread
    exact whole ⟨offset, fields, tag, reached, by simpa using unread⟩

end

end Members

section Conflicts

structure ConflictResponseMessage (Id Address : Type) where
  member : Member Id Address

def conflictResponseLen (message : ConflictResponseMessage Id Address) : Nat :=
  1 + proto.framing.framedLen (member proto) message.member

def conflictResponseWriter (message : ConflictResponseMessage Id Address) (room : Nat) : Writer :=
  let len := conflictResponseLen proto message
  tagged len room (merge .lengthDelimited 1)
    (proto.updated len room (proto.framing.framed (member proto) message.member))

structure ConflictResponseMessageRef (Id Address : Type) where
  member : MemberRef Id Address

structure ConflictResponseFields (Id Address : Type) where
  member : Option (MemberRef Id Address) := none

def ConflictResponseFields.memberSlot :
    Slot (ConflictResponseFields Id Address) (MemberRef Id Address) :=
  { held := member, put := fun fields value => { fields with member := value } }

def conflictResponseArms (byte : UInt8) : Arm DecodeError (ConflictResponseFields Id Address) :=
  if byte = merge .lengthDelimited 1 then
    once ConflictResponseFields.memberSlot (.duplicateField "ConflictResponseMessage" "member" 1)
      (proto.framing.decodeFramed .lengthDelimited (memberRefDecode proto))
  else
    pass (proto.skip "ConflictResponseMessage")

def conflictResponseRefDecode (buffer : Bytes) :
    Outcome (Nat × ConflictResponseMessageRef Id Address) := do
  let (offset, fields) ← scan (conflictResponseArms proto) {} buffer
  let member ← need "ConflictResponseMessage" "member" fields.member
  return (offset, { member })

def convertConflictResponse (message : ConflictResponseMessageRef Id Address) :
    Outcome (ConflictResponseMessage Id Address) := do
  let member ← convertMember message.member
  return { member }

def conflictResponseDecode :
    Read DecodeError (Outcome (ConflictResponseMessage Id Address)) :=
  mapRead convertConflictResponse (conflictResponseRefDecode proto)

def conflictResponse : Data (ConflictResponseMessage Id Address) :=
  ofWriter (conflictResponseLen proto) (conflictResponseWriter proto)
    (conflictResponseDecode proto)

def conflictResponseParts (message : ConflictResponseMessage Id Address) : List (List Part) :=
  [[⟨merge .lengthDelimited 1, proto.framing.framed (member proto) message.member⟩]]

theorem conflictResponse_spells (message : ConflictResponseMessage Id Address) (room : Nat) :
    (conflictResponseWriter proto message room).Spells
      (conflictResponseParts proto message).flatten :=
  Writer.spells_group (Writer.spells_updated _ _ _ _)

section

variable {proto}

def CanonicalResponse (message : ConflictResponseMessage Id Address) : Prop :=
  Canonical message.member

def SameConflictResponse (message other : ConflictResponseMessage Id Address) : Prop :=
  SameMember message.member other.member

structure BorrowsConflict (message : ConflictResponseMessage Id Address)
    (ref : ConflictResponseMessageRef Id Address) : Prop where
  node : ref.member.node = borrowNode message.member.node
  converts : Yields (SameConflictResponse message) (convertConflictResponse ref)

theorem conflictResponse_encodes (encoders : MemberEncoders proto) :
    Encodes (conflictResponse proto) (fun _ => True) 0 := by
  refine encodes_ofWriter fun message _ small room => ?_
  unfold conflictResponseLen at small
  have inner := encoders.fits (member_encodes encoders) message.member trivial (by omega)
  exact Writer.fits_field (Writer.fits_mapErr inner)

theorem memberRef_inverts (laws : MemberLaws proto) (member : Member Id Address)
    (canonical : Canonical member)
    (small : proto.framing.framedLen (Wire.member proto) member ≤ maxLen) :
    Inverts (proto.framing.framed (Wire.member proto) member)
      (proto.framing.decodeFramed .lengthDelimited (memberRefDecode proto))
      fun ref => BorrowsConflict ⟨member⟩ ⟨ref⟩ := by
  have short : memberLen proto member ≤ maxLen := framed_small proto.framing member small
  refine delimited_inverts laws.u32 rfl rfl member
    (member_encodes laws.encoders member trivial short) ?_
  rintro body ⟨room, written⟩
  obtain ⟨ref, result, same, node, converted, decoded⟩ :=
    memberRef_reads laws member canonical short room body ⟨room, written⟩
  refine ⟨ref, ⟨node, ⟨result⟩, ?_, same⟩, decoded⟩
  rw [convertConflictResponse, converted]
  rfl

theorem conflictResponse_borrows (laws : MemberLaws proto)
    (message : ConflictResponseMessage Id Address) (canonical : CanonicalResponse message)
    (small : (conflictResponse proto).encodedLen message ≤ maxLen) (bytes : Bytes)
    (made : (Writer.ofCodec (conflictResponse proto) message).Makes bytes) :
    ∃ ref, BorrowsConflict message ref ∧
      conflictResponseRefDecode proto bytes = .ok (bytes.length, ref) := by
  obtain ⟨room, written⟩ := made
  have inner : proto.framing.framedLen (member proto) message.member ≤ maxLen := by
    change conflictResponseLen proto message ≤ maxLen at small
    unfold conflictResponseLen at small
    omega
  have so := stands_written (conflictResponseArms proto) {}
    (conflictResponse_spells proto message room) ⟨room, written⟩
  obtain ⟨ref, borrows, so⟩ := so.field (once_stores rfl rfl)
    (memberRef_inverts laws message.member canonical inner)
  refine ⟨⟨ref⟩, borrows, ?_⟩
  rw [conflictResponseRefDecode, so.scans]
  rfl

end

def CutConflictResponse (bytes : Bytes) : Prop :=
  ∃ offset fields rest slice,
    Reaches (fieldTurn (conflictResponseArms proto)) (0, {}) bytes (offset, fields)
      (merge .lengthDelimited 1 :: rest) ∧
    fields.member = none ∧ Announces proto.u32 rest slice ∧ CutMember proto slice

section

variable {proto} (total : ProtoTotal proto)

include total

theorem conflictResponseArms_steady (byte : UInt8) :
    Steady (fun _ fields => ∀ member, fields.member = some member → member.Settles)
      (conflictResponseArms proto byte) := by
  unfold conflictResponseArms
  split_ifs
  · exact once_steady (takes_framed total.lengths.takes (memberRef_takes total))
      fun _ _ _ _ _ back _ held => Option.some.inj held ▸ back
  · exact (pass_safe (total.skip _) fun _ _ _ held => held).toSteady

theorem conflictResponse_ends (bytes : Bytes)
    (back : Returns (scan (conflictResponseArms proto) {} bytes)) :
    Ends (fun result => result.1 ≤ bytes.length ∧ result.2.member.Settles)
      (conflictResponseRefDecode proto bytes) := by
  refine ends_steady (conflictResponseArms_steady total) {} (fun _ => nofun) bytes back ?_
  intro fields settled
  exact ends_need _ _ _ fun member given => ⟨le_rfl, settled member given⟩

theorem conflictResponse_takes :
    Takes (conflictResponseRefDecode proto) 0 fun ref => ref.member.Settles :=
  takes_of_ends fun bytes back => conflictResponse_ends total bytes (returns_of_bind back)

theorem conflictResponse_returns_iff (bytes : Bytes) :
    Returns (conflictResponseRefDecode proto bytes) ↔ ¬ CutConflictResponse proto bytes := by
  refine (scan_bind_returns_iff (conflictResponseArms_steady total) {} bytes
    (conflictResponse_ends total bytes)).trans ?_
  constructor
  · -- The arm that reads the member is reached while none is held.
    rintro all ⟨offset, fields, rest, slice, reached, fresh, announced, cut⟩
    have back := all offset fields _ rest reached
    rw [conflictResponseArms, if_pos rfl, once_returns_iff] at back
    have read := back fresh
    rw [List.tail_cons, framed_returns_iff total.lengths.returns rfl] at read
    exact (member_returns_iff total slice).mp (read slice announced) cut
  · intro whole offset fields tag rest reached
    by_cases isMember : tag = merge .lengthDelimited 1
    · subst tag
      rw [conflictResponseArms, if_pos rfl, once_returns_iff]
      intro fresh
      rw [List.tail_cons, framed_returns_iff total.lengths.returns rfl]
      intro slice announced
      apply (member_returns_iff total slice).mpr
      intro cut
      exact whole ⟨offset, fields, rest, slice, reached, fresh, announced, cut⟩
    · rw [conflictResponseArms, if_neg isMember]
      exact (returns_map _ _).mpr ((total.skip _).returns _)

end

end Conflicts

section Coordinates

structure Coordinate where
  portion : List F64
  error : F64
  adjustment : F64
  height : F64

/-- The length of a portion is counted with a length in front of it, which it has only
if numbers were length-delimited. -/
def coordinateLen (coordinate : Coordinate) : Nat :=
  List.sum [
    (coordinate.portion.map fun x => 1 + proto.framing.framedLen proto.f64 x).sum,
    1 + proto.f64.encodedLen coordinate.error,
    1 + proto.f64.encodedLen coordinate.adjustment,
    1 + proto.f64.encodedLen coordinate.height]

def coordinateWriter (coordinate : Coordinate) (room : Nat) : Writer :=
  let len := coordinateLen proto coordinate
  .all [
    .all (coordinate.portion.map fun x =>
      tagged len room (merge .fixed64 1) (proto.updated len room (.ofCodec proto.f64 x))),
    tagged len room (merge .fixed64 2) (.ofCodec proto.f64 coordinate.error),
    tagged len room (merge .fixed64 3) (.ofCodec proto.f64 coordinate.adjustment),
    tagged len room (merge .fixed64 4) (.ofCodec proto.f64 coordinate.height)]

def coordinateParts (coordinate : Coordinate) : List (List Part) :=
  [coordinate.portion.map fun x => ⟨merge .fixed64 1, .ofCodec proto.f64 x⟩,
    [⟨merge .fixed64 2, .ofCodec proto.f64 coordinate.error⟩],
    [⟨merge .fixed64 3, .ofCodec proto.f64 coordinate.adjustment⟩],
    [⟨merge .fixed64 4, .ofCodec proto.f64 coordinate.height⟩]]

theorem coordinate_spells (coordinate : Coordinate) (room : Nat) :
    (coordinateWriter proto coordinate room).Spells (coordinateParts proto coordinate).flatten :=
  Writer.spells_all
    (.cons (Writer.spells_each _ fun _ => Writer.spells_updated _ _ _ _)
    (.cons (Writer.spells_field _ _ _)
    (.cons (Writer.spells_field _ _ _)
    (.cons (Writer.spells_field _ _ _) .nil))))

structure CoordinateFields where
  portion : Option (Nat × Nat) := none
  error : Option F64 := none
  adjustment : Option F64 := none
  height : Option F64 := none

def CoordinateFields.portionSlot : Slot CoordinateFields (Nat × Nat) :=
  { held := portion, put := fun fields value => { fields with portion := value } }

def CoordinateFields.errorSlot : Slot CoordinateFields F64 :=
  { held := error, put := fun fields value => { fields with error := value } }

def CoordinateFields.adjustmentSlot : Slot CoordinateFields F64 :=
  { held := adjustment, put := fun fields value => { fields with adjustment := value } }

def CoordinateFields.heightSlot : Slot CoordinateFields F64 :=
  { held := height, put := fun fields value => { fields with height := value } }

def coordinateArms (byte : UInt8) : Arm DecodeError CoordinateFields :=
  if byte = merge .fixed64 1 then
    spread CoordinateFields.portionSlot (proto.skip "Coordinate")
  else if byte = merge .fixed64 2 then
    once CoordinateFields.errorSlot (.duplicateField "Coordinate" "error" 2) proto.f64.decodeOwned
  else if byte = merge .fixed64 3 then
    once CoordinateFields.adjustmentSlot (.duplicateField "Coordinate" "adjustment" 3)
      proto.f64.decodeOwned
  else if byte = merge .fixed64 4 then
    once CoordinateFields.heightSlot (.duplicateField "Coordinate" "height" 4)
      proto.f64.decodeOwned
  else
    pass (proto.skip "Coordinate")

def coordinateDecode (buffer : Bytes) : Outcome (Nat × Outcome Coordinate) := do
  let (offset, fields) ← scan (coordinateArms proto) {} buffer
  let error ← need "Coordinate" "error" fields.error
  let adjustment ← need "Coordinate" "adjustment" fields.adjustment
  let height ← need "Coordinate" "height" fields.height
  return (offset, do
    let portion ← proto.collect proto.f64 .fixed64 1 buffer fields.portion
    return { portion, error, adjustment, height })

def coordinate : Data Coordinate :=
  ofWriter (coordinateLen proto) (coordinateWriter proto) (coordinateDecode proto)

variable {proto}

theorem coordinate_total (total : FrameTotal proto) (f64 : TotalCodec proto.f64) :
    Total (coordinateDecode proto) 0 Returns := by
  have safe : ∀ byte, Safe (fun offset fields => Within fields.portion offset)
      (coordinateArms proto byte) := by
    intro byte
    unfold coordinateArms
    split_ifs
    · exact spread_safe (total.skip _) fun _ taken _ held => within_extend taken held
    · exact once_safe (total_decodeOwned f64) fun _ taken _ _ held _ =>
        within_grows taken held
    · exact once_safe (total_decodeOwned f64) fun _ taken _ _ held _ =>
        within_grows taken held
    · exact once_safe (total_decodeOwned f64) fun _ taken _ _ held _ =>
        within_grows taken held
    · exact pass_safe (total.skip _) fun _ taken _ held => within_grows taken held
  refine total_of_ends fun buffer => ends_scan safe {} trivial buffer ?_
  intro fields held
  refine ends_need _ _ _ fun _ _ => ends_need _ _ _ fun _ _ => ends_need _ _ _ fun _ _ =>
    ⟨le_rfl, ?_⟩
  exact returns_bind (total.collect f64 _ 1 buffer _ held) fun _ _ => trivial

end Coordinates

end Serf.Wire
