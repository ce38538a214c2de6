import Serf.MemberTable
import Serf.Wire.Member
import Serf.Wire.Reference

/-!
The tags of a node, from the call that sets them to the tables of its peers. They travel as
the meta data that memberlist asks for and hands to `handle_node_join` and
`handle_node_update` elsewhere. The checks of their length count a prefix that `node_meta`
does not write, so tags that were let in always fit.
-/

namespace Serf.TagGossip

open Library.Collections Library.Encoding Library.Machine MemberTable Wire

variable {Id Address : Type} {proto : Proto Id Address}

def metaMaxSize : Nat := 512

theorem eq_empty {tags : Tags} (none : tags.entries = []) : tags = ∅ := AList.ext none

variable (proto) in
/-- The tags that a node holds. -/
structure LocalTags where
  tags : Tags
  fits : (Wire.tags proto).encodedLen tags ≤ metaMaxSize

variable (proto) in
def prefixedLen (tags : Tags) : Nat :=
  proto.u32.encodedLen (UInt32.ofNat ((Wire.tags proto).encodedLen tags)) +
    (Wire.tags proto).encodedLen tags

variable (proto) in
/-- The check of `new_in`; an error is the length. -/
def admitTags (tags : Tags) : Except Nat (LocalTags proto) :=
  let len := prefixedLen proto tags
  if empty : tags.entries = [] then .ok ⟨tags, by rw [eq_empty empty]; exact Nat.zero_le _⟩
  else if short : 1 + proto.u32.encodedLen (UInt32.ofNat len) + len ≤ metaMaxSize then
    .ok ⟨tags, by unfold len prefixedLen at short; omega⟩
  else .error len

def setTags (held : LocalTags proto) (tags : Tags) : LocalTags proto × Except Nat Unit :=
  if large : metaMaxSize < prefixedLen proto tags then (held, .error (prefixedLen proto tags))
  else (⟨tags, by unfold prefixedLen at large; omega⟩, .ok ())

/-- `none` is the panic. What is written is never longer than the buffer, so the second
check of the length does not fail. -/
def nodeMeta (limit : Nat) (held : LocalTags proto) : Option Bytes :=
  if held.tags.entries = [] then some []
  else if min limit metaMaxSize < (Wire.tags proto).encodedLen held.tags then none
  else
    match (Wire.tags proto).encodeToBytes held.tags with
    | .error _ => some []
    | .ok bytes => some bytes

section Laws

variable (frames : FrameLaws proto) (laws : TagLaws proto)

include frames laws

theorem decodeOwned_nil :
    ∃ found, (Wire.tags proto).decodeOwned [] = .ok (0, found) ∧ SameTags ∅ found := by
  obtain ⟨bytes, found, _, length, same, decoded⟩ :=
    (tags_lawful frames laws).encodeToBytes ∅ trivial (Nat.zero_le _)
  obtain rfl : bytes = [] := List.eq_nil_of_length_eq_zero length
  exact ⟨found, decoded, same⟩

theorem nodeMeta_decodes (limit : Nat) (room : metaMaxSize ≤ limit) (held : LocalTags proto) :
    ∃ bytes read found, nodeMeta limit held = some bytes ∧ bytes.length ≤ metaMaxSize ∧
      (Wire.tags proto).decodeOwned bytes = .ok (read, found) ∧ SameTags held.tags found := by
  have fits := held.fits
  rw [nodeMeta]
  split
  · rename_i empty
    obtain ⟨found, decoded, same⟩ := decodeOwned_nil frames laws
    rw [eq_empty empty]
    exact ⟨[], 0, found, rfl, Nat.zero_le _, decoded, same⟩
  · obtain ⟨bytes, found, encoded, length, same, decoded⟩ :=
      (tags_lawful frames laws).encodeToBytes held.tags trivial (fits.trans (by decide))
    rw [if_neg (by omega), encoded]
    exact ⟨bytes, bytes.length, found, rfl, length.trans_le fits, decoded, same⟩

end Laws

theorem admitTags_tags (configured : Tags) (start : LocalTags proto)
    (admitted : admitTags proto configured = .ok start) : start.tags = configured := by
  simp only [admitTags] at admitted
  split_ifs at admitted <;> cases admitted <;> rfl

theorem run_setTags (configured : Tags) (start : LocalTags proto) (own : start.tags = configured)
    (calls : List Tags) :
    (run setTags start calls).tags =
      (calls.filter fun tags => prefixedLen proto tags ≤ metaMaxSize).getLastD configured := by
  induction calls generalizing configured start with
  | nil => exact own
  | cons tags rest ih =>
    rw [run]
    by_cases large : metaMaxSize < prefixedLen proto tags
    · rw [List.filter_cons_of_neg (by simpa using large)]
      exact ih configured _ (by rw [setTags, dif_pos large]; exact own)
    · rw [List.filter_cons_of_pos (by simpa using large), List.getLastD_cons]
      exact ih tags _ (by rw [setTags, dif_neg large])

/-- Whatever tags a node was started with or has been given, its meta data can be made, and
a peer that is told of it by a join or an update then has the same tags. An update leaves
the status of the member. A node that `new_in` has let in has the tags of the last call
that was not refused, or those it was started with. -/
theorem tags_reach_peers [DecidableEq Id] (frames : FrameLaws proto) (laws : TagLaws proto)
    (env : Environment Id Address)
    (decodes : ∀ bytes read tags, (Wire.tags proto).decodeOwned bytes = .ok (read, tags) →
      env.decodeTags bytes = .ok tags)
    (start : LocalTags proto) (calls : List Tags) (limit : Nat) (room : metaMaxSize ≤ limit) :
    let held := run setTags start calls
    (∀ configured, admitTags proto configured = .ok start → held.tags =
      (calls.filter fun tags => prefixedLen proto tags ≤ metaMaxSize).getLastD configured) ∧
    ∃ bytes, nodeMeta limit held = some bytes ∧ bytes.length ≤ metaMaxSize ∧
      ∀ (node : Node Id Address) (members : Members Id Address),
        (∃ joined, (handleNodeJoin env ⟨node, bytes⟩ members).members.states.lookup node.id =
          some joined ∧ SameTags held.tags joined.member.tags) ∧
        ∀ member, members.states.lookup node.id = some member →
          ∃ updated, (handleNodeUpdate env ⟨node, bytes⟩ members).members.states.lookup node.id =
            some updated ∧ SameTags held.tags updated.member.tags ∧
            updated.member.status = member.member.status := by
  intro held
  refine ⟨fun configured admitted =>
    run_setTags configured start (admitTags_tags configured start admitted) calls, ?_⟩
  obtain ⟨bytes, read, found, made, short, decoded, same⟩ :=
    nodeMeta_decodes frames laws limit room held
  have known := decodes bytes read found decoded
  refine ⟨bytes, made, short, ?_⟩
  intro node members
  have joins : ∃ tags, MemberTable.joinTags env ⟨node, bytes⟩ = some tags ∧
      SameTags held.tags tags := by
    cases bytes with
    | nil =>
      obtain ⟨none, again, alike⟩ := decodeOwned_nil frames laws
      cases decoded.symm.trans again
      exact ⟨∅, rfl, fun key => (same key).trans (alike key).symm⟩
    | cons byte rest => exact ⟨found, by simp [MemberTable.joinTags, known, Except.toOption], same⟩
  obtain ⟨tags, joins, alike⟩ := joins
  constructor
  · cases before : members.states.lookup node.id with
    | none =>
      refine ⟨joinedNew env ⟨node, bytes⟩ tags members.recentIntents, ?_, alike⟩
      simp [handleNodeJoin, joins, before]
    | some member =>
      refine ⟨rejoined ⟨node, bytes⟩ tags member, ?_, alike⟩
      simp only [handleNodeJoin, joins, before]
      split <;> simp [forgetOld]
  · intro member before
    simp [handleNodeUpdate, known, before, same]

def referenceNode : Environment UInt8 UInt8 where
  localId := 1
  protocolVersion := .v1
  delegateVersion := .v1
  memberlistProtocolVersion := .v1
  memberlistDelegateVersion := .v1
  decodeTags bytes :=
    match (Wire.tags reference).decodeOwned bytes with
    | .ok (_, tags) => .ok tags
    | .error _ => .error .bufferUnderflow
  reconnectTimeout := none

def roleTags (role : String) : Tags := (∅ : Tags).insert "role" role

def oversized : Tags := roleTags (String.ofList (List.replicate 512 'x'))

theorem db_fits : (Wire.tags reference).encodedLen (roleTags "db") ≤ metaMaxSize := by decide

theorem tags_reach_peers_reference :
    ∃ start bytes, admitTags reference (roleTags "db") = .ok start ∧
      nodeMeta 512 (run setTags start [roleTags "web", oversized]) = some bytes ∧
      ∀ members : Members UInt8 UInt8,
        (∃ joined, (handleNodeJoin referenceNode ⟨⟨2, 7⟩, bytes⟩ members).members.states.lookup 2 =
          some joined ∧ joined.member.tags.lookup "role" = some "web") ∧
        ∀ member, members.states.lookup 2 = some member →
          ∃ updated, (handleNodeUpdate referenceNode ⟨⟨2, 7⟩, bytes⟩ members).members.states.lookup
            2 = some updated ∧ updated.member.tags.lookup "role" = some "web" ∧
            updated.member.status = member.member.status := by
  have admitted : admitTags reference (roleTags "db") = .ok ⟨roleTags "db", db_fits⟩ := rfl
  obtain ⟨current, bytes, made, _, peers⟩ := tags_reach_peers
    reference_laws.toGossipLaws.toFrameLaws reference_laws.toTagLaws referenceNode
    (fun bytes read tags decoded => by simp [referenceNode, decoded]) ⟨roleTags "db", db_fits⟩
    [roleTags "web", oversized] 512 le_rfl
  have short : prefixedLen reference (roleTags "web") ≤ metaMaxSize := by decide
  have large : ¬ prefixedLen reference oversized ≤ metaMaxSize := by decide +kernel
  have web := current (roleTags "db") admitted
  simp only [List.filter_cons, short, large, decide_true, decide_false, if_true,
    Bool.false_eq_true, if_false, List.filter_nil] at web
  refine ⟨_, bytes, admitted, made, fun members => ?_⟩
  obtain ⟨⟨joined, found, alike⟩, updates⟩ := peers ⟨2, 7⟩ members
  rw [web] at alike updates
  refine ⟨⟨joined, found, (alike "role").symm⟩, fun member known => ?_⟩
  obtain ⟨updated, there, same, status⟩ := updates member known
  exact ⟨updated, there, (same "role").symm, status⟩

end Serf.TagGossip
