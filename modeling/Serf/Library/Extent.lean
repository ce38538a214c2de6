import Serf.Library.Fields
import Serf.Library.LittleEndian

/-!
What the wire type of a tag says about the bytes behind it: one byte, a varint, a length
and as many bytes, or four or eight bytes. Content spans a wire type if it is all that
belongs to a field of this type, whatever stands behind it.
-/

namespace Serf.Library.Encoding

open Fields LittleEndian

def WireType.extent : WireType → Bytes → Option Nat
  | .byte, rest => if 1 ≤ rest.length then some 1 else none
  -- The longest varint has 14 bytes.
  | .varint, rest => (fromVarint 13 rest).map Prod.fst
  | .lengthDelimited, rest => (fromVarint 4 rest).bind fun (front, length) =>
    if length ≤ maxLen ∧ front + length ≤ rest.length then some (front + length) else none
  | .fixed32, rest => if 4 ≤ rest.length then some 4 else none
  | .fixed64, rest => if 8 ≤ rest.length then some 8 else none

def WireType.reach : WireType → Bytes → Option Nat
  | .byte, _ => some 1
  | .varint, rest => (fromVarint 13 rest).map Prod.fst
  | .lengthDelimited, rest => (fromVarint 4 rest).bind fun (front, length) =>
    if length ≤ maxLen then some (front + length) else none
  | .fixed32, _ => some 4
  | .fixed64, _ => some 8

variable {wire : WireType} {rest : Bytes}

theorem reach_of_extent {taken : Nat} (now : wire.extent rest = some taken) :
    wire.reach rest = some taken := by
  cases wire with
  | varint => exact now
  | lengthDelimited =>
    obtain ⟨⟨front, length⟩, found, inside⟩ := Option.bind_eq_some_iff.mp now
    obtain ⟨⟨small, _⟩, same⟩ := Option.ite_none_right_eq_some.mp inside
    rw [WireType.reach, found]
    exact (if_pos small).trans same
  | byte | fixed32 | fixed64 => exact (Option.ite_none_right_eq_some.mp now).2

def Spans (wire : WireType) (content : Bytes) : Prop := wire.extent content = some content.length

theorem width_append {width taken : Nat} (more : Bytes)
    (now : (if width ≤ rest.length then some width else none) = some taken) :
    (if width ≤ (rest ++ more).length then some width else none) = some taken := by
  obtain ⟨enough, same⟩ := Option.ite_none_right_eq_some.mp now
  rw [List.length_append, if_pos (le_trans enough (Nat.le_add_right ..))]
  exact same

theorem extent_append {taken : Nat} (more : Bytes) (now : wire.extent rest = some taken) :
    wire.extent (rest ++ more) = some taken := by
  cases wire with
  | byte => exact width_append more now
  | varint =>
    obtain ⟨⟨read, value⟩, found, rfl⟩ := Option.map_eq_some_iff.mp now
    rw [WireType.extent, fromVarint_append 13 0 rest more read value found]
    rfl
  | lengthDelimited =>
    obtain ⟨⟨front, length⟩, found, inside⟩ := Option.bind_eq_some_iff.mp now
    obtain ⟨⟨small, enough⟩, same⟩ := Option.ite_none_right_eq_some.mp inside
    have longer : front + length ≤ (rest ++ more).length := by
      rw [List.length_append]
      omega
    rw [WireType.extent, fromVarint_append 4 0 rest more front length found]
    exact (if_pos ⟨small, longer⟩).trans same
  | fixed32 => exact width_append more now
  | fixed64 => exact width_append more now

section Spans

variable {content : Bytes}

theorem spans_width_iff {width : Nat} :
    (if width ≤ content.length then some width else none) = some content.length ↔
      content.length = width := by
  constructor
  · intro now
    obtain ⟨_, same⟩ := Option.ite_none_right_eq_some.mp now
    exact (Option.some.inj same).symm
  · rintro rfl
    exact if_pos le_rfl

theorem spans_byte_iff : Spans .byte content ↔ content.length = 1 := spans_width_iff

theorem spans_fixed64_iff : Spans .fixed64 content ↔ content.length = 8 := spans_width_iff

theorem spans_lengthDelimited {front body : Bytes} (small : body.length ≤ maxLen)
    (read : fromVarint 4 front = some (front.length, body.length)) :
    Spans .lengthDelimited (front ++ body) := by
  have whole := fromVarint_append 4 0 front body front.length body.length read
  rw [Spans, WireType.extent, whole, List.length_append]
  exact if_pos ⟨small, le_rfl⟩

end Spans

section Skip

variable {Error : Type} {skip : Skip Error}

def Clamps (skip : Skip Error) : Prop :=
  ∀ wire number rest taken, number < 8 → wire.reach rest = some taken →
    skip (merge wire number :: rest) = .ok (1 + min taken rest.length)

def Extents (skip : Skip Error) : Prop :=
  ∀ wire number content more, number < 8 → Spans wire content →
    skip (merge wire number :: (content ++ more)) = .ok (1 + content.length)

theorem Clamps.extents (clamps : Clamps skip) : Extents skip := by
  intro wire number content more low spans
  rw [clamps wire number _ _ low (reach_of_extent (extent_append more spans)), List.length_append,
    Nat.min_eq_left (Nat.le_add_right ..)]

end Skip

def LengthVarint {Error : Type} (u32 : Codec (Fault Error) UInt32) : Prop :=
  ∀ length front, (Writer.ofCodec u32 length).Makes front →
    fromVarint 4 front = some (front.length, length.toNat)

end Serf.Library.Encoding
